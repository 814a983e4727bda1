import Gwdonu.CliPoolCalls
import Gwdonu.CliPoolRuns
import Gwdonu.CliPool
import Gwdonu.Lib.Forest
import Gwdonu.Lib.Runs
import Gwdonu.Lib.Assembly
import Gwdonu.Lib.Linked
import Gwdonu.Lib.Fifos
import Gwdonu.Lib.Chain
import Gwdonu.Lib.Ring
import Gwdonu.Lib.Cursor
import Gwdonu.Lib.Halting
import Gwdonu.PriQueue
import Gwdonu.UtilList
import Gwdonu.OamFrame
import Gwdonu.OamReceive
import Gwdonu.OamList
import Gwdonu.OamHandle
import Gwdonu.OamBounds
import Gwdonu.OamResults
import Gwdonu.OamTimers
import Gwdonu.OamAssembly
import Gwdonu.OamStreams
import Gwdonu.OamSessions
import Gwdonu.OamSend
import Gwdonu.OamRoundTrip
import Gwdonu.OamSends
import Gwdonu.OamConsole
import Gwdonu.OamDisposal
import Gwdonu.OamRequest
import Gwdonu.OamRequestBounds
import Gwdonu.Timer
import Gwdonu.TimerSchedule
import Gwdonu.TimerFrame
import Gwdonu.TimerRefinement
import Gwdonu.TimerRuns
import Gwdonu.TimerStops
import Gwdonu.TimerExpiry
import Gwdonu.TimerClock
import Gwdonu.TimerOrder
import Gwdonu.OsCore
import Gwdonu.OsQueue
import Gwdonu.OsOwnership
import Gwdonu.UtilListConcat
import Gwdonu.UtilListNth
import Gwdonu.ConfFile
import Gwdonu.ConfRoundTrip
import Gwdonu.ConfWalk
import Gwdonu.ConfGrammar
import Gwdonu.ConfSave
import Gwdonu.CliAbbreviations
import Gwdonu.Qos
import Gwdonu.QosKeys
import Gwdonu.OamPty
import Gwdonu.OamPtyClose
import Gwdonu.OamCliOut
import Gwdonu.LoopDetect
import Gwdonu.LoopDetectPolicy
import Gwdonu.LoopDetectNodes
import Gwdonu.LoopDetectWakeup
import Gwdonu.LoopDetectBound
import Gwdonu.LoopDetectList
import Gwdonu.LoopDetectControl
import Gwdonu.LoopDetectBooks
import Gwdonu.LoopDetectPorts
import Gwdonu.BroadStorm
import Gwdonu.BroadRate
import Gwdonu.GwLog
import Gwdonu.PtyDevices
import Gwdonu.PtyDeviceCalls
import Gwdonu.LocateUser
import Gwdonu.Rcp
import Gwdonu.RcpChannel
import Gwdonu.RcpFrames
import Gwdonu.RcpReplies
import Gwdonu.RcpReads
import Gwdonu.SwitchAlarms
import Gwdonu.RcpRegisters
import Gwdonu.RegisterFields
import Gwdonu.Vlans
import Gwdonu.EepromMirror
import Gwdonu.SwitchConfig
import Gwdonu.SwitchConfigBounds
import Gwdonu.SwitchConfigEdits
import Gwdonu.SwitchMonitor
import Gwdonu.SwitchRounds
import Gwdonu.SwitchAuth
import Gwdonu.FalseOutages
import Gwdonu.VlanCommands
import Gwdonu.VlanTable
import Gwdonu.VlanIsolation
import Gwdonu.Poe
import Gwdonu.PoeConfig
import Gwdonu.PktMain
import Gwdonu.PktDispatch
import Gwdonu.FrameReads
import Gwdonu.OsTables
import Gwdonu.VlanHomes
import Gwdonu.VlanCoherence
import Gwdonu.UserMacs
import Gwdonu.TimeSync
import Gwdonu.SwitchRecords
import Gwdonu.VlanPvid
import Gwdonu.SwitchConfigReads
import Gwdonu.EepromReplies
import Gwdonu.Lib.Traces
import Gwdonu.PhyAccess
import Gwdonu.Lib.Outcomes
import Gwdonu.VlanEnableSave
import Gwdonu.Lib.Words
import Gwdonu.VlanSave
import Gwdonu.SwitchOutages
import Gwdonu.SnmpPorts
import Gwdonu.SwitchIndex
import Gwdonu.SemaphoreWait
import Gwdonu.ClockSum
import Gwdonu.MacText
import Gwdonu.Lib.Scanner
import Gwdonu.PortSlots
import Gwdonu.Lib.Mentions
import Gwdonu.Lib.Deadlines
import Gwdonu.Lib.Cells
import Gwdonu.Lib.Padded
import Gwdonu.Lib.Lines
import Gwdonu.PortLists
import Gwdonu.RcpReceive
import Gwdonu.TagTransparency
import Gwdonu.CliCompletions
import Gwdonu.CliPrint
import Gwdonu.CliChunks
import Gwdonu.LineEditor
import Gwdonu.LineEditorKeys
import Gwdonu.LineEditorRuns
import Gwdonu.LineEditorLimits
import Gwdonu.ShellLogin
import Gwdonu.LoopProbe
import Gwdonu.RcpPipeline
import Gwdonu.SwitchSettings
import Gwdonu.SwitchCommands
import Gwdonu.SwitchLoops
import Gwdonu.Lib.Edits
import Gwdonu.MirrorCommands
import Gwdonu.Lib.Prefixed
import Gwdonu.Lib.Slots
import Gwdonu.SystemInfo
