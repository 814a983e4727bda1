-- Texts behind their lengths: each is a byte that says how long it is, and then as many bytes.
import Mathlib.Data.List.Basic
import Mathlib.Tactic.Common

namespace prefixed

def text (l : List UInt8) : List UInt8 := .ofNat l.length :: l

/-- What the first byte says, and what is left. -/
def read : List UInt8 → Option (List UInt8 × List UInt8)
  | [] => none
  | n :: rest => if n.toNat ≤ rest.length then some (rest.take n.toNat, rest.drop n.toNat) else none

/-- So many texts, one behind the other. -/
def reads : Nat → List UInt8 → Option (List (List UInt8) × List UInt8)
  | 0, rest => some ([], rest)
  | n + 1, bytes =>
    (read bytes).bind fun (l, rest) => (reads n rest).map fun (ls, rest) => (l :: ls, rest)

theorem read_text {l : List UInt8} (hl : l.length < 256) (rest : List UInt8) :
    read (text l ++ rest) = some (l, rest) := by
  have hlen : (UInt8.ofNat l.length).toNat = l.length := Nat.mod_eq_of_lt hl
  rw [text, List.cons_append, read, hlen, if_pos (by rw [List.length_append]; omega), List.take_left, List.drop_left]

theorem reads_texts {ls : List (List UInt8)} (hls : ∀ l ∈ ls, l.length < 256) (rest : List UInt8) :
    reads ls.length (ls.flatMap text ++ rest) = some (ls, rest) := by
  induction ls with
  | nil => rfl
  | cons l ls ih =>
    obtain ⟨hl, hls⟩ := List.forall_mem_cons.mp hls
    rw [List.flatMap_cons, List.append_assoc, List.length_cons, reads, read_text hl, Option.bind_some]
    dsimp only
    rw [ih hls]
    rfl

end prefixed
