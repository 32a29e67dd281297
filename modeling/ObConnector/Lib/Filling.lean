/-
# ObConnector.Lib.Filling -- filling a buffer from its start.

A writer that starts at the front of an allocated buffer and always stores right behind what it has
stored. Its state is what it has written; a store that does not fit is a fault (`put`). A sequence of
stores fits exactly when all of them together do (`putAll_eq`). Nothing here names the driver.
-/
import ObConnector.Lib.Buffer

namespace ObConnector.Lib

/-- Store `bs` behind what is there, in a buffer of `size` bytes. -/
def put (size : Nat) (out bs : List UInt8) : Except Fault (List UInt8) :=
  if out.length + bs.length ≤ size then .ok (out ++ bs) else .error .writeOutside

/-- One store after the other. -/
def putAll (size : Nat) : List UInt8 → List (List UInt8) → Except Fault (List UInt8)
  | out, [] => .ok out
  | out, part :: parts => do
    let out ← put size out part
    putAll size out parts

/-- **The stores fit exactly when their total does.** -/
theorem putAll_eq {size : Nat} {out : List UInt8} (h : out.length ≤ size) (parts : List (List UInt8)) :
    putAll size out parts =
      if out.length + parts.flatten.length ≤ size then .ok (out ++ parts.flatten) else .error .writeOutside := by
  induction parts generalizing out with
  | nil => simp [putAll, h]
  | cons part parts ih =>
    rw [putAll, put, List.flatten_cons, List.length_append]
    by_cases hpart : out.length + part.length ≤ size
    · have hlen : (out ++ part).length ≤ size := by
        rw [List.length_append]
        exact hpart
      rw [if_pos hpart, ok_bind, ih hlen, List.length_append, List.append_assoc, add_assoc]
    · rw [if_neg hpart, error_bind, if_neg (by omega)]

theorem putAll_isOk_iff {size : Nat} (parts : List (List UInt8)) :
    (∃ out, putAll size [] parts = .ok out) ↔ parts.flatten.length ≤ size := by
  rw [putAll_eq (Nat.zero_le size)]
  simp only [List.length_nil, Nat.zero_add]
  split
  · rename_i h
    exact ⟨fun _ => h, fun _ => ⟨_, rfl⟩⟩
  rename_i h
  exact ⟨fun ⟨_, hout⟩ => (by cases hout), fun h' => absurd h' h⟩

end ObConnector.Lib
