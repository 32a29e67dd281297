/-
# ObConnector.Lib.LenEnc -- length-encoded integers.

A number below 251 is one byte; larger ones have a byte that says how many bytes follow, 252 for two,
253 for three and 254 for eight. `storeLength` writes a number in this form and `storeLengthSize` is how
many bytes that takes.

`readLength` reads one at a position of a packet. Of the eight bytes behind 254 it takes four, and a 251
stands for no value at all. Any of the forms of a number is read back (`readLength_at`), also one that is
longer than it has to be. Nothing here names the driver.
-/
import ObConnector.Lib.Buffer

namespace ObConnector.Lib

open List

/-- A number in its length-encoded form. -/
def storeLength (n : Nat) : List UInt8 :=
  if n < 251 then [UInt8.ofNat n]
  else if n < 65536 then 252 :: leBytes 2 n
  else if n < 16777216 then 253 :: leBytes 3 n
  else 254 :: leBytes 8 n

/-- How many bytes that form takes. -/
def storeLengthSize (n : Nat) : Nat :=
  if n < 251 then 1 else if n < 65536 then 3 else if n < 16777216 then 4 else 9

@[simp] theorem length_storeLength (n : Nat) : (storeLength n).length = storeLengthSize n := by
  unfold storeLength storeLengthSize
  split
  · rfl
  split
  · rfl
  · split <;> rfl

/-! ## Reading -/

/-- What a 251 reads as. -/
def nullLength : Nat := 2 ^ 64 - 1

/-- Load a number of `k` bytes. -/
def loadNat (pkt : List UInt8) (pos k : Nat) : Except Fault Nat := do
  let bs ← readAt pkt pos k
  return leNat bs

/-- Read a length-encoded number, whose long form has `wide` bytes, and move on behind it. -/
def readLengthWide (wide : Nat) (pkt : List UInt8) (pos : Nat) : Except Fault (Nat × Nat) := do
  let b ← loadNat pkt pos 1
  if b < 251 then return (b, pos + 1)
  else if b = 251 then return (nullLength, pos + 1)
  else if b = 252 then return (← loadNat pkt (pos + 1) 2, pos + 3)
  else if b = 253 then return (← loadNat pkt (pos + 1) 3, pos + 4)
  else return (← loadNat pkt (pos + 1) wide, pos + 9)

/-- `net_field_length`. -/
def readLength (pkt : List UInt8) (pos : Nat) : Except Fault (Nat × Nat) := readLengthWide 4 pkt pos

/-- `net_field_length_ll`. -/
def readLengthLL (pkt : List UInt8) (pos : Nat) : Except Fault (Nat × Nat) := readLengthWide 8 pkt pos

/-- The forms of a number below `limit`. -/
inductive LenEnc (limit : Nat) : Nat → List UInt8 → Prop
  | one (b : UInt8) (h : b.toNat < 251) : LenEnc limit b.toNat [b]
  | two (bs : List UInt8) (h : bs.length = 2) : LenEnc limit (leNat bs) (252 :: bs)
  | three (bs : List UInt8) (h : bs.length = 3) : LenEnc limit (leNat bs) (253 :: bs)
  | eight (bs : List UInt8) (h : bs.length = 8) (hlt : leNat bs < limit) : LenEnc limit (leNat bs) (254 :: bs)

variable {bs : List UInt8}

theorem loadNat_at {pre post : List UInt8} {k : Nat} (hk : bs.length = k) :
    loadNat (pre ++ (bs ++ post)) pre.length k = .ok (leNat bs) := by
  have hin : (pre.length : Int) + k ≤ (pre ++ (bs ++ post)).length := by
    simp only [length_append]
    omega
  rw [loadNat, readAt_inside (by omega) hin, sliceAt_append rfl hk.symm]
  rfl

theorem loadNat_head {pre post : List UInt8} (b : UInt8) :
    loadNat (pre ++ b :: post) pre.length 1 = .ok b.toNat := by
  have h : loadNat (pre ++ ([b] ++ post)) pre.length 1 = .ok (leNat [b]) := loadNat_at rfl
  simpa using h

/-- **Every form of a number is read back.** -/
theorem readLengthWide_at {wide n : Nat} (hwide : wide ≤ 8) {pre post : List UInt8} (h : LenEnc (256 ^ wide) n bs) :
    readLengthWide wide (pre ++ (bs ++ post)) pre.length = .ok (n, pre.length + bs.length) := by
  -- what stands behind the first byte starts one position further
  have hnext : ∀ (b : UInt8) tail {k : Nat}, k ≤ tail.length →
      loadNat (pre ++ (b :: tail ++ post)) (pre.length + 1) k = .ok (leNat (tail.take k)) := by
    intro b tail k hk
    have heq : pre ++ (b :: tail ++ post) = (pre ++ [b]) ++ (tail.take k ++ (tail.drop k ++ post)) := by
      rw [← append_assoc (tail.take k)]
      simp
    have hlen : pre.length + 1 = (pre ++ [b]).length := by simp
    rw [heq, hlen]
    exact loadNat_at (length_take_of_le hk)
  cases h with
  | one b hb =>
    rw [readLengthWide, singleton_append, loadNat_head, ok_bind, if_pos hb]
    rfl
  | two bs hbs =>
    rw [readLengthWide, cons_append, loadNat_head]
    rw [show (252 : UInt8).toNat = 252 from rfl,
      ← cons_append, hnext 252 bs (le_of_eq hbs.symm), take_of_length_le (le_of_eq hbs)]
    simp [hbs]
  | three bs hbs =>
    rw [readLengthWide, cons_append, loadNat_head]
    rw [← cons_append, hnext 253 bs (le_of_eq hbs.symm), take_of_length_le (le_of_eq hbs)]
    simp [hbs]
  | eight bs hbs hlt =>
    rw [readLengthWide, cons_append, loadNat_head, ok_bind]
    rw [if_neg (by decide), if_neg (by decide), if_neg (by decide),
      if_neg (by decide), ← cons_append, hnext 254 bs (by omega)]
    -- the bytes that are not read are zero
    have hsplit : leNat bs = leNat (bs.take wide) + 256 ^ wide * leNat (bs.drop wide) := by
      have h := leNat_append (bs.take wide) (bs.drop wide)
      rwa [take_append_drop, length_take_of_le (by omega)] at h
    have hzero : leNat (bs.drop wide) = 0 := by
      rcases Nat.eq_zero_or_pos (leNat (bs.drop wide)) with h0 | hpos
      · exact h0
      have hle : 256 ^ wide * 1 ≤ 256 ^ wide * leNat (bs.drop wide) := Nat.mul_le_mul_left _ hpos
      omega
    rw [hsplit, hzero]
    simp [hbs]

/-- At position `pos` of the packet stands `rest`, up to its end. -/
def At (pkt : List UInt8) (pos : Nat) (rest : List UInt8) : Prop := ∃ pre, pkt = pre ++ rest ∧ pos = pre.length

namespace At

variable {pkt bs rest : List UInt8} {pos n : Nat}

theorem length (h : At pkt pos rest) : pkt.length = pos + rest.length := by
  obtain ⟨pre, rfl, rfl⟩ := h
  rw [length_append]

/-- What is behind the first part. -/
theorem skip (h : At pkt pos (bs ++ rest)) : At pkt (pos + bs.length) rest := by
  obtain ⟨pre, rfl, rfl⟩ := h
  exact ⟨pre ++ bs, by simp, by simp⟩

theorem loadNat (h : At pkt pos (bs ++ rest)) {k : Nat} (hk : bs.length = k) :
    Lib.loadNat pkt pos k = .ok (leNat bs) := by
  obtain ⟨pre, rfl, rfl⟩ := h
  exact loadNat_at hk

theorem readLength (h : At pkt pos (bs ++ rest)) (hn : LenEnc (256 ^ 4) n bs) :
    Lib.readLength pkt pos = .ok (n, pos + bs.length) := by
  obtain ⟨pre, rfl, rfl⟩ := h
  exact readLengthWide_at (by decide) hn

theorem readLengthLL (h : At pkt pos (bs ++ rest)) (hn : LenEnc (256 ^ 8) n bs) :
    Lib.readLengthLL pkt pos = .ok (n, pos + bs.length) := by
  obtain ⟨pre, rfl, rfl⟩ := h
  exact readLengthWide_at (by decide) hn

theorem readAt (h : At pkt pos (bs ++ rest)) : Lib.readAt pkt pos bs.length = .ok bs := by
  obtain ⟨pre, rfl, rfl⟩ := h
  have hin : (pre.length : Int) + bs.length ≤ (pre ++ (bs ++ rest)).length := by
    simp only [length_append]
    omega
  rw [readAt_inside (by omega) hin, sliceAt_append rfl rfl]

end At

theorem LenEnc.length_pos {limit n : Nat} (h : LenEnc limit n bs) : 0 < bs.length := by
  cases h <;> exact Nat.succ_pos _

/-- A form of a number that `net_field_length` reads is not the one for no value. -/
theorem LenEnc.ne_nullLength {n : Nat} (h : LenEnc (256 ^ 4) n bs) : n ≠ nullLength := by
  unfold nullLength
  cases h with
  | one b hb => omega
  | two bs hbs =>
    have hlt := leNat_lt bs
    rw [hbs] at hlt
    omega
  | three bs hbs =>
    have hlt := leNat_lt bs
    rw [hbs] at hlt
    omega
  | eight bs hbs hlt => omega

/-- A number in its shortest form is one of its forms. -/
theorem lenEnc_storeLength {limit n : Nat} (hn : n < limit) (h64 : n < 256 ^ 8) : LenEnc limit n (storeLength n) := by
  unfold storeLength
  split
  · have hb : (UInt8.ofNat n).toNat = n := by simp; omega
    have hone : LenEnc limit (UInt8.ofNat n).toNat [UInt8.ofNat n] := .one _ (by omega)
    rwa [hb] at hone
  split
  · rename_i h
    have htwo : LenEnc limit (leNat (leBytes 2 n)) (252 :: leBytes 2 n) := .two _ (length_leBytes 2 n)
    rwa [leNat_leBytes_of_lt h] at htwo
  split
  · rename_i h
    have hthree : LenEnc limit (leNat (leBytes 3 n)) (253 :: leBytes 3 n) := .three _ (length_leBytes 3 n)
    rwa [leNat_leBytes_of_lt h] at hthree
  have hread := leNat_leBytes_of_lt h64
  have height : LenEnc limit (leNat (leBytes 8 n)) (254 :: leBytes 8 n) :=
    .eight _ (length_leBytes 8 n) (by omega)
  rwa [hread] at height

end ObConnector.Lib
