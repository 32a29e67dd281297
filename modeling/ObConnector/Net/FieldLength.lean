/-
# ObConnector.Net.FieldLength -- the four functions for length-encoded integers.

The driver writes a length with `mysql_net_store_length`, sizes one with `mysql_store_length_size` or
with `get_store_length`, and reads one with `net_field_length` or `net_field_length_ll`. They are spread
over two files, and the sizes and the readers repeat the case distinction of the writer.

They agree on every length below `2 ^ 32`. From there on `net_field_length` steps over the eight bytes
of the long form and takes the low four of them, although it returns a `ulong`.
-/
import ObConnector.Lib.LenEnc

namespace ObConnector.Net

open Lib List

/-! ## the functions -/

/-- `mysql_net_store_length`: store a length at `packet`, and the position behind it. -/
def mysqlNetStoreLength (buffer : List UInt8) (packet length : Nat) : Except Fault (List UInt8 × Nat) := do
  if length < 251 then
    let buffer ← writeAt buffer packet [UInt8.ofNat length]
    return (buffer, packet + 1)
  else if length < 65536 then
    let buffer ← writeAt buffer packet [252]
    let buffer ← writeAt buffer (packet + 1) (leBytes 2 length)
    return (buffer, packet + 1 + 2)
  else if length < 16777216 then
    let buffer ← writeAt buffer packet [253]
    let buffer ← writeAt buffer (packet + 1) (leBytes 3 length)
    return (buffer, packet + 1 + 3)
  else
    let buffer ← writeAt buffer packet [254]
    let buffer ← writeAt buffer (packet + 1) (leBytes 8 length)
    return (buffer, packet + 1 + 8)

/-- `mysql_store_length_size`. -/
def mysqlStoreLengthSize (num : Nat) : Nat := storeLengthSize num

/-- `MAX_STORE_SIZE`. -/
def maxStoreSize : Nat := 9

/-- `get_store_length`: store the length in a buffer of its own and see where that ends. -/
def getStoreLength (length : Nat) : Except Fault Nat := do
  let (_, p) ← mysqlNetStoreLength (List.replicate maxStoreSize 0) 0 length
  return p

/-- `net_field_length`, whose long form is read with `uint4korr`. -/
def netFieldLength (buffer : List UInt8) (packet : Nat) : Except Fault (Nat × Nat) := readLength buffer packet

/-- `net_field_length_ll`, whose long form is read with `uint8korr`. -/
def netFieldLengthLl (buffer : List UInt8) (packet : Nat) : Except Fault (Nat × Nat) := readLengthLL buffer packet

/-! ## what is stored -/

/-- The two stores of a longer form are one. -/
theorem store_marked {pre gap post : List UInt8} (b : UInt8) (bs : List UInt8) (h : gap.length = 1 + bs.length) :
    (writeAt (pre ++ (gap ++ post)) pre.length [b] >>= fun buffer => writeAt buffer (pre.length + 1) bs) =
      .ok (pre ++ (b :: bs ++ post)) := by
  have hlen : gap.length = ([b] ++ bs).length := by simpa [add_comm] using h
  exact (writeAt_behind [b] bs (by simp only [length_append] at hlen ⊢; omega)).symm.trans (writeAt_over rfl hlen)

/-- **The store writes the length-encoded form and nothing else.** -/
theorem mysqlNetStoreLength_eq {pre gap post : List UInt8} {length : Nat}
    (h : gap.length = mysqlStoreLengthSize length) :
    mysqlNetStoreLength (pre ++ (gap ++ post)) pre.length length =
      .ok (pre ++ (storeLength length ++ post), pre.length + mysqlStoreLengthSize length) := by
  unfold mysqlStoreLengthSize storeLengthSize at h ⊢
  unfold mysqlNetStoreLength storeLength
  by_cases h1 : length < 251
  · rw [if_pos h1] at h
    rw [if_pos h1, if_pos h1, if_pos h1, writeAt_over rfl h]
    rfl
  rw [if_neg h1] at h
  rw [if_neg h1, if_neg h1, if_neg h1]
  by_cases h2 : length < 65536
  · rw [if_pos h2] at h
    rw [if_pos h2, if_pos h2, if_pos h2, ← bind_assoc, store_marked 252 (leBytes 2 length) h]
    rfl
  rw [if_neg h2] at h
  rw [if_neg h2, if_neg h2, if_neg h2]
  by_cases h3 : length < 16777216
  · rw [if_pos h3] at h
    rw [if_pos h3, if_pos h3, if_pos h3, ← bind_assoc, store_marked 253 (leBytes 3 length) h]
    rfl
  rw [if_neg h3] at h
  rw [if_neg h3, if_neg h3, if_neg h3, ← bind_assoc, store_marked 254 (leBytes 8 length) h]
  rfl

theorem mysqlStoreLengthSize_le (length : Nat) : mysqlStoreLengthSize length ≤ maxStoreSize := by
  unfold mysqlStoreLengthSize storeLengthSize maxStoreSize
  split
  · omega
  split
  · omega
  · split <;> omega

theorem getStoreLength_eq (length : Nat) : getStoreLength length = .ok (mysqlStoreLengthSize length) := by
  have hle := mysqlStoreLengthSize_le length
  have hroom : List.replicate maxStoreSize (0 : UInt8) = [] ++ (List.replicate (mysqlStoreLengthSize length) 0 ++
      List.replicate (maxStoreSize - mysqlStoreLengthSize length) 0) := by
    rw [nil_append, replicate_append_replicate, Nat.add_sub_cancel' hle]
  have hstore := @mysqlNetStoreLength_eq [] _ (List.replicate (maxStoreSize - mysqlStoreLengthSize length) 0)
    length (length_replicate (a := 0))
  rw [getStoreLength, hroom]
  rw [length_nil] at hstore
  rw [hstore, zero_add]
  rfl

/-! ## the sides agree -/

/-- All sides agree on `length`: the bytes that are stored are as many as both sizes say, in whatever
room of that size, and both readers give the length back and stop behind it. -/
structure Agreed (length : Nat) : Prop where
  stored : ∀ pre gap post : List UInt8, gap.length = mysqlStoreLengthSize length →
    ∃ bytes, bytes.length = mysqlStoreLengthSize length ∧
      mysqlNetStoreLength (pre ++ (gap ++ post)) pre.length length =
        .ok (pre ++ (bytes ++ post), pre.length + bytes.length)
  sized : getStoreLength length = .ok (mysqlStoreLengthSize length)
  readLl : ∀ pre gap post packet stop, gap.length = mysqlStoreLengthSize length →
    mysqlNetStoreLength (pre ++ (gap ++ post)) pre.length length = .ok (packet, stop) →
    netFieldLengthLl packet pre.length = .ok (length, stop)
  read : ∀ pre gap post packet stop, gap.length = mysqlStoreLengthSize length →
    mysqlNetStoreLength (pre ++ (gap ++ post)) pre.length length = .ok (packet, stop) →
    netFieldLength packet pre.length = .ok (length, stop)

theorem readWide_stored {wide length : Nat} (hwide : wide ≤ 8) (hlen : length < 256 ^ wide) (h64 : length < 256 ^ 8)
    {pre gap post packet : List UInt8} {stop : Nat} (hgap : gap.length = mysqlStoreLengthSize length)
    (hstore : mysqlNetStoreLength (pre ++ (gap ++ post)) pre.length length = .ok (packet, stop)) :
    readLengthWide wide packet pre.length = .ok (length, stop) := by
  rw [mysqlNetStoreLength_eq hgap] at hstore
  obtain ⟨rfl, rfl⟩ := hstore
  rw [readLengthWide_at hwide (lenEnc_storeLength hlen h64), length_storeLength]
  rfl

/-- What four bytes give is below `2 ^ 32`. -/
theorem netFieldLength_lt {packet : List UInt8} {pos length stop : Nat} (hnull : length ≠ nullLength)
    (h : netFieldLength packet pos = .ok (length, stop)) : length < 2 ^ 32 := by
  have hload : ∀ {p k n : Nat}, k ≤ 4 → loadNat packet p k = .ok n → n < 2 ^ 32 := by
    intro p k n hk hn
    obtain ⟨bs, hbs, hn⟩ := bind_eq_ok.mp hn
    cases hn
    have hlen : bs.length ≤ k := by
      rw [readAt_eq_ok_iff] at hbs
      rw [← hbs.2]
      exact length_take_le _ _
    calc leNat bs < 256 ^ bs.length := leNat_lt bs
      _ ≤ 256 ^ 4 := Nat.pow_le_pow_right (by decide) (by omega)
      _ = 2 ^ 32 := by decide
  obtain ⟨b, hb, h⟩ := bind_eq_ok.mp h
  split at h
  · cases h
    exact hload (by decide) hb
  split at h
  · cases h
    exact absurd rfl hnull
  -- every other form ends with a load of two, three or four bytes
  split at h
  · obtain ⟨n, hn, h⟩ := bind_eq_ok.mp h
    cases h
    exact hload (by decide) hn
  split at h
  · obtain ⟨n, hn, h⟩ := bind_eq_ok.mp h
    cases h
    exact hload (by decide) hn
  obtain ⟨n, hn, h⟩ := bind_eq_ok.mp h
  cases h
  exact hload (by decide) hn

/-- **All sides agree on the lengths below `2 ^ 32` and on no others.** -/
theorem lengths_agree_iff (length : Nat) (h64 : length < 2 ^ 64) : Agreed length ↔ length < 2 ^ 32 := by
  have h8 : length < 256 ^ 8 := h64
  constructor
  · intro h
    have hgap : (List.replicate (mysqlStoreLengthSize length) (0 : UInt8)).length = mysqlStoreLengthSize length :=
      length_replicate
    have hread := h.read [] _ [] _ _ hgap (mysqlNetStoreLength_eq hgap)
    by_contra hlarge
    -- the one length that four bytes cannot hold and that 251 stands for is the largest
    by_cases hnull : length = nullLength
    · subst hnull
      exact absurd hread (by decide +kernel)
    · exact hlarge (netFieldLength_lt hnull hread)
  · intro h32
    refine ⟨?_, getStoreLength_eq length, ?_, ?_⟩
    · intro pre gap post hgap
      exact ⟨storeLength length, length_storeLength length, by rw [mysqlNetStoreLength_eq hgap, length_storeLength]; rfl⟩
    · intro pre gap post packet stop hgap hstore
      exact readWide_stored (by decide) h8 h8 hgap hstore
    · intro pre gap post packet stop hgap hstore
      exact readWide_stored (by decide) h32 h8 hgap hstore

/-- A length of one byte, and one of the longest form that is still read whole. -/
theorem lengths_agree_small : Agreed 250 ∧ Agreed (2 ^ 32 - 1) :=
  ⟨(lengths_agree_iff 250 (by decide)).mpr (by decide), (lengths_agree_iff (2 ^ 32 - 1) (by decide)).mpr (by decide)⟩

/-- `2 ^ 32` is stored in nine bytes, which `net_field_length` reads as zero. -/
theorem length_two_pow_32_read_as_zero :
    mysqlNetStoreLength (List.replicate 9 0) 0 (2 ^ 32) = .ok ([254, 0, 0, 0, 0, 1, 0, 0, 0], 9) ∧
      netFieldLength [254, 0, 0, 0, 0, 1, 0, 0, 0] 0 = .ok (0, 9) ∧
      netFieldLengthLl [254, 0, 0, 0, 0, 1, 0, 0, 0] 0 = .ok (2 ^ 32, 9) := by
  refine ⟨?_, ?_, ?_⟩ <;> decide +kernel

end ObConnector.Net
