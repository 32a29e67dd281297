/-
# ObConnector.Lib.VarInt -- numbers in groups of seven bits.

A number is written as its base-128 digits, the lowest first, with the top bit set on every byte but
the last (`encode`). The bytes at the start of an input that carry that bit are its `lead`; the
number ends with the byte behind them, if there is one. `EndsWithin k` says that there is one among
the first `k` bytes, and `numberAt` is then the number. Encoding is read back whatever follows
(`lead_encode`, `numberAt_encode`), and its length is decided by powers of 128
(`length_encode_le`).
-/
import Mathlib.Data.List.TakeWhile
import Mathlib.Tactic.Ring

namespace ObConnector.Lib.VarInt

open List

/-- The byte carries the bit that says another one follows. -/
def continues (b : UInt8) : Bool := 128 ≤ b.toNat

/-- The bytes of a number. -/
def encode (n : Nat) : List UInt8 :=
  if n < 128 then [UInt8.ofNat n] else UInt8.ofNat (n % 128 + 128) :: encode (n / 128)
termination_by n
decreasing_by omega

/-- The number of a sequence of digits. -/
def value : List UInt8 → Nat
  | [] => 0
  | b :: bs => b.toNat % 128 + 128 * value bs

/-- The bytes in front of the one that ends the number at the start of `bs`. -/
def lead (bs : List UInt8) : List UInt8 := bs.takeWhile continues

/-- The number at the start of `bs` ends among the first `k` bytes. -/
def EndsWithin (k : Nat) (bs : List UInt8) : Prop := (lead bs).length < k ∧ (lead bs).length < bs.length

instance (k : Nat) (bs : List UInt8) : Decidable (EndsWithin k bs) := by unfold EndsWithin; infer_instance

/-- The number at the start of `bs`. -/
def numberAt (bs : List UInt8) : Nat := value (bs.take ((lead bs).length + 1))

/-! ## Digits -/

@[simp] theorem lead_nil : lead [] = [] := rfl

theorem lead_cons_continues {b : UInt8} (h : continues b = true) (bs : List UInt8) :
    lead (b :: bs) = b :: lead bs := by
  rw [lead, takeWhile_cons, if_pos h, lead]

theorem lead_cons_ends {b : UInt8} (h : continues b = false) (bs : List UInt8) : lead (b :: bs) = [] := by
  rw [lead, takeWhile_cons, if_neg (by simp [h])]

theorem numberAt_cons_continues {b : UInt8} (h : continues b = true) (bs : List UInt8) :
    numberAt (b :: bs) = b.toNat % 128 + 128 * numberAt bs := by
  rw [numberAt, lead_cons_continues h, length_cons, take_succ_cons, value, numberAt]

theorem numberAt_cons_ends {b : UInt8} (h : continues b = false) (bs : List UInt8) :
    numberAt (b :: bs) = b.toNat % 128 := by
  rw [numberAt, lead_cons_ends h]
  simp [value]

/-! ## Encoding -/

theorem encode_small {n : Nat} (h : n < 128) : encode n = [UInt8.ofNat n] := by
  rw [encode, if_pos h]

theorem encode_large {n : Nat} (h : 128 ≤ n) : encode n = UInt8.ofNat (n % 128 + 128) :: encode (n / 128) := by
  rw [encode, if_neg (by omega)]

theorem toNat_digit {n : Nat} (h : n < 256) : (UInt8.ofNat n).toNat = n := by
  rw [UInt8.toNat_ofNat', Nat.mod_eq_of_lt (by omega)]

theorem continues_digit (n : Nat) : continues (UInt8.ofNat (n % 128 + 128)) = true := by
  rw [continues, toNat_digit (by omega)]
  simp

theorem ends_digit {n : Nat} (h : n < 128) : continues (UInt8.ofNat n) = false := by
  rw [continues]
  simp
  omega

theorem length_encode_pos (n : Nat) : 1 ≤ (encode n).length := by
  rw [encode]
  split <;> simp

/-- **The length of an encoding is decided by powers of 128.** -/
theorem length_encode_le {n k : Nat} (hk : 1 ≤ k) : (encode n).length ≤ k ↔ n < 128 ^ k := by
  induction k generalizing n with
  | zero => omega
  | succ k ih =>
    by_cases hn : n < 128
    · have hpow : 128 ^ 1 ≤ 128 ^ (k + 1) := Nat.pow_le_pow_right (by decide) (by omega)
      rw [encode_small hn]
      simp only [length_singleton]
      omega
    rw [encode_large (by omega), length_cons]
    cases k with
    | zero =>
      have := length_encode_pos (n / 128)
      omega
    | succ k =>
      have hih := @ih (n / 128) (by omega)
      omega

/-- What follows an encoding does not move its end. -/
theorem lead_encode (n : Nat) (rest : List UInt8) : (lead (encode n ++ rest)).length + 1 = (encode n).length := by
  induction n using Nat.strongRecOn with
  | ind n ih =>
    by_cases hn : n < 128
    · rw [encode_small hn, singleton_append, lead_cons_ends (ends_digit hn)]
      rfl
    rw [encode_large (by omega), cons_append, lead_cons_continues (continues_digit n), length_cons,
      length_cons, ih (n / 128) (by omega)]

/-- **An encoding is read back**, whatever follows it. -/
theorem numberAt_encode (n : Nat) (rest : List UInt8) : numberAt (encode n ++ rest) = n := by
  induction n using Nat.strongRecOn with
  | ind n ih =>
    by_cases hn : n < 128
    · rw [encode_small hn, singleton_append, numberAt_cons_ends (ends_digit hn), toNat_digit (by omega)]
      omega
    rw [encode_large (by omega), cons_append, numberAt_cons_continues (continues_digit n),
      ih (n / 128) (by omega), toNat_digit (by omega)]
    omega

theorem endsWithin_encode {n k : Nat} (hk : 1 ≤ k) (hn : n < 128 ^ k) (rest : List UInt8) :
    EndsWithin k (encode n ++ rest) := by
  have hlead := lead_encode n rest
  have hlen := (length_encode_le hk).mpr hn
  refine ⟨by omega, ?_⟩
  rw [length_append]
  omega

end ObConnector.Lib.VarInt
