/-
# ObConnector.Lib.Bytes -- little-endian naturals as byte lists.

Every wire format and every row format of the driver stores its numbers low byte first. This module
is the one place where that is said: `leBytes k n` is the `k`-byte store of `n` (higher bytes of `n`
are dropped, as a C store through a cast drops them), and `leNat bs` is the load of the whole list.

The two laws the codecs above use are `leNat_leBytes` (load after store is reduction mod `256 ^ k`)
and `leBytes_leNat` (store after load is the identity). Nothing here names the driver.
-/
import Mathlib.Data.Nat.Basic
import Mathlib.Data.List.Basic
import Mathlib.Tactic.Ring
import Mathlib.Tactic.Linarith
import Mathlib.Tactic.Positivity
import Mathlib.Tactic.Zify

namespace ObConnector.Lib

/-- The `k` low bytes of `n`, low byte first. -/
def leBytes : Nat → Nat → List UInt8
  | 0, _ => []
  | k + 1, n => UInt8.ofNat n :: leBytes k (n / 256)

/-- The natural number a byte list denotes, low byte first. -/
def leNat : List UInt8 → Nat
  | [] => 0
  | b :: bs => b.toNat + 256 * leNat bs

@[simp] theorem leBytes_zero (n : Nat) : leBytes 0 n = [] := rfl

@[simp] theorem leNat_nil : leNat [] = 0 := rfl

@[simp] theorem leNat_cons (b : UInt8) (bs : List UInt8) : leNat (b :: bs) = b.toNat + 256 * leNat bs := rfl

@[simp] theorem length_leBytes (k n : Nat) : (leBytes k n).length = k := by
  induction k generalizing n with
  | zero => rfl
  | succ k ih => simp [leBytes, ih]

theorem leNat_lt (bs : List UInt8) : leNat bs < 256 ^ bs.length := by
  induction bs with
  | nil => simp
  | cons b bs ih =>
    have hb : b.toNat < 256 := b.toNat_lt
    rw [leNat_cons, List.length_cons]
    omega

/-- **Load after store** keeps exactly the low `k` bytes. -/
theorem leNat_leBytes (k n : Nat) : leNat (leBytes k n) = n % 256 ^ k := by
  induction k generalizing n with
  | zero => simp [Nat.mod_one]
  | succ k ih =>
    rw [leBytes, leNat_cons, ih, pow_succ']
    rw [Nat.mod_mul, show (UInt8.ofNat n).toNat = n % 256 from by simp]

theorem leNat_leBytes_of_lt {k n : Nat} (h : n < 256 ^ k) : leNat (leBytes k n) = n := by
  rw [leNat_leBytes, Nat.mod_eq_of_lt h]

theorem leBytes_leNat (bs : List UInt8) : leBytes bs.length (leNat bs) = bs := by
  induction bs with
  | nil => rfl
  | cons b bs ih =>
    have hlow : UInt8.ofNat (b.toNat + 256 * leNat bs) = b := by
      apply UInt8.toNat_inj.mp
      simp
    have hrest : (b.toNat + 256 * leNat bs) / 256 = leNat bs := by
      have := b.toNat_lt
      omega
    rw [List.length_cons, leNat_cons, leBytes, hlow, hrest, ih]

theorem leNat_append (as bs : List UInt8) : leNat (as ++ bs) = leNat as + 256 ^ as.length * leNat bs := by
  induction as with
  | nil => simp
  | cons a as ih =>
    rw [List.cons_append, leNat_cons, leNat_cons, ih, List.length_cons]
    ring

/-! ## Two's complement -/

/-- The integer that an `w`-byte unsigned load `n` denotes: itself when read unsigned, its balanced
residue when read signed. -/
def intOf (w : Nat) (isUnsigned : Bool) (n : Nat) : Int :=
  if isUnsigned then (n : Int) else (n : Int).bmod (256 ^ w)

/-- `v` is a value of the `w`-byte integer type of that signedness. -/
def Representable (w : Nat) (isUnsigned : Bool) (v : Int) : Prop :=
  if isUnsigned then 0 ≤ v ∧ v < 256 ^ w else -(256 ^ w) ≤ 2 * v ∧ 2 * v < 256 ^ w

instance (w : Nat) (u : Bool) (v : Int) : Decidable (Representable w u v) := by
  unfold Representable; infer_instance

/-- The unsigned `w`-byte pattern of an integer, as a cast and a store keep it. -/
def patternOf (w : Nat) (v : Int) : Nat := (v % 256 ^ w).toNat

theorem patternOf_lt (w : Nat) (v : Int) : patternOf w v < 256 ^ w := by
  have hpos : (0 : Int) < 256 ^ w := by positivity
  have h0 := Int.emod_nonneg v (ne_of_gt hpos)
  have h1 := Int.emod_lt_of_pos v hpos
  unfold patternOf
  zify
  rw [Int.toNat_of_nonneg h0]
  exact h1

/-- **A representable integer survives its own bit pattern.** -/
theorem intOf_patternOf {w : Nat} {u : Bool} {v : Int} (h : Representable w u v) :
    intOf w u (patternOf w v) = v := by
  have hpos : (0 : Int) < 256 ^ w := by positivity
  have hcast : ((patternOf w v : Nat)) = v % 256 ^ w :=
    Int.toNat_of_nonneg (Int.emod_nonneg v (ne_of_gt hpos))
  unfold intOf
  cases u with
  | true =>
    obtain ⟨h0, h1⟩ : 0 ≤ v ∧ v < 256 ^ w := by simpa [Representable] using h
    rw [if_pos rfl, hcast, Int.emod_eq_of_lt h0 h1]
  | false =>
    obtain ⟨h0, h1⟩ : -(256 ^ w) ≤ 2 * v ∧ 2 * v < 256 ^ w := by simpa [Representable] using h
    rw [hcast]
    have hm : v % 256 ^ w = v % ((256 ^ w : Nat)) := by push_cast; rfl
    rw [hm, Int.emod_bmod]
    exact Int.bmod_eq_of_le_mul_two (by push_cast; omega) (by push_cast; omega)

/-- A load whose sign bit is clear denotes itself, read signed or unsigned. -/
theorem intOf_of_small {w n : Nat} (h : 2 * n < 256 ^ w) (u : Bool) : intOf w u n = n := by
  unfold intOf
  split
  · rfl
  · exact Int.bmod_eq_of_le_mul_two (by omega) (by omega)

/-- What a `w`-byte load denotes is a value of its type. -/
theorem representable_intOf {w : Nat} (u : Bool) {n : Nat} (h : n < 256 ^ w) : Representable w u (intOf w u n) := by
  have hcast : ((256 ^ w : Nat) : Int) = 256 ^ w := by push_cast; rfl
  cases u with
  | true =>
    simp only [intOf, if_true]
    exact ⟨Int.natCast_nonneg n, by rw [← hcast]; exact_mod_cast h⟩
  | false =>
    have hlo := Int.le_bmod (x := n) (m := 256 ^ w) (by positivity)
    have hhi := Int.bmod_lt (x := n) (m := 256 ^ w) (by positivity)
    simp only [Representable, intOf, Bool.false_eq_true, if_false]
    rw [← hcast]
    omega

end ObConnector.Lib
