/-
# ObConnector.Lib.Crc -- reflected cyclic redundancy checks.

A reflected CRC of `w` bits takes the data bit by bit, the low bit of a byte first, and shifts its
remainder down: `bitStep`. `serial` runs it over the low `n` bits of a number, which is how a
processor's instruction is specified. Two facts carry everything else. A shift is linear in
exclusive or (`bitStep_xor`), so the data may be combined with the remainder before all the shifts
(`serial_eq`) and eight shifts split into a table look-up of the low byte and a move of the rest
(`bitSteps_eight`). And when the polynomial has its top bit, a shift loses nothing
(`bitStep_injective`), so a difference that is no longer than the remainder never cancels
(`foldl_ne_of_burst`).
-/
import Mathlib.Logic.Function.Basic
import ObConnector.Lib.Bytes

namespace ObConnector.Lib.Crc

open Lib List

variable {w : Nat}

/-! ## Shifts of the remainder -/

/-- One shift of the remainder. -/
def bitStep (poly x : BitVec w) : BitVec w :=
  if x.getLsbD 0 then (x >>> 1) ^^^ poly else x >>> 1

/-- `n` shifts of the remainder. -/
def bitSteps (poly : BitVec w) : Nat → BitVec w → BitVec w
  | 0, x => x
  | n + 1, x => bitSteps poly n (bitStep poly x)

/-- The remainder after the low `n` bits of `d`, the lowest first. -/
def serial (poly : BitVec w) : Nat → BitVec w → Nat → BitVec w
  | 0, c, _ => c
  | n + 1, c, d => serial poly n (bitStep poly (c ^^^ BitVec.ofNat w (d % 2))) (d / 2)

/-- A shift is linear. -/
theorem bitStep_xor (poly x y : BitVec w) : bitStep poly (x ^^^ y) = bitStep poly x ^^^ bitStep poly y := by
  have hcancel : x >>> 1 ^^^ poly ^^^ (y >>> 1 ^^^ poly) = x >>> 1 ^^^ y >>> 1 := by
    rw [BitVec.xor_assoc (x >>> 1), BitVec.xor_comm (y >>> 1), ← BitVec.xor_assoc poly, BitVec.xor_self,
      BitVec.zero_xor]
  simp only [bitStep, BitVec.getLsbD_xor, BitVec.ushiftRight_xor_distrib]
  cases x.getLsbD 0 <;> cases y.getLsbD 0
  · rfl
  · exact BitVec.xor_assoc _ _ _
  · simp only [Bool.xor_false, if_true, if_false, Bool.false_eq_true]
    rw [BitVec.xor_assoc, BitVec.xor_assoc, BitVec.xor_comm poly]
  · exact hcancel.symm

theorem bitSteps_xor (poly : BitVec w) (n : Nat) (x y : BitVec w) :
    bitSteps poly n (x ^^^ y) = bitSteps poly n x ^^^ bitSteps poly n y := by
  induction n generalizing x y with
  | zero => rfl
  | succ n ih => rw [bitSteps, bitStep_xor, ih, bitSteps, bitSteps]

/-- Shifts of a remainder whose low bits are clear only move it. -/
theorem bitSteps_high (poly : BitVec w) (n : Nat) (x : BitVec w)
    (h : ∀ i < n, x.getLsbD i = false) : bitSteps poly n x = x >>> n := by
  induction n generalizing x with
  | zero => simp [bitSteps]
  | succ n ih =>
    have hlow : bitStep poly x = x >>> 1 := by
      rw [bitStep, h 0 (Nat.succ_pos n)]
      rfl
    rw [bitSteps, hlow, ih, ← BitVec.shiftRight_add, add_comm]
    intro i hi
    rw [BitVec.getLsbD_ushiftRight]
    exact h (1 + i) (by omega)

/-- The low byte of a remainder. -/
def low (x : BitVec w) : BitVec w := (x.setWidth 8).setWidth w

theorem ofNat_low (x : BitVec w) : BitVec.ofNat w (x.toNat % 256) = low x := by
  apply BitVec.eq_of_toNat_eq
  rw [low, BitVec.toNat_setWidth, BitVec.toNat_setWidth, BitVec.toNat_ofNat]

theorem ofNat_byte_shift (b : UInt8) : BitVec.ofNat w b.toNat >>> 8 = 0#w := by
  apply BitVec.eq_of_toNat_eq
  rw [BitVec.toNat_ushiftRight, BitVec.toNat_ofNat, Nat.shiftRight_eq_div_pow, BitVec.toNat_zero]
  exact Nat.div_eq_of_lt (lt_of_le_of_lt (Nat.mod_le _ _) b.toNat_lt)

theorem getLsbD_low (x : BitVec w) (i : Nat) : (low x).getLsbD i = (decide (i < 8) && x.getLsbD i) := by
  simp only [low]
  by_cases hw : i < w
  · simp [hw]
  · simp [BitVec.getLsbD_of_ge x i (by omega)]

/-- Eight shifts: those of the low byte, and the rest moved down by eight. -/
theorem bitSteps_eight (poly x : BitVec w) : bitSteps poly 8 x = bitSteps poly 8 (low x) ^^^ (x >>> 8) := by
  have hsplit : x = low x ^^^ (low x ^^^ x) := by
    rw [← BitVec.xor_assoc, BitVec.xor_self, BitVec.zero_xor]
  have hclear : ∀ i < 8, (low x ^^^ x).getLsbD i = false := by
    intro i hi
    rw [BitVec.getLsbD_xor, getLsbD_low]
    simp [hi]
  have hrest : (low x ^^^ x) >>> 8 = x >>> 8 := by
    apply BitVec.eq_of_getLsbD_eq
    intro i _
    rw [BitVec.getLsbD_ushiftRight, BitVec.getLsbD_xor, getLsbD_low]
    simp
  calc bitSteps poly 8 x = bitSteps poly 8 (low x ^^^ (low x ^^^ x)) := by rw [← hsplit]
    _ = bitSteps poly 8 (low x) ^^^ bitSteps poly 8 (low x ^^^ x) := bitSteps_xor poly 8 _ _
    _ = bitSteps poly 8 (low x) ^^^ (x >>> 8) := by rw [bitSteps_high poly 8 _ hclear, hrest]

/-! ## Data bit by bit, and all at once -/

theorem ofNat_eq_low_bit (d : Nat) :
    BitVec.ofNat w d = BitVec.ofNat w (d % 2) ^^^ (BitVec.ofNat w (d / 2) <<< 1) := by
  apply BitVec.eq_of_getLsbD_eq
  intro i hi
  rw [BitVec.getLsbD_xor, BitVec.getLsbD_shiftLeft, BitVec.getLsbD_ofNat, BitVec.getLsbD_ofNat,
    BitVec.getLsbD_ofNat]
  cases i with
  | zero => simp [hi]
  | succ i =>
    have hzero : (d % 2).testBit (i + 1) = false := by
      rw [Nat.testBit_add_one]
      have : d % 2 / 2 = 0 := by omega
      rw [this, Nat.zero_testBit]
    have hi' : i < w := by omega
    rw [hzero, Nat.testBit_add_one]
    simp [hi']

/-- The remainder after a short piece of data: all of it combined first, then all the shifts. -/
theorem serial_eq (poly : BitVec w) (n : Nat) (hn : n ≤ w) (c : BitVec w) (d : Nat) (hd : d < 2 ^ n) :
    serial poly n c d = bitSteps poly n (c ^^^ BitVec.ofNat w d) := by
  induction n generalizing c d with
  | zero =>
    have hd0 : d = 0 := by omega
    subst hd0
    rw [serial, bitSteps, BitVec.xor_zero]
  | succ n ih =>
    have hhalf : d / 2 < 2 ^ n := by
      omega
    -- the rest of the data, moved up, passes the first shift unharmed
    have hmove : bitStep poly (BitVec.ofNat w (d / 2) <<< 1) = BitVec.ofNat w (d / 2) := by
      have hbit : (BitVec.ofNat w (d / 2) <<< 1).getLsbD 0 = false := by
        simp [BitVec.getLsbD_shiftLeft]
      rw [bitStep, hbit, if_neg Bool.false_ne_true]
      apply BitVec.eq_of_getLsbD_eq
      intro i hi
      rw [BitVec.getLsbD_ushiftRight, BitVec.getLsbD_shiftLeft, BitVec.getLsbD_ofNat, BitVec.getLsbD_ofNat]
      by_cases htop : 1 + i < w
      · simp [htop]
      have hout : (d / 2).testBit i = false := by
        apply Nat.testBit_lt_two_pow
        exact lt_of_lt_of_le hhalf (Nat.pow_le_pow_right (by omega) (by omega))
      simp [hout]
    rw [serial, ih (by omega) _ _ hhalf, bitSteps, ofNat_eq_low_bit d, ← BitVec.xor_assoc, bitStep_xor poly
      (c ^^^ BitVec.ofNat w (d % 2)), hmove]

/-- Data in two pieces. -/
theorem serial_add (poly : BitVec w) (m n : Nat) (c : BitVec w) (d : Nat) :
    serial poly (m + n) c d = serial poly n (serial poly m c d) (d / 2 ^ m) := by
  induction m generalizing c d with
  | zero => simp [serial]
  | succ m ih =>
    rw [Nat.succ_add, serial, ih, serial, Nat.div_div_eq_div_mul, ← Nat.pow_succ']

/-- Only the low `n` bits matter. -/
theorem serial_mod (poly : BitVec w) (n : Nat) (c : BitVec w) (d : Nat) :
    serial poly n c (d % 2 ^ n) = serial poly n c d := by
  induction n generalizing c d with
  | zero => rfl
  | succ n ih =>
    have hbit : d % 2 ^ (n + 1) % 2 = d % 2 :=
      Nat.mod_mod_of_dvd d (Dvd.intro_left (2 ^ n) (pow_succ 2 n).symm)
    have hrest : d % 2 ^ (n + 1) / 2 = d / 2 % 2 ^ n := by
      rw [Nat.pow_succ', Nat.mod_mul_right_div_self]
    rw [serial, hbit, hrest, ih, serial]

/-- The remainder after a byte. -/
def byteStep (poly c : BitVec w) (b : UInt8) : BitVec w := serial poly 8 c b.toNat

theorem byteStep_eq (poly : BitVec w) (hw : 8 ≤ w) (c : BitVec w) (b : UInt8) :
    byteStep poly c b = bitSteps poly 8 (c ^^^ BitVec.ofNat w b.toNat) :=
  serial_eq poly 8 hw c _ b.toNat_lt

/-- **A number of bytes at once, the lowest byte first, is the same as byte by byte.** -/
theorem serial_leNat (poly c : BitVec w) (bs : List UInt8) :
    serial poly (8 * bs.length) c (leNat bs) = bs.foldl (byteStep poly) c := by
  induction bs generalizing c with
  | nil => rfl
  | cons b bs ih =>
    have hlt := b.toNat_lt
    have hmod : leNat (b :: bs) % 2 ^ 8 = b.toNat := by
      simp only [leNat]
      omega
    have hdiv : leNat (b :: bs) / 2 ^ 8 = leNat bs := by
      simp only [leNat]
      omega
    rw [length_cons, Nat.mul_succ, add_comm, serial_add, ← serial_mod poly 8, hmod, hdiv, ih, foldl_cons, byteStep]

/-! ## Nothing is lost -/

/-- **A shift loses nothing** when the polynomial has its top bit: the bit that is shifted out comes
back as the top bit. -/
theorem bitStep_injective (poly : BitVec w) (hw : 0 < w) (htop : poly.getLsbD (w - 1) = true) :
    Function.Injective (bitStep poly) := by
  have hmsb x : (bitStep poly x).getLsbD (w - 1) = x.getLsbD 0 := by
    have hshift : (x >>> 1).getLsbD (w - 1) = false := by
      rw [BitVec.getLsbD_ushiftRight]
      exact BitVec.getLsbD_of_ge x _ (by omega)
    unfold bitStep
    cases hx : x.getLsbD 0
    · simp [hshift]
    · simp [hshift, htop]
  intro x y hxy
  have hbit : x.getLsbD 0 = y.getLsbD 0 := by rw [← hmsb x, ← hmsb y, hxy]
  have hrest : x >>> 1 = y >>> 1 := by
    unfold bitStep at hxy
    rw [hbit] at hxy
    split at hxy
    · exact (BitVec.xor_left_inj poly).mp hxy
    · exact hxy
  apply BitVec.eq_of_getLsbD_eq
  intro i _
  cases i with
  | zero => exact hbit
  | succ i =>
    have := congrArg (fun v => v.getLsbD i) hrest
    simpa [add_comm] using this

theorem bitSteps_injective (poly : BitVec w) (hw : 0 < w) (htop : poly.getLsbD (w - 1) = true) (n : Nat) :
    Function.Injective (bitSteps poly n) := by
  induction n with
  | zero => exact Function.injective_id
  | succ n ih => exact ih.comp (bitStep_injective poly hw htop)

/-- Two remainders stay apart over a byte. -/
theorem byteStep_injective_left (poly : BitVec w) (hw : 8 ≤ w) (htop : poly.getLsbD (w - 1) = true) (b : UInt8) :
    Function.Injective fun c => byteStep poly c b := by
  intro c c' h
  simp only [byteStep_eq poly hw] at h
  exact (BitVec.xor_left_inj _).mp (bitSteps_injective poly (by omega) htop 8 h)

/-! ## Changed data -/

section Changes

variable {α σ : Type}

/-- Two lists of one length that differ in exactly one place. -/
def DifferOnce (as bs : List α) : Prop := as.length = bs.length ∧ ∃! i : Nat, as[i]? ≠ bs[i]?

theorem DifferOnce.split {as bs : List α} (h : DifferOnce as bs) :
    ∃ pre x y post, x ≠ y ∧ as = pre ++ x :: post ∧ bs = pre ++ y :: post := by
  obtain ⟨hlen, i, hi, honly⟩ := h
  have hlt : i < as.length := by
    by_contra hge
    exact hi (by rw [List.getElem?_eq_none (by omega), List.getElem?_eq_none (by omega)])
  have hsame j (hj : j ≠ i) : as[j]? = bs[j]? := by
    by_contra hne
    exact hj (honly j hne)
  have hpre : as.take i = bs.take i := by
    apply ext_getElem?
    intro j
    simp only [List.getElem?_take]
    split
    · exact hsame j (by omega)
    · rfl
  have hpost : as.drop (i + 1) = bs.drop (i + 1) := by
    apply ext_getElem?
    intro j
    simp only [List.getElem?_drop]
    exact hsame _ (by omega)
  have hlt' : i < bs.length := hlen ▸ hlt
  refine ⟨as.take i, as[i], bs[i], as.drop (i + 1), ?_, ?_, ?_⟩
  · intro heq
    exact hi (by rw [List.getElem?_eq_getElem hlt, List.getElem?_eq_getElem hlt', heq])
  · rw [getElem_cons_drop, take_append_drop]
  · rw [hpre, hpost, getElem_cons_drop, take_append_drop]

/-- Two states stay apart over a list. -/
theorem foldl_injective (step : σ → α → σ) (hstate : ∀ a, Function.Injective fun s => step s a)
    (as : List α) : Function.Injective fun s => as.foldl step s := by
  induction as with
  | nil => exact Function.injective_id
  | cons a as ih => exact ih.comp (hstate a)

end Changes

/-- Two byte strings that differ, but only inside a piece of at most `k` bytes. -/
def Burst (k : Nat) (as bs : List UInt8) : Prop :=
  ∃ pre xs ys post, as = pre ++ xs ++ post ∧ bs = pre ++ ys ++ post ∧ xs.length = ys.length ∧ xs.length ≤ k ∧ xs ≠ ys

theorem DifferOnce.burst {as bs : List UInt8} (h : DifferOnce as bs) {k : Nat} (hk : 1 ≤ k) : Burst k as bs := by
  obtain ⟨pre, x, y, post, hxy, rfl, rfl⟩ := h.split
  exact ⟨pre, [x], [y], post, by simp, by simp, rfl, hk, by simpa using hxy⟩

/-- **A burst changes the remainder** when it fits into it: the piece that differs is combined with the
remainder at once, and nothing is lost over the shifts or over the rest. -/
theorem foldl_ne_of_burst (poly : BitVec w) (hw : 8 ≤ w) (htop : poly.getLsbD (w - 1) = true)
    {as bs : List UInt8} (h : Burst (w / 8) as bs) (c : BitVec w) :
    as.foldl (byteStep poly) c ≠ bs.foldl (byteStep poly) c := by
  obtain ⟨pre, xs, ys, post, rfl, rfl, hlen, hshort, hne⟩ := h
  simp only [foldl_append]
  generalize pre.foldl (byteStep poly) c = r
  intro heq
  have hbits : 8 * xs.length ≤ w := by omega
  have hfit : 256 ^ xs.length ≤ 2 ^ w := by
    rw [show 256 = 2 ^ 8 from rfl, ← pow_mul]
    exact Nat.pow_le_pow_right (by decide) hbits
  have hx := leNat_lt xs
  have hy := leNat_lt ys
  rw [← hlen] at hy
  have hpiece := foldl_injective _ (byteStep_injective_left poly hw htop) post heq
  rw [← serial_leNat, ← serial_leNat, ← hlen, serial_eq poly _ hbits _ _ (by rwa [pow_mul]), serial_eq poly _ hbits _ _ (by rwa [pow_mul])]
    at hpiece
  have hdata := (BitVec.xor_right_inj _).mp (bitSteps_injective poly (by omega) htop _ hpiece)
  have hnat := congrArg BitVec.toNat hdata
  rw [BitVec.toNat_ofNat, BitVec.toNat_ofNat, Nat.mod_eq_of_lt (by omega), Nat.mod_eq_of_lt (by omega)] at hnat
  exact hne (by rw [← leBytes_leNat xs, hnat, hlen, leBytes_leNat])

end ObConnector.Lib.Crc
