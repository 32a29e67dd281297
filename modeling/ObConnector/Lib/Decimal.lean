/-
# ObConnector.Lib.Decimal -- numbers written in decimal, and read back.

`decimal` is what `%u` prints and `readDecimal` the loop that reads digits until something else comes.
Reading what was printed gives the number again, whatever follows it, as long as that is no digit
(`readDecimal_decimal`). Nothing here names the driver.
-/
import Mathlib.Data.List.TakeWhile
import Mathlib.Data.Nat.Digits.Lemmas
import ObConnector.Lib.Bytes

namespace ObConnector.Lib

open List

/-- The byte is an ASCII digit. -/
def IsDigit (c : UInt8) : Prop := 48 ≤ c.toNat ∧ c.toNat ≤ 57

instance (c : UInt8) : Decidable (IsDigit c) := inferInstanceAs (Decidable (_ ∧ _))

/-- The digit for a number below ten. -/
def digitByte (d : Nat) : UInt8 := UInt8.ofNat (48 + d)

/-- A number in decimal. -/
def decimal (n : Nat) : List UInt8 :=
  if n = 0 then [48] else (Nat.digits 10 n).reverse.map digitByte

/-- The digits at the front of a text, read behind the number `acc`. -/
def readDecimal (acc : Nat) : List UInt8 → Nat
  | [] => acc
  | c :: cs => if IsDigit c then readDecimal (acc * 10 + (c.toNat - 48)) cs else acc

theorem digitByte_toNat {d : Nat} (h : d < 10) : (digitByte d).toNat = 48 + d := by
  rw [digitByte, UInt8.toNat_ofNat']
  omega

theorem isDigit_digitByte {d : Nat} (h : d < 10) : IsDigit (digitByte d) := by
  rw [IsDigit, digitByte_toNat h]
  omega

/-- Everything that is printed is a digit. -/
theorem isDigit_of_mem_decimal {n : Nat} {c : UInt8} (h : c ∈ decimal n) : IsDigit c := by
  unfold decimal at h
  split at h
  · obtain rfl := mem_singleton.1 h
    decide
  obtain ⟨d, hd, rfl⟩ := mem_map.1 h
  exact isDigit_digitByte (Nat.digits_lt_base (by decide) (mem_reverse.1 hd))

theorem decimal_ne_nil (n : Nat) : decimal n ≠ [] := by
  unfold decimal
  split
  · simp
  rename_i hn
  rw [ne_eq, map_eq_nil_iff, reverse_eq_nil_iff]
  exact Nat.digits_ne_nil_iff_ne_zero.2 hn

theorem decimal_of_lt {n : Nat} (hn : n < 10) : decimal n = [digitByte n] := by
  decide +revert

theorem decimal_of_le {n : Nat} (hn : 10 ≤ n) : decimal n = decimal (n / 10) ++ [digitByte (n % 10)] := by
  rw [decimal, if_neg (by omega), Nat.digits_def' (by decide) (by omega), reverse_cons, map_append, decimal,
    if_neg (by omega)]
  rfl

theorem length_decimal_le {n : Nat} (hn : n < 10 ^ 20) : (decimal n).length ≤ 20 := by
  unfold decimal
  split
  · decide
  rw [length_map, length_reverse]
  exact (Nat.digits_length_le_iff (by decide) n).2 hn

theorem readDecimal_append {as : List UInt8} (h : ∀ c ∈ as, IsDigit c) (acc : Nat) (bs : List UInt8) :
    readDecimal acc (as ++ bs) = readDecimal (readDecimal acc as) bs := by
  induction as generalizing acc with
  | nil => rfl
  | cons c cs ih =>
    have hc := h c mem_cons_self
    rw [cons_append, readDecimal, if_pos hc, readDecimal, if_pos hc]
    exact ih (fun d hd => h d (mem_cons_of_mem _ hd)) _

/-- Reading stops where no digit stands. -/
theorem readDecimal_stop (acc : Nat) {rest : List UInt8} (h : ∀ c ∈ rest.head?, ¬IsDigit c) :
    readDecimal acc rest = acc := by
  cases rest with
  | nil => rfl
  | cons c cs => rw [readDecimal, if_neg (h c rfl)]

/-- Digits are read from the most significant one down. -/
theorem readDecimal_map_reverse {ds : List Nat} (hds : ∀ d ∈ ds, d < 10) (acc : Nat) :
    readDecimal acc (ds.reverse.map digitByte) = acc * 10 ^ ds.length + Nat.ofDigits 10 ds := by
  induction ds with
  | nil => simp [readDecimal]
  | cons d ds ih =>
    have hd := hds d mem_cons_self
    have hrest : ∀ e ∈ ds, e < 10 := fun e he => hds e (mem_cons_of_mem _ he)
    have hdigits : ∀ c ∈ ds.reverse.map digitByte, IsDigit c := by
      intro c hc
      obtain ⟨e, he, rfl⟩ := mem_map.1 hc
      exact isDigit_digitByte (hrest e (mem_reverse.1 he))
    rw [reverse_cons, map_append, readDecimal_append hdigits, ih hrest, map_singleton,
      readDecimal, if_pos (isDigit_digitByte hd), readDecimal, digitByte_toNat hd, Nat.ofDigits_cons,
      length_cons]
    have hsub : 48 + d - 48 = d := by omega
    rw [hsub]
    ring

/-- **What is printed is read back.** -/
theorem readDecimal_decimal (n : Nat) {rest : List UInt8} (h : ∀ c ∈ rest.head?, ¬IsDigit c) :
    readDecimal 0 (decimal n ++ rest) = n := by
  rw [readDecimal_append fun c => isDigit_of_mem_decimal, readDecimal_stop _ h, decimal]
  split
  · rename_i hn
    subst hn
    rfl
  rw [readDecimal_map_reverse fun d => Nat.digits_lt_base (by decide), Nat.ofDigits_digits]
  omega

/-! ## Numbers as `strtoll` reads them -/

/-- What `isspace` accepts. -/
def IsSpace (c : UInt8) : Prop := c = 32 ∨ 9 ≤ c.toNat ∧ c.toNat ≤ 13

instance (c : UInt8) : Decidable (IsSpace c) := inferInstanceAs (Decidable (_ ∨ _))

/-- The sign of a number, and what stands behind it. -/
def splitSign : List UInt8 → Bool × List UInt8
  | 45 :: rest => (true, rest)
  | 43 :: rest => (false, rest)
  | rest => (false, rest)

/-- `strtoll` to base ten: the number, within the range of `long long`, and how many bytes it takes;
none when there is no digit. -/
def strtoll (text : List UInt8) : Int × Nat :=
  let body := text.dropWhile fun c => IsSpace c
  let (negative, digits) := splitSign body
  let rest := digits.dropWhile fun c => IsDigit c
  if rest.length = digits.length then (0, 0)
  else
    (if negative then max (-2 ^ 63) (-(readDecimal 0 digits : Int))
      else min (2 ^ 63 - 1) (readDecimal 0 digits : Int), text.length - rest.length)

/-- `strtoull` to base ten: a number beyond 64 bits is the largest one, and a sign negates the result. -/
def strtoull (text : List UInt8) : Nat × Nat :=
  let body := text.dropWhile fun c => IsSpace c
  let (negative, digits) := splitSign body
  let rest := digits.dropWhile fun c => IsDigit c
  if rest.length = digits.length then (0, 0)
  else
    (if 2 ^ 64 ≤ readDecimal 0 digits then 2 ^ 64 - 1
      else if negative then (2 ^ 64 - readDecimal 0 digits) % 2 ^ 64
      else readDecimal 0 digits, text.length - rest.length)

/-- `atoi`. -/
def atoi (text : List UInt8) : Int := Int.bmod (strtoll text).1 (2 ^ 32)

/-- A byte that starts a number: no space and no sign. -/
theorem IsDigit.plain {c : UInt8} (h : IsDigit c) : ¬IsSpace c ∧ c ≠ 45 ∧ c ≠ 43 := by
  refine ⟨?_, ?_, ?_⟩
  · rintro (rfl | ⟨-, hle⟩)
    · exact absurd h (by decide)
    · exact absurd h.1 (by omega)
  · rintro rfl
    exact absurd h (by decide)
  · rintro rfl
    exact absurd h (by decide)

/-- Without spaces and sign in front, `strtoll` reads the digits in front. -/
theorem strtoll_cons {c : UInt8} {cs : List UInt8} (h : ¬IsSpace c ∧ c ≠ 45 ∧ c ≠ 43) : strtoll (c :: cs) =
      if ((c :: cs).dropWhile fun c => IsDigit c).length = (c :: cs).length then (0, 0)
      else (min (2 ^ 63 - 1) (readDecimal 0 (c :: cs) : Int),
        (c :: cs).length - ((c :: cs).dropWhile fun c => IsDigit c).length) := by
  have hdrop : (c :: cs).dropWhile IsSpace = c :: cs :=
    dropWhile_cons_of_neg (by simpa using h.1)
  have hsign : splitSign (c :: cs) = (false, c :: cs) := by
    unfold splitSign
    split
    · rename_i heq
      cases heq
      exact absurd rfl h.2.1
    · rename_i heq
      cases heq
      exact absurd rfl h.2.2
    · rfl
  simp only [strtoll, hdrop, hsign, Bool.false_eq_true, if_false]

theorem dropWhile_digits {text : List UInt8} (h : ∀ c ∈ text, IsDigit c) :
    text.dropWhile (fun c => IsDigit c) = [] := by
  rw [dropWhile_eq_nil_iff]
  intro c hc
  simpa using h c hc

/-- A numeral is read whole. -/
theorem strtoll_digits {text : List UInt8} (hne : text ≠ []) (h : ∀ c ∈ text, IsDigit c) :
    strtoll text = (min (2 ^ 63 - 1) (readDecimal 0 text : Int), text.length) := by
  obtain ⟨c, cs, rfl⟩ := exists_cons_of_ne_nil hne
  rw [strtoll_cons (h c mem_cons_self).plain, dropWhile_digits h]
  rfl

/-- What is not a numeral is not read whole, unless a space or a sign is in front. -/
theorem strtoll_not_digits {c : UInt8} {cs : List UInt8} (hplain : ¬IsSpace c ∧ c ≠ 45 ∧ c ≠ 43)
    (h : ¬∀ d ∈ c :: cs, IsDigit d) : (strtoll (c :: cs)).2 ≠ (c :: cs).length := by
  have hrest : 0 < ((c :: cs).dropWhile fun c => IsDigit c).length := by
    apply length_pos_of_ne_nil
    intro hnil
    refine h fun d hd => ?_
    simpa using dropWhile_eq_nil_iff.1 hnil d hd
  rw [strtoll_cons hplain]
  split
  · exact ne_of_lt (Nat.succ_pos _)
  rw [length_cons]
  omega

/-- A number that was printed is read by `strtoll`. -/
theorem strtoll_decimal {n : Nat} (hn : n < 2 ^ 63) : strtoll (decimal n) = ((n : Int), (decimal n).length) := by
  have hread : readDecimal 0 (decimal n) = n := by
    have h : readDecimal 0 (decimal n ++ []) = n := readDecimal_decimal n (fun c hc => by cases hc)
    rwa [append_nil] at h
  rw [strtoll_digits (decimal_ne_nil n) fun c hc => isDigit_of_mem_decimal hc]
  congr 1
  omega

theorem atoi_decimal {n : Nat} (hn : n < 2 ^ 31) : atoi (decimal n) = n := by
  rw [atoi, strtoll_decimal (by omega)]
  exact Int.bmod_eq_of_le (by omega) (by omega)

end ObConnector.Lib
