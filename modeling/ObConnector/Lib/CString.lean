/-
# ObConnector.Lib.CString -- C strings in fields of fixed size.

A field is a list of bytes, and what lies behind its end reads as zero. `strncmp` and `strncasecmp` are
only ever asked whether they return zero (`strnSame`); `strncpy` writes as many bytes as it is told to,
with zeros behind the end of a shorter string. Nothing here names the driver.
-/
import Mathlib.Data.List.TakeWhile

namespace ObConnector.Lib

open List

/-- The bytes of a text in ASCII. -/
@[irreducible] def ascii (text : String) : List UInt8 := text.toList.map fun c => UInt8.ofNat c.toNat

/-- A string that ends at its first zero byte: the bytes before it. -/
def CStr : Type := { bytes : List UInt8 // (0 : UInt8) ∉ bytes }

instance : DecidableEq CStr := inferInstanceAs (DecidableEq { bytes : List UInt8 // (0 : UInt8) ∉ bytes })

namespace CStr

/-- The bytes of the string. -/
def bytes (s : CStr) : List UInt8 := s.val

/-- `strlen`. -/
def strlen (s : CStr) : Nat := s.bytes.length

/-- A literal. -/
def ofText (text : String) : CStr :=
  ⟨(ascii text).takeWhile (· ≠ 0), fun h => by simpa using mem_takeWhile_imp h⟩

end CStr

/-- At most `n` bytes of a string, and a zero behind them. -/
def strmake (s : CStr) (n : Nat) : List UInt8 := s.bytes.take n ++ [0]

@[simp] theorem length_strmake (s : CStr) (n : Nat) : (strmake s n).length = min n s.strlen + 1 := by
  rw [strmake, length_append, length_take]
  rfl

/-- `tolower`. -/
def toLower (c : UInt8) : UInt8 := if 65 ≤ c.toNat ∧ c.toNat ≤ 90 then c + 32 else c

/-- Two strings are the same in their first `n` bytes, or up to their end, as far as `fold` tells. -/
def strnSame (fold : UInt8 → UInt8) : List UInt8 → List UInt8 → Nat → Bool
  | _, _, 0 => true
  | as, bs, n + 1 =>
    if fold (as.headD 0) ≠ fold (bs.headD 0) then false
    else if as.headD 0 = 0 then true
    else strnSame fold as.tail bs.tail n

theorem strnSame_cons (fold : UInt8 → UInt8) (a b : UInt8) (as bs : List UInt8) (n : Nat) :
    strnSame fold (a :: as) (b :: bs) (n + 1) =
      if fold a ≠ fold b then false else if a = 0 then true else strnSame fold as bs n := rfl

theorem strnSame_self (fold : UInt8 → UInt8) (as : List UInt8) (n : Nat) : strnSame fold as as n = true := by
  induction n generalizing as with
  | zero => rfl
  | succ n ih =>
    rw [strnSame, if_neg (not_not.2 rfl)]
    split
    · rfl
    · exact ih _

/-- Nothing behind the first `n` bytes is looked at. -/
theorem strnSame_append (fold : UInt8 → UInt8) (as more bs : List UInt8) :
    strnSame fold (as ++ more) bs as.length = strnSame fold as bs as.length := by
  induction as generalizing bs with
  | nil => rfl
  | cons a as ih =>
    show strnSame fold ((a :: as) ++ more) bs (as.length + 1) = strnSame fold (a :: as) bs (as.length + 1)
    rw [strnSame, cons_append, tail_cons, ih]
    rfl

variable {as : List UInt8}

/-- Strings of one length that are folded alike are the same. -/
theorem strnSame_of_map_eq (fold : UInt8 → UInt8) {bs : List UInt8} (h : as.map fold = bs.map fold) :
    strnSame fold as bs as.length = true := by
  induction as generalizing bs with
  | nil => rfl
  | cons a as ih =>
    cases bs with
    | nil => cases h
    | cons b bs =>
      injection h with hhead htail
      show strnSame fold (a :: as) (b :: bs) (as.length + 1) = true
      rw [strnSame_cons, if_neg (not_not.2 hhead)]
      split
      · rfl
      · exact ih htail

/-- `0 == strncmp(a, b, n)`. -/
def strncmpSame (as bs : List UInt8) (n : Nat) : Bool := strnSame id as bs n

/-- `0 == strncasecmp(a, b, n)`. -/
def strncasecmpSame (as bs : List UInt8) (n : Nat) : Bool := strnSame toLower as bs n

theorem strnSame_append_right (fold : UInt8 → UInt8) (as bs more : List UInt8) :
    strnSame fold as (bs ++ more) bs.length = strnSame fold as bs bs.length := by
  induction bs generalizing as with
  | nil => rfl
  | cons b bs ih =>
    rw [cons_append, length_cons, strnSame]
    simp only [tail_cons, ih]
    rfl

/-- What is the same is the same in upper and lower case. -/
theorem strncmpSame_eq_false {bs : List UInt8} {n : Nat} (h : strncasecmpSame as bs n = false) :
    strncmpSame as bs n = false := by
  unfold strncasecmpSame at h
  unfold strncmpSame
  induction n generalizing as bs with
  | zero => cases h
  | succ n ih =>
    rw [strnSame] at h ⊢
    by_cases hhead : as.headD 0 = bs.headD 0
    · rw [if_neg (not_not.2 (congrArg toLower hhead))] at h
      rw [if_neg (show ¬id (as.headD 0) ≠ id (bs.headD 0) from not_not.2 hhead)]
      by_cases hzero : as.headD 0 = 0
      · rw [if_pos hzero] at h
        cases h
      rw [if_neg hzero] at h ⊢
      exact ih h
    · exact if_pos hhead

/-- `strncmp` over the whole length of a text without a zero. -/
theorem strncmpSame_iff {bs : List UInt8} (more : List UInt8) (hzero : (0 : UInt8) ∉ as)
    (hlen : as.length = bs.length) : strncmpSame as (bs ++ more) as.length = true ↔ as = bs := by
  unfold strncmpSame
  constructor
  · intro h
    induction as generalizing bs with
    | nil => exact (eq_nil_of_length_eq_zero hlen.symm).symm
    | cons a as ih =>
      obtain ⟨b, bs, rfl⟩ := exists_cons_of_length_eq_add_one hlen.symm
      rw [cons_append, length_cons, strnSame_cons] at h
      have ha : a ≠ 0 := fun h0 => hzero (h0 ▸ mem_cons_self)
      by_cases hhead : a = b
      · subst hhead
        rw [if_neg (not_not.2 rfl), if_neg ha] at h
        rw [ih (fun hmem => hzero (mem_cons_of_mem a hmem)) (Nat.succ.inj hlen) h]
      rw [if_pos (show id a ≠ id b from hhead)] at h
      cases h
  · rintro rfl
    rw [strnSame_append_right, strnSame_self]

/-- The `n` bytes that `strncpy` writes. -/
def strncpy (src : List UInt8) (n : Nat) : List UInt8 :=
  let text := (src.take n).takeWhile (· ≠ 0)
  text ++ List.replicate (n - text.length) 0

theorem strncpy_cons (c : UInt8) (cs : List UInt8) (n : Nat) :
    strncpy (c :: cs) (n + 1) = if c = 0 then List.replicate (n + 1) 0 else c :: strncpy cs n := by
  by_cases hc : c = 0
  · simp [strncpy, hc]
  · simp [strncpy, hc]

/-- Nothing but the first `n` bytes is copied. -/
theorem strncpy_append (as more : List UInt8) : strncpy (as ++ more) as.length = strncpy as as.length := by
  rw [strncpy, strncpy, take_left, take_length]

/-- A text without a zero is copied as it is. -/
theorem strncpy_self (h : (0 : UInt8) ∉ as) : strncpy as as.length = as := by
  have hall : as.takeWhile (fun c => decide (c ≠ 0)) = as :=
    takeWhile_eq_self_iff.2 fun c hc => decide_eq_true fun h0 => h (h0 ▸ hc)
  simp only [strncpy, take_length, hall, Nat.sub_self, replicate_zero, append_nil]

theorem toLower_eq_zero_iff (c : UInt8) : toLower c = 0 ↔ c = 0 := by
  unfold toLower
  split
  · rename_i h
    constructor
    · intro h0
      have h0 := congrArg UInt8.toNat h0
      rw [UInt8.toNat_add] at h0
      have : (32 : UInt8).toNat = 32 := rfl
      have : (0 : UInt8).toNat = 0 := rfl
      omega
    · rintro rfl
      exact absurd h (by decide)
  · rfl

/-- A copy of as many bytes as a word has is the word, exactly when the original is. -/
theorem strncasecmpSame_strncpy {word : List UInt8} (more : List UInt8) (hword : (0 : UInt8) ∉ word)
    (hlen : as.length = word.length) : strncasecmpSame (strncpy as as.length ++ more) word as.length = true ↔
      as.map toLower = word.map toLower := by
  induction as generalizing word with
  | nil =>
    obtain rfl := length_eq_zero_iff.1 hlen.symm
    exact ⟨fun _ => rfl, fun _ => rfl⟩
  | cons a as ih =>
    cases word with
    | nil => cases hlen
    | cons w ws =>
      have hw : w ≠ 0 := fun h => hword (h ▸ mem_cons_self)
      have ih := ih (fun h => hword (mem_cons_of_mem w h)) (Nat.succ.inj hlen)
      show strnSame toLower (strncpy (a :: as) (as.length + 1) ++ more) (w :: ws) (as.length + 1) = true ↔ _
      rw [strncpy_cons, map_cons, map_cons, List.cons.injEq, ← ih]
      by_cases ha : a = 0
      · have hne : toLower 0 ≠ toLower w := fun h => hw ((toLower_eq_zero_iff w).1 h.symm)
        rw [if_pos ha, ha]
        constructor
        · intro h
          rw [replicate_succ, cons_append, strnSame_cons, if_pos hne] at h
          cases h
        · exact fun h => absurd h.1 hne
      rw [if_neg ha, cons_append, strnSame_cons]
      by_cases hsame : toLower a = toLower w
      · rw [if_neg (not_not.2 hsame), if_neg ha]
        exact ⟨fun h => ⟨hsame, h⟩, fun h => h.2⟩
      rw [if_pos hsame]
      exact ⟨fun h => (by cases h), fun h => absurd h.1 hsame⟩

/-- `bs` over the front of a field. -/
def overwrite (field bs : List UInt8) : List UInt8 := bs ++ field.drop bs.length

end ObConnector.Lib
