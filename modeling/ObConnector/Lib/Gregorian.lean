/-
# ObConnector.Lib.Gregorian -- the proleptic Gregorian calendar.

A date is a year, a month and a day; the next date is the next day of the month, the first of the next
month or the first of January. The number of a date counts the days from 1970-01-01, its ordinal the days
of its year, and its weekday the days of the week from Monday. That these are the right ones is said by
what they are at one date and how they go on from each date to the next (`number_next`, `ordinal_next`,
`weekday_next`). Nothing here names the driver.
-/
import Mathlib.Algebra.Order.BigOperators.Group.Finset

namespace ObConnector.Lib.Gregorian

def Leap (y : Int) : Prop := y % 4 = 0 ∧ (y % 100 ≠ 0 ∨ y % 400 = 0)

instance (y : Int) : Decidable (Leap y) := inferInstanceAs (Decidable (_ ∧ _))

def yearLength (y : Int) : Nat := if Leap y then 366 else 365

def monthLength (y : Int) (m : Nat) : Nat :=
  if m = 2 then if Leap y then 29 else 28 else if m = 4 ∨ m = 6 ∨ m = 9 ∨ m = 11 then 30 else 31

/-- The days of the year in its first `m` months. -/
def daysBefore (y : Int) (m : Nat) : Nat := ∑ i ∈ Finset.range m, monthLength y (i + 1)

/-- The leap years from year 1 to year `n`. -/
def leapYears (n : Int) : Int := n / 4 - n / 100 + n / 400

/-- The number of the first of January. -/
def yearStart (y : Int) : Int := 365 * (y - 1970) + (leapYears (y - 1) - leapYears 1969)

structure Date where
  year : Int
  month : Nat
  day : Nat
deriving DecidableEq

namespace Date

structure Valid (d : Date) : Prop where
  month : 1 ≤ d.month ∧ d.month ≤ 12
  day : 1 ≤ d.day ∧ d.day ≤ monthLength d.year d.month

def next (d : Date) : Date :=
  if d.day < monthLength d.year d.month then { d with day := d.day + 1 }
  else if d.month < 12 then ⟨d.year, d.month + 1, 1⟩
  else ⟨d.year + 1, 1, 1⟩

def ordinal (d : Date) : Nat := daysBefore d.year (d.month - 1) + d.day

def number (d : Date) : Int := yearStart d.year + d.ordinal - 1

/-- Monday is 1 and Sunday 7. -/
def weekday (d : Date) : Int := (d.number + 3) % 7 + 1

/-- The Thursday of the date's week, which goes from Monday to Sunday. -/
def thursday (d : Date) : Int := d.number + 4 - d.weekday

/-- The date is in week `w` of the ISO year `y`: week 1 contains the first Thursday of the year. -/
def InIsoWeek (d : Date) (y w : Int) : Prop :=
  ∃ first : Int, (first + 3) % 7 + 1 = 4 ∧ (yearStart y ≤ first ∧ first < yearStart y + 7) ∧
    d.thursday = first + 7 * (w - 1) ∧ 1 ≤ w ∧ d.thursday < yearStart (y + 1)

end Date

theorem daysBefore_succ (y : Int) (m : Nat) : daysBefore y (m + 1) = daysBefore y m + monthLength y (m + 1) :=
  Finset.sum_range_succ _ m

theorem daysBefore_mono (y : Int) {m n : Nat} (h : m ≤ n) : daysBefore y m ≤ daysBefore y n :=
  Finset.sum_le_sum_of_subset (Finset.range_mono h)

theorem daysBefore_twelve (y : Int) : daysBefore y 12 = yearLength y := by
  by_cases h : Leap y <;> simp [daysBefore, Finset.sum_range_succ, monthLength, yearLength, h]

theorem leapYears_succ (y : Int) : leapYears y = leapYears (y - 1) + if Leap y then 1 else 0 := by
  unfold leapYears
  by_cases h : Leap y
  · rw [if_pos h]
    unfold Leap at h
    omega
  rw [if_neg h]
  unfold Leap at h
  omega

theorem yearStart_succ (y : Int) : yearStart (y + 1) = yearStart y + yearLength y := by
  have h := leapYears_succ y
  unfold yearStart yearLength
  rw [show y + 1 - 1 = y by omega, h]
  split <;> omega

theorem yearStart_lt {y z : Int} (h : y < z) : yearStart y + 365 ≤ yearStart z := by
  have hfour : ∀ n, leapYears n = n / 4 - n / 4 / 25 + n / 4 / 25 / 4 := by
    intro n
    unfold leapYears
    omega
  unfold yearStart
  rw [hfour (y - 1), hfour (z - 1)]
  omega

namespace Date

variable {d : Date}

/-- A valid date lies between the beginning of its month and that of the next one. -/
theorem Valid.ordinal (h : d.Valid) :
    daysBefore d.year (d.month - 1) < d.ordinal ∧ d.ordinal ≤ daysBefore d.year d.month := by
  obtain ⟨year, month, day⟩ := d
  obtain ⟨⟨hmonth, -⟩, hday, hlength⟩ := h
  dsimp only at hmonth hday hlength
  obtain ⟨m, rfl⟩ : ∃ m, month = m + 1 := ⟨month - 1, by omega⟩
  unfold Date.ordinal
  dsimp only
  rw [daysBefore_succ, Nat.add_sub_cancel]
  omega

theorem Valid.ordinal_le (h : d.Valid) : d.ordinal ≤ yearLength d.year := by
  rw [← daysBefore_twelve]
  exact h.ordinal.2.trans (daysBefore_mono _ h.month.2)

/-- **The next date has the next number**; its day of the year is the next one, or the first of the next year. -/
theorem number_next (h : d.Valid) : d.next.number = d.number + 1 ∧
    (d.next.ordinal = d.ordinal + 1 ∨ d.next.ordinal = 1 ∧ d.next.year = d.year + 1) := by
  obtain ⟨year, month, day⟩ := d
  obtain ⟨⟨hmonth, hlast⟩, -, hlength⟩ := h
  dsimp only at hmonth hlast hlength
  obtain ⟨m, rfl⟩ : ∃ m, month = m + 1 := ⟨month - 1, by omega⟩
  unfold next number ordinal
  dsimp only
  rw [Nat.add_sub_cancel]
  by_cases hday : day < monthLength year (m + 1)
  · rw [if_pos hday]
    refine ⟨?_, .inl rfl⟩
    dsimp only
    rw [Nat.add_sub_cancel]
    omega
  obtain rfl : day = monthLength year (m + 1) := by omega
  rw [if_neg hday, ← daysBefore_succ]
  by_cases hnext : m + 1 < 12
  · rw [if_pos hnext]
    refine ⟨?_, .inl rfl⟩
    dsimp only
    rw [Nat.add_sub_cancel]
    omega
  -- the last of December
  rw [if_neg hnext, show m + 1 = 12 by omega, daysBefore_twelve, yearStart_succ]
  exact ⟨by simp [daysBefore], .inr ⟨rfl, rfl⟩⟩

theorem weekday_next (h : d.Valid) : d.next.weekday = d.weekday % 7 + 1 := by
  unfold weekday
  rw [(number_next h).1]
  omega

theorem thursday_mod (d : Date) : d.thursday % 7 = 0 := by
  unfold thursday weekday
  omega

variable {y w : Int}

/-- The ISO year is the year of the Thursday, and the week its place among the Thursdays of the year. -/
theorem inIsoWeek_iff : d.InIsoWeek y w ↔
    (yearStart y ≤ d.thursday ∧ d.thursday < yearStart (y + 1)) ∧ w = (d.thursday - yearStart y) / 7 + 1 := by
  have hthursday := d.thursday_mod
  constructor
  · rintro ⟨first, hfirst, hin, hweek, hpos, hlast⟩
    omega
  · rintro ⟨⟨hlow, hhigh⟩, rfl⟩
    exact ⟨d.thursday - (d.thursday - yearStart y) / 7 * 7, by omega, by omega, by omega, by omega, hhigh⟩

/-- The ISO year is at most one year off. -/
theorem InIsoWeek.year (hd : d.Valid) (h : d.InIsoWeek y w) : d.year - 1 ≤ y ∧ y ≤ d.year + 1 := by
  obtain ⟨⟨hlow, hhigh⟩, -⟩ := inIsoWeek_iff.mp h
  have hlast := hd.ordinal_le
  have hfirst := hd.ordinal.1
  have hnext := yearStart_succ d.year
  unfold thursday weekday number at hlow hhigh
  refine ⟨?_, ?_⟩
  · by_contra hlt
    have := yearStart_lt (show y + 1 < d.year by omega)
    omega
  · by_contra hlt
    have := yearStart_lt (show d.year + 1 < y by omega)
    omega

/-- A date is in one week of one year. -/
theorem InIsoWeek.unique {y' w' : Int} (h : d.InIsoWeek y w) (h' : d.InIsoWeek y' w') : y = y' ∧ w = w' := by
  obtain ⟨⟨hlow, hhigh⟩, hw⟩ := inIsoWeek_iff.mp h
  obtain ⟨⟨hlow', hhigh'⟩, hw'⟩ := inIsoWeek_iff.mp h'
  obtain rfl : y = y' := by
    rcases lt_trichotomy y y' with hlt | heq | hlt
    · rcases (show y + 1 = y' ∨ y + 1 < y' by omega) with rfl | hlt
      · omega
      have := yearStart_lt hlt
      omega
    · exact heq
    rcases (show y' + 1 = y ∨ y' + 1 < y by omega) with rfl | hlt
    · omega
    have := yearStart_lt hlt
    omega
  exact ⟨rfl, hw.trans hw'.symm⟩

end Date

end ObConnector.Lib.Gregorian
