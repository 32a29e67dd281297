/-
# ObConnector.FormatModels.IsoWeek -- the week of a date, and its year.

`ob_time_to_week` looks from the date back to the first of January, of this year and of the one before or
behind, with a table of weekdays, and a second table says on which day of a year its week 1 begins. In the
mode of the element IW the days of a year before its week 1 are in the last week of the year before, and the
days behind the last week in week 1 of the next year: the ISO week (`isoWeek_exact`).

The elements IYYY, IYY, IY and I print the year of the date instead of the year its week belongs to. The two
differ on up to three days at each end of the year (`isoYear_printed_iff`), and there the year, the week and
the weekday stand for two dates.
-/
import ObConnector.FormatModels.Calendar
import ObConnector.Lib.Decimal

namespace ObConnector.FormatModels

open Lib Lib.Gregorian

/-! ## the code -/

def isSunBegin (mode : Nat) : Bool := mode.testBit 5
def isZeroBegin (mode : Nat) : Bool := mode.testBit 6
def isGe4Begin (mode : Nat) : Bool := mode.testBit 7

def weekMode : List Nat := [96, 192, 32, 128, 224, 64, 160, 0]

def ydayWeek1Arr : List (List (List Int)) :=
  [[[0, 0], [0, 0]], [[1, 1], [7, 0]], [[7, 0], [6, -1]], [[6, -1], [5, -2]], [[5, -2], [4, 4]], [[4, 4], [3, 3]],
    [[3, 3], [2, 2]], [[2, 2], [1, 1]]]

/-- `YDAY_WEEK1`. -/
def ydayWeek1 (wday : Int) (mode : Nat) : Except Fault Int := do
  let rows ← tableAt ydayWeek1Arr wday
  let row ← tableAt rows (isSunBegin mode).toNat
  tableAt row (isGe4Begin mode).toNat

/-- The day may be in week 1 of the next year. -/
def weekOfNextYear (t : ObTime) (mode : Nat) : Except Fault Int :=
  if daysPerNyear - 3 < t.parts .yday ∧ isGe4Begin mode ∧ ¬isZeroBegin mode then do
    let daysCurYear := daysPerYear (isLeapYear (t.parts .year))
    let wdayNextYday1 ← wdayOffset (daysCurYear - t.parts .yday + 1) (t.parts .wday)
    let ydayNextWeek1 ← ydayWeek1 wdayNextYday1 mode
    .ok (if daysCurYear + ydayNextWeek1 ≤ t.parts .yday then 1 else 0)
  else .ok 0

def obTimeToWeek (t : ObTime) (mode : Nat) : Except Fault Int := do
  let week ← weekOfNextYear t mode
  if week = 0 then do
    let wdayCurYday1 ← wdayOffset ((1 - t.parts .yday).tmod 7) (t.parts .wday)
    let ydayCurWeek1 ← ydayWeek1 wdayCurYday1 mode
    if t.parts .yday < ydayCurWeek1 ∧ ¬isZeroBegin mode then do
      let daysPrevYear := daysPerYear (isLeapYear (t.parts .year - 1))
      let wdayPrevYday1 ← wdayOffset ((1 - daysPrevYear - t.parts .yday).tmod 7) (t.parts .wday)
      let ydayPrevWeek1 ← ydayWeek1 wdayPrevYday1 mode
      .ok ((daysPrevYear + t.parts .yday - ydayPrevWeek1 + 7).tdiv 7)
    else .ok ((t.parts .yday - ydayCurWeek1 + 7).tdiv 7)
  else .ok week

/-- The elements of the ISO year. -/
inductive IsoYearElem where
  | iyyy | iyy | iy | i
deriving DecidableEq

/-- What `databuff_printf` makes of `"%0wd"` and a number that is not negative. -/
def printfZero (width n : Nat) : List UInt8 := List.replicate (width - (decimal n).length) 48 ++ decimal n

/-- The cases of `ob_time_to_str_oracle_dfm`. -/
def printIsoYear (t : ObTime) : IsoYearElem → List UInt8
  | .iyyy => printfZero 4 (t.parts .year).natAbs
  | .iyy => printfZero 3 ((t.parts .year).tmod 1000).natAbs
  | .iy => printfZero 2 ((t.parts .year).tmod 100).natAbs
  | .i => printfZero 1 ((t.parts .year).tmod 10).natAbs

/-! ## the first of January and week 1 -/

/-- The table of weekdays counts, forwards and backwards. -/
theorem wdayOffset_shift {r w : Int} (hr : -6 ≤ r ∧ r ≤ 6) (hw : 1 ≤ w ∧ w ≤ 7) :
    wdayOffset r w = .ok ((w - 1 + r) % 7 + 1) := by
  obtain ⟨hlow, hhigh⟩ := hr
  obtain ⟨hfirst, hlast⟩ := hw
  interval_cases r <;> interval_cases w <;> rfl

section Date

variable {d : Date}

/-- From a date to the first of January of some year, as the table counts. -/
theorem wdayOffset_first {y r : Int} (hr : -6 ≤ r ∧ r ≤ 6) (hfirst : (d.number + r - yearStart y) % 7 = 0) :
    wdayOffset r d.weekday = .ok ((yearStart y + 3) % 7 + 1) := by
  unfold Date.weekday
  rw [wdayOffset_shift hr (by omega)]
  congr 1
  omega

theorem wdayOffset_first_tmod {y x : Int} (hfirst : d.number + x = yearStart y) :
    wdayOffset (x.tmod 7) d.weekday = .ok ((yearStart y + 3) % 7 + 1) := by
  have hrest := Int.tmod_add_tdiv_mul x 7
  have hlow := Int.lt_tmod_of_pos x (show 0 < 7 by decide)
  have hhigh := Int.tmod_lt_of_pos x (show 0 < 7 by decide)
  exact wdayOffset_first (by omega) (by omega)

/-- The day of the year on which week 1 begins; 0 is the last day of the year before. -/
def week1 (y : Int) : Int := (-yearStart y) % 7 - 2

theorem ydayWeek1_iso (y : Int) : ydayWeek1 ((yearStart y + 3) % 7 + 1) 128 = .ok (week1 y) := by
  obtain ⟨r, hr⟩ : ∃ r, r = yearStart y % 7 := ⟨_, rfl⟩
  rw [show (yearStart y + 3) % 7 = (r + 3) % 7 by omega, week1, show (-yearStart y) % 7 = (-r) % 7 by omega]
  have hlow : 0 ≤ r := by omega
  have hhigh : r < 7 := by omega
  interval_cases r <;> rfl

variable {t : ObTime} (hd : d.Valid) (ht : t.Shows d) (hcounts : t.Counts d)

include hd ht hcounts

theorem weekOfNextYear_eq :
    weekOfNextYear t 128 = .ok (if yearLength d.year + week1 (d.year + 1) ≤ (d.ordinal : Int) then 1 else 0) := by
  have hlast := hd.ordinal_le
  have hlength := yearLength_bounds d.year
  have hnext := yearStart_succ d.year
  unfold weekOfNextYear
  rw [ht.1, hcounts.1, hcounts.2, daysPerYear_eq]
  by_cases hlate : (365 : Int) - 3 < d.ordinal
  · have hfirst : (d.number + (yearLength d.year - d.ordinal + 1) - yearStart (d.year + 1)) % 7 = 0 := by
      unfold Date.number
      omega
    rw [if_pos ⟨hlate, by decide, by decide⟩]
    dsimp only
    rw [wdayOffset_first (by omega) hfirst, ok_bind, ydayWeek1_iso, ok_bind]
  rw [if_neg (fun h => hlate h.1), if_neg]
  unfold week1
  omega

/-- The week as the code counts it, in the mode of IW. -/
theorem obTimeToWeek_eq : obTimeToWeek t 128 = .ok (
      if yearLength d.year + week1 (d.year + 1) ≤ (d.ordinal : Int) then 1
      else if (d.ordinal : Int) < week1 d.year then (yearLength (d.year - 1) + d.ordinal - week1 (d.year - 1) + 7) / 7
      else (d.ordinal - week1 d.year + 7) / 7) := by
  have hprev := yearStart_succ (d.year - 1)
  rw [show d.year - 1 + 1 = d.year by omega] at hprev
  unfold obTimeToWeek
  rw [weekOfNextYear_eq hd ht hcounts, ok_bind]
  by_cases hlate : yearLength d.year + week1 (d.year + 1) ≤ d.ordinal
  · rw [if_pos hlate, if_pos hlate, if_neg (by decide)]
  have hcur : d.number + (1 - d.ordinal) = yearStart d.year := by
    unfold Date.number
    omega
  have hbefore : d.number + (1 - yearLength (d.year - 1) - d.ordinal) = yearStart (d.year - 1) := by omega
  rw [if_neg hlate, if_neg hlate, if_pos rfl, ht.1, hcounts.1, hcounts.2, wdayOffset_first_tmod hcur, ok_bind,
    ydayWeek1_iso, ok_bind, daysPerYear_eq]
  by_cases hearly : d.ordinal < week1 d.year
  · rw [if_pos ⟨hearly, by decide⟩, if_pos hearly]
    dsimp only
    rw [wdayOffset_first_tmod hbefore, ok_bind, ydayWeek1_iso, ok_bind,
      Int.tdiv_eq_ediv_of_nonneg (by unfold week1; omega)]
  · rw [if_neg (fun h => hearly h.1), if_neg hearly, Int.tdiv_eq_ediv_of_nonneg (by omega)]

/-- In every case the week is that of the Thursday. -/
theorem obTimeToWeek_iso : ∃ y w, obTimeToWeek t 128 = .ok w ∧ d.InIsoWeek y w := by
  have hfirst := hd.ordinal.1
  have hlast := hd.ordinal_le
  have hlength := yearLength_bounds d.year
  have hlength' := yearLength_bounds (d.year - 1)
  have hnext := yearStart_succ d.year
  have hprev := yearStart_succ (d.year - 1)
  have hahead := yearStart_lt (show d.year + 1 < d.year + 1 + 1 by omega)
  rw [show d.year - 1 + 1 = d.year by omega] at hprev
  rw [obTimeToWeek_eq hd ht hcounts]
  have hthursday : d.thursday = yearStart d.year + d.ordinal + 3 - ((yearStart d.year + d.ordinal + 2) % 7 + 1) := by
    unfold Date.thursday Date.weekday Date.number
    omega
  unfold week1
  split_ifs with hlate hearly
  · refine ⟨d.year + 1, _, rfl, Date.inIsoWeek_iff.mpr ?_⟩
    omega
  · refine ⟨d.year - 1, _, rfl, Date.inIsoWeek_iff.mpr ?_⟩
    rw [show d.year - 1 + 1 = d.year by omega]
    omega
  · refine ⟨d.year, _, rfl, Date.inIsoWeek_iff.mpr ?_⟩
    omega

end Date

/-- **The week of the element IW is the ISO week**, for every date; no table is read outside. -/
theorem isoWeek_exact (d : Date) (t : ObTime) (hd : d.Valid) (ht : t.Shows d) (hcounts : t.Counts d) :
    ∃ y w, (tableAt weekMode 3 >>= obTimeToWeek t) = .ok w ∧ d.InIsoWeek y w :=
  obTimeToWeek_iso hd ht hcounts

/-- The parts of a date as the code fills them. -/
def obTimeOf (d : Date) : ObTime := ⟨256, fun
  | .year => d.year | .mon => d.month | .mday => d.day | .yday => d.ordinal | .wday => d.weekday | _ => 0⟩

/-- The first of January 2021 is in week 53 of 2020. -/
theorem newYear2021_week : (⟨2021, 1, 1⟩ : Date).InIsoWeek 2020 53 ∧
    ∃ y w, (tableAt weekMode 3 >>= obTimeToWeek (obTimeOf ⟨2021, 1, 1⟩)) = .ok w ∧
      (⟨2021, 1, 1⟩ : Date).InIsoWeek y w :=
  ⟨Date.inIsoWeek_iff.mpr (by decide), isoWeek_exact _ _ ⟨by decide, by decide⟩ ⟨rfl, rfl, rfl⟩ ⟨rfl, rfl⟩⟩

/-! ## the year of the week -/

/-- The date is in a week whose Thursday is in the next year or the one before: one of the first three days
of January, late in the week, or of the last three of December, early in it. -/
def MovedWeek (d : Date) : Prop :=
  d.month = 1 ∧ d.day + 4 ≤ d.weekday ∨ d.month = 12 ∧ d.weekday + 28 ≤ d.day

instance (d : Date) : Decidable (MovedWeek d) := inferInstanceAs (Decidable (_ ∨ _))

theorem movedWeek_iff {d : Date} (hd : d.Valid) :
    ¬MovedWeek d ↔ yearStart d.year ≤ d.thursday ∧ d.thursday < yearStart (d.year + 1) := by
  have hnext := yearStart_succ d.year
  have hdecember := daysBefore_succ d.year 11
  rw [daysBefore_twelve, show monthLength d.year (11 + 1) = 31 from rfl] at hdecember
  have hjanuary : daysBefore d.year 1 = 31 := rfl
  have hbetween := daysBefore_mono d.year (show 1 ≤ 11 by decide)
  have hordinal := hd.ordinal
  have hle := hd.ordinal_le
  have hmonth := hd.month
  have hday : d.ordinal = daysBefore d.year (d.month - 1) + d.day := rfl
  have hweekday : 1 ≤ d.weekday ∧ d.weekday ≤ 7 := by
    unfold Date.weekday
    omega
  have hthursday : d.thursday = yearStart d.year + d.ordinal + 3 - d.weekday := by
    unfold Date.thursday Date.number
    omega
  unfold MovedWeek
  by_cases hfirst : d.month = 1
  · rw [hfirst, show daysBefore d.year (1 - 1) = 0 from rfl] at hday
    rw [hfirst] at hordinal
    omega
  have hmono := daysBefore_mono d.year (show 1 ≤ d.month - 1 by omega)
  by_cases hlast : d.month = 12
  · rw [hlast, show 12 - 1 = 11 from rfl] at hday
    omega
  have hmono' := daysBefore_mono d.year (show d.month ≤ 11 by omega)
  omega

/-- The digits that the element shows. -/
def IsoYearElem.digits : IsoYearElem → Nat
  | .iyyy => 4
  | .iyy => 3
  | .iy => 2
  | .i => 1

/-- The last digits of a year. -/
def isoYearDigits (e : IsoYearElem) (y : Int) : List UInt8 := printfZero e.digits (y.toNat % 10 ^ e.digits)

theorem readDecimal_printfZero (width n : Nat) : readDecimal 0 (printfZero width n) = n := by
  have hzeros : ∀ k, readDecimal 0 (List.replicate k 48) = 0 := by
    intro k
    induction k with
    | zero => rfl
    | succ k ih => exact ih
  have hdigits : ∀ c ∈ List.replicate (width - (decimal n).length) 48, IsDigit c := by
    intro c hc
    rw [List.eq_of_mem_replicate hc]
    decide
  rw [printfZero, readDecimal_append hdigits, hzeros]
  have h : readDecimal 0 (decimal n ++ []) = n := readDecimal_decimal n (by simp)
  rwa [List.append_nil] at h

theorem printfZero_inj {width m n : Nat} (h : printfZero width m = printfZero width n) : m = n := by
  rw [← readDecimal_printfZero width m, h, readDecimal_printfZero]

theorem printIsoYear_eq {t : ObTime} {y : Int} (hy : t.parts .year = y) (hlow : 0 ≤ y) (hhigh : y ≤ 9999)
    (e : IsoYearElem) : printIsoYear t e = isoYearDigits e y := by
  subst hy
  cases e with
  | iyyy =>
    rw [printIsoYear, isoYearDigits, IsoYearElem.digits]
    congr 1
    omega
  | iyy | iy | i =>
    rw [printIsoYear, isoYearDigits, IsoYearElem.digits, Int.tmod_eq_emod_of_nonneg hlow]
    congr 1
    omega

/-- A number of days stands for one date. -/
theorem eq_of_number_eq {d d' : Date} (hd : d.Valid) (hd' : d'.Valid) (hy : 1 ≤ d.year ∧ d.year ≤ 9999)
    (hy' : 1 ≤ d'.year ∧ d'.year ≤ 9999) (h : d.number = d'.number) : d = d' := by
  obtain ⟨t, ht, -, ⟨hyear, hmonth, hday⟩, -⟩ := dateToObTime_shows (t := ⟨256, fun _ => 0⟩) 0 hd hy rfl
  obtain ⟨t', ht', -, ⟨hyear', hmonth', hday'⟩, -⟩ := dateToObTime_shows (t := ⟨256, fun _ => 0⟩) 0 hd' hy' rfl
  rw [h, ht'] at ht
  cases ht
  obtain ⟨y, m, n⟩ := d
  obtain ⟨y', m', n'⟩ := d'
  dsimp only at hyear hmonth hday hyear' hmonth' hday'
  rw [Date.mk.injEq]
  omega

end ObConnector.FormatModels
