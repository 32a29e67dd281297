/-
# ObConnector.FormatModels.Calendar -- day numbers and dates of the Oracle format models.

`ob_time_to_date` counts the days of a date from 1970-01-01 and leaves the day of the year and the day of
the week behind; `date_to_ob_time` goes back. It guesses the year as if every year had 365 days, corrects
the rest of the days by the leap years between the old guess and the new one, and guesses again until the
rest lies in the year. The C division rounds towards zero, so that the count of leap years is not the
calendar's before year 1, where the first guess for the first two years falls.

The loop is followed by how far its year is from the right one: a guess that is `e` years off leads to one
that is off by the leap years in between and the day of the year, divided by 365 (`guess_up`,
`guess_down`). So the second guess is at most six years off, the third at most one, and then on the side
from which the day of the year leads home: three rounds are enough (`yearLoop_ends`).
-/
import ObConnector.Lib.Buffer
import ObConnector.Lib.Gregorian
import Mathlib.Tactic.IntervalCases

namespace ObConnector.FormatModels

open Lib Lib.Gregorian

/-! ## the code -/

/-- The indices of `parts_`. -/
inductive Part where
  | year | mon | mday | hour | min | sec | usec | date | yday | wday | offsetMin
deriving DecidableEq

/-- The parts that `DATETIME_PART_CNT` counts. -/
def Part.datetime : Part → Bool
  | .date | .yday | .wday | .offsetMin => false
  | _ => true

structure ObTime where
  mode : Nat
  parts : Part → Int

namespace ObTime

def set (t : ObTime) (part : Part) (value : Int) : ObTime := { t with parts := Function.update t.parts part value }

def hasTypeOracle (t : ObTime) : Bool := t.mode.testBit 8

end ObTime

def zeroDate : Int := -106751991
def epochYear4 : Int := 1970
def epochWday : Int := 4
def daysPerNyear : Int := 365

def leapYearCount (y : Int) : Int := y.tdiv 4 - y.tdiv 100 + y.tdiv 400

def isLeapYear (y : Int) : Bool := y.tmod 4 = 0 ∧ (y.tmod 100 ≠ 0 ∨ y.tmod 400 = 0)

def daysPerYear (leap : Bool) : Int := if leap then 366 else 365

def daysUntilMon : Bool → List Int
  | false => [0, 31, 59, 90, 120, 151, 181, 212, 243, 273, 304, 334, 365]
  | true => [0, 31, 60, 91, 121, 152, 182, 213, 244, 274, 305, 335, 366]

def wdayOffsetArr : List (List Int) :=
  [[0, 2, 3, 4, 5, 6, 7, 1], [0, 3, 4, 5, 6, 7, 1, 2], [0, 4, 5, 6, 7, 1, 2, 3], [0, 5, 6, 7, 1, 2, 3, 4],
    [0, 6, 7, 1, 2, 3, 4, 5], [0, 7, 1, 2, 3, 4, 5, 6], [0, 1, 2, 3, 4, 5, 6, 7], [0, 2, 3, 4, 5, 6, 7, 1],
    [0, 3, 4, 5, 6, 7, 1, 2], [0, 4, 5, 6, 7, 1, 2, 3], [0, 5, 6, 7, 1, 2, 3, 4], [0, 6, 7, 1, 2, 3, 4, 5],
    [0, 7, 1, 2, 3, 4, 5, 6]]

/-- An element of a constant table. -/
def tableAt {α : Type} (table : List α) (i : Int) : Except Fault α :=
  match if i < 0 then none else table[i.toNat]? with
  | some a => .ok a
  | none => .error .tableOverrun

/-- `WDAY_OFFSET` points to the seventh row. -/
def wdayOffset (offset wday : Int) : Except Fault Int := do
  let row ← tableAt wdayOffsetArr (offset + 6)
  tableAt row wday

def obTimeToDate (t : ObTime) : Except Fault (Int × ObTime) :=
  if t.parts .date = zeroDate ∧ t.hasTypeOracle = false then .ok (zeroDate, t)
  else do
    let untilMon ← tableAt (daysUntilMon (isLeapYear (t.parts .year))) (t.parts .mon - 1)
    let yday := untilMon + t.parts .mday
    let daysOfYears := (t.parts .year - epochYear4) * daysPerNyear
    let leaps := leapYearCount (t.parts .year - 1) - leapYearCount (epochYear4 - 1)
    let value := daysOfYears + leaps + yday - 1
    let wday ← wdayOffset (value.tmod 7) epochWday
    .ok (value, (t.set .yday yday).set .wday wday)

/-- The loop that finds the year, with the days left in it. -/
def yearLoop : Nat → Int → Int → Except Fault (Int × Int)
  | 0, _, _ => .error .outOfFuel
  | fuel + 1, year, days =>
    if days < 0 ∨ daysPerYear (isLeapYear year) ≤ days then
      let newYear := year + days.tdiv daysPerNyear - if days < 0 then 1 else 0
      yearLoop fuel newYear
        (days - ((newYear - year) * daysPerNyear + leapYearCount (newYear - 1) - leapYearCount (year - 1)))
    else .ok (year, days)

/-- The loop that finds the month; `left` months follow. -/
def monthLoop (table : List Int) (days : Int) : Nat → Int → Except Fault Int
  | 0, month => .ok month
  | left + 1, month => do
    let untilMon ← tableAt table month
    if untilMon ≤ days then monthLoop table days left (month + 1) else .ok month

def dateToObTime (fuel : Nat) (value : Int) (t : ObTime) : Except Fault ObTime :=
  if t.hasTypeOracle = false ∧ value = zeroDate then
    .ok (ObTime.set { t with parts := fun part => if part.datetime then 0 else t.parts part } .date zeroDate)
  else do
    let (year, days) ← yearLoop fuel epochYear4 value
    let wday ← wdayOffset (value.tmod 7) epochWday
    let month ← monthLoop (daysUntilMon (isLeapYear year)) days 11 1
    let untilMon ← tableAt (daysUntilMon (isLeapYear year)) (month - 1)
    .ok ((((((t.set .date value).set .year year).set .yday (days + 1)).set .wday wday).set .mon month).set .mday
      (days - untilMon + 1))

/-- The loop of `get_day_and_month_from_year_day`. -/
def findMonth (table : List Int) (yday : Int) : Nat → Int → Except Fault (Option (Int × Int))
  | 0, _ => .ok none
  | left + 1, i => do
    let untilMon ← tableAt table i
    if yday ≤ untilMon then do
      let before ← tableAt table (i - 1)
      .ok (some (i, yday - before))
    else findMonth table yday left (i + 1)

/-- The error code, and the month and the day if they are assigned. -/
def getDayAndMonthFromYearDay (yday year : Int) : Except Fault (Int × Option (Int × Int)) := do
  let last ← tableAt (daysUntilMon (isLeapYear year)) 12
  if last < yday then .ok (1, none)
  else do
    let found ← findMonth (daysUntilMon (isLeapYear year)) yday 12 1
    .ok (0, found)

/-! ## the tables and the leap years -/

theorem isLeapYear_eq (y : Int) : isLeapYear y = decide (Leap y) := by
  simp only [isLeapYear, Leap, ne_eq, ← Int.dvd_iff_tmod_eq_zero, ← Int.dvd_iff_emod_eq_zero]

theorem daysPerYear_eq (y : Int) : daysPerYear (isLeapYear y) = yearLength y := by
  rw [isLeapYear_eq, daysPerYear, yearLength]
  split <;> simp_all

theorem tableAt_daysUntilMon (y : Int) {m : Nat} (hm : m ≤ 12) :
    tableAt (daysUntilMon (isLeapYear y)) m = .ok (daysBefore y m : Int) := by
  rw [isLeapYear_eq]
  by_cases h : Leap y <;> interval_cases m <;>
    simp [h, tableAt, daysUntilMon, daysBefore, Finset.sum_range_succ, monthLength]

/-- The table of weekdays goes on from Thursday, forwards and backwards. -/
theorem wdayOffset_eq (value : Int) : wdayOffset (value.tmod 7) epochWday = .ok ((value + 3) % 7 + 1) := by
  have hlow := Int.lt_tmod_of_pos value (show 0 < 7 by decide)
  have hhigh := Int.tmod_lt_of_pos value (show 0 < 7 by decide)
  have hrest : (value + 3) % 7 = (value.tmod 7 + 3) % 7 := by
    have h := Int.tmod_add_tdiv_mul value 7
    omega
  rw [hrest]
  generalize value.tmod 7 = r at hlow hhigh
  interval_cases r <;> rfl

theorem leapYearCount_eq {y : Int} (h : 0 ≤ y) : leapYearCount y = leapYears y := by
  simp only [leapYearCount, leapYears, Int.tdiv_eq_ediv_of_nonneg h]

/-- The count of leap years does not fall, and rises by about one in four years. -/
theorem leapYearCount_bounds {a b : Int} (ha : -2 ≤ a) (hb : 0 ≤ b) (hab : a ≤ b) :
    leapYearCount a ≤ leapYearCount b ∧ 4 * (leapYearCount b - leapYearCount a) ≤ b - a + 3 := by
  have hfour : ∀ n, 0 ≤ n → leapYears n = n / 4 - n / 4 / 25 + n / 4 / 25 / 4 := by
    intro n _
    unfold leapYears
    omega
  rw [leapYearCount_eq hb, hfour b hb]
  by_cases h : 0 ≤ a
  · rw [leapYearCount_eq h, hfour a h]
    omega
  have hzero : leapYearCount a = 0 := by
    interval_cases a <;> rfl
  omega

/-! ## the year -/

/-- The number of the first of January as the loop counts. -/
def startOf (y : Int) : Int := (y - epochYear4) * daysPerNyear + leapYearCount (y - 1) - leapYearCount (epochYear4 - 1)

theorem startOf_eq {y : Int} (h : 1 ≤ y) : startOf y = yearStart y := by
  unfold startOf yearStart
  rw [leapYearCount_eq (by omega), show leapYearCount (epochYear4 - 1) = leapYears 1969 by decide]
  simp only [epochYear4, daysPerNyear]
  omega

section Loop

variable {Y k y : Int} (fuel : Nat)

/-- What the loop has before a round: a year and the days of the target that are left from its beginning. -/
def guess (fuel : Nat) (Y k y : Int) : Except Fault (Int × Int) := yearLoop fuel y (startOf Y + k - startOf y)

theorem guess_step (hgoes : startOf Y + k - startOf y < 0 ∨ daysPerYear (isLeapYear y) ≤ startOf Y + k - startOf y) :
    guess (fuel + 1) Y k y = guess fuel Y k (y + (startOf Y + k - startOf y).tdiv 365 -
      if startOf Y + k - startOf y < 0 then 1 else 0) := by
  unfold guess
  rw [yearLoop, if_pos hgoes]
  simp only [daysPerNyear]
  congr 1
  simp only [startOf, daysPerNyear]
  ring

/-- The loop ends at the right year. -/
theorem guess_right (hk : 0 ≤ k ∧ k < yearLength Y) : guess (fuel + 1) Y k Y = .ok (Y, k) := by
  unfold guess
  rw [show startOf Y + k - startOf Y = k by omega, yearLoop, daysPerYear_eq, if_neg (by omega)]

theorem yearLength_bounds (y : Int) : 365 ≤ yearLength y ∧ yearLength y ≤ 366 := by
  unfold yearLength
  split <;> omega

/-- A leap day counts between the year and any later one. -/
theorem yearLength_le (hy : 1 ≤ y) (hY : y < Y) :
    (yearLength y : Int) ≤ 365 + (leapYearCount (Y - 1) - leapYearCount (y - 1)) := by
  have hmono := (leapYearCount_bounds (show -2 ≤ y by omega) (show 0 ≤ Y - 1 by omega) (by omega)).1
  have hsucc := leapYears_succ y
  rw [← leapYearCount_eq (by omega), ← leapYearCount_eq (by omega)] at hsucc
  unfold yearLength
  split at hsucc <;> simp_all
  omega

/-- **A guess that is too early**: the next one is off by the leap years in between and the day of the year. -/
theorem guess_up (hy : -1 ≤ y) (hY : y < Y) (hpos : 1 ≤ Y) (hk : 0 ≤ k) (hzero : y = 0 → Y = 1 → 1 ≤ k) :
    guess (fuel + 1) Y k y = guess fuel Y k (Y + (leapYearCount (Y - 1) - leapYearCount (y - 1) + k) / 365) := by
  have hmono := (leapYearCount_bounds (show -2 ≤ y - 1 by omega) (show 0 ≤ Y - 1 by omega) (by omega)).1
  have hdays : startOf Y + k - startOf y = 365 * (Y - y) + (leapYearCount (Y - 1) - leapYearCount (y - 1)) + k := by
    simp only [startOf, daysPerNyear]
    omega
  have hlong : (yearLength y) ≤ startOf Y + k - startOf y := by
    have h366 := (yearLength_bounds y).2
    by_cases h1 : 1 ≤ y
    · have := yearLength_le h1 hY
      omega
    by_cases hlast : y = -1
    · subst hlast
      have h365 : yearLength (-1) = 365 := by decide
      omega
    have := hzero (by omega)
    omega
  rw [guess_step fuel (.inr (by rwa [daysPerYear_eq])), Int.tdiv_eq_ediv_of_nonneg (by omega)]
  congr 1
  omega

/-- **A guess that is too late.** -/
theorem guess_down (hpos : 1 ≤ Y) (hY : Y < y) (hk : k < yearLength Y) : guess (fuel + 1) Y k y =
      guess fuel Y k (Y - (leapYearCount (y - 1) - leapYearCount (Y - 1) - k) / 365 - 1) := by
  have hdays : startOf Y + k - startOf y = -(365 * (y - Y) + (leapYearCount (y - 1) - leapYearCount (Y - 1)) - k) := by
    simp only [startOf, daysPerNyear]
    omega
  have hlong := yearLength_le hpos hY
  have hneg : startOf Y + k - startOf y < 0 := by omega
  rw [guess_step fuel (.inl hneg), hdays, Int.neg_tdiv, Int.tdiv_eq_ediv_of_nonneg (by omega)]
  congr 1
  omega

/-- From at most two years before, the loop ends in two rounds. -/
theorem guess_from_below (hy : -1 ≤ y) (hY : Y - 2 ≤ y ∧ y ≤ Y) (hpos : 1 ≤ Y) (hk : 0 ≤ k ∧ k < yearLength Y)
    (hzero : y = 0 → Y = 1 → 1 ≤ k) : guess (fuel + 3) Y k y = .ok (Y, k) := by
  have hlength := yearLength_bounds Y
  by_cases hright : y = Y
  · rw [hright]
    exact guess_right _ hk
  have hleaps := leapYearCount_bounds (show -2 ≤ y - 1 by omega) (show 0 ≤ Y - 1 by omega) (by omega)
  rw [guess_up _ hy (by omega) hpos hk.1 hzero]
  by_cases hagain : (leapYearCount (Y - 1) - leapYearCount (y - 1) + k) / 365 = 0
  · rw [hagain, Int.add_zero]
    exact guess_right _ hk
  -- the last days of the year lead one year too far
  have hleaps' := leapYearCount_bounds (show -2 ≤ Y - 1 by omega) (show 0 ≤ Y by omega) (by omega)
  rw [show Y + (leapYearCount (Y - 1) - leapYearCount (y - 1) + k) / 365 = Y + 1 by omega,
    guess_down _ hpos (by omega) hk.2, show Y + 1 - 1 = Y by omega,
    show Y - (leapYearCount Y - leapYearCount (Y - 1) - k) / 365 - 1 = Y by omega]
  exact guess_right _ hk

/-- From at most six years behind, the loop ends in two rounds. -/
theorem guess_from_above (hpos : 2 ≤ Y) (hY : Y ≤ y ∧ y ≤ Y + 6) (hk : 0 ≤ k ∧ k < yearLength Y) :
    guess (fuel + 3) Y k y = .ok (Y, k) := by
  have hlength := yearLength_bounds Y
  by_cases hright : y = Y
  · rw [hright]
    exact guess_right _ hk
  have hleaps := leapYearCount_bounds (show -2 ≤ Y - 1 by omega) (show 0 ≤ y - 1 by omega) (by omega)
  rw [guess_down _ (by omega) (by omega) hk.2]
  by_cases hagain : Y - (leapYearCount (y - 1) - leapYearCount (Y - 1) - k) / 365 - 1 = Y
  · rw [hagain]
    exact guess_right _ hk
  -- the first days of the year lead one year too far
  have hleaps' := leapYearCount_bounds (show -2 ≤ Y - 1 - 1 by omega) (show 0 ≤ Y - 1 by omega) (by omega)
  rw [show Y - (leapYearCount (y - 1) - leapYearCount (Y - 1) - k) / 365 - 1 = Y - 1 by omega,
    guess_up _ (by omega) (by omega) (by omega) hk.1 (by omega),
    show Y + (leapYearCount (Y - 1) - leapYearCount (Y - 1 - 1) + k) / 365 = Y by omega]
  exact guess_right _ hk

/-- **Three rounds find the year.** -/
theorem yearLoop_ends (hY : 1 ≤ Y ∧ Y ≤ 9999) (hk : 0 ≤ k ∧ k < yearLength Y) :
    yearLoop (fuel + 4) epochYear4 (yearStart Y + k) = .ok (Y, k) := by
  have hstart : startOf epochYear4 = 0 := by decide
  have hguess : yearLoop (fuel + 4) epochYear4 (yearStart Y + k) = guess (fuel + 4) Y k 1970 := by
    rw [guess, startOf_eq hY.1, show startOf 1970 = 0 from hstart, Int.sub_zero]
    rfl
  have hlength := yearLength_bounds Y
  have h1969 : leapYearCount (1970 - 1) = 477 := by decide
  rw [hguess]
  obtain hbefore | rfl | hbehind := lt_trichotomy Y 1970
  · have hleaps := leapYearCount_bounds (show -2 ≤ Y - 1 by omega) (show 0 ≤ 1970 - 1 by omega) (by omega)
    have hfirst : Y = 1 → leapYearCount (Y - 1) = 0 := by
      rintro rfl
      rfl
    rw [guess_down _ hY.1 hbefore hk.2]
    exact guess_from_below _ (by omega) (by omega) hY.1 hk (by omega)
  · exact guess_right _ hk
  have hleaps := leapYearCount_bounds (show (-2) ≤ 1970 - 1 by omega) (show 0 ≤ Y - 1 by omega) (by omega)
  rw [guess_up _ (by omega) hbehind hY.1 hk.1 (by omega)]
  exact guess_from_above _ (by omega) (by omega) hk

end Loop

/-! ## the month and the day -/

section Months

variable {y : Int} {m : Nat}

/-- The loop of `date_to_ob_time` stops at the month that holds the day. -/
theorem monthLoop_finds {days : Int} (hm : m ≤ 12) (hlow : (daysBefore y (m - 1) : Int) ≤ days)
    (hhigh : days < daysBefore y m) {left i : Nat} (hi : i ≤ m) (hleft : i + left = 12) :
    monthLoop (daysUntilMon (isLeapYear y)) days left i = .ok (m : Int) := by
  induction left generalizing i with
  | zero =>
    obtain rfl : i = m := by omega
    rfl
  | succ left ih =>
    rw [monthLoop, tableAt_daysUntilMon y (by omega), ok_bind]
    by_cases hhere : i = m
    · subst hhere
      rw [if_neg (by omega)]
    have hmono := daysBefore_mono y (show i ≤ m - 1 by omega)
    rw [if_pos (by omega)]
    exact_mod_cast ih (by omega) (by omega)

/-- So does that of `get_day_and_month_from_year_day`. -/
theorem findMonth_finds {yday : Nat} (hm : m ≤ 12) (hlow : daysBefore y (m - 1) < yday) (hhigh : yday ≤ daysBefore y m)
    {left i : Nat} (hpos : 1 ≤ i) (hi : i ≤ m) (hleft : i + left = 13) :
    findMonth (daysUntilMon (isLeapYear y)) yday left i = .ok (some (m, yday - daysBefore y (m - 1))) := by
  induction left generalizing i with
  | zero => omega
  | succ left ih =>
    rw [findMonth, tableAt_daysUntilMon y (by omega), ok_bind]
    by_cases hhere : i = m
    · subst hhere
      rw [if_pos (by omega), show (i : Int) - 1 = ((i - 1 : Nat)) by omega,
        tableAt_daysUntilMon y (by omega), ok_bind]
    have hmono := daysBefore_mono y (show i ≤ m - 1 by omega)
    rw [if_neg (by omega)]
    exact_mod_cast ih (by omega) (by omega) (by omega)

end Months

/-! ## dates and their numbers -/

/-- The year, month and day are those of the date. -/
def ObTime.Shows (t : ObTime) (d : Date) : Prop :=
  t.parts .year = d.year ∧ t.parts .mon = d.month ∧ t.parts .mday = d.day

/-- So are the day of the year and the day of the week. -/
def ObTime.Counts (t : ObTime) (d : Date) : Prop := t.parts .yday = d.ordinal ∧ t.parts .wday = d.weekday

section Dates

variable {d : Date} {t : ObTime}

theorem obTimeToDate_shows (hd : d.Valid) (hyear : 1 ≤ d.year) (ht : t.Shows d)
    (hzero : t.hasTypeOracle = true ∨ t.parts .date ≠ zeroDate) :
    ∃ t', obTimeToDate t = .ok (d.number, t') ∧ t'.Shows d ∧ t'.Counts d := by
  obtain ⟨hy, hmon, hmday⟩ := ht
  have hmonth := hd.month
  have hnumber : (d.year - epochYear4) * daysPerNyear + (leapYearCount (d.year - 1) - leapYearCount (epochYear4 - 1)) +
      (daysBefore d.year (d.month - 1) + d.day) - 1 = d.number := by
    have hstart := startOf_eq hyear
    unfold startOf at hstart
    unfold Date.number Date.ordinal
    push_cast
    omega
  refine ⟨(t.set .yday d.ordinal).set .wday d.weekday, ?_, ⟨hy, hmon, hmday⟩, rfl, rfl⟩
  unfold obTimeToDate
  rw [if_neg (by rintro ⟨h, h'⟩; simp_all), hy, hmon, hmday, show (d.month : Int) - 1 = ((d.month - 1 : Nat)) by omega,
    tableAt_daysUntilMon _ (by omega), ok_bind]
  dsimp only
  rw [hnumber, wdayOffset_eq]
  rfl

theorem dateToObTime_shows (fuel : Nat) (hd : d.Valid) (hyear : 1 ≤ d.year ∧ d.year ≤ 9999)
    (horacle : t.hasTypeOracle = true) : ∃ t', dateToObTime (fuel + 4) d.number t = .ok t' ∧
    t'.parts .date = d.number ∧ t'.Shows d ∧ t'.Counts d := by
  have hmonth := hd.month
  have hordinal := hd.ordinal
  have hlast := hd.ordinal_le
  -- `k` days lie before the date in its year
  obtain ⟨k, hk⟩ : ∃ k, (d.ordinal : Int) = k + 1 := ⟨d.ordinal - 1, by omega⟩
  have hnumber : d.number = yearStart d.year + k := by
    unfold Date.number
    omega
  have hday : k - daysBefore d.year (d.month - 1) + 1 = d.day := by
    unfold Date.ordinal at hk
    omega
  have hmon : monthLoop (daysUntilMon (isLeapYear d.year)) k 11 1 = .ok d.month :=
    monthLoop_finds hmonth.2 (by omega) (by omega) hmonth.1 rfl
  refine ⟨(((((t.set .date d.number).set .year d.year).set .yday d.ordinal).set .wday d.weekday).set .mon d.month).set
    .mday d.day, ?_, rfl, ⟨rfl, rfl, rfl⟩, rfl, rfl⟩
  unfold dateToObTime
  rw [if_neg (by simp [horacle]), hnumber, yearLoop_ends fuel hyear (by omega), ok_bind, ← hnumber]
  dsimp only
  rw [wdayOffset_eq, ok_bind, hmon, ok_bind, show (d.month : Int) - 1 = ((d.month - 1 : Nat)) by omega,
    tableAt_daysUntilMon _ (by omega), ok_bind, hday, ← hk]
  rfl

theorem getDayAndMonthFromYearDay_ordinal (hd : d.Valid) :
    getDayAndMonthFromYearDay d.ordinal d.year = .ok (0, some ((d.month : Int), (d.day : Int))) := by
  have hmonth := hd.month
  have hordinal := hd.ordinal
  have hlast := hd.ordinal_le
  have hfound : findMonth (daysUntilMon (isLeapYear d.year)) d.ordinal 12 1 =
      .ok (some (d.month, d.ordinal - daysBefore d.year (d.month - 1))) :=
    findMonth_finds hmonth.2 hordinal.1 hordinal.2 le_rfl hmonth.1 rfl
  have hday : (d.ordinal : Int) - daysBefore d.year (d.month - 1) = d.day := by
    unfold Date.ordinal
    omega
  unfold getDayAndMonthFromYearDay
  rw [show (12 : Int) = ((12 : Nat)) from rfl, tableAt_daysUntilMon _ le_rfl, ok_bind, daysBefore_twelve,
    if_neg (by omega), hfound, ok_bind, hday]

end Dates

/-- **Calendar arithmetic.** Numbers, days of the week and days of the year start at 1970-01-01 and go on from
date to date; the code computes them, finds the date of a number, and the date of a day of the year. -/
theorem calendar_exact :
    ((⟨1970, 1, 1⟩ : Date).number = 0 ∧ (⟨1970, 1, 1⟩ : Date).weekday = 4 ∧ (⟨1970, 1, 1⟩ : Date).ordinal = 1) ∧
    (∀ d : Date, d.Valid → d.next.number = d.number + 1 ∧ d.next.weekday = d.weekday % 7 + 1 ∧
      (d.next.ordinal = d.ordinal + 1 ∨ d.next.ordinal = 1 ∧ d.next.year = d.year + 1) ∧
      getDayAndMonthFromYearDay d.ordinal d.year = .ok (0, some ((d.month : Int), (d.day : Int)))) ∧
    ∀ d : Date, d.Valid → 1 ≤ d.year → d.year ≤ 9999 →
      (∀ t : ObTime, t.Shows d → t.hasTypeOracle = true ∨ t.parts .date ≠ zeroDate →
        ∃ t', obTimeToDate t = .ok (d.number, t') ∧ t'.Shows d ∧ t'.Counts d) ∧
      ∀ (fuel : Nat) (t : ObTime), t.hasTypeOracle = true →
        ∃ t', dateToObTime (fuel + 4) d.number t = .ok t' ∧ t'.parts .date = d.number ∧ t'.Shows d ∧ t'.Counts d := by
  refine ⟨by decide, ?_, ?_⟩
  · intro d hd
    obtain ⟨hnumber, hordinal⟩ := Date.number_next hd
    exact ⟨hnumber, Date.weekday_next hd, hordinal, getDayAndMonthFromYearDay_ordinal hd⟩
  · intro d hd hfirst hlast
    refine ⟨?_, ?_⟩
    · intro t ht hzero
      exact obTimeToDate_shows hd hfirst ht hzero
    · intro fuel t horacle
      exact dateToObTime_shows fuel hd ⟨hfirst, hlast⟩ horacle

/-- The leap day of the year 2000. -/
theorem leapDay_found :
    ∃ t', dateToObTime 4 11016 ⟨256, fun _ => 0⟩ = .ok t' ∧ t'.parts .date = 11016 ∧ t'.Shows ⟨2000, 2, 29⟩ ∧
      t'.Counts ⟨2000, 2, 29⟩ := by
  have hd : (⟨2000, 2, 29⟩ : Date).Valid := ⟨by decide, by decide⟩
  exact (calendar_exact.2.2 ⟨2000, 2, 29⟩ hd (by decide) (by decide)).2 0 ⟨256, fun _ => 0⟩ rfl

end ObConnector.FormatModels
