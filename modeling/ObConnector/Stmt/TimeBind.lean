/-
# ObConnector.Stmt.TimeBind -- a `TIME` fetched into a `MYSQL_TIME` and bound again.

The binary protocol sends a `TIME` as a sign, days, hours, minutes, seconds and microseconds, and leaves
out what is zero at the end. The fetch adds the days to the hours, which a `MYSQL_TIME` holds in an
`unsigned int`, and clears the day (`convert_to_datetime` and `ps_fetch_datetime` in `ma_stmt_codec.c`).
The two functions that store a `TIME` parameter write the hours in one byte (`store_param` and
`store_param_time_complex` in `mariadb_stmt.c`).

`timeDuration` is what the bytes of a `TIME` stand for. A value survives the way through a bind when its
days and hours together are below 256 hours, and is changed otherwise (`time_survives_iff`).
-/
import ObConnector.Lib.LenEnc
import ObConnector.FieldTypes

namespace ObConnector.Stmt

open Lib

/-! ## the fetch -/

/-- A `MYSQL_TIME` after `memset`. -/
def zeroTime : MysqlTime := ⟨0, 0, 0, 0, 0, 0, 0, false, .date⟩

/-- The second half of `convert_to_datetime`: the time of day at `pos + 4` and what follows it. -/
def convertTimePart (packet : List UInt8) (pos len offset : Nat) (type : FieldType) (t : MysqlTime) :
    Except Fault MysqlTime := do
  let t ← if 4 < len then do
      let hour ← loadNat packet (pos + 4) 1
      let minute ← loadNat packet (pos + 5) 1
      let second ← loadNat packet (pos + 6) 1
      pure { t with
        hour := if type = .time then (hour + t.day * 24) % 2 ^ 32 else hour
        minute := minute
        second := second
        timeType := if type = .time then t.timeType else .datetime }
    else pure t
  if offset < len then
    let secondPart ← loadNat packet (pos + 7) 4
    return { t with secondPart := patternOf 8 (intOf 4 false secondPart) }
  else return t

/-- `convert_to_datetime`. -/
def convertToDatetime (packet : List UInt8) (row len : Nat) (type : FieldType) : Except Fault MysqlTime := do
  if len = 0 then return zeroTime
  if type = .time then
    let neg ← loadNat packet row 1
    let day ← loadNat packet (row + 1) 4
    convertTimePart packet (row + 1) len 8 type { zeroTime with neg := neg ≠ 0, day := day, timeType := .time }
  else
    let year ← loadNat packet row 2
    let month ← loadNat packet (row + 2) 1
    let day ← loadNat packet (row + 3) 1
    let t := { zeroTime with year := patternOf 4 (intOf 2 false year), month := month, day := day, timeType := .date }
    if type = .date then return t
    convertTimePart packet row len 7 type t

/-- `ps_fetch_datetime` into a bind that holds a `MYSQL_TIME`, and where the row goes on. -/
def psFetchDatetime (bufferType fieldType : FieldType) (packet : List UInt8) (row : Nat) :
    Except Fault (MysqlTime × Nat) := do
  let (length, row) ← readLength packet row
  let len := length % 2 ^ 32
  let t ← convertToDatetime packet row len fieldType
  if bufferType = .time then return ({ t with year := 0, day := 0, month := 0 }, row + len)
  else return (t, row + len)

/-! ## the two stores -/

/-- The sign, the day and the time of day, as both stores write them. -/
def timeFields (t : MysqlTime) : List UInt8 :=
  (if t.neg then 1 else 0) :: (leBytes 4 t.day ++ [UInt8.ofNat t.hour, UInt8.ofNat t.minute, UInt8.ofNat t.second])

/-- The case of `store_param` for a `TIME`. -/
def storeParamTime (t : MysqlTime) : List UInt8 :=
  if t.secondPart ≠ 0 then 12 :: (timeFields t ++ leBytes 4 t.secondPart)
  else if t.day ≠ 0 ∨ t.hour ≠ 0 ∨ t.minute ≠ 0 ∨ t.second ≠ 0 then 8 :: timeFields t
  else [0]

/-- `store_param_time_complex`, which fills its buffer first and copies as much as counts. -/
def storeParamTimeComplex (t : MysqlTime) : List UInt8 :=
  let buff := timeFields t ++ leBytes 4 t.secondPart
  let length :=
    if t.secondPart ≠ 0 then 12
    else if t.hour ≠ 0 ∨ t.minute ≠ 0 ∨ t.second ≠ 0 ∨ t.day ≠ 0 then 8
    else 0
  UInt8.ofNat length :: buff.take length

/-! ## what the bytes stand for -/

/-- Microseconds of a time without its sign. -/
def microseconds (hours minute second secondPart : Nat) : Nat :=
  ((hours * 60 + minute) * 60 + second) * 1000000 + secondPart

/-- A time with its sign. -/
def signed (neg : Bool) (n : Nat) : Int := if neg then -n else n

/-- Days and hours of the bytes of a `TIME`. -/
def timeHours : List UInt8 → Nat
  | _ :: _ :: d₀ :: d₁ :: d₂ :: d₃ :: hour :: _ => leNat [d₀, d₁, d₂, d₃] * 24 + hour.toNat
  | _ => 0

/-- The duration, in microseconds, that the bytes of a `TIME` denote. -/
def timeDuration : List UInt8 → Option Int
  | [0] => some 0
  | [8, neg, d₀, d₁, d₂, d₃, hour, minute, second] =>
    some (signed (neg ≠ 0) (microseconds (leNat [d₀, d₁, d₂, d₃] * 24 + hour.toNat) minute.toNat second.toNat 0))
  | [12, neg, d₀, d₁, d₂, d₃, hour, minute, second, f₀, f₁, f₂, f₃] =>
    some (signed (neg ≠ 0) (microseconds (leNat [d₀, d₁, d₂, d₃] * 24 + hour.toNat) minute.toNat second.toNat
      (leNat [f₀, f₁, f₂, f₃])))
  | _ => none

/-- 838:59:59.999999. -/
def maxTime : Nat := microseconds 838 59 59 999999

/-! ## what is stored -/

theorem storeParamTimeComplex_eq (t : MysqlTime) : storeParamTimeComplex t = storeParamTime t := by
  unfold storeParamTimeComplex storeParamTime
  by_cases hsecond : t.secondPart ≠ 0
  · rw [if_pos hsecond, if_pos hsecond]
    rfl
  rw [if_neg hsecond, if_neg hsecond]
  by_cases hfields : t.day ≠ 0 ∨ t.hour ≠ 0 ∨ t.minute ≠ 0 ∨ t.second ≠ 0
  · rw [if_pos hfields, if_pos (by tauto)]
    rfl
  rw [if_neg hfields, if_neg (by tauto)]
  rfl

/-- A time as the fetch leaves it in a bind of type `TIME`: without days, minutes and seconds as the
protocol sends them. -/
structure Fetched (t : MysqlTime) : Prop where
  day : t.day = 0
  minute : t.minute < 256
  second : t.second < 256

/-- **What a stored time denotes**: the hours count modulo 256. -/
theorem timeDuration_storeParamTime {t : MysqlTime} (h : Fetched t) : timeDuration (storeParamTime t) =
      some (signed t.neg (microseconds (t.hour % 256) t.minute t.second (t.secondPart % 2 ^ 32))) := by
  have hneg : decide ((if t.neg then (1 : UInt8) else 0) ≠ 0) = t.neg := by cases t.neg <;> rfl
  have hminute : (UInt8.ofNat t.minute).toNat = t.minute := by
    exact Nat.mod_eq_of_lt h.minute
  have hsecond : (UInt8.ofNat t.second).toNat = t.second := by
    exact Nat.mod_eq_of_lt h.second
  have hhour : (UInt8.ofNat t.hour).toNat = t.hour % 256 := UInt8.toNat_ofNat'
  have hdays : leNat (leBytes 4 t.day) = 0 := by rw [h.day]; rfl
  have hpart : leNat (leBytes 4 t.secondPart) = t.secondPart % 2 ^ 32 := leNat_leBytes 4 t.secondPart
  unfold storeParamTime
  split
  · show some (signed _ (microseconds (leNat (leBytes 4 t.day) * 24 + _) _ _ (leNat (leBytes 4 t.secondPart)))) = _
    rw [hneg, hminute, hsecond, hhour, hdays, hpart, Nat.zero_add]
  rename_i hzero
  rw [not_not] at hzero
  split
  · show some (signed _ (microseconds (leNat (leBytes 4 t.day) * 24 + _) _ _ 0)) = _
    rw [hneg, hminute, hsecond, hhour, hdays, hzero, Nat.zero_add, Nat.zero_mod]
  -- nothing but zeros, and then the sign does not count
  have hall : t.hour = 0 ∧ t.minute = 0 ∧ t.second = 0 := by omega
  rw [hall.1, hall.2.1, hall.2.2, hzero]
  cases t.neg <;> rfl

theorem microseconds_inj {h h' m s f : Nat} (heq : microseconds h m s f = microseconds h' m s f) : h = h' := by
  unfold microseconds at heq
  omega

theorem signed_inj {neg : Bool} {n n' : Nat} (h : signed neg n = signed neg n') : n = n' := by
  unfold signed at h
  cases neg
  · simpa using h
  · simpa using h

/-- A fetched time is stored unchanged when its hours fit the byte. -/
theorem stored_iff {t : MysqlTime} (h : Fetched t) : timeDuration (storeParamTime t) =
        some (signed t.neg (microseconds t.hour t.minute t.second (t.secondPart % 2 ^ 32))) ↔ t.hour < 256 := by
  rw [timeDuration_storeParamTime h, Option.some.injEq]
  constructor
  · intro heq
    have hhours := microseconds_inj (signed_inj heq)
    omega
  · intro hlt
    rw [Nat.mod_eq_of_lt hlt]

/-! ## what is fetched -/

section Fetch

variable {packet rest front : List UInt8} {row : Nat}

theorem loadNat_byte {b : UInt8} (h : At packet row (front ++ b :: rest)) :
    loadNat packet (row + front.length) 1 = .ok b.toNat := by
  have hload := @At.loadNat _ [b] rest _ h.skip 1 rfl
  simpa using hload

theorem loadNat_four {b0 b1 b2 b3 : UInt8} (h : At packet row (front ++ b0 :: b1 :: b2 :: b3 :: rest)) :
    loadNat packet (row + front.length) 4 = .ok (leNat [b0, b1, b2, b3]) :=
  @At.loadNat _ [b0, b1, b2, b3] rest _ h.skip 4 rfl

variable {neg d₀ d₁ d₂ d₃ hour minute second f₀ f₁ f₂ f₃ : UInt8}

/-- The length in front of a value is one byte. -/
theorem readLength_byte {len : UInt8} (h : At packet row (len :: rest)) (hlen : len.toNat < 251) :
    readLength packet row = .ok (len.toNat, row + 1) := by
  have h' : At packet row ([len] ++ rest) := h
  exact h'.readLength (.one len hlen)

/-- What the fetch puts into a bind of type `TIME`. -/
def fetchedTime (neg : UInt8) (hours : Nat) (minute second : UInt8) (secondPart : Nat) : MysqlTime :=
  ⟨0, 0, 0, hours % 2 ^ 32, minute.toNat, second.toNat, secondPart, neg ≠ 0, .time⟩

theorem neg_ne_zero (neg : UInt8) : decide (neg.toNat ≠ 0) = decide (neg ≠ 0) := by
  apply decide_eq_decide.mpr
  rw [ne_eq, ne_eq, ← UInt8.toNat_inj]
  rfl

/-- The fields that both lengths of a `TIME` have. -/
theorem loads_time {len : UInt8} (h : At packet row ([len, neg, d₀, d₁, d₂, d₃, hour, minute, second] ++ rest)) :
    loadNat packet (row + 1) 1 = .ok neg.toNat ∧ loadNat packet (row + 2) 4 = .ok (leNat [d₀, d₁, d₂, d₃]) ∧
      loadNat packet (row + 6) 1 = .ok hour.toNat ∧ loadNat packet (row + 7) 1 = .ok minute.toNat ∧
      loadNat packet (row + 8) 1 = .ok second.toNat :=
  ⟨@loadNat_byte packet _ [len] row neg h, @loadNat_four packet _ [len, neg] row d₀ d₁ d₂ d₃ h,
    @loadNat_byte packet _ [len, neg, d₀, d₁, d₂, d₃] row hour h,
    @loadNat_byte packet _ [len, neg, d₀, d₁, d₂, d₃, hour] row minute h,
    @loadNat_byte packet _ [len, neg, d₀, d₁, d₂, d₃, hour, minute] row second h⟩

theorem fetch_short (h : At packet row ([8, neg, d₀, d₁, d₂, d₃, hour, minute, second] ++ rest)) :
    psFetchDatetime .time .time packet row =
      .ok (fetchedTime neg (leNat [d₀, d₁, d₂, d₃] * 24 + hour.toNat) minute second 0, row + 9) := by
  obtain ⟨hneg, hday, hhour, hminute, hsecond⟩ := loads_time h
  rw [psFetchDatetime, readLength_byte h (by decide)]
  show (convertToDatetime packet (row + 1) 8 .time >>= _) = _
  rw [convertToDatetime, hneg]
  simp only [convertTimePart, hday, hhour, hminute, hsecond, ok_bind, neg_ne_zero, add_comm hour.toNat]
  rfl

theorem fetch_long (h : At packet row ([12, neg, d₀, d₁, d₂, d₃, hour, minute, second, f₀, f₁, f₂, f₃] ++ rest)) :
    psFetchDatetime .time .time packet row =
      .ok (fetchedTime neg (leNat [d₀, d₁, d₂, d₃] * 24 + hour.toNat) minute second
        (patternOf 8 (intOf 4 false (leNat [f₀, f₁, f₂, f₃]))), row + 13) := by
  obtain ⟨hneg, hday, hhour, hminute, hsecond⟩ := @loads_time packet ([f₀, f₁, f₂, f₃] ++ rest) _ _ _ _ _ _ _ _ _ _ h
  have hpart : loadNat packet (row + 9) 4 = .ok (leNat [f₀, f₁, f₂, f₃]) :=
    @loadNat_four packet _ [12, neg, d₀, d₁, d₂, d₃, hour, minute, second] row f₀ f₁ f₂ f₃ h
  rw [psFetchDatetime, readLength_byte h (by decide)]
  show (convertToDatetime packet (row + 1) 12 .time >>= _) = _
  rw [convertToDatetime, if_neg (by decide), hneg]
  simp only [Nat.reduceLT, convertTimePart, hday, hhour, hminute, hsecond, hpart, ok_bind,
    pure_eq_ok, if_true, neg_ne_zero, add_comm hour.toNat]
  rfl

theorem fetch_zero (h : At packet row ([0] ++ rest)) :
    psFetchDatetime .time .time packet row = .ok (zeroTime, row + 1) := by
  rw [psFetchDatetime, readLength_byte h (by decide)]
  rfl

end Fetch

/-! ## a value on its way through a bind -/

theorem fetched_fetchedTime (neg : UInt8) (hours : Nat) (minute second : UInt8) (secondPart : Nat) :
    Fetched (fetchedTime neg hours minute second secondPart) where
  day := rfl
  minute := minute.toNat_lt
  second := second.toNat_lt

theorem hours_le_of_le {neg : Bool} {hours minute second secondPart : Nat}
    (h : (signed neg (microseconds hours minute second secondPart)).natAbs ≤ maxTime) : hours ≤ 838 := by
  have habs : (signed neg (microseconds hours minute second secondPart)).natAbs =
      microseconds hours minute second secondPart := by
    unfold signed
    cases neg <;> simp
  rw [habs, maxTime] at h
  unfold microseconds at h
  omega

/-- The sign extension of the microseconds is cut off again by the store. -/
theorem pattern_mod {n : Nat} (h : n < 256 ^ 4) : patternOf 8 (intOf 4 false n) % 2 ^ 32 = n := by
  unfold patternOf intOf
  simp only [Int.bmod]
  split <;> omega

/-- **A `TIME` survives exactly when its days and hours are below 256 hours.** -/
theorem time_survives_iff (packet rest bytes : List UInt8) (row : Nat) (duration : Int)
    (hat : At packet row (bytes ++ rest)) (hvalue : timeDuration bytes = some duration)
    (hrange : duration.natAbs ≤ maxTime) :
    ∃ t, psFetchDatetime .time .time packet row = .ok (t, row + bytes.length) ∧
      (timeDuration (storeParamTime t) = some duration ∧ timeDuration (storeParamTimeComplex t) = some duration ↔
        timeHours bytes < 256) := by
  unfold timeDuration at hvalue
  split at hvalue
  · cases hvalue
    refine ⟨zeroTime, fetch_zero hat, ?_⟩
    decide
  · rename_i neg d₀ d₁ d₂ d₃ hour minute second
    rw [Option.some.injEq] at hvalue
    subst hvalue
    refine ⟨_, fetch_short hat, ?_⟩
    have hhours := hours_le_of_le hrange
    have hiff := stored_iff (fetched_fetchedTime neg (leNat [d₀, d₁, d₂, d₃] * 24 + hour.toNat) minute second 0)
    rw [storeParamTimeComplex_eq, and_self]
    simp only [fetchedTime] at hiff ⊢
    rw [Nat.mod_eq_of_lt (by omega)] at hiff ⊢
    exact hiff
  · rename_i neg d₀ d₁ d₂ d₃ hour minute second f₀ f₁ f₂ f₃
    rw [Option.some.injEq] at hvalue
    subst hvalue
    refine ⟨_, fetch_long hat, ?_⟩
    have hhours := hours_le_of_le hrange
    have hiff := stored_iff (fetched_fetchedTime neg (leNat [d₀, d₁, d₂, d₃] * 24 + hour.toNat) minute second
      (patternOf 8 (intOf 4 false (leNat [f₀, f₁, f₂, f₃]))))
    rw [storeParamTimeComplex_eq, and_self]
    simp only [fetchedTime] at hiff ⊢
    rw [Nat.mod_eq_of_lt (by omega), pattern_mod (leNat_lt [f₀, f₁, f₂, f₃])] at hiff
    rw [Nat.mod_eq_of_lt (by omega)]
    exact hiff
  · cases hvalue

/-- The value `-255:59:59.999999`, sent as ten days and fifteen hours. -/
theorem time_survives_ten_days :
    ∃ t, psFetchDatetime .time .time [12, 1, 10, 0, 0, 0, 15, 59, 59, 63, 66, 15, 0] 0 = .ok (t, 13) ∧
      timeDuration (storeParamTime t) = some (-921599999999) :=
  have h := time_survives_iff [12, 1, 10, 0, 0, 0, 15, 59, 59, 63, 66, 15, 0] []
    [12, 1, 10, 0, 0, 0, 15, 59, 59, 63, 66, 15, 0] 0 (-921599999999) ⟨[], rfl, rfl⟩ (by decide +kernel) (by decide +kernel)
  h.imp fun _ ht => ⟨ht.1, (ht.2.mpr (by decide +kernel)).1⟩

/-- `256:00:00` is stored as a duration of zero. -/
theorem time_of_256_hours_lost :
    timeDuration [8, 0, 10, 0, 0, 0, 16, 0, 0] = some 921600000000 ∧ 921600000000 ≤ maxTime ∧
      ∃ t, psFetchDatetime .time .time [8, 0, 10, 0, 0, 0, 16, 0, 0] 0 = .ok (t, 9) ∧
        timeDuration (storeParamTime t) = some 0 ∧ timeDuration (storeParamTimeComplex t) = some 0 := by
  refine ⟨by decide +kernel, by decide +kernel, ⟨0, 0, 0, 256, 0, 0, 0, false, .time⟩, by decide +kernel, ?_, ?_⟩
  · decide +kernel
  · decide +kernel

end ObConnector.Stmt
