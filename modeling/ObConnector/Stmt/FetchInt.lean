/-
# ObConnector.Stmt.FetchInt -- integer columns of the binary protocol (`ma_stmt_codec.c`).

An integer column is fetched by one of four functions, chosen by the column type. When the bind has
the column's own width the bytes are copied (`psFetchFrom1To8Bytes`) and only a sign disagreement can
raise the error flag; otherwise the value is widened to a `longlong` and narrowed again with a range
test (`convertFromLong`).

`fetchInt_exact_or_flagged_iff` is the outcome over the whole product of column and bind types: the
flag is exact, and an unflagged value is the column's integer, EXCEPT for an unsigned `BIGINT` read
into a narrower signed bind, where `convertFromLong` has already forgotten the column's sign and takes
the values just below `2 ^ 64` for small negative ones.
-/
import ObConnector.Lib.Bytes
import ObConnector.FieldTypes
import Mathlib.Data.Nat.Bitwise
import Mathlib.Tactic.IntervalCases

namespace ObConnector.Stmt

open Lib List

/-! ## the bind, the column, and the loads of `ma_global.h`. -/

/-- The part of `MYSQL_BIND` an integer fetch reads and writes. `buffer` holds the bytes that the
last fetch stored at the start of the user's buffer; `error` is `*r_param->error`. -/
structure MysqlBind where
  bufferType : FieldType
  isUnsigned : Bool
  buffer : List UInt8
  bufferLength : Nat
  error : Bool
  deriving DecidableEq, Repr

/-- The part of `MYSQL_FIELD` an integer fetch reads. -/
structure MysqlField where
  type : FieldType
  flags : Nat
  deriving DecidableEq, Repr

/-- `UNSIGNED_FLAG`. -/
def unsignedFlag : Nat := 32

/-- `test(field->flags & UNSIGNED_FLAG)`. -/
def MysqlField.isUnsigned (field : MysqlField) : Bool := field.flags &&& unsignedFlag != 0

/-- A `my_bool` holding a truth value. -/
def myBool (b : Bool) : Nat := if b then 1 else 0

/-- `uintNkorr`: the first `w` bytes of the row. -/
def uintKorr (w : Nat) (row : List UInt8) : Nat := leNat (row.take w)

/-- `sintNkorr`: the same bytes as a signed integer. -/
def sintKorr (w : Nat) (row : List UInt8) : Int := intOf w false (uintKorr w row)

def sint2korr : List UInt8 → Int := sintKorr 2
def sint4korr : List UInt8 → Int := sintKorr 4
def sint8korr : List UInt8 → Int := sintKorr 8

/-- A C cast to the signed `w`-byte type. -/
def castS (w : Nat) (v : Int) : Int := v.bmod (256 ^ w)

/-- A C cast to the unsigned `w`-byte type. -/
def castU (w : Nat) (v : Int) : Int := v % 256 ^ w

/-- `shortstore`, `longstore`, `longlongstore` and the one-byte store: the low `w` bytes. -/
def storeInt (w : Nat) (v : Int) : List UInt8 := leBytes w (patternOf w v)

/-! ## the fetch functions. -/

/-- One arm of the switch in `ps_fetch_from_1_to_8_bytes`: copy `w` bytes, flag a set top bit when
column and bind disagree about the sign. -/
def copyArm (w : Nat) (r : MysqlBind) (field : MysqlField) (row : List UInt8) : MysqlBind :=
  let val := castU w (sintKorr w row)
  { r with
    bufferLength := w
    buffer := storeInt w val
    error := field.isUnsigned != r.isUnsigned && decide (256 ^ w ≤ 2 * val) }

/-- `ps_fetch_from_1_to_8_bytes`. -/
def psFetchFrom1To8Bytes (r : MysqlBind) (field : MysqlField) (row : List UInt8)
    (byteCount : Nat) : MysqlBind × List UInt8 :=
  let r' := match byteCount with
    | 1 => copyArm 1 r field row
    | 2 => copyArm 2 r field row
    | 4 => copyArm 4 r field row
    | 8 => copyArm 8 r field row
    | _ => { r with bufferLength := 0 }
  (r', row.drop byteCount)

/-- `NUMERIC_TRUNCATION`. -/
def numericTruncation (val minRange maxRange : Int) : Bool := val > maxRange || val < minRange

section Convert

-- The `DOUBLE`, `FLOAT` and text arms of `convert_from_long`, which no integer bind reaches.
variable (convertOther : MysqlBind → MysqlField → Int → Nat → MysqlBind)

/-- `convert_from_long`. `isUnsigned` is the `my_bool` the callers pass, `flags & UNSIGNED_FLAG`,
that is `0` or `32`. -/
def convertFromLong (r : MysqlBind) (field : MysqlField) (val : Int) (isUnsigned : Nat) :
    MysqlBind :=
  match r.bufferType with
  | .tiny =>
    { r with
      buffer := storeInt 1 val
      error := if r.isUnsigned then numericTruncation val 0 0xFF
        else numericTruncation val (-0x80) 0x7F
      bufferLength := 1 }
  | .short | .year =>
    { r with
      buffer := storeInt 2 (castS 2 val)
      error := if r.isUnsigned then numericTruncation val 0 0xFFFF
        else numericTruncation val (-0x8000) 0x7FFF
      bufferLength := 2 }
  | .long | .cursor =>
    { r with
      buffer := storeInt 4 (castS 4 val)
      error := if r.isUnsigned then numericTruncation val 0 0xFFFFFFFF
        else numericTruncation val (-0x80000000) 0x7FFFFFFF
      bufferLength := 4 }
  | .longlong =>
    { r with
      error := decide (val < 0) && myBool r.isUnsigned != isUnsigned
      buffer := storeInt 8 val
      bufferLength := 8 }
  | _ => convertOther r field val isUnsigned

/-- `ps_fetch_int8`. -/
def psFetchInt8 (r : MysqlBind) (field : MysqlField) (row : List UInt8) :
    MysqlBind × List UInt8 :=
  match r.bufferType with
  | .tiny => psFetchFrom1To8Bytes r field row 1
  | _ =>
    let val := uintKorr 1 row
    let lval := if field.isUnsigned then (val : Int) else castS 1 val
    (convertFromLong convertOther r field lval (field.flags &&& unsignedFlag), row.drop 1)

/-- `ps_fetch_int16`. -/
def psFetchInt16 (r : MysqlBind) (field : MysqlField) (row : List UInt8) :
    MysqlBind × List UInt8 :=
  match r.bufferType with
  | .year | .short => psFetchFrom1To8Bytes r field row 2
  | _ =>
    let sval := sint2korr row
    let lval := if field.isUnsigned then castU 2 sval else sval
    (convertFromLong convertOther r field lval (field.flags &&& unsignedFlag), row.drop 2)

/-- `ps_fetch_int32`. -/
def psFetchInt32 (r : MysqlBind) (field : MysqlField) (row : List UInt8) :
    MysqlBind × List UInt8 :=
  match r.bufferType with
  | .int24 | .long | .cursor => psFetchFrom1To8Bytes r field row 4
  | _ =>
    let sval := sint4korr row
    let lval := if field.isUnsigned then castU 4 sval else sval
    (convertFromLong convertOther r field lval (field.flags &&& unsignedFlag), row.drop 4)

/-- `ps_fetch_int64`. The unsigned value goes through `(longlong)(ulonglong) sval`, which is `sval`
again: from here on a column value of `2 ^ 63` or more is negative. -/
def psFetchInt64 (r : MysqlBind) (field : MysqlField) (row : List UInt8) :
    MysqlBind × List UInt8 :=
  match r.bufferType with
  | .longlong => psFetchFrom1To8Bytes r field row 8
  | _ =>
    let sval := sint8korr row
    let lval := if field.isUnsigned then castS 8 (castU 8 sval) else sval
    (convertFromLong convertOther r field lval (field.flags &&& unsignedFlag), row.drop 8)

/-- The integer rows of the `mysql_ps_fetch_functions` table. -/
def psFetchInteger (r : MysqlBind) (field : MysqlField) (row : List UInt8) :
    Option (MysqlBind × List UInt8) :=
  match field.type with
  | .tiny => some (psFetchInt8 convertOther r field row)
  | .short | .year => some (psFetchInt16 convertOther r field row)
  | .int24 | .long | .cursor => some (psFetchInt32 convertOther r field row)
  | .longlong => some (psFetchInt64 convertOther r field row)
  | _ => none

end Convert

/-! ## what column, row and bind denote. -/

/-- Bytes per value of an integer column or bind. -/
def intWidth : FieldType → Nat
  | .tiny => 1
  | .short => 2
  | .int24 | .long => 4
  | .longlong => 8
  | _ => 0

def integerColumns : List FieldType := [.tiny, .short, .int24, .long, .longlong]
def integerBinds : List FieldType := [.tiny, .short, .long, .longlong]

/-- The mathematical integer in the row. -/
def rowValue (field : MysqlField) (row : List UInt8) : Int :=
  intOf (intWidth field.type) field.isUnsigned (uintKorr (intWidth field.type) row)

/-- The integer that bytes in the bind buffer denote under the bind's type and signedness. -/
def bindValue (r : MysqlBind) (buffer : List UInt8) : Int :=
  intOf (intWidth r.bufferType) r.isUnsigned (leNat (buffer.take (intWidth r.bufferType)))

/-- **Exact or flagged**: after the fetch took `r` to `r'`, the flag is clear exactly when the row's
integer `v` is a value of the bind type, and then the buffer denotes it. -/
def ExactOrFlagged (r : MysqlBind) (v : Int) (r' : MysqlBind) : Prop :=
  (r'.error = false ↔ Representable (intWidth r.bufferType) r.isUnsigned v) ∧
    (r'.error = false → bindValue r r'.buffer = v)

instance (r : MysqlBind) (v : Int) (r' : MysqlBind) : Decidable (ExactOrFlagged r v r') := by
  unfold ExactOrFlagged; infer_instance

/-- A fetch that is exact for one integer is exact for another just when they agree on the bind
type. -/
theorem exactOrFlagged_iff_of_exact {r r' : MysqlBind} {c v : Int} (h : ExactOrFlagged r c r') :
    ExactOrFlagged r v r' ↔ ((Representable (intWidth r.bufferType) r.isUnsigned c ↔
          Representable (intWidth r.bufferType) r.isUnsigned v) ∧
        (Representable (intWidth r.bufferType) r.isUnsigned c → c = v)) := by
  obtain ⟨hflag, hval⟩ := h
  constructor
  · rintro ⟨hflag', hval'⟩
    refine ⟨hflag.symm.trans hflag', fun hc => ?_⟩
    have he := hflag.mpr hc
    rw [← hval he, ← hval' he]
  · rintro ⟨hrep, heq⟩
    refine ⟨hflag.trans hrep, fun he => ?_⟩
    rw [hval he, heq (hflag.mp he)]

/-! ## the two paths. -/

variable {w : Nat}

theorem uintKorr_lt {row : List UInt8} (h : w ≤ row.length) : uintKorr w row < 256 ^ w := by
  have := leNat_lt (row.take w)
  rwa [length_take, min_eq_left h] at this

theorem leNat_storeInt (w : Nat) (v : Int) : leNat ((storeInt w v).take w) = patternOf w v := by
  rw [storeInt, take_of_length_le (by simp), leNat_leBytes_of_lt (patternOf_lt w v)]

theorem patternOf_intOf (w : Nat) (u : Bool) {n : Nat} (h : n < 256 ^ w) : patternOf w (intOf w u n) = n := by
  have hcast : ((256 ^ w : Nat) : Int) = 256 ^ w := by push_cast; rfl
  have hmod : (intOf w u n) % 256 ^ w = n % 256 ^ w := by
    cases u with
    | true => rfl
    | false => rw [intOf, if_neg (by simp), ← hcast, Int.bmod_emod]
  have hn : (n : Int) % 256 ^ w = n :=
    Int.emod_eq_of_lt (by omega) (by rw [← hcast]; exact_mod_cast h)
  rw [patternOf, hmod, hn, Int.toNat_natCast]

theorem patternOf_castS (w : Nat) (v : Int) : patternOf w (castS w v) = patternOf w v := by
  have hcast : ((256 ^ w : Nat) : Int) = 256 ^ w := by push_cast; rfl
  rw [patternOf, patternOf, castS, ← hcast, Int.bmod_emod]

/-- The copying path stores the row's own pattern. -/
theorem castU_sintKorr {row : List UInt8} (h : w ≤ row.length) : castU w (sintKorr w row) = uintKorr w row := by
  have hp := patternOf_intOf w false (uintKorr_lt h)
  have h0 : 0 ≤ castU w (sintKorr w row) := Int.emod_nonneg _ (by positivity)
  rw [← Int.toNat_of_nonneg h0]
  exact_mod_cast hp

/-- Agreement of the same bytes under two signednesses: they differ only when the top bit is set
and the signs do. -/
theorem copy_flag_iff {n : Nat} (h : n < 256 ^ w) (fu bu : Bool) :
    ((fu != bu && decide (256 ^ w ≤ 2 * (n : Int))) = false ↔ Representable w bu (intOf w fu n)) ∧
    ((fu != bu && decide (256 ^ w ≤ 2 * (n : Int))) = false → intOf w bu n = intOf w fu n) := by
  have hcast : ((256 ^ w : Nat) : Int) = 256 ^ w := by push_cast; rfl
  have hn : (n : Int) < 256 ^ w := by rw [← hcast]; exact_mod_cast h
  have hsigned : intOf w false n = if 2 * (n : Int) < 256 ^ w then (n : Int) else n - 256 ^ w := by
    rw [intOf, if_neg (by simp), Int.bmod_def, hcast, Int.emod_eq_of_lt (by omega) hn]
    by_cases hlt : 2 * (n : Int) < 256 ^ w
    · rw [if_pos hlt, if_pos (by omega)]
    · rw [if_neg hlt, if_neg (by omega)]
  have hunsigned : intOf w true n = n := rfl
  by_cases hfb : fu = bu
  · -- same sign: the copied pattern always means the column's integer
    subst hfb
    have hrep := representable_intOf fu h
    simp [hrep]
  -- opposite signs: the pattern keeps its meaning exactly below the top bit
  have hflag : (fu != bu) = true := by simpa using hfb
  rw [hflag, Bool.true_and, decide_eq_false_iff_not]
  cases fu with
  | true =>
    obtain rfl : bu = false := by cases bu <;> simp_all
    simp only [hsigned, hunsigned, Representable, Bool.false_eq_true, if_false]
    refine ⟨by omega, fun hlt => ?_⟩
    rw [if_pos (by omega)]
  | false =>
    obtain rfl : bu = true := by cases bu <;> simp_all
    simp only [hsigned, hunsigned, Representable, if_true]
    refine ⟨?_, fun hlt => ?_⟩
    · split <;> omega
    · rw [if_pos (by omega)]

/-- The copying path, column width equal to bind width. -/
theorem copyArm_exactOrFlagged (r : MysqlBind) (field : MysqlField) (row : List UInt8)
    (hrow : w ≤ row.length) (hbind : intWidth r.bufferType = w) :
    ExactOrFlagged r (intOf w field.isUnsigned (uintKorr w row)) (copyArm w r field row) := by
  have hflag := copy_flag_iff (uintKorr_lt hrow) field.isUnsigned r.isUnsigned
  have hval : bindValue r (copyArm w r field row).buffer = intOf w r.isUnsigned (uintKorr w row) := by
    simp only [bindValue, copyArm, hbind]
    rw [leNat_storeInt, castU_sintKorr hrow]
    congr 1
    have := patternOf_intOf w true (uintKorr_lt hrow)
    simpa [intOf] using this
  refine ⟨?_, fun he => ?_⟩
  · simpa only [copyArm, hbind, castU_sintKorr hrow] using hflag.1
  · rw [hval]
    apply hflag.2
    simpa only [copyArm, castU_sintKorr hrow] using he

theorem numericTruncation_eq_false_iff (val lo hi : Int) :
    numericTruncation val lo hi = false ↔ lo ≤ val ∧ val ≤ hi := by
  simp only [numericTruncation, Bool.or_eq_false_iff, decide_eq_false_iff_not]
  omega

/-- A `longlong` as `convert_from_long` takes it. -/
def IsLonglong (val : Int) : Prop := -(2 ^ 63) ≤ val ∧ val < 2 ^ 63

section Convert

variable (convertOther : MysqlBind → MysqlField → Int → Nat → MysqlBind)

/-- The converting path is exact for the `longlong` it is given. In the `LONGLONG` arm the sign test
compares the bind's `my_bool` with the flag bit; a negative value of a signed column is the only case
in which it is asked. -/
theorem convertFromLong_exactOrFlagged (r : MysqlBind) (field : MysqlField) (val : Int)
    (isUnsigned : Nat) (hval : IsLonglong val) (hbind : r.bufferType ∈ integerBinds)
    (hsign : r.bufferType = .longlong → val < 0 → isUnsigned = 0) :
    ExactOrFlagged r val (convertFromLong convertOther r field val isUnsigned) := by
  -- every arm stores the pattern of `val` at
  have hstore : ∀ r', ∀ w, intWidth r.bufferType = w →
      leNat (r'.buffer.take w) = patternOf w val →
      (r'.error = false ↔ Representable w r.isUnsigned val) → ExactOrFlagged r val r' := by
    intro r' w hw hbuf herr
    refine ⟨by rw [hw]; exact herr, fun he => ?_⟩
    rw [bindValue, hw, hbuf]
    exact intOf_patternOf (herr.mp he)
  obtain ⟨hlo, hhi⟩ := hval
  simp only [integerBinds, mem_cons, not_mem_nil, or_false] at hbind
  rcases hbind with h | h | h | h
  · refine hstore _ 1 ?_ ?_ ?_ <;> simp only [convertFromLong, h, intWidth]
    · exact leNat_storeInt 1 val
    · cases r.isUnsigned <;>
        simp only [Bool.false_eq_true, if_false, if_true, numericTruncation_eq_false_iff, Representable] <;> omega
  · refine hstore _ 2 ?_ ?_ ?_ <;> simp only [convertFromLong, h, intWidth]
    · rw [leNat_storeInt, patternOf_castS]
    · cases r.isUnsigned <;>
        simp only [Bool.false_eq_true, if_false, if_true, numericTruncation_eq_false_iff, Representable] <;> omega
  · refine hstore _ 4 ?_ ?_ ?_ <;> simp only [convertFromLong, h, intWidth]
    · rw [leNat_storeInt, patternOf_castS]
    · cases r.isUnsigned <;>
        simp only [Bool.false_eq_true, if_false, if_true, numericTruncation_eq_false_iff, Representable] <;> omega
  refine hstore _ 8 ?_ ?_ ?_ <;> simp only [convertFromLong, h, intWidth]
  · exact leNat_storeInt 8 val
  · by_cases hneg : val < 0
    · rw [hsign h hneg]
      cases r.isUnsigned <;> simp [hneg, myBool, Representable]; omega
    · cases r.isUnsigned <;> simp [Representable] <;> omega

/-! ## the whole product of column and bind types. -/

/-- The inputs on which the column's sign is lost: an unsigned `BIGINT` value within half a bind
range of `2 ^ 64`, read into a signed bind of one, two or four bytes. -/
def SignForgotten (r : MysqlBind) (field : MysqlField) (row : List UInt8) : Prop :=
  field.type = .longlong ∧ field.isUnsigned = true ∧ r.bufferType ≠ .longlong ∧
    r.isUnsigned = false ∧ 2 ^ 65 ≤ 2 * uintKorr 8 row + 256 ^ intWidth r.bufferType

/-- The value handed to `convert_from_long` by the fetch function of a `w`-byte column. -/
def widened (w : Nat) (field : MysqlField) (row : List UInt8) : Int :=
  castS 8 (intOf w field.isUnsigned (uintKorr w row))

theorem isLonglong_castS (v : Int) : IsLonglong (castS 8 v) := by
  have hlo := Int.le_bmod (x := v) (m := 256 ^ 8) (by decide)
  have hhi := Int.bmod_lt (x := v) (m := 256 ^ 8) (by decide)
  simp only [IsLonglong, castS]
  omega

theorem castS_of_isLonglong {v : Int} (h : IsLonglong v) : castS 8 v = v := by
  obtain ⟨hlo, hhi⟩ := h
  exact Int.bmod_eq_of_le_mul_two (by push_cast; omega) (by push_cast; omega)

/-- Only an unsigned eight-byte column holds integers outside `longlong`. -/
theorem isLonglong_intOf {u : Bool} {n : Nat} (hw : w = 1 ∨ w = 2 ∨ w = 4 ∨ w = 8) (hu : w = 8 → u = false)
    (h : n < 256 ^ w) : IsLonglong (intOf w u n) := by
  have hrep := representable_intOf u h
  rcases hw with rfl | rfl | rfl | rfl
  case inr.inr.inr =>
    rw [hu rfl] at hrep ⊢
    simp only [Representable, Bool.false_eq_true, if_false] at hrep
    simp only [IsLonglong]; omega
  all_goals
    cases u <;> simp only [Representable, Bool.false_eq_true, if_false, if_true] at hrep <;>
      (simp only [IsLonglong]; omega)

/-- The widening written in `ps_fetch_int16`, `_int32` and `_int64`. -/
theorem ite_castU_sintKorr {row : List UInt8} (h : w ≤ row.length) (u : Bool) :
    (if u then castU w (sintKorr w row) else sintKorr w row) = intOf w u (uintKorr w row) := by
  cases u with
  | true => rw [castU_sintKorr h]; rfl
  | false => rfl

/-- **The fetch is one of the two paths**, whatever the column. -/
theorem psFetchInteger_cases (r : MysqlBind) (field : MysqlField) (row : List UInt8)
    (hcol : field.type ∈ integerColumns) (hbind : r.bufferType ∈ integerBinds)
    (hrow : intWidth field.type ≤ row.length) :
    (intWidth field.type = intWidth r.bufferType ∧ psFetchInteger convertOther r field row =
        some (copyArm (intWidth field.type) r field row, row.drop (intWidth field.type))) ∨
    (intWidth field.type ≠ intWidth r.bufferType ∧ psFetchInteger convertOther r field row =
        some (convertFromLong convertOther r field (widened (intWidth field.type) field row)
          (field.flags &&& unsignedFlag), row.drop (intWidth field.type))) := by
  have hnarrow : ∀ w, w = 1 ∨ w = 2 ∨ w = 4 → w ≤ row.length →
      widened w field row = intOf w field.isUnsigned (uintKorr w row) := fun w hw hlen =>
    castS_of_isLonglong (isLonglong_intOf (by omega) (by omega) (uintKorr_lt hlen))
  have hlong (hrow : 4 ≤ row.length) :
      (if field.isUnsigned then castU 4 (sint4korr row) else sint4korr row) = widened 4 field row := by
    rw [hnarrow 4 (by omega) hrow]
    exact ite_castU_sintKorr hrow _
  simp only [integerColumns, integerBinds, mem_cons, not_mem_nil, or_false] at hcol hbind
  rcases hcol with h | h | h | h | h <;> rw [h] at hrow <;> simp only [intWidth] at hrow
  · have hl : (if field.isUnsigned then (uintKorr 1 row : Int) else castS 1 (uintKorr 1 row)) =
        widened 1 field row := by
      rw [hnarrow 1 (by omega) hrow]; rfl
    rcases hbind with hb | hb | hb | hb <;>
      simp [psFetchInteger, psFetchInt8, psFetchFrom1To8Bytes, h, hb, intWidth, hl]
  · have hl : (if field.isUnsigned then castU 2 (sint2korr row) else sint2korr row) =
        widened 2 field row := by
      rw [hnarrow 2 (by omega) hrow]; exact ite_castU_sintKorr hrow _
    rcases hbind with hb | hb | hb | hb <;>
      simp [psFetchInteger, psFetchInt16, psFetchFrom1To8Bytes, h, hb, intWidth, hl]
  · rcases hbind with hb | hb | hb | hb <;>
      simp [psFetchInteger, psFetchInt32, psFetchFrom1To8Bytes, h, hb, intWidth, hlong hrow]
  · rcases hbind with hb | hb | hb | hb <;>
      simp [psFetchInteger, psFetchInt32, psFetchFrom1To8Bytes, h, hb, intWidth, hlong hrow]
  · have hl : (if field.isUnsigned then castS 8 (castU 8 (sint8korr row)) else sint8korr row) =
        widened 8 field row := by
      have hs : sint8korr row = intOf 8 false (uintKorr 8 row) := rfl
      have hu : castU 8 (sint8korr row) = intOf 8 true (uintKorr 8 row) := castU_sintKorr hrow
      have hfix : castS 8 (intOf 8 false (uintKorr 8 row)) = intOf 8 false (uintKorr 8 row) :=
        castS_of_isLonglong (isLonglong_intOf (by omega) (fun _ => rfl) (uintKorr_lt hrow))
      rw [widened, hu, hs]
      cases field.isUnsigned with
      | true => rw [if_pos rfl]
      | false => rw [if_neg (by simp), hfix]
    rcases hbind with hb | hb | hb | hb <;>
      simp [psFetchInteger, psFetchInt64, psFetchFrom1To8Bytes, h, hb, intWidth, hl]

/-- Narrowing an unsigned eight-byte value through `longlong` asks the right question exactly outside
the forgotten-sign inputs. -/
theorem representable_castS_iff {n : Nat} {u : Bool} (hw : w = 1 ∨ w = 2 ∨ w = 4) (hn : n < 256 ^ 8) :
    ((Representable w u (castS 8 (n : Int)) ↔ Representable w u (n : Int)) ∧
      (Representable w u (castS 8 (n : Int)) → castS 8 (n : Int) = n)) ↔
    ¬ (u = false ∧ 2 ^ 65 ≤ 2 * n + 256 ^ w) := by
  have hcast : castS 8 n = if n < 2 ^ 63 then (n : Int) else n - 2 ^ 64 := by
    rw [castS, Int.bmod_def]
    norm_num at ⊢
    rw [Int.emod_eq_of_lt (by omega) (by omega)]
    by_cases h : n < 2 ^ 63
    · rw [if_pos (by norm_num at h; omega), if_pos (by norm_num at h; omega)]
    · rw [if_neg (by norm_num at h; omega), if_neg (by norm_num at h; omega)]
  rw [hcast]
  by_cases hlt : n < 2 ^ 63
  · rw [if_pos hlt]
    rcases hw with rfl | rfl | rfl <;> simp <;> intro _ <;> omega
  · rcases hw with rfl | rfl | rfl <;> cases u <;> simp [Representable] <;> omega

/-- **Integer fetch is exact or flagged, except where the sign was forgotten.** For every integer
column and every integer bind, of either signedness, and every value. -/
theorem fetchInt_exact_or_flagged_iff (r : MysqlBind) (field : MysqlField) (row : List UInt8)
    (hcol : field.type ∈ integerColumns) (hbind : r.bufferType ∈ integerBinds)
    (hrow : intWidth field.type ≤ row.length) :
    (∃ r' rest, psFetchInteger convertOther r field row = some (r', rest) ∧
      ExactOrFlagged r (rowValue field row) r') ↔ ¬ SignForgotten r field row := by
  have hwidths : ∀ t ∈ integerColumns ++ integerBinds,
      intWidth t = 1 ∨ intWidth t = 2 ∨ intWidth t = 4 ∨ intWidth t = 8 := by decide
  have hwc := hwidths _ (mem_append_left _ hcol)
  have hwb := hwidths _ (mem_append_right _ hbind)
  have hlong : ∀ t ∈ integerColumns ++ integerBinds, intWidth t = 8 → t = .longlong := by decide
  rcases psFetchInteger_cases convertOther r field row hcol hbind hrow with ⟨hw, he⟩ | ⟨hw, he⟩
  · -- same width: the copying path is always exact, and the sign cannot be forgotten
    have hgood := copyArm_exactOrFlagged r field row hrow hw.symm
    have hnot : ¬ SignForgotten r field row := by
      rintro ⟨hf, -, hb, -⟩
      refine hb (hlong _ (mem_append_right _ hbind) ?_)
      rw [← hw, hf]; rfl
    exact ⟨fun _ => hnot, fun _ => ⟨_, _, he, hgood⟩⟩
  have hn := uintKorr_lt hrow
  have hconv := convertFromLong_exactOrFlagged convertOther r field
    (widened (intWidth field.type) field row) (field.flags &&& unsignedFlag)
    (isLonglong_castS _) hbind (by
      intro hb hneg
      by_contra hne
      have hfu : field.isUnsigned = true := by simpa [MysqlField.isUnsigned] using hne
      have hwc' : intWidth field.type ≠ 8 := by rw [hb] at hw; exact hw
      rw [widened, castS_of_isLonglong (isLonglong_intOf hwc (fun h => absurd h hwc') hn), hfu]
        at hneg
      simp [intOf] at hneg
      omega)
  -- which integer does the converting path see?
  by_cases hbig : intWidth field.type = 8 ∧ field.isUnsigned = true
  · obtain ⟨hw8, hfu⟩ := hbig
    have hval : rowValue field row = (uintKorr (intWidth field.type) row : Int) := by
      rw [rowValue, hfu]; rfl
    have hwid : widened (intWidth field.type) field row =
        castS 8 (uintKorr (intWidth field.type) row : Int) := by
      rw [widened, hfu]; rfl
    have hn8 : uintKorr (intWidth field.type) row < 256 ^ 8 := by simpa only [hw8] using hn
    have hiff := representable_castS_iff (w := intWidth r.bufferType) (u := r.isUnsigned)
      (by omega) hn8
    have hforgot : SignForgotten r field row ↔
        (r.isUnsigned = false ∧
          2 ^ 65 ≤ 2 * uintKorr (intWidth field.type) row + 256 ^ intWidth r.bufferType) := by
      have hb : r.bufferType ≠ .longlong := by
        intro hb; rw [hb] at hw; exact hw hw8
      have hf := hlong _ (mem_append_left _ hcol) hw8
      rw [hw8]
      simp only [SignForgotten, hf, hfu, true_and, ne_eq, hb, not_false_eq_true]
    rw [hwid] at hconv
    rw [hforgot, ← hiff, ← exactOrFlagged_iff_of_exact hconv, ← hval]
    constructor
    · rintro ⟨r', rest, he', hgood⟩
      rw [he] at he'
      cases he'
      exact hgood
    · intro hgood
      exact ⟨_, _, he, hgood⟩
  have hval : widened (intWidth field.type) field row = rowValue field row :=
    castS_of_isLonglong (isLonglong_intOf hwc (by simpa using hbig) hn)
  have hnot : ¬ SignForgotten r field row := by
    rintro ⟨hf, hfu, -⟩
    exact hbig ⟨by rw [hf]; rfl, hfu⟩
  exact ⟨fun _ => hnot, fun _ => ⟨_, _, he, hval ▸ hconv⟩⟩

end Convert

/-- A signed `TINYINT` bind. -/
def tinyBind : MysqlBind :=
  { bufferType := .tiny, isUnsigned := false, buffer := [], bufferLength := 1, error := false }

/-- An unsigned `BIGINT` column. -/
def bigintUnsigned : MysqlField := { type := .longlong, flags := unsignedFlag }

/-- The row of the largest unsigned `BIGINT`, `2 ^ 64 - 1`. -/
def maxBigintRow : List UInt8 := List.replicate 8 255

/-- `fetchInt_exact_or_flagged_iff` at an input it covers: 200 in an unsigned `BIGINT`, flagged for a
signed `TINYINT`. -/
theorem fetchInt_bigint_200 : ∃ r' rest, psFetchInteger (fun r _ _ _ => r) tinyBind bigintUnsigned (leBytes 8 200) =
        some (r', rest) ∧ ExactOrFlagged tinyBind (rowValue bigintUnsigned (leBytes 8 200)) r' :=
  (fetchInt_exact_or_flagged_iff _ tinyBind bigintUnsigned (leBytes 8 200) (by decide) (by decide)
    (by decide)).mpr (by rintro ⟨-, -, -, -, h⟩; revert h; decide)

/-- The forgotten sign: `2 ^ 64 - 1` arrives in a signed `TINYINT` as `-1` with a clear flag. -/
theorem fetchInt_max_bigint_unflagged :
    ¬ ∃ r' rest, psFetchInteger (fun r _ _ _ => r) tinyBind bigintUnsigned maxBigintRow =
        some (r', rest) ∧ ExactOrFlagged tinyBind (rowValue bigintUnsigned maxBigintRow) r' := by
  rintro ⟨r', rest, he, hgood⟩
  have hr : r' = { tinyBind with buffer := [255], error := false } := by
    have : psFetchInteger (fun r _ _ _ => r) tinyBind bigintUnsigned maxBigintRow =
        some ({ tinyBind with buffer := [255], error := false }, []) := by decide
    cases he
    rfl
  rw [hr] at hgood
  revert hgood
  decide

end ObConnector.Stmt
