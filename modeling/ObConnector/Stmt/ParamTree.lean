/-
# ObConnector.Stmt.ParamTree -- objects and arrays as statement parameters.

An application binds an object or an array as a tree of headers: the buffer of an object is a row of
headers, one behind the other, of the size that the type of each element has, and `length` is the size
of that row; for an array `length` is the number of elements. The driver walks such a row with a cursor
(`skip_param_complex`), twice over the whole tree: to compute the bytes that the value takes
(`calculate_param_complex_len`) and to write them (`store_param_all_complex`); objects are walked once
more to count their elements (`mariadb_stmt.c`).

The cursor is an offset into the row of headers. A walk hands back what it computed together with its
`Trace`: the offset of every header it looked at, what it did below it, and where the cursor stood in
the end. A loop of the source runs on fuel.
-/
import ObConnector.Stmt.ComplexFetch

namespace ObConnector.Stmt.Param

open Lib Net
open Stmt.Complex (OracleInterval sizeofComplexBindBasic sizeofComplexBindString sizeofComplexBindObject)

/-! ## the values -/

/-- `ORACLE_TIME` of an application, the zone names being C strings. -/
structure OracleTimestamp where
  century : Int
  year : Int
  month : Nat
  day : Nat
  hour : Nat
  minute : Nat
  second : Nat
  secondPart : Nat
  offsetHour : Int
  offsetMinute : Int
  tzName : Option (List UInt8)
  tzAbbr : Option (List UInt8)
  deriving DecidableEq, Repr

def maxObLobLocatorHeaderLength : Nat := 40

/-- `OB_LOB_LOCATOR` and `OB_LOB_LOCATOR_V2`, whose headers have the version and the two payload fields at
the same offsets. `data_` holds the row id and the payload. -/
structure LobLocator where
  version : UInt8
  hasExtern : Bool
  header : List UInt8
  payloadOffset : Nat
  payloadSize : Nat
  data : List UInt8
  header_length : header.length = maxObLobLocatorHeaderLength
  offset_lt : payloadOffset < 2 ^ 32
  size_lt : payloadSize < 2 ^ 32
  data_length : data.length = payloadOffset + payloadSize

/-- The value behind a `MYSQL_COMPLEX_BIND_HEADER`, with its type. -/
inductive Basic where
  | tiny (v : BitVec 8)
  | short (v : BitVec 16)
  | long (v : BitVec 32)
  | cursor (v : BitVec 32)
  | longlong (v : BitVec 64)
  | float (v : BitVec 32)
  | double (v : BitVec 64)
  | time (t : MysqlTime)
  | date (t : MysqlTime)
  | datetime (t : MysqlTime)
  | timestamp (t : MysqlTime)
  | oraBlob (l : LobLocator)
  | oraClob (l : LobLocator)
  | obTimestampNano (t : OracleTimestamp)
  | obTimestampWithLocalTimeZone (t : OracleTimestamp)
  | obTimestampWithTimeZone (t : OracleTimestamp)
  | obIntervalYm (t : OracleInterval)
  | obIntervalDs (t : OracleInterval)

/-- The types of `MYSQL_COMPLEX_BIND_STRING`. -/
inductive StringType where
  | tinyBlob | mediumBlob | longBlob | obRaw | blob | varchar | varString | string | obNvarchar2 | obNchar
  | decimal | newdecimal | obNumberFloat | json | obUrowid
  deriving DecidableEq, Repr

/-- An element, of any type that `store_param_all_complex` encodes. -/
inductive Element where
  | basic (isNull : Bool) (value : Basic)
  | string (isNull : Bool) (type : StringType) (content : List UInt8)
  | object (isNull : Bool) (elements : List Element)
  | array (isNull : Bool) (elements : List Element)

def Basic.type : Basic → FieldType
  | .tiny _ => .tiny | .short _ => .short | .long _ => .long | .cursor _ => .cursor | .longlong _ => .longlong
  | .float _ => .float | .double _ => .double | .time _ => .time | .date _ => .date | .datetime _ => .datetime
  | .timestamp _ => .timestamp | .oraBlob _ => .oraBlob | .oraClob _ => .oraClob
  | .obTimestampNano _ => .obTimestampNano | .obTimestampWithLocalTimeZone _ => .obTimestampWithLocalTimeZone
  | .obTimestampWithTimeZone _ => .obTimestampWithTimeZone
  | .obIntervalYm _ => .obIntervalYm | .obIntervalDs _ => .obIntervalDs

def StringType.type : StringType → FieldType
  | .tinyBlob => .tinyBlob | .mediumBlob => .mediumBlob | .longBlob => .longBlob | .obRaw => .obRaw | .blob => .blob
  | .varchar => .varchar | .varString => .varString | .string => .string | .obNvarchar2 => .obNvarchar2
  | .obNchar => .obNchar | .decimal => .decimal | .newdecimal => .newdecimal | .obNumberFloat => .obNumberFloat
  | .json => .json | .obUrowid => .obUrowid

/-- `header->buffer_type`. -/
def Element.type : Element → FieldType
  | .basic _ v => v.type
  | .string _ t _ => t.type
  | .object _ _ => .object
  | .array _ _ => .array

/-- `header->is_null`. -/
def Element.isNull : Element → Bool
  | .basic n _ | .string n _ _ | .object n _ | .array n _ => n

/-- The size of the structure that the header of the element is. -/
def Element.headerSize : Element → Nat
  | .basic _ _ => sizeofComplexBindBasic
  | .string _ _ _ => sizeofComplexBindString
  | .object _ _ | .array _ _ => sizeofComplexBindObject

/-- The bytes that a row of headers takes. -/
def headerBytes (es : List Element) : Nat := (es.map Element.headerSize).sum

/-- The header at an offset; what does not start there is not a header. -/
def headerAt : List Element → Nat → Except Fault Element
  | [], _ => .error .readOutside
  | e :: es, cursor =>
    if cursor = 0 then .ok e
    else if cursor < e.headerSize then .error .readOutside
    else headerAt es (cursor - e.headerSize)

/-! ## the cursor and its loops -/

/-- `skip_param_complex`. -/
def skipParamComplex (type : FieldType) (cursor : Nat) : Nat :=
  match type with
  | .tiny | .short | .long | .longlong | .float | .double | .time | .date | .datetime | .timestamp | .cursor
  | .oraBlob | .oraClob | .obTimestampNano | .obTimestampWithTimeZone | .obTimestampWithLocalTimeZone =>
    cursor + sizeofComplexBindBasic
  | .tinyBlob | .mediumBlob | .longBlob | .obRaw | .blob | .varchar | .varString | .string | .obNvarchar2
  | .obNchar | .decimal | .newdecimal | .obNumberFloat | .json | .obUrowid => cursor + sizeofComplexBindString
  | .array => cursor + sizeofComplexBindObject
  | .object => cursor + sizeofComplexBindObject
  | _ => cursor

/-- What a walk did: the headers it looked at by offset, with what was done below each, and the cursor at
the end of the loop. -/
inductive Trace where
  | leaf
  | walk (steps : List (Nat × Trace)) (stop : Nat)
  | after (first second : Trace)

section Loops

variable {α : Type} (visit : Element → Except Fault (α × Trace)) (es : List Element)

/-- `while (header != buffer_end)`. -/
def untilEnd : Nat → Nat → Except Fault (List α × List (Nat × Trace) × Nat)
  | 0, _ => .error .outOfFuel
  | fuel + 1, cursor =>
    if cursor = headerBytes es then .ok ([], [], cursor)
    else do
      let header ← headerAt es cursor
      let (a, trace) ← visit header
      let (as, steps, stop) ← untilEnd fuel (skipParamComplex header.type cursor)
      return (a :: as, (cursor, trace) :: steps, stop)

/-- `for (; i < limit; i++)` with an `unsigned int i`. -/
def countUp (limit : Nat) : Nat → Nat → Nat → Except Fault (List α × List (Nat × Trace) × Nat)
  | 0, _, _ => .error .outOfFuel
  | fuel + 1, i, cursor =>
    if i < limit then do
      let header ← headerAt es cursor
      let (a, trace) ← visit header
      let (as, steps, stop) ← countUp limit fuel ((i + 1) % 2 ^ 32) (skipParamComplex header.type cursor)
      return (a :: as, (cursor, trace) :: steps, stop)
    else .ok ([], [], cursor)

end Loops

/-! ## the length -/

def maxTimeRepLength : Nat := 13
def maxDateRepLength : Nat := 5
def maxDatetimeRepLength : Nat := 12
def maxOracleTimestampRepLength : Nat := 13

/-- `calculate_param_oracle_timestamp_len`. -/
def calculateParamOracleTimestampLen (t : OracleTimestamp) : Nat :=
  17 + (t.tzName.elim 0 List.length) + (t.tzAbbr.elim 0 List.length)

/-- The length of a locator, computed in an `unsigned int`, with its own length before it. -/
def lobLength (l : LobLocator) : Nat := (maxObLobLocatorHeaderLength + l.payloadOffset + l.payloadSize) % 2 ^ 32

/-- The cases of `calculate_param_complex_len` for a plain header. Intervals fall under its default. -/
def basicLen : Basic → Nat
  | .tiny _ => 1
  | .short _ => 2
  | .long _ | .cursor _ => 4
  | .longlong _ => 8
  | .float _ => 4
  | .double _ => 8
  | .time _ => maxTimeRepLength
  | .date _ => maxDateRepLength
  | .datetime _ | .timestamp _ => maxDatetimeRepLength
  | .oraBlob l | .oraClob l => lobLength l + mysqlStoreLengthSize (lobLength l)
  | .obTimestampWithTimeZone t => calculateParamOracleTimestampLen t
  | .obTimestampNano _ | .obTimestampWithLocalTimeZone _ => maxOracleTimestampRepLength
  | .obIntervalYm _ | .obIntervalDs _ => 0

/-- `calculate_param_object_len`; the elements are counted in an `int`, to which 7 is added. -/
def calculateParamObjectLen (complexLen : Element → Except Fault (Nat × Trace)) (fuel : Nat) (es : List Element) :
    Except Fault (Nat × Trace) := do
  let (lens, steps, stop) ← untilEnd complexLen es fuel 0
  if 2 ^ 31 - 8 < lens.length then throw .intOverflow
  return (lens.sum + (lens.length + 7) / 8, .walk steps stop)

/-- `calculate_param_array_len`. -/
def calculateParamArrayLen (complexLen : Element → Except Fault (Nat × Trace)) (fuel : Nat) (es : List Element) :
    Except Fault (Nat × Trace) := do
  let (lens, steps, stop) ← countUp complexLen es es.length fuel 0 0
  return (mysqlStoreLengthSize es.length + (es.length + 7) / 8 + lens.sum, .walk steps stop)

/-- `calculate_param_complex_len`. -/
def calculateParamComplexLen : Nat → Element → Except Fault (Nat × Trace)
  | 0, _ => .error .outOfFuel
  | fuel + 1, e =>
    if e.isNull then .ok (0, .leaf)
    else match e with
      | .basic _ v => .ok (basicLen v, .leaf)
      | .string _ _ content => .ok (content.length + mysqlStoreLengthSize content.length, .leaf)
      | .array _ es => calculateParamArrayLen (calculateParamComplexLen fuel) fuel es
      | .object _ es => calculateParamObjectLen (calculateParamComplexLen fuel) fuel es

/-! ## the bytes -/

/-- `net_store_datetime`. -/
def netStoreDatetime (t : MysqlTime) : List UInt8 :=
  let buffer := leBytes 2 t.year ++ [UInt8.ofNat t.month, UInt8.ofNat t.day, UInt8.ofNat t.hour,
    UInt8.ofNat t.minute, UInt8.ofNat t.second] ++ leBytes 4 t.secondPart
  let len :=
    if t.secondPart ≠ 0 then 11
    else if t.hour ≠ 0 ∨ t.minute ≠ 0 ∨ t.second ≠ 0 then 7
    else if t.year ≠ 0 ∨ t.month ≠ 0 ∨ t.day ≠ 0 then 4
    else 0
  UInt8.ofNat len :: buffer.take len

/-- `store_param_date_complex`. -/
def storeParamDateComplex (t : MysqlTime) : List UInt8 :=
  netStoreDatetime { t with hour := 0, minute := 0, second := 0, secondPart := 0 }

/-- `(char) n`. -/
def charOf (n : Int) : UInt8 := UInt8.ofNat (patternOf 1 n)

/-- `store_param_oracle_timestamp_nano_complex`. -/
def storeParamOracleTimestampNanoComplex (t : OracleTimestamp) : List UInt8 :=
  [12, charOf t.century, charOf t.year, UInt8.ofNat t.month, UInt8.ofNat t.day, UInt8.ofNat t.hour,
    UInt8.ofNat t.minute, UInt8.ofNat t.second] ++ leBytes 4 t.secondPart ++ [9]

/-- A zone name with its length, or the length 0. -/
def storeZone (name : Option (List UInt8)) : List UInt8 :=
  match name with
  | none => storeLength 0
  | some s => storeLength s.length ++ s

/-- `store_param_oracle_timestamp_tz_complex`. The length is written last, counted back from the end as if
each name had one byte of length before it. -/
def storeParamOracleTimestampTzComplex (t : OracleTimestamp) : List UInt8 :=
  let bytes := storeParamOracleTimestampNanoComplex t ++ [charOf t.offsetHour, charOf t.offsetMinute] ++
    storeZone t.tzName ++ storeZone t.tzAbbr
  let length := 16 + t.tzName.elim 0 List.length + t.tzAbbr.elim 0 List.length
  bytes.set (bytes.length - length - 1) (UInt8.ofNat length)

/-- `store_param_oracle_interval_complex`. -/
def storeParamOracleIntervalComplex : OracleInterval → List UInt8
  | .ym symbol year month scale =>
    [7, if 0 ≤ symbol then 0 else 1] ++ leBytes 4 (patternOf 4 year) ++ [UInt8.ofNat month, UInt8.ofNat scale]
  | .ds symbol day hour minute second fracSecond dayScale fracSecondScale =>
    [14, if 0 ≤ symbol then 0 else 1] ++ leBytes 4 (patternOf 4 day) ++
      [UInt8.ofNat hour, UInt8.ofNat minute, UInt8.ofNat second] ++ leBytes 4 (patternOf 4 fracSecond) ++
      [UInt8.ofNat dayScale, UInt8.ofNat fracSecondScale]

/-- `store_param_ob_lob_complex`: nothing for a version that is neither 1 nor 2, and without the extern
header for a locator of version 2 that has none. -/
def storeParamObLobComplex (l : LobLocator) : List UInt8 :=
  let payload := l.data.take ((l.payloadSize + l.payloadOffset) % 2 ^ 32)
  if l.version = 1 then storeLength (lobLength l) ++ l.header ++ payload
  else if l.version = 2 then
    storeLength (lobLength l) ++ (if l.hasExtern then l.header else l.header.take 8) ++ payload
  else []

/-- The cases of `store_param_all_complex` for a plain header. -/
def storeBasic : Basic → List UInt8
  | .tiny v => leBytes 1 v.toNat
  | .short v => leBytes 2 v.toNat
  | .long v | .cursor v | .float v => leBytes 4 v.toNat
  | .longlong v | .double v => leBytes 8 v.toNat
  | .time t => storeParamTimeComplex t
  | .date t => storeParamDateComplex t
  | .datetime t | .timestamp t => netStoreDatetime t
  | .oraBlob l | .oraClob l => storeParamObLobComplex l
  | .obTimestampNano t | .obTimestampWithLocalTimeZone t => storeParamOracleTimestampNanoComplex t
  | .obTimestampWithTimeZone t => storeParamOracleTimestampTzComplex t
  | .obIntervalYm t | .obIntervalDs t => storeParamOracleIntervalComplex t

/-- The null bits: bit `i & 7` of byte `i / 8` for element `i`. -/
def nullBuff (count : Nat) (nulls : List Bool) : List UInt8 :=
  (List.range ((count + 7) / 8)).map fun k => UInt8.ofNat
    (((List.range 8).map fun j => if nulls.getD (8 * k + j) false then 2 ^ j else 0).sum)

/-- One turn of the storing loops: a null element is not stored. -/
def storeUnlessNull (store : Element → Except Fault (List UInt8 × Trace)) (e : Element) :
    Except Fault ((Bool × List UInt8) × Trace) :=
  if e.isNull then .ok ((true, []), .leaf)
  else do
    let (bytes, trace) ← store e
    return ((false, bytes), trace)

/-- `store_param_object_complex`: the elements are counted, in an `unsigned int`, and then stored. -/
def storeParamObjectComplex (store : Element → Except Fault (List UInt8 × Trace)) (fuel : Nat) (es : List Element) :
    Except Fault (List UInt8 × Trace) := do
  let (seen, steps, stop) ← untilEnd (fun _ => .ok ((), .leaf)) es fuel 0
  let count := seen.length % 2 ^ 32
  let (stored, steps', stop') ← countUp (storeUnlessNull store) es count fuel 0 0
  return (nullBuff count (stored.map Prod.fst) ++ (stored.map Prod.snd).flatten,
    .after (.walk steps stop) (.walk steps' stop'))

/-- `store_param_array_complex`. `maxrarrLen` is given for a `MYSQL_TYPE_PLARRAY` towards a server that
takes it. -/
def storeParamArrayComplex (store : Element → Except Fault (List UInt8 × Trace)) (fuel : Nat)
    (maxrarrLen : Option Nat) (es : List Element) : Except Fault (List UInt8 × Trace) := do
  let head := match maxrarrLen with
    | some m => if es.length ≠ m then 0xfe :: (leBytes 4 es.length ++ leBytes 4 m) else storeLength es.length
    | none => storeLength es.length
  let (stored, steps, stop) ← countUp (storeUnlessNull store) es es.length fuel 0 0
  return (head ++ nullBuff es.length (stored.map Prod.fst) ++ (stored.map Prod.snd).flatten, .walk steps stop)

/-- `store_param_all_complex`. -/
def storeParamAllComplex : Nat → Element → Except Fault (List UInt8 × Trace)
  | 0, _ => .error .outOfFuel
  | fuel + 1, e => match e with
    | .basic _ v => .ok (storeBasic v, .leaf)
    | .string _ _ content => .ok (storeLength content.length ++ content, .leaf)
    | .array _ es => storeParamArrayComplex (storeParamAllComplex fuel) fuel none es
    | .object _ es => storeParamObjectComplex (storeParamAllComplex fuel) fuel es

end ObConnector.Stmt.Param
