/-
# ObConnector.Stmt.ComplexFetch -- the fetch of objects, arrays and XML values.

A column of type `MYSQL_TYPE_OBJECT` is read into one buffer of the caller: a tree of headers
(`MYSQL_COMPLEX_BIND_*`), each pointing to the headers of its children or to a scalar's bytes. The type
of the value is not in the row but in a cache of type descriptions that the driver asks the server for
(`get_complex_type`). Memory comes from `fetch_result_complex_alloc_space`, a bump pointer over the
caller's buffer that, once a piece does not fit, raises the error flag and goes on in an arena of its own
so that the length can still be counted (`ma_stmt_codec.c`, with the types of `ob_complex.h`).

A pointer is a place with an offset, the caller's buffer or one block of the arena. The headers and the
scalars are kept as records at their pointers, and every piece handed out is noted in `regions`.
Allocation succeeds. The sums of lengths are not reduced modulo `2 ^ 64`: all pieces are memory that
exists at one time, and the one length that is no length, `NULL_LENGTH`, is more than any object has
(`maxObject`).
-/
import ObConnector.Lib.Tiling
import ObConnector.Net.FieldLength
import ObConnector.Stmt.TimeBind

namespace ObConnector.Stmt.Complex

open Lib Net

/-! ## the type descriptions -/

/-- `enum enum_types`. -/
inductive EnumTypes where
  | number | varchar2 | char | date | object | collection | raw | long | longlong | tiny | short
  | float | double | nvarchar2 | obNumberFloat | obTimestampNano | obTimestampWithTimeZone
  | obTimestampWithLocalTimeZone | obIntervalYm | obIntervalDs | xmltype | obNchar | unknow
  deriving DecidableEq, Repr

/-- The names a `COMPLEX_TYPE` is looked up by. -/
structure TypeName where
  ownerName : Option (List UInt8)
  typeName : List UInt8
  deriving DecidableEq, Repr

/-- `CHILD_TYPE`. `object` gives the names of the `COMPLEX_TYPE` it points to; `none` is a pointer that
leads to none, null or never assigned. -/
structure ChildType where
  type : EnumTypes
  object : Option TypeName
  deriving DecidableEq, Repr

/-- `COMPLEX_TYPE_OBJECT`, `COMPLEX_TYPE_COLLECTION` and `COMPLEX_TYPE_XMLTYPE`. -/
inductive ComplexType where
  | object (child : List ChildType)
  | collection (child : ChildType)
  | xmltype (child : ChildType)
  deriving DecidableEq, Repr

/-- The types that `get_complex_type` finds, in the cache or at the server. -/
abbrev Types := TypeName → Option ComplexType

/-- `mysql_type_to_object_type`. -/
def mysqlTypeToObjectType : FieldType → EnumTypes
  | .long | .cursor => .long
  | .longlong => .longlong
  | .tiny => .tiny
  | .short => .short
  | .float => .float
  | .double => .double
  | .newdecimal => .number
  | .varchar | .varString | .string => .varchar2
  | .obNvarchar2 => .nvarchar2
  | .obNchar => .obNchar
  | .obRaw => .raw
  | .datetime => .date
  | .object => .object
  | .array => .collection
  | .obNumberFloat => .obNumberFloat
  | .obIntervalDs => .obIntervalDs
  | .obIntervalYm => .obIntervalYm
  | .obTimestampNano => .obTimestampNano
  | .obTimestampWithTimeZone => .obTimestampWithTimeZone
  | .obTimestampWithLocalTimeZone => .obTimestampWithLocalTimeZone
  | _ => .unknow

/-! ## memory -/

/-- Where a pointer leads: the variable `header` of `ps_fetch_result_type`, the buffer of the bind, or a
block that `ma_alloc_root` took from `bind_alloc`. -/
inductive Place where
  | stack
  | buffer
  | arena (block : Nat)
  deriving DecidableEq, Repr

structure Ptr where
  place : Place
  offset : Nat
  deriving DecidableEq, Repr

/-- The pointer `n` bytes further. -/
def Ptr.add (p : Ptr) (n : Nat) : Ptr := { p with offset := p.offset + n }

/-- `MYSQL_COMPLEX_BIND_HEADER` with the members its larger siblings add. -/
structure Header where
  bufferType : FieldType
  buffer : Option Ptr
  isNull : Bool
  typeName : Option (List UInt8)
  ownerName : Option (List UInt8)
  length : Nat
  deriving DecidableEq, Repr

/-- A header after `memset`: the type code `0` is `MYSQL_TYPE_DECIMAL`. -/
def zeroHeader : Header := ⟨.decimal, none, false, none, none, 0⟩

/-- `ORACLE_INTERVAL`, without the member of the union that is not in use. -/
inductive OracleInterval where
  | ym (symbol : Int) (year : Int) (month scale : Nat)
  | ds (symbol : Int) (day : Int) (hour minute second : Nat) (fracSecond : Int) (dayScale fracSecondScale : Nat)
  deriving DecidableEq, Repr

/-- `ORACLE_TIME`; the names of the zone stand in the same piece, at the offset given. -/
structure OracleTime where
  century : Int
  year : Int
  month : Nat
  day : Nat
  hour : Nat
  minute : Nat
  second : Nat
  secondPart : Nat
  scale : Nat
  offsetHour : Int
  offsetMinute : Int
  tzName : Option (Nat × List UInt8)
  tzAbbr : Option (Nat × List UInt8)
  deriving DecidableEq, Repr

/-- What a piece of scalar data holds. -/
inductive Datum where
  | bytes (content : List UInt8)
  | datetime (t : MysqlTime)
  | interval (t : OracleInterval)
  | timestamp (t : OracleTime)
  deriving DecidableEq, Repr

/-- A piece that `fetch_result_complex_alloc_space` handed out. -/
structure Region where
  start : Ptr
  length : Nat
  deriving DecidableEq, Repr

/-- `MYSQL_BIND`, as far as this fetch uses it: `buffer_length`, `*length`, `*error`, `offset`, the number
of blocks in `bind_alloc`, the memory and the pieces handed out. -/
structure MysqlBind where
  bufferLength : Nat
  length : Nat
  error : Bool
  offset : Nat
  blocks : Nat
  regions : List Region
  headers : Ptr → Header
  data : Ptr → Option Datum

/-- A write to the header at `p`. -/
def MysqlBind.setHeader (param : MysqlBind) (p : Ptr) (f : Header → Header) : MysqlBind :=
  { param with headers := fun q => if q = p then f (param.headers q) else param.headers q }

/-- A write of scalar data at `p`. -/
def MysqlBind.setData (param : MysqlBind) (p : Ptr) (d : Datum) : MysqlBind :=
  { param with data := fun q => if q = p then some d else param.data q }

/-- `p` points into the `n` bytes at `start`. -/
def Ptr.Within (p start : Ptr) (n : Nat) : Prop :=
  p.place = start.place ∧ start.offset ≤ p.offset ∧ p.offset < start.offset + n

instance (p start : Ptr) (n : Nat) : Decidable (p.Within start n) := by unfold Ptr.Within; infer_instance

/-- `memset(start, 0, n)`. -/
def MysqlBind.clear (param : MysqlBind) (start : Ptr) (n : Nat) : MysqlBind :=
  { param with
    headers := fun q => if q.Within start n then zeroHeader else param.headers q
    data := fun q => if q.Within start n then none else param.data q }

/-- No object of a program is larger than `PTRDIFF_MAX`. -/
def maxObject : Nat := 2 ^ 63 - 1

/-- The `buffer` that `fetch_result_complex_alloc_space` chooses, with the flag it raises. -/
def chooseBuffer (param : MysqlBind) (length : Nat) : Ptr × MysqlBind :=
  if param.error then (⟨.arena param.blocks, 0⟩, { param with blocks := param.blocks + 1 })
  else if param.bufferLength < param.offset + length then
    (⟨.arena param.blocks, 0⟩, { param with error := true, blocks := param.blocks + 1 })
  else (⟨.buffer, param.offset⟩, param)

/-- `fetch_result_complex_alloc_space`. -/
def fetchResultComplexAllocSpace (header : Ptr) (param : MysqlBind) (length : Nat) :
    Except Fault (Ptr × MysqlBind) :=
  -- `memset` over more than an object can have
  if maxObject < length then .error .writeOutside
  else
    let (buffer, param) := chooseBuffer { param with length := param.length + length } length
    let param := (param.setHeader header fun h => { h with buffer := some buffer }).clear buffer length
    .ok (buffer, { param with offset := param.offset + length, regions := param.regions ++ [⟨buffer, length⟩] })

/-! ## the scalars -/

def sizeofMysqlTime : Nat := 40
def sizeofOracleInterval : Nat := 32
def sizeofOracleTime : Nat := 72

section Scalars

variable (packet : List UInt8)

/-- `fetch_result_str_complex`: one byte more for the `'\0'`. -/
def fetchResultStrComplex (header : Ptr) (param : MysqlBind) (row : Nat) : Except Fault (MysqlBind × Nat) := do
  let (length, row) ← netFieldLength packet row
  let (buffer, param) ← fetchResultComplexAllocSpace header param ((length + 1) % 2 ^ 64)
  let content ← readAt packet row length
  return ((param.setData buffer (.bytes (content ++ [0]))).setHeader header fun h => { h with length := length },
    row + length)

/-- `fetch_result_bin_complex`. -/
def fetchResultBinComplex (header : Ptr) (param : MysqlBind) (row : Nat) : Except Fault (MysqlBind × Nat) := do
  let (length, row) ← netFieldLength packet row
  let (buffer, param) ← fetchResultComplexAllocSpace header param length
  let content ← readAt packet row length
  return ((param.setData buffer (.bytes content)).setHeader header fun h => { h with length := length },
    row + length)

/-- The fetch of a number: its bytes are stored in the order the row has them. -/
def fetchResultFixedComplex (width : Nat) (header : Ptr) (param : MysqlBind) (row : Nat) :
    Except Fault (MysqlBind × Nat) := do
  let (buffer, param) ← fetchResultComplexAllocSpace header param width
  let content ← readAt packet row width
  return (param.setData buffer (.bytes content), row + width)

/-- `fetch_result_long_complex`. -/
def fetchResultLongComplex := fetchResultFixedComplex packet 4
/-- `fetch_result_longlong_complex`. -/
def fetchResultLonglongComplex := fetchResultFixedComplex packet 8
/-- `fetch_result_short_complex`. -/
def fetchResultShortComplex := fetchResultFixedComplex packet 2
/-- `fetch_result_tiny_complex`. -/
def fetchResultTinyComplex := fetchResultFixedComplex packet 1
/-- `fetch_result_float_complex`. -/
def fetchResultFloatComplex := fetchResultFixedComplex packet 4
/-- `fetch_result_double_complex`. -/
def fetchResultDoubleComplex := fetchResultFixedComplex packet 8

/-- The time of day in `read_binary_datetime`, zero if the value ends before it. -/
def readTimeOfDay (length row : Nat) : Except Fault (Nat × Nat × Nat) := do
  if 4 < length then
    let hour ← loadNat packet (row + 4) 1
    let minute ← loadNat packet (row + 5) 1
    let second ← loadNat packet (row + 6) 1
    return (hour, minute, second)
  else return (0, 0, 0)

/-- The microseconds in `read_binary_datetime`, zero if the value ends before them. -/
def readSecondPart (length row : Nat) : Except Fault Nat := do
  if 7 < length then
    let part ← loadNat packet (row + 7) 4
    return patternOf 8 (intOf 4 false part)
  else return 0

/-- `read_binary_datetime`. -/
def readBinaryDatetime (row : Nat) : Except Fault (MysqlTime × Nat) := do
  let (length, row) ← netFieldLength packet row
  let length := length % 2 ^ 32
  if length = 0 then return ({ zeroTime with timeType := .datetime }, row)
  let year ← loadNat packet row 2
  let month ← loadNat packet (row + 2) 1
  let day ← loadNat packet (row + 3) 1
  let (hour, minute, second) ← readTimeOfDay packet length row
  let secondPart ← readSecondPart packet length row
  return (⟨patternOf 4 (intOf 2 false year), month, day, hour, minute, second, secondPart, false, .datetime⟩,
    row + length)

/-- `fetch_result_datetime_complex`. -/
def fetchResultDatetimeComplex (header : Ptr) (param : MysqlBind) (row : Nat) : Except Fault (MysqlBind × Nat) := do
  let (buffer, param) ← fetchResultComplexAllocSpace header param sizeofMysqlTime
  let (tm, row) ← readBinaryDatetime packet row
  return (param.setData buffer (.datetime tm), row)

/-- `to[0] > 0 ? -1 : 1`. -/
def dataSymbol (sign : Nat) : Int := if 0 < sign then -1 else 1

/-- `read_binary_interval`: an interval of another length than its type's is skipped. -/
def readBinaryInterval (type : EnumTypes) (row : Nat) : Except Fault (Option OracleInterval × Nat) := do
  let (length, row) ← netFieldLength packet row
  let length := length % 2 ^ 32
  if type = .obIntervalDs ∧ length = 14 then
    let sign ← loadNat packet row 1
    let day ← loadNat packet (row + 1) 4
    let hour ← loadNat packet (row + 5) 1
    let minute ← loadNat packet (row + 6) 1
    let second ← loadNat packet (row + 7) 1
    let fracSecond ← loadNat packet (row + 8) 4
    let dayScale ← loadNat packet (row + 12) 1
    let fracSecondScale ← loadNat packet (row + 13) 1
    return (some (.ds (dataSymbol sign) (intOf 4 false day) hour minute second (intOf 4 false fracSecond)
      dayScale fracSecondScale), row + length)
  else if type = .obIntervalYm ∧ length = 7 then
    let sign ← loadNat packet row 1
    let year ← loadNat packet (row + 1) 4
    let month ← loadNat packet (row + 5) 1
    let scale ← loadNat packet (row + 6) 1
    return (some (.ym (dataSymbol sign) (intOf 4 false year) month scale), row + length)
  else return (none, row + length)

/-- `fetch_result_ob_interval_complex`; the header's `buffer_type` is the child's type. -/
def fetchResultObIntervalComplex (type : EnumTypes) (header : Ptr) (param : MysqlBind) (row : Nat) :
    Except Fault (MysqlBind × Nat) := do
  let (buffer, param) ← fetchResultComplexAllocSpace header param sizeofOracleInterval
  let (tm, row) ← readBinaryInterval packet type row
  return (tm.elim param fun t => param.setData buffer (.interval t), row)

/-- One name of a time zone at `pos`: copied behind what the piece holds up to `offset`, if it fits there
with its `'\0'`. -/
def readZone (bufferlen offset pos : Nat) : Except Fault (Option (Nat × List UInt8) × Nat × Nat) := do
  let tzLength ← loadNat packet pos 1
  let pos := pos + 1
  if 0 < tzLength ∧ offset + tzLength + 1 < bufferlen then
    let name ← readAt packet pos tzLength
    return (some (offset, name), offset + tzLength + 1, pos + tzLength)
  else return (none, offset, pos + tzLength)

/-- The body of `fetch_result_ob_timestamp_complex` behind the allocation. -/
def readOracleTime (length bufferlen row : Nat) : Except Fault (Option OracleTime × Nat) := do
  if length < 12 then return (none, row)
  -- `memset(tm, 0, sizeof(ORACLE_TIME))`
  if bufferlen < sizeofOracleTime then throw .writeOutside
  let century ← loadNat packet row 1
  let year ← loadNat packet (row + 1) 1
  let month ← loadNat packet (row + 2) 1
  let day ← loadNat packet (row + 3) 1
  let hour ← loadNat packet (row + 4) 1
  let minute ← loadNat packet (row + 5) 1
  let second ← loadNat packet (row + 6) 1
  let secondPart ← loadNat packet (row + 7) 4
  let scale ← loadNat packet (row + 11) 1
  let tm : OracleTime := ⟨intOf 1 false century, intOf 1 false year, month, day, hour, minute, second,
    patternOf 8 (intOf 4 false secondPart), scale, 0, 0, none, none⟩
  if 12 < length then
    let offsetHour ← loadNat packet (row + 12) 1
    let offsetMinute ← loadNat packet (row + 13) 1
    let (tzName, offset, pos) ← readZone packet bufferlen sizeofOracleTime (row + 14)
    let (tzAbbr, _, pos) ← readZone packet bufferlen offset pos
    return (some { tm with
      offsetHour := intOf 1 false offsetHour
      offsetMinute := intOf 1 false offsetMinute
      tzName := tzName
      tzAbbr := tzAbbr }, pos)
  else return (some tm, row + 12)

/-- `fetch_result_ob_timestamp_complex`. -/
def fetchResultObTimestampComplex (header : Ptr) (param : MysqlBind) (row : Nat) :
    Except Fault (MysqlBind × Nat) := do
  let (length, row) ← netFieldLength packet row
  let bufferlen := (sizeofOracleTime + length) % 2 ^ 64
  let (buffer, param) ← fetchResultComplexAllocSpace header param bufferlen
  let (tm, row) ← readOracleTime packet length bufferlen row
  return (tm.elim param fun t => param.setData buffer (.timestamp t), row)

end Scalars

/-! ## the headers of the children -/

def sizeofComplexBindBasic : Nat := 24
def sizeofComplexBindString : Nat := 32
def sizeofComplexBindObject : Nat := 48

/-- `get_complex_header_length`. -/
def getComplexHeaderLength : EnumTypes → Nat
  | .object | .collection => sizeofComplexBindObject
  | .nvarchar2 | .varchar2 | .char | .raw | .obNchar | .number | .obNumberFloat => sizeofComplexBindString
  | _ => sizeofComplexBindBasic

/-- The `buffer_type` that `fill_complex_type` gives a child, `none` in its default branch. -/
def filledType : EnumTypes → Option FieldType
  | .number => some .newdecimal
  | .varchar2 | .char => some .varchar
  | .nvarchar2 => some .obNvarchar2
  | .obNchar => some .obNchar
  | .raw => some .obRaw
  | .date => some .datetime
  | .long => some .long
  | .longlong => some .longlong
  | .tiny => some .tiny
  | .short => some .short
  | .float => some .float
  | .double => some .double
  | .obNumberFloat => some .obNumberFloat
  | .obIntervalDs => some .obIntervalDs
  | .obIntervalYm => some .obIntervalYm
  | .obTimestampNano => some .obTimestampNano
  | .obTimestampWithTimeZone => some .obTimestampWithTimeZone
  | .obTimestampWithLocalTimeZone => some .obTimestampWithLocalTimeZone
  | .object => some .object
  | .collection => some .array
  | .xmltype | .unknow => none

/-- `fill_complex_type`. The names are arrays in the type that `child->object` points to, so that only their
addresses are taken here; a header whose addresses come from a pointer that was never assigned has no
names. -/
def fillComplexType (param : MysqlBind) (buffer : Ptr) (child : ChildType) : MysqlBind :=
  match filledType child.type with
  | none => { param with error := true }
  | some type =>
    if child.type = .object ∨ child.type = .collection then
      param.setHeader buffer fun h => { h with
        bufferType := type
        typeName := child.object.map TypeName.typeName
        ownerName := child.object.bind TypeName.ownerName }
    else param.setHeader buffer fun h => { h with bufferType := type }

/-- The names in a header. -/
def Header.name (h : Header) : Option TypeName := h.typeName.map fun t => ⟨h.ownerName, t⟩

/-- `get_complex_type` for the names in a header; `strlen` of a name that is not there has no result. -/
def getComplexType (types : Types) (h : Header) : Except Fault (Option ComplexType) :=
  match h.name with
  | none => .error .readOutside
  | some name => .ok (types name)

/-! ## objects, arrays, XML -/

/-- The fetch of one child into the header at a pointer. -/
abbrev Fetcher := ChildType → Ptr → MysqlBind → Nat → Except Fault (MysqlBind × Nat)

/-- One turn of the loop over the children: a null child keeps the header that was filled. -/
def fetchUnlessNull (fetch : Fetcher) (isNull : Bool) (child : ChildType) (buffer : Ptr) (param : MysqlBind)
    (row : Nat) : Except Fault (MysqlBind × Nat) :=
  if isNull then .ok (param.setHeader buffer fun h => { h with isNull := true }, row)
  else fetch child buffer param row

/-- The loop over the children. `nullPtr` and `bit` walk over the null bits. -/
def fetchChildren (packet : List UInt8) (fetch : Fetcher) :
    List ChildType → Ptr → Nat → Nat → MysqlBind → Nat → Except Fault (MysqlBind × Nat)
  | [], _, _, _, param, row => .ok (param, row)
  | child :: rest, buffer, nullPtr, bit, param, row => do
    let param := fillComplexType param buffer child
    let nulls ← loadNat packet nullPtr 1
    let (param, row) ← fetchUnlessNull fetch (nulls &&& bit ≠ 0) child buffer param row
    let buffer := buffer.add (getComplexHeaderLength child.type)
    -- `bit` is an `uchar`: shifted out, it is 1 again in the next byte
    if bit * 2 % 256 = 0 then fetchChildren packet fetch rest buffer (nullPtr + 1) 1 param row
    else fetchChildren packet fetch rest buffer nullPtr (bit * 2 % 256) param row

/-- The sum of the header lengths of the children. -/
def headersLength (child : List ChildType) : Nat := (child.map fun c => getComplexHeaderLength c.type).sum

/-- `fetch_result_object_complex`; what the loop has moved `buffer` by is `length` again. -/
def fetchResultObjectComplex (types : Types) (packet : List UInt8) (fetch : Fetcher) (header : Ptr)
    (param : MysqlBind) (row : Nat) : Except Fault (MysqlBind × Nat) := do
  match ← getComplexType types (param.headers header) with
  | none => return ({ param with error := true }, row)
  | some (.object child) =>
    let length := headersLength child
    let (buffer, param) ← fetchResultComplexAllocSpace header param length
    let (param, row) ← fetchChildren packet fetch child buffer row 4 param (row + (child.length + 9) / 8)
    return (param.setHeader header fun h => { h with length := length }, row)
  -- the cast to `COMPLEX_TYPE_OBJECT` reads a structure that is none
  | some _ => throw .readOutside

/-- `fetch_result_array_complex`; `complexType` is given for an anonymous array. The number of elements
and of null bytes are computed in an `unsigned int`. -/
def fetchResultArrayComplex (types : Types) (packet : List UInt8) (fetch : Fetcher) (header : Ptr)
    (param : MysqlBind) (row : Nat) (complexType : Option ComplexType) : Except Fault (MysqlBind × Nat) := do
  let complexType ← match complexType with
    | none => getComplexType types (param.headers header)
    | some t => pure (some t)
  match complexType with
  | none => return ({ param with error := true }, row)
  | some (.collection child) =>
    let (count, row) ← netFieldLength packet row
    let num := count % 2 ^ 32
    let (buffer, param) ← fetchResultComplexAllocSpace header param (num * getComplexHeaderLength child.type)
    let (param, row) ← fetchChildren packet fetch (List.replicate num child) buffer row 4 param
      (row + (num + 9) % 2 ^ 32 / 8)
    return (param.setHeader header fun h => { h with length := num }, row)
  | some _ => throw .readOutside

/-- `fetch_result_xmltype_complex`: one child and no null bits. -/
def fetchResultXmltypeComplex (types : Types) (fetch : Fetcher) (header : Ptr)
    (param : MysqlBind) (row : Nat) : Except Fault (MysqlBind × Nat) := do
  match ← getComplexType types (param.headers header) with
  | none => return ({ param with error := true }, row)
  | some (.xmltype child) =>
    let length := getComplexHeaderLength child.type
    let (buffer, param) ← fetchResultComplexAllocSpace header param length
    let param := fillComplexType param buffer child
    let (param, row) ← fetch child buffer param row
    return (param.setHeader header fun h => { h with length := length }, row)
  | some _ => throw .readOutside

/-- `fetch_result_complex`. The fuel bounds the nesting of the value. -/
def fetchResultComplex (types : Types) (packet : List UInt8) : Nat → Fetcher
  | 0, _, _, _, _ => .error .outOfFuel
  | fuel + 1, child, buffer, param, row =>
    match child.type with
    | .obNumberFloat | .number => fetchResultStrComplex packet buffer param row
    | .nvarchar2 | .varchar2 | .char | .obNchar => fetchResultStrComplex packet buffer param row
    | .raw => fetchResultBinComplex packet buffer param row
    | .date => fetchResultDatetimeComplex packet buffer param row
    | .object => fetchResultObjectComplex types packet (fetchResultComplex types packet fuel) buffer param row
    | .collection =>
      fetchResultArrayComplex types packet (fetchResultComplex types packet fuel) buffer param row none
    | .long => fetchResultLongComplex packet buffer param row
    | .longlong => fetchResultLonglongComplex packet buffer param row
    | .tiny => fetchResultTinyComplex packet buffer param row
    | .short => fetchResultShortComplex packet buffer param row
    | .float => fetchResultFloatComplex packet buffer param row
    | .double => fetchResultDoubleComplex packet buffer param row
    | .obIntervalDs | .obIntervalYm => fetchResultObIntervalComplex packet child.type buffer param row
    | .obTimestampNano | .obTimestampWithTimeZone | .obTimestampWithLocalTimeZone =>
      fetchResultObTimestampComplex packet buffer param row
    | .xmltype | .unknow => .ok ({ param with error := true }, row)

/-! ## the column -/

/-- The branches of `fetch_result_type_complex` behind their allocation: the outermost header takes over
the names and the value is fetched into it. -/
def fetchIntoHeader (types : Types) (packet : List UInt8) (fetch : Fetcher) (t : ComplexType)
    (ownerName typeName : Option (List UInt8)) (buffer : Ptr) (param : MysqlBind) (row : Nat) :
    Except Fault (MysqlBind × Nat) :=
  let named := fun type => param.setHeader buffer fun h =>
    { h with ownerName := ownerName, typeName := typeName, bufferType := type }
  match t with
  | .object _ => fetchResultObjectComplex types packet fetch buffer (named .object) row
  | .collection _ => fetchResultArrayComplex types packet fetch buffer (named .array) row (some t)
  | .xmltype _ => fetchResultXmltypeComplex types fetch buffer (named .object) row

/-- `fetch_result_type_complex`: the outermost header is itself a piece of the buffer. -/
def fetchResultTypeComplex (types : Types) (packet : List UInt8) (fetch : Fetcher) (header : Ptr)
    (param : MysqlBind) (row : Nat) (complexType : Option ComplexType) : Except Fault (MysqlBind × Nat) := do
  let names := param.headers header
  let found ← match complexType with
    | none => getComplexType types names
    | some t => pure (some t)
  match found with
  | none => return ({ param with error := true }, row)
  | some t =>
    let (buffer, param) ← fetchResultComplexAllocSpace header param sizeofComplexBindObject
    fetchIntoHeader types packet fetch t names.ownerName names.typeName buffer param row

/-- What `MYSQL_FIELD` tells about the type of the column. An array without a name of its own carries the
type of its elements, and the names of that type if they are objects. -/
structure Field where
  ownerName : Option (List UInt8)
  typeName : Option (List UInt8)
  elemType : FieldType
  elemOwnerName : Option (List UInt8)
  elemTypeName : Option (List UInt8)
  deriving DecidableEq, Repr

/-- `NULL == header.owner_name && NULL == header.type_name`. -/
def Field.Anonymous (field : Field) : Prop := field.ownerName = none ∧ field.typeName = none

instance (field : Field) : Decidable field.Anonymous := by unfold Field.Anonymous; infer_instance

/-- The body of `ps_fetch_result_type`, with `elem` for the element type of an anonymous array. A value
nested deeper than the row has bytes does not exist, which bounds the fuel. -/
def fetchColumn (types : Types) (elem : ChildType) (field : Field) (param : MysqlBind) (packet : List UInt8)
    (row : Nat) : Except Fault (MysqlBind × Nat) :=
  let param := { param with length := 0, offset := 0, blocks := 0, regions := [] }
  let header : Ptr := ⟨.stack, 0⟩
  let param := param.setHeader header fun h => { h with ownerName := field.ownerName, typeName := field.typeName }
  let fetch := fetchResultComplex types packet (packet.length + 1)
  if field.Anonymous then
    if elem.type = .unknow then .ok ({ param with error := true }, row)
    else fetchResultTypeComplex types packet fetch header param row (some (.collection elem))
  else fetchResultTypeComplex types packet fetch header param row none

/-- `ps_fetch_result_type`: of the element type only `type` is assigned. -/
def psFetchResultType (types : Types) (field : Field) (param : MysqlBind) (packet : List UInt8) (row : Nat) :
    Except Fault (MysqlBind × Nat) :=
  fetchColumn types ⟨mysqlTypeToObjectType field.elemType, none⟩ field param packet row

end ObConnector.Stmt.Complex
