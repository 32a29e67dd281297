/-
# ObConnector.Serialize.ObObj -- typed objects on the wire.

An `ObObj` (`ob_object.c`) is four bytes of meta data and a value. The value's three functions
(serialize, deserialize, size) come from the table `OBJ_FUNCS`, which the type byte indexes: fourteen
numeric types that one macro generates, strings, and a function that always fails for the types that
are not supported. The table has `ObMaxType` = 47 entries of which 45 are written down; the other two
are null pointers. Both `serialize_ObObj` and `deserialize_ObObj` compare the type with
`<= ObMaxType`, so 47 gets past the comparison and off the table.

The return codes of the meta data functions and of the string encoder are dropped, and a numeric value
is only decoded when a byte is left for it: the variable it is decoded into is otherwise used as it
stands on the stack.
-/
import ObConnector.Serialize.Codec

namespace ObConnector.Serialize

open Lib

/-! ## Objects -/

/-- `ObObjMeta`. -/
structure ObObjMeta where
  type : BitVec 8
  csLevel : BitVec 8
  csType : BitVec 8
  scale : BitVec 8
  deriving DecidableEq, Repr

/-- `ObObj`. The union is its eight bytes; `string` is the `val_len_` bytes that they point to when
they are a pointer, `none` for NULL. -/
structure ObObj where
  meta_ : ObObjMeta
  valLen : BitVec 32
  v : BitVec 64
  string : Option (List UInt8)
  deriving DecidableEq, Repr

/-- `ObMaxType`. -/
def obMaxType : Nat := 47

/-- `CS_LEVEL_NUMERIC`. -/
def csLevelNumeric : BitVec 8 := 5

/-- `CS_TYPE_BINARY`. -/
def csTypeBinary : BitVec 8 := 63

/-- The C types of the numeric values. -/
inductive VType where
  | int8
  | int16
  | int32
  | int64
  | uint8
  | uint16
  | uint32
  | uint64
  | float
  | double
  deriving DecidableEq, Repr

/-- The number of bits of a C type. -/
def VType.bits : VType → Nat
  | .int8 | .uint8 => 8
  | .int16 | .uint16 => 16
  | .int32 | .uint32 | .float => 32
  | .int64 | .uint64 | .double => 64

/-- `encode_int8_t`, `encode_int16_t` and so on. -/
def VType.encoder : (t : VType) → List UInt8 → Nat → BitVec t.bits → Except Fault Written
  | .int8 | .uint8 => encodeI8
  | .int16 => encodeInt16T
  | .uint16 => encodeUint16T
  | .int32 | .uint32 | .float => encodeVi32
  | .int64 | .uint64 | .double => encodeVi64

/-- `encoded_length_int8_t`, `encoded_length_int16_t` and so on. -/
def VType.encodedLength : (t : VType) → BitVec t.bits → Nat
  | .int8 | .uint8 => fun _ => 1
  | .int16 => encodedLengthInt16T
  | .uint16 => encodedLengthUint16T
  | .int32 | .uint32 | .float => encodedLengthVi32
  | .int64 | .uint64 | .double => encodedLengthVi64

/-- `decode_int8_t`, `decode_int16_t` and so on. -/
def VType.decoder : (t : VType) → List UInt8 → Nat → Except Fault (Decoded (BitVec t.bits))
  | .int8 | .uint8 => decodeI8
  | .int16 => decodeInt16T
  | .uint16 => decodeUint16T
  | .int32 | .uint32 | .float => decodeVi32
  | .int64 | .uint64 | .double => decodeVi64

/-- `get_tinyint`, `get_smallint` and so on: the low bytes of the union. -/
def getValue (t : VType) (obj : ObObj) : BitVec t.bits := obj.v.setWidth t.bits

/-- What `set_tinyint`, `set_smallint` and so on store in the union: integers are widened, a `float`
covers the low four bytes. -/
def widen : (t : VType) → BitVec 64 → BitVec t.bits → BitVec 64
  | .int8, _, x | .int16, _, x | .int32, _, x | .int64, _, x => x.signExtend 64
  | .uint8, _, x | .uint16, _, x | .uint32, _, x | .uint64, _, x => x.setWidth 64
  | .float, old, x => (old.extractLsb' 32 32) ++ x
  | .double, _, x => x

/-- `set_tinyint`, `set_smallint` and so on, which also set the meta data. -/
def setValue (type : BitVec 8) (t : VType) (obj : ObObj) (x : BitVec t.bits) : ObObj :=
  { obj with
    meta_ := { obj.meta_ with type := type, csLevel := csLevelNumeric, csType := csTypeBinary }
    v := widen t obj.v x }

/-! ## The function table -/

/-- An entry of `OBJ_FUNCS`. -/
inductive ObObjTypeFuncs where
  /-- the three functions that `DEF_NUMERIC_FUNCS` generates for a type -/
  | numeric (type : BitVec 8) (t : VType)
  /-- the functions of `ObVarcharType` -/
  | varchar
  /-- the functions of `ObNullType` -/
  | null
  /-- no functions: the entry is zero -/
  | absent
  deriving DecidableEq, Repr

/-- `OBJ_FUNCS`. -/
def objFuncs : List ObObjTypeFuncs :=
  [.null, .numeric 1 .int8, .numeric 2 .int16, .numeric 3 .int32, .numeric 4 .int32, .numeric 5 .int64,
    .numeric 6 .uint8, .numeric 7 .uint16, .numeric 8 .uint32, .numeric 9 .uint32, .numeric 10 .uint64,
    .numeric 11 .float, .numeric 12 .double, .numeric 13 .float, .numeric 14 .double,
    .null, .null, .null, .null, .null, .null, .null,
    .varchar,
    .null, .null, .null, .null, .null, .null, .null, .null, .null, .null, .null,
    .null, .null, .null, .null, .null, .null, .null, .null, .null, .null, .null,
    .absent, .absent]

/-- The entry that a type indexes. -/
def objFuncsAt (type : BitVec 8) : Except Fault ObObjTypeFuncs :=
  match objFuncs[type.toNat]? with
  | some f => .ok f
  | none => .error .tableOverrun

/-- The `serialize` functions of the entries. -/
def objValSerialize (f : ObObjTypeFuncs) (obj : ObObj) (buf : List UInt8) (pos : Nat) : Except Fault Written :=
  match f with
  | .numeric _ t => t.encoder buf pos (getValue t obj)
  | .varchar => do
    let w ← encodeVstrWithLen buf pos obj.string obj.valLen.toInt
    .ok { w with ret := .success }
  | .null => .ok ⟨.error, buf, pos⟩
  | .absent => .error .nullCall

/-- What a deserializer leaves: its return code, the object and the position. -/
structure ObjRead where
  ret : Ret
  obj : ObObj
  pos : Nat
  deriving DecidableEq, Repr

/-- The `deserialize` functions of the entries. `stack` is what the variable `v` of a numeric one holds
before it is decoded into. -/
def objValDeserialize (f : ObObjTypeFuncs) (stack : BitVec 64) (obj : ObObj) (buf : List UInt8) (pos : Nat) :
    Except Fault ObjRead :=
  match f with
  | .numeric type t =>
    if pos < buf.length then do
      let d ← t.decoder buf pos
      if d.ret = .success then .ok ⟨.success, setValue type t obj (d.val.getD 0), d.pos⟩
      else .ok ⟨d.ret, obj, d.pos⟩
    else .ok ⟨.success, setValue type t obj (stack.setWidth t.bits), pos⟩
  | .varchar =>
    if (buf.length : Int) - pos < 2 then .ok ⟨.error, obj, pos⟩
    else do
      let s ← decodeVstrNocopy buf pos 0
      match s.str with
      | none => .ok ⟨.error, { obj with string := none }, s.pos⟩
      | some off =>
        .ok ⟨.success,
          { obj with valLen := BitVec.ofInt 32 s.len, string := some ((buf.drop off).take s.len.toNat) }, s.pos⟩
  | .null => .ok ⟨.error, obj, pos⟩
  | .absent => .error .nullCall

/-- The `get_serialize_size` functions of the entries. -/
def objValGetSerializeSize (f : ObObjTypeFuncs) (obj : ObObj) : Except Fault Int :=
  match f with
  | .numeric _ t => .ok (t.encodedLength (getValue t obj))
  | .varchar => .ok (encodedLengthVstrWithLen obj.valLen.toInt)
  | .null => .ok 0
  | .absent => .error .nullCall

/-! ## Objects on the wire -/

/-- `serialize_ObObjMeta`: what the four encoders return is dropped. -/
def serializeObObjMeta (m : ObObjMeta) (buf : List UInt8) (pos : Nat) : Except Fault Written := do
  let w ← encodeI8 buf pos m.type
  let w ← encodeI8 w.buf w.pos m.csLevel
  let w ← encodeI8 w.buf w.pos m.csType
  let w ← encodeI8 w.buf w.pos m.scale
  .ok ⟨.success, w.buf, w.pos⟩

/-- `deserialize_ObObjMeta`: a field whose decoder fails is 0. -/
def deserializeObObjMeta (buf : List UInt8) (pos : Nat) : Except Fault (ObObjMeta × Nat) := do
  let type ← decodeI8 buf pos
  let csLevel ← decodeI8 buf type.pos
  let csType ← decodeI8 buf csLevel.pos
  let scale ← decodeI8 buf csType.pos
  .ok (⟨type.val.getD 0, csLevel.val.getD 0, csType.val.getD 0, scale.val.getD 0⟩, scale.pos)

/-- `get_serialize_size_ObObjMeta`. -/
def getSerializeSizeObObjMeta : Int := 4

/-- `serialize_ObObj`. -/
def serializeObObj (obj : ObObj) (buf : List UInt8) (pos : Nat) : Except Fault Written := do
  let w ← serializeObObjMeta obj.meta_ buf pos
  if obj.meta_.type.toNat ≤ obMaxType then do
    let f ← objFuncsAt obj.meta_.type
    objValSerialize f obj w.buf w.pos
  else .ok ⟨.error, w.buf, w.pos⟩

/-- `deserialize_ObObj` into the object `obj`. -/
def deserializeObObj (stack : BitVec 64) (obj : ObObj) (buf : List UInt8) (pos : Nat) : Except Fault ObjRead := do
  let (m, pos') ← deserializeObObjMeta buf pos
  let obj' := { obj with meta_ := m }
  if m.type.toNat ≤ obMaxType then do
    let f ← objFuncsAt m.type
    objValDeserialize f stack obj' buf pos'
  else .ok ⟨.error, obj', pos'⟩

/-- `get_serialize_size_ObObj`. -/
def getSerializeSizeObObj (obj : ObObj) : Except Fault Int := do
  let f ← objFuncsAt obj.meta_.type
  let size ← objValGetSerializeSize f obj
  .ok (getSerializeSizeObObjMeta + size)

end ObConnector.Serialize
