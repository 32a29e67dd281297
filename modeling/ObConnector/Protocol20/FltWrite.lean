/-
# ObConnector.Protocol20.FltWrite -- writing the trace information of a request.

`flt_serialize_extra_info` writes one group of a `FULL_TRC` value: six bytes are kept free, the fields
of the information go behind them, each through a store function of its type, and at last the group's
own type and length go in front (`ob_full_link_trace.c`). The six kinds differ in the ids and types of
their fields.

`flt_store_int8` asks for seven bytes, and `flt_store_int` has no branch for seven: the field is
announced with a length of seven and its bytes are what the buffer held before. `serializeGroup_wire`
says what a successful call leaves in the buffer.
-/
import ObConnector.Lib.CString
import ObConnector.Protocol20.Flt

namespace ObConnector.Protocol20

open Lib List

/-! ## The store functions

Each works on the whole buffer `mem` from the offset `pos`. The result is the buffer and the new
`*ppos`, or nothing for `OB_ERROR`. -/

/-- What the store functions share: the type, the length `vLen`, and then `content`. -/
def storeTyped (mem : List UInt8) (pos type vLen : Nat) (content : List UInt8) :
    Except Fault (Option (List UInt8 × Nat)) :=
  if mem.length < pos + 2 + 4 + vLen then .ok none
  else do
    let mem ← writeAt mem pos (leBytes 2 type)
    let mem ← writeAt mem (pos + 2) (leBytes 4 vLen)
    let mem ← writeAt mem (pos + 2 + 4) content
    return some (mem, pos + 2 + 4 + vLen)

/-- The branches of `flt_store_int` over the width. -/
def intContent (vLen : Nat) (v : Int) : List UInt8 :=
  if vLen = 1 ∨ vLen = 2 ∨ vLen = 3 ∨ vLen = 4 ∨ vLen = 5 ∨ vLen = 6 ∨ vLen = 8 then
    leBytes vLen (patternOf vLen v)
  else []

/-- `flt_store_int`. -/
def fltStoreInt (mem : List UInt8) (pos : Nat) (v : Int) (type vLen : Nat) :
    Except Fault (Option (List UInt8 × Nat)) :=
  storeTyped mem pos type vLen (intContent vLen v)

/-- `flt_store_int1`. -/
def fltStoreInt1 (mem : List UInt8) (pos : Nat) (v : Int) (type : Nat) :
    Except Fault (Option (List UInt8 × Nat)) :=
  fltStoreInt mem pos v type 1

/-- `flt_store_int8`: the width it passes on is seven. -/
def fltStoreInt8 (mem : List UInt8) (pos : Nat) (v : Int) (type : Nat) :
    Except Fault (Option (List UInt8 × Nat)) :=
  fltStoreInt mem pos v type 7

/-- `flt_store_double`, on the bit pattern. -/
def fltStoreDouble (mem : List UInt8) (pos pattern type : Nat) :
    Except Fault (Option (List UInt8 × Nat)) :=
  storeTyped mem pos type 8 (leBytes 8 pattern)

/-- `flt_store_str`. -/
def fltStoreStr (mem : List UInt8) (pos : Nat) (str : List UInt8) (type : Nat) :
    Except Fault (Option (List UInt8 × Nat)) :=
  storeTyped mem pos type str.length str

/-- `flt_store_type_and_len`. -/
def fltStoreTypeAndLen (mem : List UInt8) (pos type vLen : Nat) :
    Except Fault (Option (List UInt8 × Nat)) :=
  if mem.length < pos + 2 + 4 then .ok none
  else do
    let mem ← writeAt mem pos (leBytes 2 type)
    let mem ← writeAt mem (pos + 2) (leBytes 4 vLen)
    return some (mem, pos + 2 + 4)

/-! ## The serialize functions -/

/-- A field's value, by the store function it goes through. -/
inductive FltValue where
  | int1 (v : Int)
  | int8 (v : Int)
  | double (pattern : Nat)
  | str (bytes : List UInt8)
  deriving DecidableEq, Repr

/-- One field. -/
def storeValue (mem : List UInt8) (pos id : Nat) : FltValue → Except Fault (Option (List UInt8 × Nat))
  | .int1 v => fltStoreInt1 mem pos v id
  | .int8 v => fltStoreInt8 mem pos v id
  | .double pattern => fltStoreDouble mem pos pattern id
  | .str bytes => fltStoreStr mem pos bytes id

/-- The fields of a group, up to the first that fails. -/
def storeValues : List (Nat × FltValue) → List UInt8 → Nat → Except Fault (Option (List UInt8 × Nat))
  | [], mem, pos => .ok (some (mem, pos))
  | (id, value) :: fields, mem, pos => do
    match ← storeValue mem pos id value with
    | none => return none
    | some (mem, pos) => storeValues fields mem pos

/-- The common shape of `flt_serialize_controlinfo` and its siblings: room for the header, the fields,
and then the header. -/
def serializeGroup (type : Nat) (fields : List (Nat × FltValue)) (mem : List UInt8) (pos : Nat) :
    Except Fault (Option (List UInt8 × Nat)) :=
  if mem.length < pos + 6 then .ok none
  else do
    match ← storeValues fields mem (pos + 6) with
    | none => return none
    | some (mem, end_) =>
      match ← fltStoreTypeAndLen mem pos type (end_ - pos - 6) with
      | none => return none
      | some (mem, _) => return some (mem, end_)

/-- The fields of `FLTControlInfo` that are sent; the doubles are bit patterns. -/
structure ControlValues where
  level : Int
  samplePct : Nat
  rp : Nat
  printSamplePct : Nat
  slowQueryThreshold : Int
  fltShowTraceEnable : Int

/-- The strings of `FLTAppInfo`; a null pointer is not sent. -/
structure AppValues where
  identifier : Option CStr
  module_ : Option CStr
  action : Option CStr
  clientInfo : Option CStr

/-- The fields of `FLTQueryInfo`. -/
structure QueryValues where
  queryStartTimestamp : Int
  queryEndTimestamp : Int

/-- The fields of `FLTSpanInfo`; the ids are `UUID4_SERIALIZE_LEN` bytes each. -/
structure SpanValues where
  traceEnable : Int
  forcePrint : Int
  traceId : List UInt8
  refType : Int
  spanId : List UInt8
  traceIdLen : traceId.length = 16
  spanIdLen : spanId.length = 16

/-- The information of one kind. The text of a driver span or of a show-trace span is sent with its
terminator. -/
inductive TraceInfo where
  | control (i : ControlValues)
  | app (i : AppValues)
  | query (i : QueryValues)
  | span (i : SpanValues)
  | driverSpan (clientSpan : CStr)
  | showTrace (clientSpanJson : CStr)

/-- `flt_serialize_controlinfo`. -/
def fltSerializeControlinfo (i : ControlValues) : List UInt8 → Nat → Except Fault (Option (List UInt8 × Nat)) :=
  serializeGroup 2003 [(2020, .int1 i.level), (2021, .double i.samplePct), (2022, .int1 i.rp),
    (2023, .double i.printSamplePct), (2024, .int8 i.slowQueryThreshold),
    (2025, .int8 i.fltShowTraceEnable)]

/-- The strings that are sent, with their ids. -/
def AppValues.strings (i : AppValues) : List (Nat × CStr) :=
  [(2001, i.identifier), (2002, i.module_), (2003, i.action), (2004, i.clientInfo)].filterMap
    fun f => f.2.map (Prod.mk f.1)

/-- `flt_serialize_appinfo`. -/
def fltSerializeAppinfo (i : AppValues) : List UInt8 → Nat → Except Fault (Option (List UInt8 × Nat)) :=
  serializeGroup 2001 (i.strings.map fun f => (f.1, .str f.2.bytes))

/-- `flt_serialize_queryinfo`. -/
def fltSerializeQueryinfo (i : QueryValues) : List UInt8 → Nat → Except Fault (Option (List UInt8 × Nat)) :=
  serializeGroup 2002 [(2010, .int8 i.queryStartTimestamp), (2011, .int8 i.queryEndTimestamp)]

/-- `flt_serialize_spaninfo`: without a trace nothing is written. -/
def fltSerializeSpaninfo (i : SpanValues) (mem : List UInt8) (pos : Nat) :
    Except Fault (Option (List UInt8 × Nat)) :=
  if i.traceEnable = 1 then
    serializeGroup 2004 [(2030, .int1 i.traceEnable), (2031, .int1 i.forcePrint), (2032, .str i.traceId),
      (2033, .int1 i.refType), (2034, .str i.spanId)] mem pos
  else .ok (some (mem, pos))

/-- `flt_serialize_driverspaninfo`. -/
def fltSerializeDriverspaninfo (clientSpan : CStr) :
    List UInt8 → Nat → Except Fault (Option (List UInt8 × Nat)) :=
  serializeGroup 1 [(1, .str (clientSpan.bytes ++ [0]))]

/-- `flt_serialize_showtracespan`. -/
def fltSerializeShowtracespan (clientSpanJson : CStr) :
    List UInt8 → Nat → Except Fault (Option (List UInt8 × Nat)) :=
  serializeGroup 2005 [(2050, .str (clientSpanJson.bytes ++ [0]))]

/-- `flt_serialize_extra_info`: `flt_funcs` at the type of the information. -/
def fltSerializeExtraInfo : TraceInfo → List UInt8 → Nat → Except Fault (Option (List UInt8 × Nat))
  | .control i => fltSerializeControlinfo i
  | .app i => fltSerializeAppinfo i
  | .query i => fltSerializeQueryinfo i
  | .span i => fltSerializeSpaninfo i
  | .driverSpan text => fltSerializeDriverspaninfo text
  | .showTrace text => fltSerializeShowtracespan text

/-! ## What is in the buffer afterwards -/

/-- The bytes that a value's store function puts into its field. -/
def FltValue.content : FltValue → List UInt8
  | .int1 v => intContent 1 v
  | .int8 v => intContent 7 v
  | .double pattern => leBytes 8 pattern
  | .str bytes => bytes

/-- The length with which the field is announced. -/
def FltValue.width : FltValue → Nat
  | .int1 _ => 1
  | .int8 _ => 7
  | .double _ => 8
  | .str bytes => bytes.length

theorem FltValue.length_content_le (v : FltValue) : v.content.length ≤ v.width := by
  cases v with
  | int1 v => exact Nat.le_of_eq (length_leBytes 1 _)
  | int8 v => exact Nat.zero_le _
  | double pattern => exact Nat.le_of_eq (length_leBytes 8 _)
  | str bytes => exact le_rfl

/-- The triple of a field in the buffer: behind the stored content stands what was there before. -/
structure Wire (field : Nat × FltValue) (t : Tlv) : Prop where
  key : t.key = field.1
  length : t.value.length = field.2.width
  content : ∃ left, t.value = field.2.content ++ left

theorem storeValue_eq (mem : List UInt8) (pos id : Nat) (v : FltValue) :
    storeValue mem pos id v = storeTyped mem pos id v.width v.content := by
  cases v <;> rfl

/-- **A field** stands behind what was written before it. -/
theorem storeValue_wire {done rest mem : List UInt8} {id end_ : Nat} {v : FltValue}
    (h : storeValue (done ++ rest) done.length id v = .ok (some (mem, end_))) :
    ∃ t rest', Wire (id, v) t ∧ mem = (done ++ t.bytes) ++ rest' ∧ end_ = (done ++ t.bytes).length := by
  have hcontent := v.length_content_le
  rw [storeValue_eq, storeTyped] at h
  split at h
  · cases h
  rename_i hroom
  rw [length_append] at hroom
  have w1 := writeAt_append done (leBytes 2 id) (show _ ≤ rest.length by simp; omega)
  have w2 := writeAt_append (done ++ leBytes 2 id) (leBytes 4 v.width)
    (show _ ≤ (rest.drop 2).length by simp; omega)
  have w3 := writeAt_append ((done ++ leBytes 2 id) ++ leBytes 4 v.width) v.content
    (show _ ≤ ((rest.drop 2).drop 4).length by simp; omega)
  simp only [length_append, length_leBytes] at w1 w2 w3
  rw [w1, ok_bind, w2, ok_bind, w3] at h
  obtain ⟨hmem, hend⟩ := Prod.mk.inj (Option.some.inj (Except.ok.inj h))
  -- the field takes `width` bytes, of which the content fills the first
  have hlength : (v.content ++ (((rest.drop 2).drop 4).drop v.content.length).take
      (v.width - v.content.length)).length = v.width := by
    simp only [length_append, length_take, length_drop]
    omega
  refine ⟨⟨id, v.content ++ (((rest.drop 2).drop 4).drop v.content.length).take
    (v.width - v.content.length)⟩, (((rest.drop 2).drop 4).drop v.content.length).drop
    (v.width - v.content.length), ⟨rfl, hlength, _, rfl⟩, ?_, ?_⟩
  · rw [← hmem, Tlv.bytes, hlength]
    simp only [append_assoc, take_append_drop]
  · rw [length_append, Tlv.length_bytes, hlength]
    omega

/-- **The fields of a group** stand one behind the other. -/
theorem storeValues_wire {fields : List (Nat × FltValue)} {done rest mem : List UInt8} {end_ : Nat}
    (h : storeValues fields (done ++ rest) done.length = .ok (some (mem, end_))) :
    ∃ ts rest', List.Forall₂ Wire fields ts ∧ mem = (done ++ tlvBytes ts) ++ rest' ∧
      end_ = (done ++ tlvBytes ts).length := by
  induction fields generalizing done rest with
  | nil =>
    obtain ⟨rfl, rfl⟩ := Prod.mk.inj (Option.some.inj (Except.ok.inj h))
    exact ⟨[], rest, .nil, by simp, by simp⟩
  | cons field fields ih =>
    simp only [storeValues, bind_eq_ok] at h
    obtain ⟨result, hvalue, h⟩ := h
    cases result with
    | none => cases h
    | some r =>
      obtain ⟨mem1, pos1⟩ := r
      obtain ⟨t, rest1, hwire, rfl, rfl⟩ := storeValue_wire hvalue
      obtain ⟨ts, rest2, hwires, rfl, rfl⟩ := ih h
      refine ⟨t :: ts, rest2, .cons hwire hwires, ?_, ?_⟩ <;> simp

/-- The group's header goes over the six bytes kept free. -/
theorem fltStoreTypeAndLen_over (front post : List UInt8) {free : List UInt8} (hfree : free.length = 6)
    (type vLen : Nat) :
    fltStoreTypeAndLen (front ++ (free ++ post)) front.length type vLen =
      .ok (some (front ++ ((leBytes 2 type ++ leBytes 4 vLen) ++ post), front.length + 2 + 4)) := by
  have hroom : ¬(front ++ (free ++ post)).length < front.length + 2 + 4 := by
    simp only [length_append]
    omega
  have w1 : writeAt (front ++ (free.take 2 ++ (free.drop 2 ++ post))) front.length (leBytes 2 type) =
      .ok (front ++ (leBytes 2 type ++ (free.drop 2 ++ post))) :=
    writeAt_over rfl (by simp; omega)
  have w2 : writeAt ((front ++ leBytes 2 type) ++ (free.drop 2 ++ post)) (front.length + 2)
      (leBytes 4 vLen) = .ok ((front ++ leBytes 2 type) ++ (leBytes 4 vLen ++ post)) :=
    writeAt_over (by simp) (by simp; omega)
  rw [← append_assoc (free.take 2), take_append_drop] at w1
  rw [append_assoc] at w2
  rw [fltStoreTypeAndLen, if_neg hroom, w1, ok_bind, w2, ok_bind]
  simp only [append_assoc, pure_eq_ok]

/-- **A group**: its fields in one triple. -/
theorem serializeGroup_wire {type pos end_ : Nat} {fields : List (Nat × FltValue)} {mem mem' : List UInt8}
    (h : serializeGroup type fields mem pos = .ok (some (mem', end_))) :
    ∃ ts, List.Forall₂ Wire fields ts ∧ (mem'.drop pos).take (end_ - pos) = Tlv.bytes ⟨type, tlvBytes ts⟩ := by
  unfold serializeGroup at h
  split at h
  · cases h
  simp only [bind_eq_ok] at h
  obtain ⟨result, hvalues, h⟩ := h
  cases result with
  | none => cases h
  | some r =>
    obtain ⟨mem1, end1⟩ := r
    -- what stands in front of the fields: everything up to `pos`, and the six bytes kept free
    have hsplit : mem = (mem.take pos ++ (mem.drop pos).take 6) ++ (mem.drop pos).drop 6 := by
      rw [append_assoc, take_append_drop, take_append_drop]
    have hfree : ((mem.drop pos).take 6).length = 6 := by
      rw [length_take, length_drop]
      omega
    have hfront : (mem.take pos).length = pos := by
      rw [length_take]
      omega
    have hpos : pos + 6 = (mem.take pos ++ (mem.drop pos).take 6).length := by
      rw [length_append, hfree, hfront]
    rw [hsplit, hpos] at hvalues
    obtain ⟨ts, rest, hwires, rfl, rfl⟩ := storeValues_wire hvalues
    have htotal : (mem.take pos ++ (mem.drop pos).take 6 ++ tlvBytes ts).length - pos - 6 =
        (tlvBytes ts).length := by
      rw [length_append]
      omega
    have hheader := fltStoreTypeAndLen_over (mem.take pos) (tlvBytes ts ++ rest) hfree type
    rw [hfront] at hheader
    dsimp only at h
    rw [htotal] at h
    simp only [append_assoc] at h hheader
    rw [hheader] at h
    obtain ⟨rfl, rfl⟩ := Prod.mk.inj (Option.some.inj (Except.ok.inj h))
    refine ⟨ts, hwires, ?_⟩
    have hdrop : (mem.take pos ++ (leBytes 2 type ++ (leBytes 4 (tlvBytes ts).length ++
        (tlvBytes ts ++ rest)))).drop pos = Tlv.bytes ⟨type, tlvBytes ts⟩ ++ rest := by
      rw [drop_left' hfront, Tlv.bytes]
      simp only [append_assoc]
    rw [hdrop]
    apply take_left'
    simp only [Tlv.length_bytes, length_append]
    omega

end ObConnector.Protocol20
