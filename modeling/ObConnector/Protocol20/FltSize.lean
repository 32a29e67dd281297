/-
# ObConnector.Protocol20.FltSize -- the sizes of trace information, and the bytes it takes.

Every kind of trace information has a function of its own for its size, next to the one that writes it
(`ob_full_link_trace.c`), and `flt_build_request` compares the two after each group it writes. The two
agree when the size is what `serializeGroup` writes: six bytes and the sum of the fields
(`agrees_group_iff`). They do not agree for kinds with an `int8` field, which is counted with eight
bytes and stored with seven; for app info without any string, whose size is 0 and whose header is
written all the same; and for a span text that is a null pointer, whose size is 0 and whose length is
taken with `strlen`. Sizes are `int32_t`, so a string also has to be shorter than that.

`flt_build_request` does not write what has size 0 and never writes control or query info, so it sees
none of this (`fltBuildRequestValue_agrees`).
-/
import ObConnector.Protocol20.FltWrite

namespace ObConnector.Protocol20

open Lib List

/-! ## The size functions -/

/-- An addition of two `int`s. -/
def addInt32 (a b : Int) : Except Fault Int :=
  if -2 ^ 31 ≤ a + b ∧ a + b < 2 ^ 31 then .ok (a + b) else .error .intOverflow

/-- `flt_get_store_int1_size`. -/
def fltGetStoreInt1Size : Int := 2 + 4 + 1

/-- `flt_get_store_int8_size`. -/
def fltGetStoreInt8Size : Int := 2 + 4 + 8

/-- `flt_get_store_double_size`. -/
def fltGetStoreDoubleSize : Int := 2 + 4 + 8

/-- `flt_get_store_str_size`: the sum is a `uint64_t` and the result an `int`. -/
def fltGetStoreStrSize (strLen : Nat) : Int := Int.bmod ((2 + 4 + strLen) % 2 ^ 64 : Nat) (2 ^ 32)

/-- `flt_get_serialize_size_controlinfo`. -/
def fltGetSerializeSizeControlinfo : Except Fault Int :=
  .ok (2 + 4 + fltGetStoreInt1Size + fltGetStoreDoubleSize + fltGetStoreInt1Size + fltGetStoreDoubleSize +
    fltGetStoreInt8Size + fltGetStoreInt8Size)

/-- One string of app info, if it is there. -/
def addStrSize (localSize : Int) : Option CStr → Except Fault Int
  | none => .ok localSize
  | some s => addInt32 localSize (fltGetStoreStrSize s.bytes.length)

/-- `flt_get_serialize_size_appinfo`. -/
def fltGetSerializeSizeAppinfo (i : AppValues) : Except Fault Int := do
  let localSize ← addStrSize 0 i.identifier
  let localSize ← addStrSize localSize i.module_
  let localSize ← addStrSize localSize i.action
  let localSize ← addStrSize localSize i.clientInfo
  if localSize ≠ 0 then addInt32 localSize (2 + 4) else .ok localSize

/-- `flt_get_serialize_size_queryinfo`. -/
def fltGetSerializeSizeQueryinfo : Except Fault Int := .ok (2 + 4 + fltGetStoreInt8Size + fltGetStoreInt8Size)

/-- `flt_get_serialize_size_spaninfo`. -/
def fltGetSerializeSizeSpaninfo (i : SpanValues) : Except Fault Int :=
  if i.traceEnable = 1 then
    .ok (2 + 4 + fltGetStoreInt1Size + fltGetStoreInt1Size + fltGetStoreStrSize 16 + fltGetStoreInt1Size +
      fltGetStoreStrSize 16)
  else .ok 0

/-- `flt_get_serialize_size_driverspaninfo` and `flt_get_serialize_size_showtracespan`. -/
def fltGetSerializeSizeText (text : CStr) : Except Fault Int :=
  addInt32 (2 + 4) (fltGetStoreStrSize (text.bytes.length + 1))

/-- Trace information whose text may be a null pointer. -/
inductive FltInfo where
  | given (i : TraceInfo)
  | nullDriverSpan
  | nullShowTrace

/-- `flt_get_serialize_size_extra_info`. -/
def fltGetSerializeSizeExtraInfo : FltInfo → Except Fault Int
  | .given (.control _) => fltGetSerializeSizeControlinfo
  | .given (.app i) => fltGetSerializeSizeAppinfo i
  | .given (.query _) => fltGetSerializeSizeQueryinfo
  | .given (.span i) => fltGetSerializeSizeSpaninfo i
  | .given (.driverSpan text) => fltGetSerializeSizeText text
  | .given (.showTrace text) => fltGetSerializeSizeText text
  | .nullDriverSpan | .nullShowTrace => .ok 0

/-- `flt_serialize_driverspaninfo` and `flt_serialize_showtracespan` on a null pointer: `strlen` loads
through it once six bytes are kept free. -/
def serializeNullText (mem : List UInt8) (pos : Nat) : Except Fault (Option (List UInt8 × Nat)) :=
  if mem.length < pos + 6 then .ok none else .error .readOutside

/-- `flt_serialize_extra_info`, for texts that may be null. -/
def fltSerialize : FltInfo → List UInt8 → Nat → Except Fault (Option (List UInt8 × Nat))
  | .given i => fltSerializeExtraInfo i
  | .nullDriverSpan | .nullShowTrace => serializeNullText

/-! ## What a group takes -/

/-- The bytes that the fields of a group take. -/
def fieldsSize (fields : List (Nat × FltValue)) : Nat := (fields.map fun f => 6 + f.2.width).sum

@[simp] theorem fieldsSize_nil : fieldsSize [] = 0 := rfl

@[simp] theorem fieldsSize_cons (f : Nat × FltValue) (fields : List (Nat × FltValue)) :
    fieldsSize (f :: fields) = 6 + f.2.width + fieldsSize fields := rfl

theorem storeValue_fits {mem : List UInt8} {pos : Nat} (id : Nat) (v : FltValue)
    (h : pos + (6 + v.width) ≤ mem.length) :
    ∃ mem', storeValue mem pos id v = .ok (some (mem', pos + (6 + v.width))) ∧ mem'.length = mem.length := by
  have hcontent := v.length_content_le
  have hwrite {b : List UInt8} {off : Nat} {bs : List UInt8} hb :
      ∃ b', writeAt b off bs = .ok b' ∧ b'.length = b.length :=
    ⟨_, writeAt_inside hb, length_of_writeAt (writeAt_inside hb)⟩
  obtain ⟨mem1, h1, hlen1⟩ := @hwrite mem pos (leBytes 2 id) (by rw [length_leBytes]; omega)
  obtain ⟨mem2, h2, hlen2⟩ := @hwrite mem1 (pos + 2) (leBytes 4 v.width) (by rw [length_leBytes]; omega)
  obtain ⟨mem3, h3, hlen3⟩ := @hwrite mem2 (pos + 2 + 4) v.content (by omega)
  refine ⟨mem3, ?_, by omega⟩
  rw [storeValue_eq, storeTyped, if_neg (by omega), h1, ok_bind, h2, ok_bind, h3, add_assoc, add_assoc,
    ← add_assoc 2 4]
  rfl

theorem storeValue_short {mem : List UInt8} {pos : Nat} (id : Nat) (v : FltValue)
    (h : mem.length < pos + (6 + v.width)) : storeValue mem pos id v = .ok none := by
  rw [storeValue_eq, storeTyped, if_pos (by omega)]

theorem storeValues_fits (fields : List (Nat × FltValue)) {mem : List UInt8} {pos : Nat}
    (h : pos + fieldsSize fields ≤ mem.length) :
    ∃ mem', storeValues fields mem pos = .ok (some (mem', pos + fieldsSize fields)) ∧ mem'.length = mem.length := by
  induction fields generalizing mem pos with
  | nil => exact ⟨mem, rfl, rfl⟩
  | cons f fields ih =>
    rw [fieldsSize_cons] at h
    obtain ⟨mem1, h1, hlen1⟩ := @storeValue_fits mem pos f.1 f.2 (by omega)
    obtain ⟨mem2, h2, hlen2⟩ := @ih mem1 (pos + (6 + f.2.width)) (by omega)
    refine ⟨mem2, ?_, by omega⟩
    rw [storeValues, h1, ok_bind]
    dsimp only
    rw [h2, fieldsSize_cons, add_assoc]

theorem storeValues_short (fields : List (Nat × FltValue)) {mem : List UInt8} {pos : Nat} (hpos : pos ≤ mem.length)
    (h : mem.length < pos + fieldsSize fields) : storeValues fields mem pos = .ok none := by
  induction fields generalizing mem pos with
  | nil =>
    rw [fieldsSize_nil] at h
    omega
  | cons f fields ih =>
    rw [fieldsSize_cons] at h
    rw [storeValues]
    by_cases hroom : pos + (6 + f.2.width) ≤ mem.length
    · obtain ⟨mem1, h1, hlen1⟩ := storeValue_fits f.1 f.2 hroom
      rw [h1]
      exact ih (by omega) (by omega)
    rw [storeValue_short f.1 f.2 (by omega)]
    rfl

/-- **A group that fits** takes six bytes and its fields. -/
theorem serializeGroup_fits (type : Nat) (fields : List (Nat × FltValue)) {mem : List UInt8} {pos : Nat}
    (h : pos + (6 + fieldsSize fields) ≤ mem.length) :
    ∃ mem', serializeGroup type fields mem pos = .ok (some (mem', pos + (6 + fieldsSize fields))) ∧
      mem'.length = mem.length := by
  obtain ⟨mem1, h1, hlen1⟩ := @storeValues_fits fields mem (pos + 6) (by omega)
  have hstore : ∃ mem', fltStoreTypeAndLen mem1 pos type (pos + 6 + fieldsSize fields - pos - 6) =
      .ok (some (mem', pos + 2 + 4)) ∧ mem'.length = mem1.length := by
    have w1 := @writeAt_inside mem1 pos (leBytes 2 type) (by rw [length_leBytes]; omega)
    have hlen := length_of_writeAt w1
    have w2 := @writeAt_inside _ (pos + 2) (leBytes 4 (pos + 6 + fieldsSize fields - pos - 6))
      (show _ ≤ (mem1.take pos ++ leBytes 2 type ++ mem1.drop (pos + (leBytes 2 type).length)).length by
        rw [length_leBytes]; omega)
    rw [fltStoreTypeAndLen, if_neg (by omega), w1, ok_bind, w2]
    exact ⟨_, rfl, (length_of_writeAt w2).trans hlen⟩
  obtain ⟨mem2, h2, hlen2⟩ := hstore
  refine ⟨mem2, ?_, by omega⟩
  rw [serializeGroup, if_neg (by omega), h1, ok_bind]
  dsimp only
  rw [h2, ← add_assoc]
  rfl

theorem serializeGroup_short (type : Nat) (fields : List (Nat × FltValue)) {mem : List UInt8} {pos : Nat}
    (h : mem.length < pos + (6 + fieldsSize fields)) : serializeGroup type fields mem pos = .ok none := by
  rw [serializeGroup]
  split
  · rfl
  rw [storeValues_short fields (by omega) (by omega)]
  rfl

/-! ## Agreement -/

/-- A size agrees with a function that writes: where so many bytes are available it succeeds and takes
exactly these, and where fewer are it fails, without a write outside. -/
def Agrees (size : Except Fault Int) (write : List UInt8 → Nat → Except Fault (Option (List UInt8 × Nat))) : Prop :=
  ∃ n : Int, size = .ok n ∧ ∀ (mem : List UInt8) (pos : Nat),
    (n ≤ (mem.length - pos : Nat) → ∃ mem' end_, write mem pos = .ok (some (mem', end_)) ∧
      mem'.length = mem.length ∧ (end_ : Int) = pos + n) ∧
    ((mem.length - pos : Nat) < n → write mem pos = .ok none)

/-- **A group agrees with the one size** that counts its fields as they are stored. -/
theorem agrees_group_iff (size : Except Fault Int) (type : Nat) (fields : List (Nat × FltValue)) :
    Agrees size (serializeGroup type fields) ↔ size = .ok ((6 + fieldsSize fields : Nat) : Int) := by
  constructor
  · rintro ⟨n, hsize, hall⟩
    -- a buffer that is large enough for both
    obtain ⟨mem, hmem⟩ : ∃ mem : List UInt8, mem = List.replicate (6 + fieldsSize fields + n.toNat) 0 := ⟨_, rfl⟩
    have hlen : mem.length = 6 + fieldsSize fields + n.toNat := by rw [hmem, length_replicate]
    obtain ⟨mem1, h1, -⟩ := @serializeGroup_fits type fields mem 0 (by omega)
    obtain ⟨mem2, end_, h2, -, hend⟩ := (hall mem 0).1 (by omega)
    rw [h1] at h2
    cases h2
    rw [hsize]
    congr 1
    omega
  · intro hsize
    refine ⟨_, hsize, ?_⟩
    intro mem pos
    constructor
    · intro hfit
      obtain ⟨mem', hwrite, hlen⟩ := @serializeGroup_fits type fields mem pos (by omega)
      exact ⟨mem', _, hwrite, hlen, by omega⟩
    · intro hshort
      exact serializeGroup_short type fields (by omega)

theorem addInt32_eq_ok_iff {a b n : Int} : addInt32 a b = .ok n ↔ n = a + b ∧ -2 ^ 31 ≤ n ∧ n < 2 ^ 31 := by
  rw [addInt32]
  split
  · rename_i h
    constructor
    · intro hn
      cases hn
      exact ⟨rfl, h⟩
    · rintro ⟨rfl, -⟩
      rfl
  rename_i h
  constructor
  · nofun
  · rintro ⟨rfl, hbounds⟩
    exact absurd hbounds h

/-- The size of a string that an `int` can hold. -/
theorem fltGetStoreStrSize_eq {n : Nat} (h : 6 + n < 2 ^ 31) : fltGetStoreStrSize n = (6 + n : Nat) := by
  have hmod : (2 + 4 + n) % 2 ^ 64 = 6 + n := by omega
  unfold fltGetStoreStrSize
  rw [hmod]
  apply Int.bmod_eq_of_le
  · omega
  · omega

/-- The bytes that the strings of app info take. -/
def AppValues.size (i : AppValues) : Nat := (i.strings.map fun f => 6 + f.2.bytes.length).sum

/-- One optional string. -/
def optSize (s : Option CStr) : Nat := (s.map fun s => 6 + s.bytes.length).getD 0

theorem AppValues.size_eq (i : AppValues) :
    i.size = optSize i.identifier + optSize i.module_ + optSize i.action + optSize i.clientInfo := by
  rw [AppValues.size, AppValues.strings]
  cases i.identifier <;> cases i.module_ <;> cases i.action <;> cases i.clientInfo <;>
    simp only [optSize, filterMap_cons, filterMap_nil, Option.map_none, Option.map_some, Option.getD_none,
      Option.getD_some, map_cons, map_nil, sum_cons, sum_nil] <;> omega

theorem addStrSize_eq {n : Nat} {s : Option CStr} (h : n + optSize s < 2 ^ 31) :
    addStrSize n s = .ok ((n + optSize s : Nat) : Int) := by
  cases s with
  | none => rfl
  | some s =>
    simp only [optSize, Option.map_some, Option.getD_some] at h ⊢
    rw [addStrSize, addInt32_eq_ok_iff, fltGetStoreStrSize_eq (by omega)]
    omega

/-- The size of app info, where an `int` can hold it: 0 without a string. -/
theorem fltGetSerializeSizeAppinfo_eq {i : AppValues} (h : 6 + i.size < 2 ^ 31) :
    fltGetSerializeSizeAppinfo i = .ok (if i.size = 0 then 0 else (6 + i.size : Nat)) := by
  have hsize := i.size_eq
  rw [fltGetSerializeSizeAppinfo, show (0 : Int) = (0 : Nat) from rfl, addStrSize_eq (by omega), ok_bind,
    addStrSize_eq (by omega), ok_bind, addStrSize_eq (by omega), ok_bind, addStrSize_eq (by omega), ok_bind]
  split
  · rw [addInt32_eq_ok_iff]
    omega
  congr 1
  omega

/-- Whatever the strings, the size is an `int`. -/
theorem fltGetSerializeSizeAppinfo_lt {i : AppValues} {n : Int} (h : fltGetSerializeSizeAppinfo i = .ok n) :
    n < 2 ^ 31 := by
  obtain ⟨n1, -, h⟩ := bind_eq_ok.mp h
  obtain ⟨n2, -, h⟩ := bind_eq_ok.mp h
  obtain ⟨n3, -, h⟩ := bind_eq_ok.mp h
  obtain ⟨n4, -, h⟩ := bind_eq_ok.mp h
  split at h
  · exact (addInt32_eq_ok_iff.mp h).2.2
  cases h
  omega

theorem fieldsSize_strings (ss : List (Nat × CStr)) :
    fieldsSize (ss.map fun f => (f.1, .str f.2.bytes)) = (ss.map fun f => 6 + f.2.bytes.length).sum := by
  rw [fieldsSize, map_map]
  rfl

/-- A string takes at least its header. -/
theorem AppValues.size_eq_zero_iff (i : AppValues) : i.size = 0 ↔ i.strings = [] := by
  rw [AppValues.size]
  cases i.strings with
  | nil => exact iff_of_true rfl rfl
  | cons f fs =>
    refine iff_of_false ?_ (cons_ne_nil f fs)
    rw [map_cons, sum_cons]
    omega

theorem agrees_app (i : AppValues) :
    Agrees (fltGetSerializeSizeAppinfo i) (fltSerializeAppinfo i) ↔ i.strings ≠ [] ∧ 6 + i.size < 2 ^ 31 := by
  rw [fltSerializeAppinfo, agrees_group_iff, fieldsSize_strings, ← AppValues.size, ne_eq, ← i.size_eq_zero_iff]
  constructor
  · intro hsize
    have hlt := fltGetSerializeSizeAppinfo_lt hsize
    have hbound : 6 + i.size < 2 ^ 31 := by omega
    refine ⟨?_, hbound⟩
    intro hzero
    rw [fltGetSerializeSizeAppinfo_eq hbound] at hsize
    have hsame := Except.ok.inj hsize
    omega
  · rintro ⟨hsome, hbound⟩
    rw [fltGetSerializeSizeAppinfo_eq hbound, if_neg hsome]

theorem fltGetSerializeSizeText_eq_ok_iff (text : CStr) :
    fltGetSerializeSizeText text = .ok ((13 + text.bytes.length : Nat) : Int) ↔ 13 + text.bytes.length < 2 ^ 31 := by
  rw [fltGetSerializeSizeText, addInt32_eq_ok_iff]
  constructor
  · rintro ⟨-, -, hlt⟩
    omega
  · intro hlt
    rw [fltGetStoreStrSize_eq (by omega)]
    omega

theorem agrees_text (type id : Nat) (text : CStr) :
    Agrees (fltGetSerializeSizeText text) (serializeGroup type [(id, .str (text.bytes ++ [0]))]) ↔
      13 + text.bytes.length < 2 ^ 31 := by
  rw [agrees_group_iff, ← fltGetSerializeSizeText_eq_ok_iff]
  have hfields : 6 + fieldsSize [(id, .str (text.bytes ++ [0]))] = 13 + text.bytes.length := by
    simp only [fieldsSize_cons, fieldsSize_nil, FltValue.width, length_append, length_singleton]
    omega
  rw [hfields]

theorem agrees_span (i : SpanValues) : Agrees (fltGetSerializeSizeSpaninfo i) (fltSerializeSpaninfo i) := by
  by_cases htrace : i.traceEnable = 1
  · have hwrite : fltSerializeSpaninfo i = serializeGroup 2004 [(2030, .int1 i.traceEnable), (2031, .int1 i.forcePrint),
        (2032, .str i.traceId), (2033, .int1 i.refType), (2034, .str i.spanId)] := by
      funext mem pos
      rw [fltSerializeSpaninfo, if_pos htrace]
    rw [hwrite, agrees_group_iff, fltGetSerializeSizeSpaninfo, if_pos htrace]
    simp only [fieldsSize_cons, FltValue.width, i.traceIdLen, i.spanIdLen]
    rfl
  · refine ⟨0, by rw [fltGetSerializeSizeSpaninfo, if_neg htrace], ?_⟩
    intro mem pos
    rw [fltSerializeSpaninfo, if_neg htrace]
    exact ⟨fun _ => ⟨mem, pos, rfl, rfl, by omega⟩, fun h => absurd h (by omega)⟩

/-- A null pointer has size 0 and cannot be written. -/
theorem not_agrees_null : ¬Agrees (.ok 0) serializeNullText := by
  rintro ⟨n, hn, hall⟩
  cases hn
  obtain ⟨mem', end_, h, -⟩ := (hall (List.replicate 6 0) 0).1 (by decide)
  cases h

/-- When the size of trace information is what is written. -/
def SizeMatches : FltInfo → Prop
  | .given (.control _) | .given (.query _) => False
  | .given (.app i) => i.strings ≠ [] ∧ 6 + i.size < 2 ^ 31
  | .given (.span _) => True
  | .given (.driverSpan text) | .given (.showTrace text) => 13 + text.bytes.length < 2 ^ 31
  | .nullDriverSpan | .nullShowTrace => False

theorem agrees_iff (i : FltInfo) : Agrees (fltGetSerializeSizeExtraInfo i) (fltSerialize i) ↔ SizeMatches i := by
  cases i with
  | given i =>
    cases i with
    | control i =>
      refine iff_of_false ?_ id
      intro h
      -- counted 76, written 74
      have hsize := (agrees_group_iff _ _ _).mp h
      cases hsize
    | app i => exact agrees_app i
    | query i =>
      refine iff_of_false ?_ id
      intro h
      -- counted 34, written 32
      have hsize := (agrees_group_iff _ _ _).mp h
      cases hsize
    | span i => exact iff_of_true (agrees_span i) trivial
    | driverSpan text => exact agrees_text 1 1 text
    | showTrace text => exact agrees_text 2005 2050 text
  | nullDriverSpan => exact iff_of_false not_agrees_null id
  | nullShowTrace => exact iff_of_false not_agrees_null id

/-! ## The request -/

/-- What `flt_build_request` sends, if it is there. -/
structure RequestInfo where
  app : AppValues
  clientSpan : Option CStr
  span : SpanValues
  showTraceSpan : Option CStr

/-- `client_span_`. -/
def RequestInfo.clientInfo (r : RequestInfo) : FltInfo := (r.clientSpan.map (.given <| .driverSpan ·)).getD .nullDriverSpan

/-- `show_trace_span_`. -/
def RequestInfo.showInfo (r : RequestInfo) : FltInfo := (r.showTraceSpan.map (.given <| .showTrace ·)).getD .nullShowTrace

/-- `MAX_FLT_SERIALIZE_SIZE`. -/
def maxFltSerializeSize : Int := 2048

/-- One group and the comparison behind it; what has size 0 is not written. -/
def buildGroup (present : Bool) (i : FltInfo) (stop : Except Fault Int) :
    Option (List UInt8 × Nat) → Except Fault (Option (List UInt8 × Nat))
  | none => .ok none
  | some (mem, pos) => do
    let written ← if present then fltSerialize i mem pos else .ok (some (mem, pos))
    match written with
    | none => .ok none
    | some (mem, pos) => do
      let stop ← stop
      .ok (if (pos : Int) = stop then some (mem, pos) else none)

/-- How the building of a request ends. -/
inductive BuildResult where
  /-- nothing to send -/
  | nothing
  /-- more than `MAX_FLT_SERIALIZE_SIZE` bytes -/
  | tooLarge
  /-- a group was not written, or did not take its size -/
  | mismatch
  /-- the value that is sent -/
  | value (bytes : List UInt8)
  deriving DecidableEq, Repr

/-- The four groups of a request, given their sizes. -/
def buildGroups (r : RequestInfo) (app client span show_ serializeSize : Int) (buf : List UInt8) :
    Except Fault BuildResult := do
  let at_ ← buildGroup true (.given (.span r.span)) (.ok span) (some (buf.take serializeSize.toNat, 0))
  let at_ ← buildGroup (client ≠ 0) r.clientInfo (addInt32 span client) at_
  let at_ ← buildGroup (show_ ≠ 0) r.showInfo (addInt32 span client >>= (addInt32 · show_)) at_
  let at_ ← buildGroup (app ≠ 0) (.given (.app r.app)) (.ok serializeSize) at_
  match at_ with
  | none => .ok .mismatch
  | some (mem, _) => .ok (.value mem)

/-- `flt_build_request` from the sizes on; `buf` is `flt_serialize_buf_`, of which a request uses as
many bytes as it has. -/
def fltBuildRequestValue (r : RequestInfo) (buf : List UInt8) : Except Fault BuildResult := do
  let app ← fltGetSerializeSizeExtraInfo (.given (.app r.app))
  let client ← fltGetSerializeSizeExtraInfo r.clientInfo
  let span ← fltGetSerializeSizeExtraInfo (.given (.span r.span))
  let show_ ← fltGetSerializeSizeExtraInfo r.showInfo
  let serializeSize ← addInt32 0 app
  let serializeSize ← addInt32 serializeSize client
  let serializeSize ← addInt32 serializeSize span
  let serializeSize ← addInt32 serializeSize show_
  if serializeSize = 0 then .ok .nothing
  else if maxFltSerializeSize < serializeSize then .ok .tooLarge
  else buildGroups r app client span show_ serializeSize buf

/-- The bytes that information takes in a request. -/
def FltInfo.bytes : FltInfo → Nat
  | .given (.app i) => if i.size = 0 then 0 else 6 + i.size
  | .given (.span i) => if i.traceEnable = 1 then 71 else 0
  | .given (.driverSpan text) | .given (.showTrace text) => 13 + text.bytes.length
  | .given (.control _) => 74
  | .given (.query _) => 32
  | .nullDriverSpan | .nullShowTrace => 0

/-- Information in a request has the size it takes, and what has a size is written. -/
structure Sent (i : FltInfo) : Prop where
  size : fltGetSerializeSizeExtraInfo i = .ok (i.bytes : Int)
  writes : i.bytes ≠ 0 → Agrees (fltGetSerializeSizeExtraInfo i) (fltSerialize i)

theorem sent_app {i : AppValues} (h : 6 + i.size < 2 ^ 31) : Sent (.given (.app i)) where
  size := by
    show fltGetSerializeSizeAppinfo i = _
    rw [fltGetSerializeSizeAppinfo_eq h, FltInfo.bytes]
    split <;> rfl
  writes := by
    intro hbytes
    apply (agrees_app i).mpr
    refine ⟨?_, h⟩
    rw [ne_eq, ← i.size_eq_zero_iff]
    intro hzero
    rw [FltInfo.bytes, if_pos hzero] at hbytes
    exact hbytes rfl

theorem sent_client {r : RequestInfo} (h : r.clientInfo.bytes < 2 ^ 31) : Sent r.clientInfo := by
  cases htext : r.clientSpan with
  | none =>
    rw [RequestInfo.clientInfo, htext]
    exact ⟨rfl, fun hbytes => absurd rfl hbytes⟩
  | some text =>
    rw [RequestInfo.clientInfo, htext] at h ⊢
    exact ⟨(fltGetSerializeSizeText_eq_ok_iff text).mpr h, fun _ => (agrees_text 1 1 text).mpr h⟩

theorem sent_show {r : RequestInfo} (h : r.showInfo.bytes < 2 ^ 31) : Sent r.showInfo := by
  cases htext : r.showTraceSpan with
  | none =>
    rw [RequestInfo.showInfo, htext]
    exact ⟨rfl, fun hbytes => absurd rfl hbytes⟩
  | some text =>
    rw [RequestInfo.showInfo, htext] at h ⊢
    exact ⟨(fltGetSerializeSizeText_eq_ok_iff text).mpr h, fun _ => (agrees_text 2005 2050 text).mpr h⟩

theorem size_span (i : SpanValues) :
    fltGetSerializeSizeExtraInfo (.given (.span i)) = .ok ((FltInfo.given (.span i)).bytes : Int) := by
  show fltGetSerializeSizeSpaninfo i = _
  rw [fltGetSerializeSizeSpaninfo, FltInfo.bytes]
  split <;> rfl

/-- A group that is written leaves the position behind it. -/
theorem buildGroup_written {i : FltInfo} {n : Nat} (hsize : fltGetSerializeSizeExtraInfo i = .ok (n : Int))
    (hagrees : Agrees (fltGetSerializeSizeExtraInfo i) (fltSerialize i)) {mem : List UInt8} {pos : Nat}
    (hroom : pos + n ≤ mem.length) {stop : Except Fault Int} (hstop : stop = .ok ((pos + n : Nat) : Int)) :
    ∃ mem', buildGroup true i stop (some (mem, pos)) = .ok (some (mem', pos + n)) ∧ mem'.length = mem.length := by
  obtain ⟨m, hm, hall⟩ := hagrees
  rw [hsize] at hm
  cases hm
  obtain ⟨mem', end_, hwrite, hlen, hend⟩ := (hall mem pos).1 (by omega)
  obtain rfl : end_ = pos + n := by omega
  refine ⟨mem', ?_, hlen⟩
  rw [buildGroup, if_pos rfl, hwrite, ok_bind]
  dsimp only
  rw [hstop, ok_bind, if_pos rfl]

/-- A group behind the test of its size. -/
theorem buildGroup_sent {i : FltInfo} (hsent : Sent i) {mem : List UInt8} {pos : Nat}
    (hroom : pos + i.bytes ≤ mem.length) {stop : Except Fault Int}
    (hstop : stop = .ok ((pos + i.bytes : Nat) : Int)) :
    ∃ mem', buildGroup ((i.bytes : Int) ≠ 0) i stop (some (mem, pos)) = .ok (some (mem', pos + i.bytes)) ∧
      mem'.length = mem.length := by
  by_cases hzero : i.bytes = 0
  · refine ⟨mem, ?_, rfl⟩
    rw [hzero, add_zero] at hstop
    rw [hzero, buildGroup, if_neg (by decide), ok_bind]
    dsimp only
    rw [hstop, ok_bind, if_pos rfl, add_zero]
  have hpresent : decide ((i.bytes : Int) ≠ 0) = true := decide_eq_true (by omega)
  rw [hpresent]
  exact buildGroup_written hsent.size (hsent.writes hzero) hroom hstop

theorem addInt32_natCast {a b : Nat} (h : a + b < 2 ^ 31) : addInt32 a b = .ok ((a + b : Nat) : Int) := by
  rw [addInt32_eq_ok_iff]
  omega

/-- The bytes of a request. -/
def RequestInfo.bytes (r : RequestInfo) : Nat :=
  (FltInfo.given (.app r.app)).bytes + r.clientInfo.bytes + (FltInfo.given (.span r.span)).bytes + r.showInfo.bytes

/-- Span, client span, show trace, app: each group ends where the sizes say. -/
theorem buildGroups_sent {r : RequestInfo} (happ : Sent (.given (.app r.app))) (hclient : Sent r.clientInfo)
    (hshow : Sent r.showInfo) (hbytes : r.bytes < 2 ^ 31) {buf : List UInt8} (hbuf : r.bytes ≤ buf.length) :
    ∃ mem, buildGroups r (FltInfo.given (.app r.app)).bytes r.clientInfo.bytes (FltInfo.given (.span r.span)).bytes
      r.showInfo.bytes r.bytes buf = .ok (.value mem) := by
  have hsum : r.bytes = (FltInfo.given (.span r.span)).bytes + r.clientInfo.bytes + r.showInfo.bytes +
      (FltInfo.given (.app r.app)).bytes := by
    rw [RequestInfo.bytes]
    omega
  have hlen : (buf.take r.bytes).length = r.bytes := by
    rw [length_take]
    omega
  obtain ⟨mem1, h1, hlen1⟩ := @buildGroup_written _ _ (size_span r.span) (agrees_span r.span) (buf.take r.bytes) 0
    (by omega) (.ok ((FltInfo.given (.span r.span)).bytes : Int)) (by rw [zero_add])
  rw [zero_add] at h1
  obtain ⟨mem2, h2, hlen2⟩ := @buildGroup_sent _ hclient mem1 (FltInfo.given (.span r.span)).bytes (by omega) _
    (addInt32_natCast (by omega))
  obtain ⟨mem3, h3, hlen3⟩ := @buildGroup_sent _ hshow mem2
    ((FltInfo.given (.span r.span)).bytes + r.clientInfo.bytes) (by omega)
    (addInt32 (FltInfo.given (.span r.span)).bytes r.clientInfo.bytes >>= (addInt32 · r.showInfo.bytes))
    (by rw [addInt32_natCast (by omega), ok_bind, addInt32_natCast (by omega)])
  obtain ⟨mem4, h4, -⟩ := @buildGroup_sent _ happ mem3
    ((FltInfo.given (.span r.span)).bytes + r.clientInfo.bytes + r.showInfo.bytes) (by omega) (.ok r.bytes)
    (by rw [hsum])
  refine ⟨mem4, ?_⟩
  rw [buildGroups, Int.toNat_natCast, h1, ok_bind, h2, ok_bind, h3, ok_bind, h4, ok_bind]

/-- **How a request ends** that is not too large for an `int`. -/
theorem fltBuildRequestValue_result {r : RequestInfo} (hbytes : r.bytes < 2 ^ 31) {buf : List UInt8}
    (hbuf : (buf.length : Int) = maxFltSerializeSize) :
    fltBuildRequestValue r buf = .ok .nothing ∧ r.bytes = 0 ∨
      fltBuildRequestValue r buf = .ok .tooLarge ∧ maxFltSerializeSize < r.bytes ∨
      (r.bytes ≠ 0 ∧ (r.bytes : Int) ≤ maxFltSerializeSize) ∧ ∃ mem, fltBuildRequestValue r buf = .ok (.value mem) := by
  have hsum : r.bytes = (FltInfo.given (.app r.app)).bytes + r.clientInfo.bytes + (FltInfo.given (.span r.span)).bytes +
      r.showInfo.bytes := rfl
  have happ : 6 + r.app.size < 2 ^ 31 := by
    have hdef : (FltInfo.given (.app r.app)).bytes = if r.app.size = 0 then 0 else 6 + r.app.size := rfl
    split at hdef <;> omega
  have hA := sent_app happ
  have hC := @sent_client r (by omega)
  have hT := @sent_show r (by omega)
  rw [fltBuildRequestValue, hA.size, ok_bind, hC.size, ok_bind, size_span, ok_bind, hT.size, ok_bind,
    show (0 : Int) = (0 : Nat) from rfl, addInt32_natCast (by omega), ok_bind, addInt32_natCast (by omega), ok_bind,
    addInt32_natCast (by omega), ok_bind, addInt32_natCast (by omega), ok_bind, zero_add, ← hsum]
  by_cases hzero : (r.bytes : Int) = (0 : Nat)
  · rw [if_pos hzero]
    exact .inl ⟨rfl, by omega⟩
  rw [if_neg hzero]
  by_cases hlarge : maxFltSerializeSize < r.bytes
  · rw [if_pos hlarge]
    exact .inr (.inl ⟨rfl, hlarge⟩)
  rw [if_neg hlarge]
  exact .inr (.inr ⟨⟨by omega, by omega⟩, buildGroups_sent hA hC hT hbytes (by omega)⟩)

/-- **A request is built of groups that take their size**: it is not refused for another reason than
that it is too large. -/
theorem fltBuildRequestValue_agrees {r : RequestInfo} (hbytes : r.bytes < 2 ^ 31) {buf : List UInt8}
    (hbuf : (buf.length : Int) = maxFltSerializeSize) :
    ∃ result, fltBuildRequestValue r buf = .ok result ∧ result ≠ .mismatch := by
  rcases fltBuildRequestValue_result hbytes hbuf with ⟨h, -⟩ | ⟨h, -⟩ | ⟨-, mem, h⟩
  · exact ⟨_, h, by simp⟩
  · exact ⟨_, h, by simp⟩
  · exact ⟨_, h, by simp⟩

/-- **When the sizes of trace information agree with what is written**, by kind; and a request of less
than 2^31 bytes never fails because a group did not take its size. -/
theorem flt_sizes_agree (i : FltInfo) (r : RequestInfo) {buf : List UInt8}
    (hbuf : (buf.length : Int) = maxFltSerializeSize) :
    (Agrees (fltGetSerializeSizeExtraInfo i) (fltSerialize i) ↔ SizeMatches i) ∧
      (r.bytes < 2 ^ 31 → ∃ result, fltBuildRequestValue r buf = .ok result ∧ result ≠ .mismatch) :=
  ⟨agrees_iff i, fun hbytes => fltBuildRequestValue_agrees hbytes hbuf⟩

/-- The text "a". -/
def aText : CStr := ⟨[97], by decide⟩

/-- A request with a trace, a span text and a module. -/
def aRequest : RequestInfo :=
  ⟨⟨none, some aText, none, none⟩, some aText,
    ⟨1, 0, List.replicate 16 0, 0, List.replicate 16 0, length_replicate, length_replicate⟩, none⟩

theorem aRequest_built :
    Agrees (fltGetSerializeSizeExtraInfo (.given (.driverSpan aText))) (fltSerialize (.given (.driverSpan aText))) ∧
      ∃ result, fltBuildRequestValue aRequest (List.replicate 2048 0) = .ok result ∧ result ≠ .mismatch :=
  have h := flt_sizes_agree (.given (.driverSpan aText)) aRequest
    (show ((List.replicate 2048 (0 : UInt8)).length : Int) = maxFltSerializeSize by
      rw [length_replicate]; rfl)
  ⟨h.1.mpr (show 13 + 1 < 2 ^ 31 by decide), h.2 (by decide)⟩

/-- Query info is counted with 34 bytes and takes 32; app info without a string is counted with 0 and
takes 6; a span text that is null is counted with 0 and not survived. -/
theorem sizes_differ :
    (¬Agrees (fltGetSerializeSizeExtraInfo (.given (.query ⟨1, 2⟩))) (fltSerialize (.given (.query ⟨1, 2⟩))) ∧
      fltGetSerializeSizeExtraInfo (.given (.query ⟨1, 2⟩)) = .ok 34 ∧
      (fltSerialize (.given (.query ⟨1, 2⟩)) (List.replicate 40 0) 0).toOption.join.map Prod.snd = some 32) ∧
    (fltGetSerializeSizeExtraInfo (.given (.app ⟨none, none, none, none⟩)) = .ok 0 ∧
      (fltSerialize (.given (.app ⟨none, none, none, none⟩)) (List.replicate 40 0) 0).toOption.join.map Prod.snd =
        some 6) ∧
    (fltGetSerializeSizeExtraInfo .nullDriverSpan = .ok 0 ∧
      fltSerialize .nullDriverSpan (List.replicate 40 0) 0 = .error .readOutside) :=
  ⟨⟨fun h => (agrees_iff _).mp h, by decide, by decide⟩, ⟨by decide, by decide⟩, by decide, by decide⟩

end ObConnector.Protocol20
