/-
# ObConnector.Protocol20.Flt -- reading the extra info of an OB2.0 frame.

`decode_protocol20_extra_info` walks key / length / value items; the value of a `FULL_TRC` item is
handed to `extrainfo_deserialize_flt`, which walks groups of the same shape, and a group it knows is
walked field by field by `flt_deserialize_extra_info` and one of four per-group field decoders
(`ob_protocol20.c`, `ob_full_link_trace.c`).

The model keeps what the three loops depend on. `row` is the declared extra-info region, a load
outside it is a fault, so is an index past `extra_serialize_funcs`, and each loop spends one unit of
fuel per iteration. Cursors are integers because the lengths of groups and fields are read as signed
32-bit numbers. Every assignment to a cursor is noted in the ghost field `moves`.

The four field decoders differ only in which ids they know and where they put the value: one
definition (`deserializeField`) with a table of slots each. A connection with full-link trace on is
modelled: `ob20protocol->flt` is there. The record keeps the three parts of `FLTInfo` that a decode
can write.
-/
import ObConnector.Protocol20.ExtraInfo

namespace ObConnector.Protocol20

open Lib

/-! ## The decoded records -/

/-- What a `char *` of a decoded record holds: null, an address in the extra-info region given by
its offset there, or an address elsewhere. -/
inductive CharPtr where
  | null
  | inRow (off : Int)
  | elsewhere (addr : Nat)
  deriving DecidableEq, Repr

/-- Eight bytes of a record that hold a `double`, or a pointer once a span group was decoded over
them. -/
inductive Word64 where
  | bits (pattern : Nat)
  | ptr (p : CharPtr)
  deriving DecidableEq, Repr

/-- `FLTControlInfo`. -/
structure FLTControlInfo where
  type_ : Int
  level_ : Int
  samplePct_ : Word64
  rp_ : Nat
  printSamplePct_ : Word64
  slowQueryThreshold_ : Int
  fltShowTraceEnable_ : Int
  deriving DecidableEq, Repr

/-- `FLTAppInfo`. -/
structure FLTAppInfo where
  type_ : Int
  identifier_ : CharPtr
  module_ : CharPtr
  action_ : CharPtr
  clientInfo_ : CharPtr
  deriving DecidableEq, Repr

/-- `FLTQueryInfo`. -/
structure FLTQueryInfo where
  type_ : Int
  queryStartTimestamp_ : Int
  queryEndTimestamp_ : Int
  deriving DecidableEq, Repr

/-- The parts of `FLTInfo` that `extrainfo_deserialize_flt` can write. -/
structure FLTInfo where
  controlInfo_ : FLTControlInfo
  appInfo_ : FLTAppInfo
  queryInfo_ : FLTQueryInfo
  deriving DecidableEq, Repr

/-- Records with nothing decoded into them. -/
def zeroFlt : FLTInfo :=
  ⟨⟨2003, 0, .bits 0, 0, .bits 0, 0, 0⟩, ⟨2001, .null, .null, .null, .null⟩, ⟨2002, 0, 0⟩⟩

/-- The four groups that `extrainfo_deserialize_flt` knows. -/
inductive FltGroup where
  | appInfo
  | queryInfo
  | controlInfo
  | spanInfo
  deriving DecidableEq, Repr

/-- The value of the group in `FullLinkTraceExtraInfoType`. -/
def FltGroup.type : FltGroup → Nat
  | .appInfo => 2001
  | .queryInfo => 2002
  | .controlInfo => 2003
  | .spanInfo => 2004

theorem FltGroup.type_lt (g : FltGroup) : g.type < 256 ^ 2 := by
  cases g <;> decide

/-- The chain of comparisons at the head of `extrainfo_deserialize_flt`. -/
def knowFltInfo (type : Int) : Option FltGroup :=
  if type = FltGroup.controlInfo.type then some .controlInfo
  else if type = FltGroup.appInfo.type then some .appInfo
  else if type = FltGroup.queryInfo.type then some .queryInfo
  else if type = FltGroup.spanInfo.type then some .spanInfo
  else none

theorem knowFltInfo_type (g : FltGroup) : knowFltInfo g.type = some g := by
  cases g <;> rfl

/-! ## The getters

Each works on the group's bytes, which start at `buf` in `row` and are `len` long by the group's own
header. The result is the value and the new `*ppos`, or nothing for `OB_ERROR`. -/

/-- `flt_resolve_type_and_len`. -/
def fltResolveTypeAndLen (row : List UInt8) (buf len pos : Int) :
    Except Fault (Option (Int × Int × Int)) :=
  if pos + 2 + 4 > len then .ok none
  else do
    let type ← readAt row (buf + pos) 2
    let vLen ← readAt row (buf + (pos + 2)) 4
    return some (intOf 2 false (leNat type), intOf 4 false (leNat vLen), pos + 2 + 4)

/-- `flt_get_int1`, `flt_get_int8` and `flt_get_double` up to the conversion of the loaded bytes: the
length must be the width and the value must end inside the group. -/
def fltGetFixed (width : Nat) (row : List UInt8) (buf len pos vLen : Int) :
    Except Fault (Option (List UInt8 × Int)) :=
  if (width : Int) ≠ vLen ∨ pos + vLen > len then .ok none
  else do
    let bytes ← readAt row (buf + pos) width
    return some (bytes, pos + vLen)

/-- `flt_get_str`: the pointer it gives is the start of the group, not of the string. -/
def fltGetStr (buf len pos strLen : Int) : Option (CharPtr × Int) :=
  if pos + strLen > len then none else some (.inRow buf, pos + strLen)

/-! ## The field decoders -/

/-- How a known field is fetched and where it goes in a record. -/
inductive FieldSlot (α : Type) where
  /-- a value of one fixed width -/
  | fixed (width : Nat) (store : List UInt8 → α → α)
  /-- a string, by `flt_get_str` -/
  | str (store : CharPtr → α → α)

section Slots

variable {α β : Type}

/-- A field read by `flt_get_int1`. -/
def FieldSlot.int1 (store : Int → α → α) : FieldSlot α :=
  .fixed 1 fun bytes => store (intOf 1 false (leNat bytes))

/-- A field read by `flt_get_int8`. -/
def FieldSlot.int8 (store : Int → α → α) : FieldSlot α :=
  .fixed 8 fun bytes => store (intOf 8 false (leNat bytes))

/-- A field read by `flt_get_double`; the value is the bit pattern. -/
def FieldSlot.double (store : Nat → α → α) : FieldSlot α :=
  .fixed 8 fun bytes => store (leNat bytes)

/-- A slot of one part of a record is a slot of the record. -/
def FieldSlot.within (update : (α → α) → β → β) : FieldSlot α → FieldSlot β
  | .fixed width store => .fixed width fun bytes => update (store bytes)
  | .str store => .str fun p => update (store p)

/-- The common shape of `flt_deserialize_field_controlinfo` and its siblings: a known id goes to its
getter, any other to the `default` arm `*pos += *pos + v_len`. -/
def deserializeField (slots : Int → Option (FieldSlot α)) (row : List UInt8)
    (buf len : Int) (extraId vLen pos : Int) (info : α) : Except Fault (Option (Int × α)) :=
  match slots extraId with
  | none => .ok (some (pos + (pos + vLen), info))
  | some (.fixed width store) => do
    match ← fltGetFixed width row buf len pos vLen with
    | none => return none
    | some (bytes, pos) => return some (pos, store bytes info)
  | some (.str store) =>
    match fltGetStr buf len pos vLen with
    | none => .ok none
    | some (p, pos) => .ok (some (pos, store p info))

end Slots

/-- The cases of `flt_deserialize_field_controlinfo`. `rp_` is an unsigned 32-bit enumeration. -/
def controlinfoSlots (extraId : Int) : Option (FieldSlot FLTControlInfo) :=
  if extraId = 2020 then some (.int1 fun v i => { i with level_ := v })
  else if extraId = 2021 then some (.double fun v i => { i with samplePct_ := .bits v })
  else if extraId = 2022 then some (.int1 fun v i => { i with rp_ := patternOf 4 v })
  else if extraId = 2023 then some (.double fun v i => { i with printSamplePct_ := .bits v })
  else if extraId = 2024 then some (.int8 fun v i => { i with slowQueryThreshold_ := v })
  else if extraId = 2025 then some (.int1 fun v i => { i with fltShowTraceEnable_ := v })
  else none

/-- The cases of `flt_deserialize_field_appinfo`. -/
def appinfoSlots (extraId : Int) : Option (FieldSlot FLTAppInfo) :=
  if extraId = 2001 then some (.str fun p i => { i with identifier_ := p })
  else if extraId = 2002 then some (.str fun p i => { i with module_ := p })
  else if extraId = 2003 then some (.str fun p i => { i with action_ := p })
  else if extraId = 2004 then some (.str fun p i => { i with clientInfo_ := p })
  else none

/-- The cases of `flt_deserialize_field_queryinfo`. -/
def queryinfoSlots (extraId : Int) : Option (FieldSlot FLTQueryInfo) :=
  if extraId = 2010 then some (.int8 fun v i => { i with queryStartTimestamp_ := v })
  else if extraId = 2011 then some (.int8 fun v i => { i with queryEndTimestamp_ := v })
  else none

/-- The cases of `flt_deserialize_field_spaninfo`. The caller passes it the control record, so
`trace_enable_` is `level_`, `force_print_` is padding, `trace_id_` is `sample_pct_`, `ref_type_` is
the low byte of `rp_` and `span_id_` is `print_sample_pct_`. -/
def spaninfoSlots (extraId : Int) : Option (FieldSlot FLTControlInfo) :=
  if extraId = 2030 then some (.int1 fun v i => { i with level_ := v })
  else if extraId = 2031 then some (.int1 fun _ i => i)
  else if extraId = 2032 then some (.str fun p i => { i with samplePct_ := .ptr p })
  else if extraId = 2033 then
    some (.int1 fun v i => { i with rp_ := i.rp_ - i.rp_ % 256 + patternOf 1 v })
  else if extraId = 2034 then some (.str fun p i => { i with printSamplePct_ := .ptr p })
  else none

/-- The slots of a group, as `flt_funcs[type]` and the `flt_info` pointer select them. -/
def fltSlots : FltGroup → Int → Option (FieldSlot FLTInfo)
  | .controlInfo, extraId => (controlinfoSlots extraId).map
      (FieldSlot.within fun f i => { i with controlInfo_ := f i.controlInfo_ })
  | .appInfo, extraId => (appinfoSlots extraId).map
      (FieldSlot.within fun f i => { i with appInfo_ := f i.appInfo_ })
  | .queryInfo, extraId => (queryinfoSlots extraId).map
      (FieldSlot.within fun f i => { i with queryInfo_ := f i.queryInfo_ })
  | .spanInfo, extraId => (spaninfoSlots extraId).map
      (FieldSlot.within fun f i => { i with controlInfo_ := f i.controlInfo_ })

/-- `((FLTInfoBase *)flt_info)->type_ = type`. -/
def FLTInfo.setType (i : FLTInfo) : FltGroup → FLTInfo
  | .controlInfo => { i with controlInfo_ := { i.controlInfo_ with type_ := 2003 } }
  | .appInfo => { i with appInfo_ := { i.appInfo_ with type_ := 2001 } }
  | .queryInfo => { i with queryInfo_ := { i.queryInfo_ with type_ := 2002 } }
  | .spanInfo => { i with controlInfo_ := { i.controlInfo_ with type_ := 2004 } }

/-! ## The three loops -/

/-- The decoded records, and the list of cursor assignments (old value, new value) so far, the
latest first. -/
structure Decoding where
  flt : FLTInfo
  moves : List (Int × Int)
  deriving DecidableEq, Repr

/-- Note an assignment to a cursor. -/
def Decoding.move (d : Decoding) (pos pos' : Int) : Decoding :=
  { d with moves := (pos, pos') :: d.moves }

/-- What a decoding function returns. -/
inductive Ret where
  | obSuccess
  | obError
  deriving DecidableEq, Repr

/-- `flt_deserialize_extra_info`: the fields of one group. -/
def fltDeserializeExtraInfo (row : List UInt8) (group : FltGroup) (buf len : Int) :
    Nat → Int → Decoding → Except Fault (Ret × Decoding)
  | 0, _, _ => .error .outOfFuel
  | fuel + 1, pos, d =>
    if pos < len then do
      match ← fltResolveTypeAndLen row buf len pos with
      | none => return (.obError, d)
      | some (extraId, valLen, pos1) =>
        match ← deserializeField (fltSlots group) row buf len extraId valLen pos1 d.flt with
        | none => return (.obError, d.move pos pos1)
        | some (pos2, flt) =>
          fltDeserializeExtraInfo row group buf len fuel pos2
            (({ d with flt := flt }.move pos pos1).move pos1 pos2)
    else .ok (.obSuccess, d)

/-- `extrainfo_deserialize_flt`: the groups from `pos` to the end `len` of the whole extra info. The
result carries the final `pos`, which the caller sees only on success. -/
def extrainfoDeserializeFlt (row : List UInt8) (len : Int) :
    Nat → Int → Decoding → Except Fault (Ret × Int × Decoding)
  | 0, _, _ => .error .outOfFuel
  | fuel + 1, pos, d =>
    if pos < len then do
      match ← fltResolveTypeAndLen row 0 len pos with
      | none => return (.obError, pos, d)
      | some (type, tmpVLen, pos1) =>
        match knowFltInfo type with
        | some group =>
          match ← fltDeserializeExtraInfo row group pos1 tmpVLen fuel 0
              ({ d with flt := d.flt.setType group }.move pos pos1) with
          | (.obError, d) => return (.obError, pos1, d)
          | (.obSuccess, d) =>
            extrainfoDeserializeFlt row len fuel (pos1 + tmpVLen) (d.move pos1 (pos1 + tmpVLen))
        | none =>
          extrainfoDeserializeFlt row len fuel (pos1 + tmpVLen)
            ((d.move pos pos1).move pos1 (pos1 + tmpVLen))
    else .ok (.obSuccess, pos, d)

/-- The loop of `decode_protocol20_extra_info` over the items of `row`. -/
def decodeLoop (row : List UInt8) :
    Nat → Int → Decoding → Except Fault (Ret × Decoding)
  | 0, _, _ => .error .outOfFuel
  | fuel + 1, pos, d =>
    if pos < row.length then do
      let key ← readAt row pos 2
      let vLen ← readAt row (pos + 2) 4
      let valueLen : Int := leNat vLen
      let checkPos := pos + 2 + 4
      let d := d.move pos checkPos
      match ← extraSerializeFuncs (leNat key) with
      | none => decodeLoop row fuel (checkPos + valueLen) (d.move checkPos (checkPos + valueLen))
      | some .flt =>
        match ← extrainfoDeserializeFlt row row.length fuel checkPos d with
        | (.obError, _, d) => return (.obError, d)
        | (.obSuccess, pos, d) =>
          if pos ≠ checkPos + valueLen then return (.obError, d.move checkPos pos)
          else decodeLoop row fuel pos (d.move checkPos pos)
    else .ok (.obSuccess, d)

/-- `decode_protocol20_extra_info` on the declared region `row`, the bytes behind the four length
bytes. -/
def decodeProtocol20ExtraInfo (fuel : Nat) (row : List UInt8) (flt : FLTInfo) :
    Except Fault (Ret × Decoding) :=
  decodeLoop row fuel 0 ⟨flt, []⟩

/-! ## What one header and one field do -/

/-- The `n` bytes at `off` are inside the region. -/
def Inside (row : List UInt8) (off : Int) (n : Nat) : Prop := 0 ≤ off ∧ off + n ≤ row.length

instance (row : List UInt8) (off : Int) (n : Nat) : Decidable (Inside row off n) := by
  unfold Inside; infer_instance

/-- The type or id in the group or field header at `off`. -/
def typeAt (row : List UInt8) (off : Int) : Int := intOf 2 false (leNat (sliceAt row off 2))

/-- The length in the group or field header at `off`. -/
def lenAt (row : List UInt8) (off : Int) : Int := intOf 4 false (leNat (sliceAt row (off + 2) 4))

theorem resolve_eq (row : List UInt8) (buf len pos : Int) : fltResolveTypeAndLen row buf len pos =
      if len < pos + 6 then .ok none
      else if Inside row (buf + pos) 6 then .ok (some (typeAt row (buf + pos), lenAt row (buf + pos), pos + 6))
      else .error .readOutside := by
  unfold fltResolveTypeAndLen
  by_cases hcut : len < pos + 6
  · rw [if_pos (by omega), if_pos hcut]
  rw [if_neg (by omega), if_neg hcut, show pos + 2 + 4 = pos + 6 by omega]
  by_cases hin : Inside row (buf + pos) 6
  · obtain ⟨h0, h1⟩ := hin
    rw [if_pos ⟨h0, h1⟩, readAt_inside h0 (by omega), ok_bind,
      readAt_inside (by omega) (by omega), ok_bind, typeAt, lenAt, add_assoc, pure_eq_ok]
  rw [if_neg hin]
  by_cases htype : 0 ≤ buf + pos ∧ buf + pos + 2 ≤ row.length
  · rw [readAt_inside htype.1 htype.2, ok_bind, readAt_outside, error_bind]
    intro hlen
    exact hin ⟨htype.1, by omega⟩
  · rw [readAt_outside htype, error_bind]

section Fields

variable {α : Type}

/-- A known field is refused when its value passes the end of the group or has the wrong length; an
unknown one never is. -/
def fieldRefused (slot : Option (FieldSlot α)) (len pos vLen : Int) : Prop :=
  match slot with
  | none => False
  | some (.fixed width _) => (width : Int) ≠ vLen ∨ pos + vLen > len
  | some (.str _) => pos + vLen > len

instance (slot : Option (FieldSlot α)) (len pos vLen : Int) :
    Decidable (fieldRefused slot len pos vLen) := by
  unfold fieldRefused; split <;> infer_instance

/-- Where the cursor goes behind a field that is not refused. -/
def fieldEnd (slot : Option (FieldSlot α)) (pos vLen : Int) : Int :=
  match slot with
  | none => pos + (pos + vLen)
  | some _ => pos + vLen

/-- The value bytes that a field's getter loads are inside the region. -/
def fieldLoads (slot : Option (FieldSlot α)) (row : List UInt8) (off : Int) : Prop :=
  match slot with
  | some (.fixed width _) => Inside row off width
  | _ => True

/-- The record after a field whose value starts at `off` in a group that starts at `buf`. -/
def fieldStore (slot : Option (FieldSlot α)) (row : List UInt8) (buf off : Int) (info : α) : α :=
  match slot with
  | none => info
  | some (.fixed width store) => store (sliceAt row off width) info
  | some (.str store) => store (.inRow buf) info

variable (slots : Int → Option (FieldSlot α)) (extraId : Int) {row : List UInt8}
  {buf len vLen pos : Int} {info : α}

/-- A field that is refused ends the decode with `OB_ERROR`. -/
theorem deserializeField_refused (h : fieldRefused (slots extraId) len pos vLen) :
    deserializeField slots row buf len extraId vLen pos info = .ok none := by
  unfold deserializeField
  split
  · rename_i hs
    simp [fieldRefused, hs] at h
  · rename_i width store hs
    simp only [hs, fieldRefused] at h
    rw [fltGetFixed, if_pos h]
    rfl
  rename_i store hs
  simp only [hs, fieldRefused] at h
  rw [fltGetStr, if_pos h]

/-- A field that is not refused and whose value is inside is stored, and the cursor moves on. -/
theorem deserializeField_stored (h : ¬fieldRefused (slots extraId) len pos vLen)
    (hin : fieldLoads (slots extraId) row (buf + pos)) :
    deserializeField slots row buf len extraId vLen pos info = .ok (some (fieldEnd (slots extraId) pos vLen,
        fieldStore (slots extraId) row buf (buf + pos) info)) := by
  unfold deserializeField
  cases hs : slots extraId with
  | none => rfl
  | some s =>
    rw [hs] at h hin
    cases s with
    | fixed width store =>
      simp only [fieldRefused, fltGetFixed] at h ⊢
      rw [if_neg h, readAt_inside hin.1 hin.2]
      rfl
    | str store =>
      simp only [fieldRefused, fltGetStr] at h ⊢
      rw [if_neg h]
      rfl

end Fields

/-! ## Fuel is only a bound -/

variable {row : List UInt8} {out : Ret × Decoding} {fuel : Nat}

theorem fields_fuel_succ {g : FltGroup} {buf len pos : Int} {d : Decoding}
    (h : fltDeserializeExtraInfo row g buf len fuel pos d = .ok out) :
    fltDeserializeExtraInfo row g buf len (fuel + 1) pos d = .ok out := by
  induction fuel generalizing pos d with
  | zero => cases h
  | succ fuel ih =>
    rw [fltDeserializeExtraInfo] at h ⊢
    split at h
    · rename_i hlt
      rw [if_pos hlt]
      rw [bind_eq_ok] at h ⊢
      obtain ⟨header, hres, h⟩ := h
      refine ⟨header, hres, ?_⟩
      match header with
      | none => exact h
      | some (extraId, valLen, pos1) =>
        rw [bind_eq_ok] at h ⊢
        obtain ⟨field, hfield, h⟩ := h
        refine ⟨field, hfield, ?_⟩
        match field with
        | none => exact h
        | some (pos2, flt) => exact ih h
    · rename_i hge
      rw [if_neg hge]
      exact h

theorem groups_fuel_succ {len pos : Int} {d : Decoding} {out : Ret × Int × Decoding}
    (h : extrainfoDeserializeFlt row len fuel pos d = .ok out) :
    extrainfoDeserializeFlt row len (fuel + 1) pos d = .ok out := by
  induction fuel generalizing pos d with
  | zero => cases h
  | succ fuel ih =>
    rw [extrainfoDeserializeFlt] at h ⊢
    split at h
    · rename_i hlt
      rw [if_pos hlt]
      rw [bind_eq_ok] at h ⊢
      obtain ⟨header, hres, h⟩ := h
      refine ⟨header, hres, ?_⟩
      match header with
      | none => exact h
      | some (type, tmpVLen, pos1) =>
        cases hk : knowFltInfo type with
        | none =>
          simp only [hk] at h ⊢
          exact ih h
        | some g =>
          simp only [hk, bind_eq_ok] at h ⊢
          obtain ⟨res, hfields, h⟩ := h
          refine ⟨res, fields_fuel_succ hfields, ?_⟩
          match res with
          | (.obError, d) => exact h
          | (.obSuccess, d) => exact ih h
    · rename_i hge
      rw [if_neg hge]
      exact h

theorem decodeLoop_fuel_succ {pos : Int} {d : Decoding} (h : decodeLoop row fuel pos d = .ok out) :
    decodeLoop row (fuel + 1) pos d = .ok out := by
  induction fuel generalizing pos d with
  | zero => cases h
  | succ fuel ih =>
    rw [decodeLoop] at h ⊢
    split at h
    · rename_i hlt
      rw [if_pos hlt]
      simp only [bind_eq_ok] at h ⊢
      obtain ⟨key, hkey, vLen, hvLen, funcs, hfuncs, h⟩ := h
      refine ⟨key, hkey, vLen, hvLen, funcs, hfuncs, ?_⟩
      match funcs with
      | none => exact ih h
      | some .flt =>
        simp only [bind_eq_ok] at h ⊢
        obtain ⟨res, hgroups, h⟩ := h
        refine ⟨res, groups_fuel_succ hgroups, ?_⟩
        match res with
        | (.obError, _, d) => exact h
        | (.obSuccess, pos, d) =>
          simp only at h ⊢
          split at h
          · rename_i hne
            rw [if_pos hne]
            exact h
          rename_i heq
          rw [if_neg heq]
          exact ih h
    · rename_i hge
      rw [if_neg hge]
      exact h

theorem decode_fuel_mono {flt : FLTInfo} {fuel' : Nat} (h : decodeProtocol20ExtraInfo fuel row flt = .ok out)
    (hle : fuel ≤ fuel') : decodeProtocol20ExtraInfo fuel' row flt = .ok out := by
  induction hle with
  | refl => exact h
  | step _ ih => exact decodeLoop_fuel_succ ih

/-- **Two decodes of one region with enough fuel have one result.** -/
theorem decode_unique {flt : FLTInfo} {fuel' : Nat} {out' : Ret × Decoding}
    (h : decodeProtocol20ExtraInfo fuel row flt = .ok out)
    (h' : decodeProtocol20ExtraInfo fuel' row flt = .ok out') : out = out' := by
  have h1 := decode_fuel_mono h (le_max_left fuel fuel')
  have h2 := decode_fuel_mono h' (le_max_right fuel fuel')
  rw [h1] at h2
  exact Except.ok.inj h2

end ObConnector.Protocol20
