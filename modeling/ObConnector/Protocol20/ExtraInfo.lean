/-
# ObConnector.Protocol20.ExtraInfo -- writing the extra info of an OB2.0 frame.

`ob20_set_extra_info` puts key / value items in front of a list; before a frame is sent,
`get_protocol20_extra_info_length` adds up what the registered size functions say and
`fill_protocol20_extra_info` runs the registered serialize functions over a buffer of that size
(`ob_protocol20.c`). Only `FULL_TRC` has functions registered.

The fill loop hands each serialize function the base `packet + pos` and the offset `&pos`, and the
function stores at base plus offset: every item after the first lands at twice its position. It
also calls the function of a key that has none, since an `else` is missing after the null check.
`fillExact_iff` says what is left: the fill is exact for no item and for a single `FULL_TRC` item,
and for no other list. With two items or more the last store always leaves the buffer
(`fillLoop_faults`).
-/
import ObConnector.Lib.Buffer

namespace ObConnector.Protocol20

open Lib List

/-! ## The table of registered functions -/

/-- `FULL_TRC` of `ExtraInfoKeyType`. -/
def fullTrc : Nat := 2003

/-- `OB20_SVR_END` of `ExtraInfoKeyType`; the table has one more entry than this. -/
def ob20SvrEnd : Nat := 2004

/-- A set of functions that `OB20_SERIALIZE_FUNC_INIT` registers. -/
inductive ExtraInfoFuncs where
  /-- `extrainfo_serialize_flt`, `extrainfo_deserialize_flt`, `extrainfo_get_serialize_size_flt` -/
  | flt
  deriving DecidableEq, Repr

/-- `extra_serialize_funcs[key]`: the entries other than `FULL_TRC` hold null pointers. -/
def extraSerializeFuncs (key : Nat) : Except Fault (Option ExtraInfoFuncs) :=
  if ob20SvrEnd < key then .error .tableOverrun
  else .ok (if key = fullTrc then some .flt else none)

theorem extraSerializeFuncs_fullTrc : extraSerializeFuncs fullTrc = .ok (some .flt) := by
  decide

/-- A set of functions is found for one key only. -/
theorem eq_fullTrc_of_funcs {key : Nat} {f : ExtraInfoFuncs}
    (h : extraSerializeFuncs key = .ok (some f)) : key = fullTrc := by
  unfold extraSerializeFuncs at h
  split at h
  · cases h
  by_contra hne
  simp [hne] at h

/-! ## Setting, measuring and filling -/

/-- `ob20_set_extra_info`: `list_add` puts the new item in front. -/
def ob20SetExtraInfo (list : List Tlv) (key : Nat) (value : List UInt8) : List Tlv :=
  ⟨key, value⟩ :: list

/-- `extrainfo_get_serialize_size_flt`. -/
def extrainfoGetSerializeSizeFlt (value : List UInt8) : Nat := 2 + 4 + value.length

/-- `get_protocol20_extra_info_length`: an item without a size function counts nothing. -/
def getProtocol20ExtraInfoLength : List Tlv → Except Fault Nat
  | [] => .ok 0
  | item :: rest => do
    let funcs ← extraSerializeFuncs item.key
    let itemSize := match funcs with
      | none => 0
      | some .flt => extrainfoGetSerializeSizeFlt item.value
    let size ← getProtocol20ExtraInfoLength rest
    return itemSize + size

/-- `extrainfo_serialize_flt` on a memory `mem` that holds the whole buffer, `buf` being an offset
in it: the result is the new memory and the new `*ppos`, or nothing for `OB_ERROR`. -/
def extrainfoSerializeFlt (mem : List UInt8) (buf len pos : Nat) (value : List UInt8) :
    Except Fault (Option (List UInt8 × Nat)) :=
  if len < pos + 2 + 4 + value.length then
    .ok none
  else do
    let mem ← writeAt mem (buf + pos) (leBytes 2 fullTrc)
    let mem ← writeAt mem (buf + (pos + 2)) (leBytes 4 value.length)
    let mem ← writeAt mem (buf + (pos + 2 + 4)) value
    return some (mem, pos + 2 + 4 + value.length)

/-- The loop of `fill_protocol20_extra_info`: the offset of the returned pointer and the memory. -/
def fillLoop (bufferLen : Nat) : List Tlv → List UInt8 → Nat → Except Fault (Nat × List UInt8)
  | [], mem, pos => .ok (pos, mem)
  | item :: rest, mem, pos => do
    match ← extraSerializeFuncs item.key with
    | none => .error .nullCall   -- the null check does nothing and the call follows
    | some .flt =>
      match ← extrainfoSerializeFlt mem pos bufferLen pos item.value with
      | none => .ok (0, mem)
      | some (mem, pos) => fillLoop bufferLen rest mem pos

/-- `fill_protocol20_extra_info` on a buffer of `bufferLen` bytes. -/
def fillProtocol20ExtraInfo (list : List Tlv) (buffer : List UInt8) (bufferLen : Nat) :
    Except Fault (Nat × List UInt8) :=
  fillLoop bufferLen list buffer 0

/-! ## What one item does -/

/-- A serialize that succeeds has stayed inside the memory and kept its size. -/
theorem serializeFlt_inside {mem mem' : List UInt8} {buf len pos pos' : Nat} {value : List UInt8}
    (h : extrainfoSerializeFlt mem buf len pos value = .ok (some (mem', pos'))) :
    buf + pos + 6 + value.length ≤ mem.length ∧ mem'.length = mem.length ∧ pos' = pos + 6 + value.length := by
  unfold extrainfoSerializeFlt at h
  split at h
  · cases h
  simp only [bind_eq_ok] at h
  obtain ⟨m1, h1, m2, h2, m3, h3, rfl, rfl⟩ := h
  have l1 := length_of_writeAt h1
  have l2 := length_of_writeAt h2
  have l3 := length_of_writeAt h3
  -- the value is stored last and furthest
  by_contra hout
  rw [writeAt_outside (by omega)] at h3
  cases h3

/-- A serialize that reports `OB_ERROR` had too little room by its own length check. -/
theorem serializeFlt_refused {mem : List UInt8} {buf len pos : Nat} {value : List UInt8}
    (h : extrainfoSerializeFlt mem buf len pos value = .ok none) : len < pos + 6 + value.length := by
  unfold extrainfoSerializeFlt at h
  split at h
  · omega
  · simp [bind_eq_ok] at h

/-- Right behind a filled part, with the base at the start of the memory, the item is appended. -/
theorem serializeFlt_append (done rest : List UInt8) {len : Nat} (value : List UInt8)
    (hlen : done.length + 6 + value.length ≤ len) (hroom : 6 + value.length ≤ rest.length) :
    extrainfoSerializeFlt (done ++ rest) 0 len done.length value =
      .ok (some ((done ++ Tlv.bytes ⟨fullTrc, value⟩) ++ rest.drop (6 + value.length),
        done.length + 6 + value.length)) := by
  have w1 := writeAt_append done (leBytes 2 fullTrc) (show _ ≤ rest.length by simp; omega)
  have w2 := writeAt_append (done ++ leBytes 2 fullTrc) (leBytes 4 value.length)
    (show _ ≤ (rest.drop 2).length by simp; omega)
  have w3 := writeAt_append ((done ++ leBytes 2 fullTrc) ++ leBytes 4 value.length) value
    (show _ ≤ ((rest.drop 2).drop 4).length by simp; omega)
  simp only [length_append, length_leBytes] at w1 w2 w3
  rw [extrainfoSerializeFlt, if_neg (by omega)]
  simp only [zero_add, w1, w2, w3, ok_bind, pure_eq_ok]
  simp only [Tlv.bytes, append_assoc, drop_drop, add_assoc]
  rw [show 2 + (4 + value.length) = 6 + value.length by omega]

/-! ## Behind the first item every store is misplaced -/

/-- **Once the offset has moved, the fill has no result.** The last item is stored at twice its
offset, which is past the end of a buffer of exactly the measured size. -/
theorem fillLoop_faults {items : List Tlv} (hne : items ≠ []) {size : Nat}
    (hsize : getProtocol20ExtraInfoLength items = .ok size) {mem : List UInt8} {pos : Nat}
    (hpos : 0 < pos) (hmem : mem.length = pos + size) :
    ∃ f, fillLoop mem.length items mem pos = .error f := by
  induction items generalizing mem pos size with
  | nil => exact absurd rfl hne
  | cons item rest ih =>
    cases hfun : extraSerializeFuncs item.key with
    | error f => exact ⟨f, by simp [fillLoop, hfun]⟩
    | ok funcs =>
      cases funcs with
      | none => exact ⟨.nullCall, by simp [fillLoop, hfun]⟩
      | some f =>
        -- the measured size splits into this item and the rest
        cases hrest : getProtocol20ExtraInfoLength rest with
        | error e =>
          simp [getProtocol20ExtraInfoLength, hfun, hrest] at hsize
        | ok restSize =>
          have hsum : extrainfoGetSerializeSizeFlt item.value + restSize = size := by
            simpa [getProtocol20ExtraInfoLength, hfun, hrest]
              using hsize
          unfold extrainfoGetSerializeSizeFlt at hsum
          cases hser : extrainfoSerializeFlt mem pos mem.length pos item.value with
          | error e => exact ⟨e, by simp [fillLoop, hfun, hser]⟩
          | ok res =>
            cases res with
            | none =>
              -- the length check cannot fail: it counts from the start of the buffer
              have := serializeFlt_refused hser
              omega
            | some r =>
              obtain ⟨mem', pos'⟩ := r
              obtain ⟨hin, hlen, rfl⟩ := serializeFlt_inside hser
              have hr : rest ≠ [] := by
                rintro rfl
                simp only [getProtocol20ExtraInfoLength, Except.ok.injEq] at hrest
                omega
              obtain ⟨e, he⟩ := ih hr hrest (show 0 < pos + 6 + item.value.length by omega)
                (show mem'.length = _ by omega)
              rw [hlen] at he
              simp [fillLoop, hfun, hser, he]

/-! ## The exact lists -/

/-- The fill of a buffer of exactly the measured size succeeds, returns the end of the buffer and
leaves in it the items' wire forms one behind the other. -/
def FillExact (list : List Tlv) : Prop :=
  ∃ size, getProtocol20ExtraInfoLength list = .ok size ∧
    ∀ buffer : List UInt8, buffer.length = size →
      fillProtocol20ExtraInfo list buffer size = .ok (size, tlvBytes list)

theorem fillExact_single (value : List UInt8) : FillExact [⟨fullTrc, value⟩] := by
  refine ⟨6 + value.length, ?_, ?_⟩
  · simp [getProtocol20ExtraInfoLength, extraSerializeFuncs_fullTrc, extrainfoGetSerializeSizeFlt]
  · intro buffer hlen
    have h := serializeFlt_append [] buffer value (show _ ≤ 6 + value.length by simp) (by omega)
    simp only [nil_append, length_nil] at h
    rw [drop_eq_nil_of_le (by omega)] at h
    simp [fillProtocol20ExtraInfo, fillLoop, extraSerializeFuncs_fullTrc, h]

/-- The first item of an exactly filled list has the one registered key. -/
theorem key_of_fillExact {item : Tlv} {rest : List Tlv} (h : FillExact (item :: rest)) : item.key = fullTrc := by
  obtain ⟨size, -, hfill⟩ := h
  have hok := hfill (List.replicate size 0) (by simp)
  cases hfun : extraSerializeFuncs item.key with
  | error f => simp [fillProtocol20ExtraInfo, fillLoop, hfun] at hok
  | ok funcs =>
    cases funcs with
    | none => simp [fillProtocol20ExtraInfo, fillLoop, hfun] at hok
    | some f => exact eq_fullTrc_of_funcs hfun

/-- An exactly filled list has no second item. -/
theorem rest_of_fillExact {value : List UInt8} {rest : List Tlv}
    (h : FillExact (⟨fullTrc, value⟩ :: rest)) : rest = [] := by
  by_contra hne
  obtain ⟨size, hsize, hfill⟩ := h
  cases hrest : getProtocol20ExtraInfoLength rest with
  | error e =>
    simp [getProtocol20ExtraInfoLength, extraSerializeFuncs_fullTrc, hrest]
      at hsize
  | ok restSize =>
    obtain rfl : 6 + value.length + restSize = size := by
      simpa [getProtocol20ExtraInfoLength, extraSerializeFuncs_fullTrc, hrest, extrainfoGetSerializeSizeFlt] using hsize
    -- the first item goes to the front of the buffer, the others have no place left
    have hfirst := serializeFlt_append [] (List.replicate (6 + value.length + restSize) 0) value
      (show _ ≤ 6 + value.length + restSize by simp) (by simp)
    simp only [nil_append, length_nil] at hfirst
    generalize hmem : Tlv.bytes ⟨fullTrc, value⟩ ++
      (List.replicate (6 + value.length + restSize) 0).drop (6 + value.length) = mem
      at hfirst
    have hlen : mem.length = (6 + value.length) + restSize := by
      rw [← hmem]; simp
    obtain ⟨f, hf⟩ := fillLoop_faults hne hrest (by omega) hlen
    have hok := hfill (List.replicate (6 + value.length + restSize) 0) (by simp)
    rw [hlen] at hf
    simp [fillProtocol20ExtraInfo, fillLoop, extraSerializeFuncs_fullTrc, hfirst, hf] at hok

/-- **Serialization of an extra-info list.** The fill is exact for the empty list and for a list of
one `FULL_TRC` item, whatever its value; every other list makes it leave the buffer or call a null
pointer. -/
theorem fillExact_iff (list : List Tlv) : FillExact list ↔ list = [] ∨ ∃ value, list = [⟨fullTrc, value⟩] := by
  constructor
  · intro h
    cases list with
    | nil => exact .inl rfl
    | cons item rest =>
      obtain ⟨key, value⟩ := item
      have hkey : key = fullTrc := key_of_fillExact h
      subst hkey
      rw [rest_of_fillExact h]
      exact .inr ⟨value, rfl⟩
  · rintro (rfl | ⟨value, rfl⟩)
    · refine ⟨0, rfl, fun buffer hlen => ?_⟩
      rw [eq_nil_of_length_eq_zero hlen]
      rfl
    · exact fillExact_single value

/-- Two empty `FULL_TRC` items need 12 bytes; the second is stored from byte 12 on. -/
theorem fill_two_items_outside :
    ob20SetExtraInfo (ob20SetExtraInfo [] fullTrc []) fullTrc [] = [⟨fullTrc, []⟩, ⟨fullTrc, []⟩] ∧
      getProtocol20ExtraInfoLength [⟨fullTrc, []⟩, ⟨fullTrc, []⟩] = .ok 12 ∧
      fillProtocol20ExtraInfo [⟨fullTrc, []⟩, ⟨fullTrc, []⟩] (List.replicate 12 0) 12 = .error .writeOutside ∧
      ¬FillExact [⟨fullTrc, []⟩, ⟨fullTrc, []⟩] := by
  refine ⟨rfl, rfl, rfl, ?_⟩
  rintro ⟨size, hsize, hfill⟩
  obtain rfl : 12 = size := Except.ok.inj (Eq.trans rfl hsize)
  exact absurd (hfill (List.replicate 12 0) rfl) (by decide)

end ObConnector.Protocol20
