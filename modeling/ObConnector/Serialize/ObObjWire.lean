/-
# ObConnector.Serialize.ObObjWire -- when an object survives the wire.

`Serializes` is what one expects of `serialize_ObObj`, `get_serialize_size_ObObj` and
`deserialize_ObObj` at one object, buffer and position, and `Reports` what one expects of
`deserialize_ObObj` on an arbitrary input. Neither holds in general, for the reasons
`ObConnector.Serialize.ObObj` collects. `obObj_wire_iff` says exactly when each holds.

A numeric value comes back, but with the collation of numbers in its meta data; a string is reported
as written even when it did not fit; an unsupported type has a size and is never written. And the
decoder of a byte keeps its position in an `int`, so everything has to happen below 2^31
(`deserializeObObjMeta_ok`).
-/
import ObConnector.Serialize.ObObj
import ObConnector.Serialize.RoundTrip
import ObConnector.Serialize.Bounds

namespace ObConnector.Serialize

open Lib Lib.VarInt List

/-! ## Bytes -/

variable {buf : List UInt8} {pos : Nat}

theorem encodeI8_fits (h : pos + 1 ≤ buf.length) (val : BitVec 8) : encodeI8 buf pos val =
      .ok ⟨.success, buf.take pos ++ ([UInt8.ofBitVec val] ++ buf.drop (pos + 1)), pos + 1⟩ := by
  rw [encodeI8, if_pos (by omega), writeAt_inside (by rw [length_singleton]; omega), append_assoc]
  rfl

theorem encodeI8_overflow (h : buf.length < pos + 1) (val : BitVec 8) :
    encodeI8 buf pos val = .ok ⟨.sizeOverflow, buf, pos⟩ := by
  rw [encodeI8, if_neg (by omega)]

theorem bmod_of_lt (h : pos < 2 ^ 31) : Int.bmod pos (2 ^ 32) = pos := by
  apply Int.bmod_eq_of_le
  · omega
  · omega

theorem decodeI8_some {b : UInt8} {bs : List UInt8} (hdrop : buf.drop pos = b :: bs) (hpos : pos + 1 < 2 ^ 31) :
    decodeI8 buf pos = .ok ⟨.success, some b.toBitVec, pos + 1⟩ := by
  have hlen := length_of_drop hdrop
  have hbyte : BitVec.ofNat 8 (leNat [b]) = b.toBitVec := by
    apply BitVec.eq_of_toNat_eq
    have hlt := b.toNat_lt
    rw [BitVec.toNat_ofNat, UInt8.toNat_toBitVec]
    simp only [leNat]
    omega
  unfold decodeI8
  rw [bmod_of_lt (by omega)]
  rw [if_pos (by omega), readAt_drop hdrop, ok_bind, if_neg (by omega), hbyte]
  rfl

theorem decodeI8_none (h : buf.length ≤ pos) (hpos : pos < 2 ^ 31) :
    decodeI8 buf pos = .ok ⟨.deserializeError, none, pos⟩ := by
  unfold decodeI8
  rw [bmod_of_lt hpos]
  rw [if_neg (by omega)]

/-- A position that does not fit an `int` either has no result or is another position, far below. -/
theorem decodeI8_far (hin : pos < buf.length) {d : Decoded (BitVec 8)} (h : decodeI8 buf pos = .ok d) :
    d.ret = .success ∧ d.pos < 2 ^ 31 ∧ (d.pos = pos + 1 ∨ 2 ^ 32 ≤ pos) := by
  obtain ⟨q, hq⟩ : ∃ q, q = Int.bmod pos (2 ^ 32) := ⟨_, rfl⟩
  have hq' := hq
  rw [Int.bmod_def] at hq'
  unfold decodeI8 at h
  rw [if_pos (by omega)] at h
  obtain ⟨c, hread, hrest⟩ := bind_eq_ok.mp h
  obtain ⟨⟨hnonneg, -⟩, -⟩ := readAt_eq_ok_iff.mp hread
  split at hrest
  · cases hrest
  cases hrest
  refine ⟨rfl, ?_, ?_⟩
  · dsimp only
    split at hq' <;> omega
  · dsimp only
    split at hq' <;> omega

/-! ## Meta data -/

/-- The four bytes of meta data. -/
def metaBytes (m : ObObjMeta) : List UInt8 :=
  [UInt8.ofBitVec m.type, UInt8.ofBitVec m.csLevel, UInt8.ofBitVec m.csType, UInt8.ofBitVec m.scale]

@[simp] theorem length_metaBytes (m : ObObjMeta) : (metaBytes m).length = 4 := rfl

/-- One more byte behind what is written. -/
theorem encodeI8_behind {done rest : List UInt8} (h : 1 ≤ rest.length) (val : BitVec 8) :
    encodeI8 (done ++ rest) done.length val =
      .ok ⟨.success, (done ++ [UInt8.ofBitVec val]) ++ rest.drop 1, (done ++ [UInt8.ofBitVec val]).length⟩ := by
  have hlen : done.length + 1 ≤ (done ++ rest).length := by
    rw [length_append]
    omega
  rw [encodeI8_fits hlen, take_left, ← drop_drop, drop_left, append_assoc, length_append, length_singleton]

theorem serializeObObjMeta_fits (m : ObObjMeta) (h : pos + 4 ≤ buf.length) : serializeObObjMeta m buf pos =
      .ok ⟨.success, buf.take pos ++ (metaBytes m ++ buf.drop (pos + 4)), pos + 4⟩ := by
  obtain ⟨done, hdone⟩ : ∃ done, done = buf.take pos := ⟨_, rfl⟩
  obtain ⟨rest, hrest⟩ : ∃ rest, rest = buf.drop pos := ⟨_, rfl⟩
  have hlen : done.length = pos := by
    rw [hdone, length_take]
    omega
  have hroom : 4 ≤ rest.length := by
    rw [hrest, length_drop]
    omega
  have hbuf : buf = done ++ rest := by rw [hdone, hrest, take_append_drop]
  have hdrop k (hk : k ≤ 3) : 1 ≤ (rest.drop k).length := by
    rw [length_drop]
    omega
  rw [serializeObObjMeta, ← hdone, ← drop_drop, ← hrest]
  nth_rewrite 1 [hbuf]
  rw [← hlen, encodeI8_behind (by omega), ok_bind]
  rw [encodeI8_behind (hdrop 1 (by omega)), ok_bind]
  simp only [drop_drop]
  rw [encodeI8_behind (hdrop _ (by omega)), ok_bind]
  simp only [drop_drop]
  rw [encodeI8_behind (hdrop _ (by omega))]
  simp [metaBytes]

/-- A byte that is written or not, with its result dropped. -/
theorem encodeI8_drop (buf : List UInt8) (pos : Nat) (val : BitVec 8) :
    ∃ w, encodeI8 buf pos val = .ok w ∧ w.buf.length = buf.length ∧
      w.pos = if pos < buf.length then pos + 1 else pos := by
  by_cases h : pos < buf.length
  · refine ⟨_, encodeI8_fits h val, ?_, by rw [if_pos h]⟩
    simp only [length_append, length_take, length_drop, length_singleton]
    omega
  · exact ⟨_, encodeI8_overflow (by omega) val, rfl, by rw [if_neg h]⟩

/-- Without room for the meta data the position ends at, or stays behind, the end of the buffer. -/
theorem serializeObObjMeta_short (m : ObObjMeta) (h : buf.length < pos + 4) :
    ∃ w, serializeObObjMeta m buf pos = .ok w ∧ w.buf.length = buf.length ∧ buf.length ≤ w.pos := by
  obtain ⟨w1, h1, hlen1, hpos1⟩ := encodeI8_drop buf pos m.type
  obtain ⟨w2, h2, hlen2, hpos2⟩ := encodeI8_drop w1.buf w1.pos m.csLevel
  obtain ⟨w3, h3, hlen3, hpos3⟩ := encodeI8_drop w2.buf w2.pos m.csType
  obtain ⟨w4, h4, hlen4, hpos4⟩ := encodeI8_drop w3.buf w3.pos m.scale
  refine ⟨⟨.success, w4.buf, w4.pos⟩, ?_, by simp only; omega, ?_⟩
  · rw [serializeObObjMeta, h1, ok_bind, h2, ok_bind, h3, ok_bind, h4, ok_bind]
  · dsimp only
    split at hpos1 <;> split at hpos2 <;> split at hpos3 <;> split at hpos4 <;> omega

theorem deserializeObObjMeta_near (m : ObObjMeta) {rest : List UInt8} (hdrop : buf.drop pos = metaBytes m ++ rest)
    (hpos : pos + 4 < 2 ^ 31) : deserializeObObjMeta buf pos = .ok (m, pos + 4) := by
  have h1 := drop_succ_of_drop hdrop
  have h2 := drop_succ_of_drop h1
  have h3 := drop_succ_of_drop h2
  rw [deserializeObObjMeta, decodeI8_some hdrop (by omega), ok_bind]
  rw [decodeI8_some h1 (by omega), ok_bind]
  rw [decodeI8_some h2 (by omega), ok_bind]
  rw [decodeI8_some h3 (by omega)]
  rfl

/-- Meta data that is read ends below 2^31, so behind that it is other meta data, far below. -/
theorem deserializeObObjMeta_ok (hin : pos + 4 ≤ buf.length) {m : ObObjMeta} {pos' : Nat}
    (h : deserializeObObjMeta buf pos = .ok (m, pos')) : pos' < 2 ^ 31 ∧ (pos' = pos + 4 ∨ 2 ^ 32 ≤ pos) := by
  obtain ⟨d1, h1, h⟩ := bind_eq_ok.mp h
  obtain ⟨d2, h2, h⟩ := bind_eq_ok.mp h
  obtain ⟨d3, h3, h⟩ := bind_eq_ok.mp h
  obtain ⟨d4, h4, h⟩ := bind_eq_ok.mp h
  cases h
  obtain ⟨-, hlt1, hor1⟩ := decodeI8_far (by omega) h1
  obtain ⟨-, hlt2, hor2⟩ := decodeI8_far (by omega) h2
  obtain ⟨-, hlt3, hor3⟩ := decodeI8_far (by omega) h3
  obtain ⟨-, hlt4, hor4⟩ := decodeI8_far (by omega) h4
  omega

/-! ## Numeric values -/

/-- The value is a single byte. -/
def VType.oneByte : VType → Bool
  | .int8 | .uint8 => true
  | _ => false

/-- The bytes at the start of `bs` hold a value of the type. -/
def VType.Complete : VType → List UInt8 → Prop
  | .int8, bs | .uint8, bs => 0 < bs.length
  | .int16, bs | .uint16, bs | .int32, bs | .uint32, bs | .float, bs => EndsWithin 5 bs
  | .int64, bs | .uint64, bs | .double, bs => EndsWithin 10 bs

theorem roundTrips_i8 (val : BitVec 8) (buf : List UInt8) (hpos : pos + 1 < 2 ^ 31) :
    RoundTrips encodeI8 (fun _ => 1) decodeI8 val buf pos where
  fits := by
    intro hfit
    refine ⟨[UInt8.ofBitVec val], rfl, encodeI8_fits hfit val, ?_⟩
    intro following
    have hdrop := @drop_take_append buf pos (by omega) ([UInt8.ofBitVec val] ++ following)
    exact decodeI8_some hdrop hpos
  overflow := fun hover => encodeI8_overflow hover val

/-- A numeric value round trips; a single byte only below 2^31. -/
theorem roundTrips_vtype (t : VType) (x : BitVec t.bits) (buf : List UInt8)
    (hpos : t.oneByte = true → pos + 1 < 2 ^ 31) : RoundTrips t.encoder t.encodedLength t.decoder x buf pos := by
  cases t with
  | int8 | uint8 => exact roundTrips_i8 x buf (hpos rfl)
  | int16 => exact roundTrips_16 (setWidth_signExtend (by decide)) x buf pos
  | uint16 => exact roundTrips_16 (setWidth_widened (by decide)) x buf pos
  | int32 | uint32 | float => exact roundTrips_vi32 x buf pos
  | int64 | uint64 | double => exact roundTrips_vi64 x buf pos

theorem encoder_overflow (t : VType) (x : BitVec t.bits) (h : buf.length < pos + t.encodedLength x) :
    t.encoder buf pos x = .ok ⟨.sizeOverflow, buf, pos⟩ := by
  cases t with
  | int8 | uint8 => exact encodeI8_overflow h x
  | _ => exact encodeVi_overflow h

theorem encodedLength_pos (t : VType) (x : BitVec t.bits) : 1 ≤ t.encodedLength x := by
  have h32 y : 1 ≤ encodedLengthVi32 y := by
    rw [encodedLengthVi32_eq]
    exact length_encode_pos _
  have h64 y : 1 ≤ encodedLengthVi64 y := by
    rw [encodedLengthVi64_eq]
    exact length_encode_pos _
  cases t with
  | int8 | uint8 => exact le_refl 1
  | int64 | uint64 | double => exact h64 x
  | _ => exact h32 _

/-- What a decoder of integers gives when it has a result. -/
theorem decodeVi_ok {w : Nat} {d : Decoded (BitVec w)} (h : decodeVi w buf pos = .ok d) :
    d.ret = .success ∧ (lead (buf.drop pos)).length < (buf.drop pos).length ∧
      7 * (lead (buf.drop pos)).length < w ∧ d.pos = pos + ((lead (buf.drop pos)).length + 1) := by
  by_cases hc : (lead (buf.drop pos)).length < (buf.drop pos).length ∧ 7 * (lead (buf.drop pos)).length < w
  · rw [decodeVi_ends hc.1 hc.2] at h
    cases h
    exact ⟨rfl, hc.1, hc.2, rfl⟩
  obtain ⟨e, he⟩ := decodeVi_fault hc
  rw [he] at h
  cases h

/-- A numeric decoder that has a result, at a byte of the buffer, has read a complete value. -/
theorem decoder_ok (t : VType) (hin : pos < buf.length) {d : Decoded (BitVec t.bits)}
    (h : t.decoder buf pos = .ok d) :
    d.ret = .success ∧ t.Complete (buf.drop pos) ∧ (if t.oneByte = true then d.pos < 2 ^ 31 else d.pos ≤ pos + 10) := by
  have hbyte {d : Decoded (BitVec 8)} (h : decodeI8 buf pos = .ok d) :
      d.ret = .success ∧ 0 < (buf.drop pos).length ∧ d.pos < 2 ^ 31 := by
    obtain ⟨hret, hlt, -⟩ := decodeI8_far hin h
    exact ⟨hret, by rw [length_drop]; omega, hlt⟩
  have hvi {w n : Nat} (hw : w < 7 * n + 1) (hn : n ≤ 10) {d : Decoded (BitVec w)} (h : decodeVi w buf pos = .ok d) :
      d.ret = .success ∧ EndsWithin n (buf.drop pos) ∧ d.pos ≤ pos + 10 := by
    obtain ⟨hret, hend, hlead, hpos⟩ := decodeVi_ok h
    exact ⟨hret, ⟨by omega, hend⟩, by omega⟩
  have h16 {d : Decoded (BitVec 16)} (h : decode16 buf pos = .ok d) :
      d.ret = .success ∧ EndsWithin 5 (buf.drop pos) ∧ d.pos ≤ pos + 10 := by
    obtain ⟨d', hd, h⟩ := bind_eq_ok.mp h
    cases h
    have hd' : d'.ret = .success ∧ EndsWithin 5 (buf.drop pos) ∧ d'.pos ≤ pos + 10 := hvi (by decide) (by decide) hd
    exact hd'
  cases t with
  | int8 | uint8 => exact hbyte h
  | int16 | uint16 => exact h16 h
  | _ => exact hvi (by decide) (by decide) h

/-- A complete value, low in the buffer, is decoded. -/
theorem decoder_complete (t : VType) (hpos : pos + 1 < 2 ^ 31) (h : t.Complete (buf.drop pos)) :
    ∃ d, t.decoder buf pos = .ok d := by
  have hbyte (h : 0 < (buf.drop pos).length) : ∃ d, decodeI8 buf pos = .ok d := by
    cases hdrop : buf.drop pos with
    | nil =>
      rw [hdrop] at h
      exact absurd h (lt_irrefl 0)
    | cons b bs => exact ⟨_, decodeI8_some hdrop hpos⟩
  have h32 (h : EndsWithin 5 (buf.drop pos)) : ∃ d, decodeVi 32 buf pos = .ok d :=
    ⟨_, decodeVi_ends h.2 (by have := h.1; omega)⟩
  have h64 (h : EndsWithin 10 (buf.drop pos)) : ∃ d, decodeVi 64 buf pos = .ok d :=
    ⟨_, decodeVi_ends h.2 (by have := h.1; omega)⟩
  have h16 (h : EndsWithin 5 (buf.drop pos)) : ∃ d, decode16 buf pos = .ok d := by
    obtain ⟨d, hd⟩ := h32 h
    exact exists_ok_bind hd ⟨_, rfl⟩
  cases t with
  | int8 | uint8 => exact hbyte h
  | int16 | uint16 => exact h16 h
  | int32 | uint32 | float => exact h32 h
  | int64 | uint64 | double => exact h64 h

/-- A `float` in the low half of the union. -/
theorem setWidth_append (high low : BitVec 32) : BitVec.setWidth 32 (high ++ low : BitVec 64) = low := by
  apply BitVec.eq_of_getLsbD_eq
  intro i hi
  rw [BitVec.getLsbD_setWidth, BitVec.getLsbD_append]
  simp [hi]

/-- A value that was set is got back. -/
theorem getValue_setValue (type : BitVec 8) (t : VType) (obj : ObObj) (x : BitVec t.bits) :
    getValue t (setValue type t obj x) = x := by
  cases t with
  | int8 | int16 | int32 | int64 => exact setWidth_signExtend (by decide) x
  | uint8 | uint16 | uint32 | uint64 => exact setWidth_widened (by decide) x
  | float => exact setWidth_append _ x
  | double => exact BitVec.setWidth_eq x

/-! ## The table -/

variable {type : BitVec 8}

/-- A numeric entry stands at its own type. -/
theorem objFuncs_type {i : Nat} {t : VType} (h : objFuncs[i]? = some (.numeric type t)) : type.toNat = i := by
  have hall : objFuncs.zipIdx.all (fun e => match e.1 with
      | .numeric type _ => type.toNat == e.2
      | _ => true) = true := by decide
  rw [all_eq_true] at hall
  have hi := hall (.numeric type t, i) (List.mem_zipIdx_iff_getElem?.mpr h)
  simpa using hi

theorem objFuncs_lt {i : Nat} {f : ObObjTypeFuncs} (h : objFuncs[i]? = some f) : i < obMaxType := by
  obtain ⟨hi, -⟩ := List.getElem?_eq_some_iff.mp h
  exact hi

theorem objFuncsAt_some {f : ObObjTypeFuncs} (h : objFuncs[type.toNat]? = some f) : objFuncsAt type = .ok f := by
  rw [objFuncsAt, h]

/-- The buffer once the meta data stands in it. -/
def afterMeta (m : ObObjMeta) (buf : List UInt8) (pos : Nat) : List UInt8 :=
  buf.take pos ++ (metaBytes m ++ buf.drop (pos + 4))

theorem length_afterMeta (m : ObObjMeta) (h : pos + 4 ≤ buf.length) :
    (afterMeta m buf pos).length = buf.length := by
  simp only [afterMeta, length_append, length_take, length_drop, length_metaBytes]
  omega

theorem drop_afterMeta (m : ObObjMeta) (h : pos + 4 ≤ buf.length) (rest : List UInt8) :
    ((afterMeta m buf pos).take (pos + 4) ++ rest).drop pos = metaBytes m ++ rest := by
  have htake : (afterMeta m buf pos).take (pos + 4) = buf.take pos ++ metaBytes m := by
    rw [afterMeta, ← append_assoc]
    apply take_left'
    rw [length_append, length_take, length_metaBytes]
    omega
  rw [htake, append_assoc]
  exact drop_take_append (by omega) _

/-- What was written, in front of anything. -/
theorem take_written (h : pos ≤ buf.length) (bytes rest : List UInt8) {stop : Nat}
    (hstop : stop = pos + bytes.length) :
    (buf.take pos ++ (bytes ++ rest)).take stop = buf.take pos ++ bytes := by
  rw [← append_assoc]
  apply take_left'
  rw [length_append, length_take]
  omega

section Entry

variable {obj : ObObj} {f : ObObjTypeFuncs} (hf : objFuncs[obj.meta_.type.toNat]? = some f)

include hf

theorem getSerializeSizeObObj_entry :
    getSerializeSizeObObj obj = (objValGetSerializeSize f obj >>= fun size => .ok (4 + size)) := by
  rw [getSerializeSizeObObj, objFuncsAt_some hf]
  rfl

theorem serializeObObj_fits (h : pos + 4 ≤ buf.length) :
    serializeObObj obj buf pos = objValSerialize f obj (afterMeta obj.meta_ buf pos) (pos + 4) := by
  have htype := objFuncs_lt hf
  rw [serializeObObj, serializeObObjMeta_fits _ h, ok_bind]
  rw [if_pos (by omega), objFuncsAt_some hf, ok_bind, afterMeta]

/-- The value is written whether or not the meta data was, and does not find more room than there is. -/
theorem serializeObObj_entry (buf : List UInt8) (pos : Nat) : ∃ buf' pos',
    serializeObObj obj buf pos = objValSerialize f obj buf' pos' ∧
      ∀ n, 1 ≤ n → buf.length < pos + 4 + n → buf'.length < pos' + n := by
  by_cases h : pos + 4 ≤ buf.length
  · refine ⟨_, _, serializeObObj_fits hf h, ?_⟩
    intro n _ hn
    rwa [length_afterMeta _ h]
  have htype := objFuncs_lt hf
  obtain ⟨w, hw, hlen, hpos⟩ := serializeObObjMeta_short obj.meta_ (Nat.lt_of_not_le h)
  refine ⟨w.buf, w.pos, ?_, by omega⟩
  rw [serializeObObj, hw, ok_bind, if_pos (by omega), objFuncsAt_some hf, ok_bind]

theorem deserializeObObj_near (stack : BitVec 64) (target : ObObj) {rest : List UInt8}
    (hdrop : buf.drop pos = metaBytes obj.meta_ ++ rest) (hpos : pos + 4 < 2 ^ 31) :
    deserializeObObj stack target buf pos =
      objValDeserialize f stack { target with meta_ := obj.meta_ } buf (pos + 4) := by
  have htype := objFuncs_lt hf
  rw [deserializeObObj, deserializeObObjMeta_near _ hdrop hpos, ok_bind]
  simp only
  rw [if_pos (by omega), objFuncsAt_some hf, ok_bind]

end Entry

/-- An object that was deserialized went through the entry of its own type. -/
theorem deserializeObObj_ok {stack : BitVec 64} {target : ObObj} {out : ObjRead}
    (h : deserializeObObj stack target buf pos = .ok out) (hret : out.ret = .success) (hin : pos + 4 ≤ buf.length) :
    ∃ f start pos', objFuncs[out.obj.meta_.type.toNat]? = some f ∧
      objValDeserialize f stack start buf pos' = .ok out ∧ pos' < 2 ^ 31 ∧ (pos' = pos + 4 ∨ 2 ^ 32 ≤ pos) := by
  obtain ⟨⟨m, pos'⟩, hmeta, h⟩ := bind_eq_ok.mp h
  dsimp only at h
  split at h
  · obtain ⟨f, hf, h⟩ := bind_eq_ok.mp h
    have hf' : objFuncs[m.type.toNat]? = some f := by
      rw [objFuncsAt] at hf
      split at hf
      · cases hf
        assumption
      · cases hf
    have htype : out.obj.meta_.type = m.type := by
      cases f with
      | numeric type t =>
        have hset x : (setValue type t { target with meta_ := m } x).meta_.type = m.type :=
          BitVec.eq_of_toNat_eq (objFuncs_type hf')
        rw [objValDeserialize] at h
        split at h
        · obtain ⟨d, -, h⟩ := bind_eq_ok.mp h
          split at h <;> cases h
          · exact hset _
          · rfl
        cases h
        exact hset _
      | varchar =>
        rw [objValDeserialize] at h
        split at h
        · cases h
          rfl
        obtain ⟨s, -, h⟩ := bind_eq_ok.mp h
        split at h <;> cases h <;> rfl
      | null =>
        cases h
        rfl
      | absent => cases h
    rw [htype]
    exact ⟨f, _, pos', hf', h, deserializeObObjMeta_ok hin hmeta⟩
  · cases h
    cases hret

/-- What a numeric entry leaves. -/
theorem numeric_ok {t : VType} {stack : BitVec 64} {start : ObObj} {out : ObjRead}
    (h : objValDeserialize (.numeric type t) stack start buf pos = .ok out) (hret : out.ret = .success)
    (hpos : pos < 2 ^ 31) : out.obj.meta_.csLevel = csLevelNumeric ∧ out.obj.meta_.csType = csTypeBinary ∧
      (if t.oneByte = true then out.pos < 2 ^ 31 else out.pos ≤ pos + 10) := by
  rw [objValDeserialize] at h
  split at h
  case isTrue hin =>
    obtain ⟨d, hd, h⟩ := bind_eq_ok.mp h
    obtain ⟨hsuccess, -, hdpos⟩ := decoder_ok t hin hd
    rw [if_pos hsuccess] at h
    cases h
    exact ⟨rfl, rfl, hdpos⟩
  case isFalse =>
    cases h
    refine ⟨rfl, rfl, ?_⟩
    split
    · exact hpos
    · exact Nat.le_add_right pos 10

/-- What the entry of strings leaves. -/
theorem varchar_ok {stack : BitVec 64} {start : ObObj} {out : ObjRead}
    (h : objValDeserialize .varchar stack start buf pos = .ok out) (hret : out.ret = .success) :
    ∃ s : List UInt8, out.obj.string = some s ∧ out.obj.valLen = BitVec.ofInt 32 s.length ∧
      out.pos ≤ pos + 11 + s.length := by
  rw [objValDeserialize] at h
  split at h
  · cases h
    cases hret
  obtain ⟨r, hr, h⟩ := bind_eq_ok.mp h
  obtain ⟨d, hd, hr⟩ := bind_eq_ok.mp hr
  obtain ⟨hsuccess, hend, hw, hdpos⟩ := decodeVi_ok hd
  rw [if_neg (by simp [hsuccess])] at hr
  generalize (d.val.getD 0).toInt = n at hr
  split at hr
  · split at hr
    · -- the string lies inside the buffer, so it has the length that is reported
      cases hr
      cases h
      have hlen : ((buf.drop d.pos).take n.toNat).length = n.toNat := by
        rw [length_take, length_drop]
        omega
      refine ⟨_, rfl, ?_, ?_⟩
      · dsimp only
        congr 1
        omega
      · dsimp only
        omega
    · cases hr
      cases h
      cases hret
  · cases hr
    cases h
    cases hret

/-! ## Writing and reading back -/

/-- What an object stands for. -/
inductive ObValue where
  | number (n : Nat)
  | text (len : BitVec 32) (bytes : List UInt8)
  | nothing
  deriving DecidableEq, Repr

/-- The value of an object, by its type. -/
def ObObj.value (obj : ObObj) : ObValue :=
  match objFuncs[obj.meta_.type.toNat]? with
  | some (.numeric _ t) => .number (getValue t obj).toNat
  | some .varchar => .text obj.valLen (obj.string.getD [])
  | _ => .nothing

/-- The string of an object has as many bytes as the object says. -/
def ObObj.Valid (obj : ObObj) : Prop := ∀ bs, obj.string = some bs → bs.length = obj.valLen.toInt.toNat

instance (obj : ObObj) : Decidable obj.Valid :=
  match h : obj.string with
  | none => .isTrue (fun bs hbs => by rw [h] at hbs; cases hbs)
  | some bs => decidable_of_iff (bs.length = obj.valLen.toInt.toNat)
      ⟨fun hlen bs' hbs' => by rw [h] at hbs'; cases hbs'; exact hlen, fun hall => hall bs h⟩

/-- What is expected of an object at a position: it has a size; where that many bytes remain it is
written, in exactly so many bytes, and what is read back from them, whatever follows and whatever the
target held, is the object; where they do not remain there is an error. -/
def Serializes (obj : ObObj) (buf : List UInt8) (pos : Nat) : Prop :=
  ∃ size : Int, getSerializeSizeObObj obj = .ok size ∧
    ((pos : Int) + size ≤ buf.length → ∃ w, serializeObObj obj buf pos = .ok w ∧ w.ret = .success ∧
      (w.pos : Int) = pos + size ∧
      ∀ following stack target, ∃ out,
        deserializeObObj stack target (w.buf.take w.pos ++ following) pos = .ok out ∧ out.ret = .success ∧
          out.obj.meta_ = obj.meta_ ∧ out.obj.value = obj.value ∧ out.pos = w.pos) ∧
    ((buf.length : Int) < pos + size → ∃ w, serializeObObj obj buf pos = .ok w ∧ w.ret ≠ .success)

/-- When it holds. -/
def Survives (obj : ObObj) (buf : List UInt8) (pos : Nat) : Prop :=
  match objFuncs[obj.meta_.type.toNat]? with
  | some (.numeric _ t) =>
    pos + 4 + t.encodedLength (getValue t obj) ≤ buf.length →
      obj.meta_.csLevel = csLevelNumeric ∧ obj.meta_.csType = csTypeBinary ∧
        pos + 4 + (if t.oneByte = true then 1 else 0) < 2 ^ 31
  | some .varchar =>
    0 ≤ obj.valLen.toInt ∧ (obj.string = none → obj.valLen = 0) ∧
      pos + 4 + encodedLengthVstrWithLen obj.valLen.toInt ≤ buf.length ∧ pos + 4 < 2 ^ 31
  | some .null => buf.length < pos + 4
  | some .absent | none => False

section Cases

variable {obj : ObObj} {buf : List UInt8} {pos : Nat}

/-- Reading back, with enough bytes behind what was written. -/
theorem readBack {size : Int} {w : Written} (hpos : (w.pos : Int) = pos + size)
    (hback : ∀ following stack target, ∃ out,
      deserializeObObj stack target (w.buf.take w.pos ++ following) pos = .ok out ∧ out.ret = .success ∧
        out.obj.meta_ = obj.meta_ ∧ out.obj.value = obj.value ∧ out.pos = w.pos)
    {f : ObObjTypeFuncs} (hf : objFuncs[obj.meta_.type.toNat]? = some f) :
    ∃ stack start bs pos' out, objValDeserialize f stack start bs pos' = .ok out ∧ out.ret = .success ∧
      out.obj.meta_ = obj.meta_ ∧ out.obj.value = obj.value ∧ (out.pos : Int) = pos + size ∧
      pos' < 2 ^ 31 ∧ (pos' = pos + 4 ∨ 2 ^ 32 ≤ pos) := by
  obtain ⟨out, hout, hret, hmeta, hvalue, hend⟩ := hback (List.replicate (pos + 4) 0) 0 obj
  have hlong : pos + 4 ≤ (w.buf.take w.pos ++ List.replicate (pos + 4) 0).length := by
    rw [length_append, length_replicate]
    omega
  obtain ⟨f', start, pos', hf', hval, hlow, hwhere⟩ := deserializeObObj_ok hout hret hlong
  rw [hmeta, hf] at hf'
  cases hf'
  exact ⟨_, start, _, pos', out, hval, hret, hmeta, hvalue, by rw [hend, hpos], hlow, hwhere⟩

theorem serializes_numeric {t : VType} (hf : objFuncs[obj.meta_.type.toNat]? = some (.numeric type t)) :
    Serializes obj buf pos ↔ Survives obj buf pos := by
  rw [Survives, hf]
  have hlen := encodedLength_pos t (getValue t obj)
  have hsize : getSerializeSizeObObj obj = .ok (4 + (t.encodedLength (getValue t obj) : Int)) := by
    rw [getSerializeSizeObObj_entry hf, objValGetSerializeSize, ok_bind]
  constructor
  · rintro ⟨size, hsize', hfit, -⟩ hroom
    rw [hsize] at hsize'
    cases hsize'
    obtain ⟨w, -, -, hpos, hback⟩ := hfit (by omega)
    obtain ⟨stack, start, bs, pos', out, hval, hret, hmeta, -, hend, hlow, hwhere⟩ := readBack hpos hback hf
    obtain ⟨hlevel, htype, hbound⟩ := numeric_ok hval hret hlow
    rw [hmeta] at hlevel htype
    refine ⟨hlevel, htype, ?_⟩
    by_cases hbyte : t.oneByte = true
    · rw [if_pos hbyte] at hbound ⊢
      omega
    rw [if_neg hbyte] at hbound ⊢
    omega
  · intro hcond
    refine ⟨_, hsize, ?_, ?_⟩
    · intro hroom
      obtain ⟨hlevel, htype, hnear⟩ := hcond (by omega)
      have hmetaFits : pos + 4 ≤ buf.length := by omega
      have hbyte : t.oneByte = true → pos + 4 + 1 < 2 ^ 31 := by
        intro h
        rw [if_pos h] at hnear
        exact hnear
      have hnear' : pos + 4 < 2 ^ 31 := by
        split at hnear <;> omega
      have hB := length_afterMeta obj.meta_ hmetaFits
      obtain ⟨bytes, hbytes, hencode, hdecode⟩ :=
        (roundTrips_vtype t (getValue t obj) (afterMeta obj.meta_ buf pos) hbyte).fits (by omega)
      refine ⟨_, (serializeObObj_fits hf hmetaFits).trans hencode, rfl, by simp only; omega, ?_⟩
      intro following stack target
      have hin : pos + 4 < ((afterMeta obj.meta_ buf pos).take (pos + 4) ++ (bytes ++ following)).length := by
        simp only [length_append, length_take]
        omega
      dsimp only
      rw [take_written (by omega) _ _ (by omega), append_assoc,
        deserializeObObj_near hf stack target (drop_afterMeta _ hmetaFits _) hnear', objValDeserialize, if_pos hin,
        hdecode]
      refine ⟨_, rfl, rfl, ?_, ?_, rfl⟩
      · have hown : type = obj.meta_.type := BitVec.eq_of_toNat_eq (objFuncs_type hf)
        simp only [setValue, hown, ← hlevel, ← htype]
      · have hown : (setValue type t { target with meta_ := obj.meta_ } (getValue t obj)).meta_.type.toNat =
            obj.meta_.type.toNat := objFuncs_type hf
        simp only [Option.getD_some]
        rw [ObObj.value, ObObj.value, hown, hf]
        simp only [getValue_setValue]
    · intro hover
      obtain ⟨buf', pos', hser, hshort⟩ := serializeObObj_entry hf buf pos
      exact ⟨_, hser.trans (encoder_overflow t _ (hshort _ hlen (by omega))), by simp⟩

/-- A string is always reported as written. -/
theorem serialize_varchar_success {buf' : List UInt8} {pos' : Nat} {w : Written}
    (h : objValSerialize .varchar obj buf' pos' = .ok w) : w.ret = .success := by
  obtain ⟨w', -, h⟩ := bind_eq_ok.mp h
  cases h
  rfl

/-- A NULL string of length 0 is written as the empty string. -/
theorem encodeVstrWithLen_null (buf' : List UInt8) (pos' : Nat) :
    encodeVstrWithLen buf' pos' none 0 = encodeVstrWithLen buf' pos' (some []) 0 := by
  simp [encodeVstrWithLen, putData]

/-- A string that is not NULL, or empty, is what the object says it is. -/
theorem text_of_valid (hvalid : obj.Valid) (hlen : 0 ≤ obj.valLen.toInt) (hnull : obj.string = none → obj.valLen = 0) :
    ((obj.string.getD []).length : Int) = obj.valLen.toInt ∧
      ∀ buf' pos', encodeVstrWithLen buf' pos' obj.string obj.valLen.toInt =
        encodeVstrWithLen buf' pos' (some (obj.string.getD [])) (obj.string.getD []).length := by
  cases hstr : obj.string with
  | none =>
    rw [hnull hstr]
    exact ⟨rfl, encodeVstrWithLen_null⟩
  | some bs =>
    have hbs : bs.length = obj.valLen.toInt := by
      have := hvalid bs hstr
      omega
    exact ⟨hbs, fun _ _ => by rw [Option.getD_some, hbs]⟩

/-- A value that was read back is not NULL with a length, and has no negative length. -/
theorem valid_of_text (hvalid : obj.Valid) (hlen : obj.valLen = BitVec.ofInt 32 (obj.string.getD []).length) :
    0 ≤ obj.valLen.toInt ∧ (obj.string = none → obj.valLen = 0) := by
  cases hstr : obj.string with
  | none =>
    rw [hstr] at hlen
    exact ⟨by rw [hlen]; decide, fun _ => hlen⟩
  | some bs =>
    refine ⟨?_, nofun⟩
    by_contra hneg
    have hzero : bs.length = 0 := by
      have := hvalid bs hstr
      omega
    rw [hstr, Option.getD_some, hzero] at hlen
    rw [hlen] at hneg
    exact hneg (by decide)

theorem serializes_varchar (hvalid : obj.Valid) (hf : objFuncs[obj.meta_.type.toNat]? = some .varchar) :
    Serializes obj buf pos ↔ Survives obj buf pos := by
  rw [Survives, hf]
  have hsize : getSerializeSizeObObj obj = .ok (4 + encodedLengthVstrWithLen obj.valLen.toInt) := by
    rw [getSerializeSizeObObj_entry hf, objValGetSerializeSize, ok_bind]
  constructor
  · rintro ⟨size, hsize', hfit, hover⟩
    rw [hsize] at hsize'
    cases hsize'
    have hroom : pos + 4 + encodedLengthVstrWithLen obj.valLen.toInt ≤ buf.length := by
      by_contra hnot
      obtain ⟨w, hw, hret⟩ := hover (by omega)
      obtain ⟨buf', pos', hser, -⟩ := serializeObObj_entry hf buf pos
      exact hret (serialize_varchar_success (hser.symm.trans hw))
    obtain ⟨w, -, -, hpos, hback⟩ := hfit (by omega)
    obtain ⟨stack, start, bs, pos', out, hval, hret, hmeta, hvalue, hend, hlow, hwhere⟩ := readBack hpos hback hf
    obtain ⟨s, hs, hslen, hbound⟩ := varchar_ok hval hret
    simp only [ObObj.value, hmeta, hf, ObValue.text.injEq] at hvalue
    obtain ⟨hlen, hbytes⟩ := hvalue
    rw [hs, Option.getD_some] at hbytes
    rw [hslen, hbytes] at hlen
    obtain ⟨hnonneg, hnull⟩ := valid_of_text hvalid hlen.symm
    obtain ⟨hdata, -⟩ := text_of_valid hvalid hnonneg hnull
    refine ⟨hnonneg, hnull, hroom, ?_⟩
    have hsmall := @BitVec.toInt_lt 32 obj.valLen
    rw [← hdata, encodedLengthVstr_eq (by omega)] at hend
    rw [hbytes] at hbound
    omega
  · rintro ⟨hnonneg, hnull, hroom, hnear⟩
    obtain ⟨hdata, hsame⟩ := text_of_valid hvalid hnonneg hnull
    have hsmall := @BitVec.toInt_lt 32 obj.valLen
    obtain ⟨data, hdef⟩ : ∃ data, data = obj.string.getD [] := ⟨_, rfl⟩
    rw [← hdef] at hdata hsame
    have hlen := @encodedLengthVstr_eq data.length (by omega)
    have hbytes := @length_vstr data
    refine ⟨_, hsize, ?_, fun hover => absurd hroom (by omega)⟩
    intro _
    rw [← hdata] at hroom ⊢
    have hmetaFits : pos + 4 ≤ buf.length := by omega
    have hB := length_afterMeta obj.meta_ hmetaFits
    have hwritten : serializeObObj obj buf pos = .ok ⟨.success,
        (afterMeta obj.meta_ buf pos).take (pos + 4) ++ ((encode data.length ++ (data ++ [0])) ++
          (afterMeta obj.meta_ buf pos).drop (pos + 4 + (encode data.length ++ (data ++ [0])).length)),
        pos + 4 + (encode data.length ++ (data ++ [0])).length⟩ := by
      rw [serializeObObj_fits hf hmetaFits, objValSerialize, hsame, encodeVstr_fits (by omega) (by omega), ok_bind]
    refine ⟨_, hwritten, rfl, by simp only; omega, ?_⟩
    intro following stack target
    have hin : ¬(((afterMeta obj.meta_ buf pos).take (pos + 4) ++
        ((encode data.length ++ (data ++ [0])) ++ following)).length : Int) - (pos + 4 : Nat) < 2 := by
      have := length_encode_pos data.length
      rw [length_append, length_append, length_take]
      omega
    have hread := (@readAt_vstr data (afterMeta obj.meta_ buf pos) (pos + 4) (by omega) following).2
    rw [sliceAt, Int.toNat_natCast] at hread
    rw [take_written (by omega) _ _ rfl, append_assoc,
      deserializeObObj_near hf stack target (drop_afterMeta _ hmetaFits _) hnear, objValDeserialize, if_neg hin,
      decodeVstrNocopy_encoded (by omega) (by omega)]
    refine ⟨_, rfl, rfl, rfl, ?_, rfl⟩
    simp only [ObObj.value, hf, Int.toNat_natCast, hread, ObValue.text.injEq]
    refine ⟨?_, hdef⟩
    rw [hdata, BitVec.ofInt_toInt]

theorem serializes_null (hf : objFuncs[obj.meta_.type.toNat]? = some .null) :
    Serializes obj buf pos ↔ Survives obj buf pos := by
  rw [Survives, hf]
  have hsize : getSerializeSizeObObj obj = .ok 4 := by
    rw [getSerializeSizeObObj_entry hf]
    rfl
  constructor
  · rintro ⟨size, hsize', hfit, -⟩
    rw [hsize] at hsize'
    cases hsize'
    by_contra hroom
    obtain ⟨w, hw, hret, -⟩ := hfit (by omega)
    rw [serializeObObj_fits hf (by omega)] at hw
    cases hw
    cases hret
  · intro hshort
    refine ⟨4, hsize, fun hroom => absurd hroom (by omega), ?_⟩
    intro _
    obtain ⟨buf', pos', hser, -⟩ := serializeObObj_entry hf buf pos
    exact ⟨_, hser, by simp⟩

theorem not_serializes_of_size {e : Fault} (h : getSerializeSizeObObj obj = .error e) : ¬Serializes obj buf pos := by
  rintro ⟨size, hsize, -⟩
  rw [h] at hsize
  cases hsize

theorem serializes_iff (hvalid : obj.Valid) : Serializes obj buf pos ↔ Survives obj buf pos := by
  cases hf : objFuncs[obj.meta_.type.toNat]? with
  | none =>
    have hsize : getSerializeSizeObObj obj = .error .tableOverrun := by
      rw [getSerializeSizeObObj, objFuncsAt, hf, error_bind]
    exact iff_of_false (not_serializes_of_size hsize) (by rw [Survives, hf]; exact id)
  | some f =>
    cases f with
    | numeric type t => exact serializes_numeric hf
    | varchar => exact serializes_varchar hvalid hf
    | null => exact serializes_null hf
    | absent =>
      have hsize : getSerializeSizeObObj obj = .error .nullCall := by
        rw [getSerializeSizeObObj_entry hf, objValGetSerializeSize, error_bind]
      exact iff_of_false (not_serializes_of_size hsize) (by rw [Survives, hf]; exact id)

end Cases

/-! ## Reading what was not written -/

/-- The type byte of an input: 0 when there is none. -/
def inputType (input : List UInt8) : BitVec 8 := (input[0]?.map UInt8.toBitVec).getD 0

/-- The input holds a whole object: the meta data, and a value of its type. -/
def Complete (input : List UInt8) : Prop :=
  4 ≤ input.length ∧
    match objFuncs[(inputType input).toNat]? with
    | some (.numeric _ t) => t.Complete (input.drop 4)
    | some .varchar => ¬Truncated (input.drop 4) ∧ 0 ≤ announced (input.drop 4)
    | _ => False

/-- What is expected of `deserialize_ObObj` on an input: a result, and an error unless the whole object
is there. -/
def Reports (stack : BitVec 64) (target : ObObj) (input : List UInt8) : Prop :=
  ∃ out, deserializeObObj stack target input 0 = .ok out ∧ (¬Complete input → out.ret ≠ .success)

/-- When it holds. -/
def Reported (input : List UInt8) : Prop :=
  match objFuncs[(inputType input).toNat]? with
  | some (.numeric _ _) => Complete input
  | some .varchar =>
    6 ≤ input.length → EndsWithin 10 (input.drop 4) ∧ announced (input.drop 4) ≠ behind (input.drop 4)
  | some .null => True
  | some .absent => False
  | none => inputType input ≠ 47

/-- A byte near the start of an input, or nothing at its end. -/
theorem decodeI8_start (input : List UInt8) {n : Nat} (hn : n < 4) : ∃ ret, decodeI8 input (min n input.length) =
      .ok ⟨ret, input[n]?.map UInt8.toBitVec, min (n + 1) input.length⟩ := by
  by_cases hlen : n < input.length
  · rw [min_eq_left hlen.le, min_eq_left (Nat.succ_le_of_lt hlen), getElem?_eq_getElem hlen]
    exact ⟨.success, decodeI8_some (drop_eq_getElem_cons hlen) (by omega)⟩
  rw [min_eq_right (by omega), min_eq_right (by omega), getElem?_eq_none (by omega)]
  exact ⟨.deserializeError, decodeI8_none le_rfl (by omega)⟩

/-- The meta data of an input of any length. -/
theorem deserializeObObjMeta_start (input : List UInt8) :
    ∃ m, deserializeObObjMeta input 0 = .ok (m, min 4 input.length) ∧ m.type = inputType input := by
  obtain ⟨r1, h1⟩ := decodeI8_start input (show 0 < 4 by decide)
  obtain ⟨r2, h2⟩ := decodeI8_start input (show 1 < 4 by decide)
  obtain ⟨r3, h3⟩ := decodeI8_start input (show 2 < 4 by decide)
  obtain ⟨r4, h4⟩ := decodeI8_start input (show 3 < 4 by decide)
  rw [Nat.zero_min] at h1
  refine ⟨⟨inputType input, (input[1]?.map UInt8.toBitVec).getD 0, (input[2]?.map UInt8.toBitVec).getD 0,
    (input[3]?.map UInt8.toBitVec).getD 0⟩, ?_, rfl⟩
  rw [deserializeObObjMeta, h1, ok_bind]
  rw [h2, ok_bind]
  rw [h3, ok_bind]
  rw [h4]
  rfl

section Inputs

variable {stack : BitVec 64} {target : ObObj} {input : List UInt8}

/-- An input goes through the entry of its type byte. -/
theorem deserializeObObj_start {f : ObObjTypeFuncs} (hf : objFuncs[(inputType input).toNat]? = some f) :
    ∃ start, deserializeObObj stack target input 0 = objValDeserialize f stack start input (min 4 input.length) := by
  have htype := objFuncs_lt hf
  obtain ⟨m, hmeta, hm⟩ := deserializeObObjMeta_start input
  refine ⟨{ target with meta_ := m }, ?_⟩
  rw [deserializeObObj, hmeta, ok_bind]
  dsimp only
  rw [hm, if_pos (by omega), objFuncsAt_some hf, ok_bind]

theorem reports_numeric {t : VType} (hf : objFuncs[(inputType input).toNat]? = some (.numeric type t)) :
    Reports stack target input ↔ Complete input := by
  obtain ⟨start, hstart⟩ := @deserializeObObj_start stack target input _ hf
  rw [Reports, hstart, objValDeserialize]
  by_cases hlong : 4 < input.length
  · -- a byte is left for the value, so it is decoded
    have hfour : min 4 input.length = 4 := by omega
    rw [hfour, if_pos hlong]
    constructor
    · rintro ⟨out, hout, -⟩
      obtain ⟨d, hd, -⟩ := bind_eq_ok.mp hout
      refine ⟨by omega, ?_⟩
      rw [hf]
      exact (decoder_ok t hlong hd).2.1
    · intro hcomplete
      have hvalue := hcomplete.2
      rw [hf] at hvalue
      obtain ⟨d, hd⟩ := decoder_complete t (by decide) hvalue
      rw [hd, ok_bind, if_pos (decoder_ok t hlong hd).1]
      exact ⟨_, rfl, fun hnot => absurd hcomplete hnot⟩
  -- otherwise the variable is used as it stands
  rw [if_neg (by omega)]
  constructor
  · rintro ⟨out, hout, hreport⟩
    cases hout
    by_contra hnot
    exact hreport hnot rfl
  · intro hcomplete
    exact ⟨_, rfl, fun hnot => absurd hcomplete hnot⟩

theorem reports_varchar (hf : objFuncs[(inputType input).toNat]? = some .varchar) :
    Reports stack target input ↔ (6 ≤ input.length →
      EndsWithin 10 (input.drop 4) ∧ announced (input.drop 4) ≠ behind (input.drop 4)) := by
  obtain ⟨start, hstart⟩ := @deserializeObObj_start stack target input _ hf
  have hcomplete : Complete input ↔ 4 ≤ input.length ∧ ¬Truncated (input.drop 4) ∧ 0 ≤ announced (input.drop 4) := by
    rw [Complete, hf]
  rw [Reports, hstart, objValDeserialize, hcomplete]
  by_cases hlong : 6 ≤ input.length
  · have hfour : min 4 input.length = 4 := by omega
    rw [hfour, if_neg (by omega), decodeVstrNocopy]
    by_cases hends : EndsWithin 10 (input.drop 4)
    · obtain ⟨hnumber, hlen⟩ := decodeVi64_announced hends
      have hann : (BitVec.ofNat 64 (numberAt (input.drop 4))).toInt = announced (input.drop 4) := rfl
      have htrunc : Truncated (input.drop 4) ↔ behind (input.drop 4) < announced (input.drop 4) + 1 :=
        or_iff_right (not_not_intro hends)
      rw [hnumber, ok_bind, htrunc]
      simp only [Option.getD_some, hann, hends, true_and, hlong, true_implies]
      generalize announced (input.drop 4) = n at *
      by_cases hn : n ≥ 0
      · by_cases hroom : input.length - (4 + ((lead (input.drop 4)).length + 1) : Nat) ≥ n
        · -- a string is found: the terminator is there unless the string reaches the end
          rw [if_pos hn, if_pos hroom]
          constructor
          · rintro ⟨out, hout, hreport⟩
            cases hout
            intro heq
            exact hreport (by omega) rfl
          · intro hne
            exact ⟨_, rfl, fun hnot => absurd (by omega) hnot⟩
        · rw [if_pos hn, if_neg hroom]
          exact ⟨fun _ => by omega, fun _ => ⟨_, rfl, fun _ => by simp⟩⟩
      · rw [if_neg hn]
        exact ⟨fun _ => by omega, fun _ => ⟨_, rfl, fun _ => by simp⟩⟩
    obtain ⟨e, he⟩ := decodeVstr_fault hends
    rw [he]
    constructor
    · rintro ⟨out, hout, -⟩
      cases hout
    · intro h
      exact absurd (h hlong).1 hends
  · rw [if_pos (by omega)]
    exact ⟨fun _ h => absurd h hlong, fun _ => ⟨_, rfl, fun _ => by simp⟩⟩

theorem reports_outside (hf : objFuncs[(inputType input).toNat]? = none) :
    Reports stack target input ↔ inputType input ≠ 47 := by
  obtain ⟨m, hmeta, hm⟩ := deserializeObObjMeta_start input
  have hge : 47 ≤ (inputType input).toNat := List.getElem?_eq_none_iff.mp hf
  rw [Reports, deserializeObObj, hmeta, ok_bind]
  dsimp only
  rw [hm, objFuncsAt, hf]
  by_cases h47 : inputType input = 47
  · rw [if_pos (by rw [h47]; decide)]
    constructor
    · rintro ⟨out, hout, -⟩
      cases hout
    · intro hne
      exact absurd h47 hne
  have hgt : ¬(inputType input).toNat ≤ obMaxType := by
    intro hle
    apply h47
    apply BitVec.eq_of_toNat_eq
    exact le_antisymm hle hge
  rw [if_neg hgt]
  exact ⟨fun _ => h47, fun _ => ⟨_, rfl, fun _ => by simp⟩⟩

theorem reports_iff : Reports stack target input ↔ Reported input := by
  rw [Reported]
  cases hf : objFuncs[(inputType input).toNat]? with
  | none => exact reports_outside hf
  | some f =>
    cases f with
    | numeric type t => exact reports_numeric hf
    | varchar => exact reports_varchar hf
    | null =>
      obtain ⟨start, hstart⟩ := @deserializeObObj_start stack target input _ hf
      exact iff_of_true ⟨_, hstart, fun _ => by simp⟩ trivial
    | absent =>
      obtain ⟨start, hstart⟩ := @deserializeObObj_start stack target input _ hf
      refine iff_of_false ?_ id
      rintro ⟨out, hout, -⟩
      rw [hstart] at hout
      cases hout

end Inputs

/-- **When objects survive the wire**: an object at a position of a buffer meets its contract exactly
when `Survives`, and an input is read or reported exactly when `Reported`. -/
theorem obObj_wire_iff (obj : ObObj) (hvalid : obj.Valid) (buf : List UInt8) (pos : Nat) (stack : BitVec 64)
    (target : ObObj) (input : List UInt8) :
    (Serializes obj buf pos ↔ Survives obj buf pos) ∧ (Reports stack target input ↔ Reported input) :=
  ⟨serializes_iff hvalid, reports_iff⟩

/-- The string "ab". -/
def abObj : ObObj := ⟨⟨22, 2, 45, 0⟩, 2, 0, some [97, 98]⟩

/-- Eight bytes take "ab", and a `tinyint` of five bytes is read. -/
theorem abObj_survives : abObj.Valid ∧ Serializes abObj (List.replicate 8 0) 0 ∧ Reports 0 abObj [1, 5, 63, 0, 7] :=
  have hwire := obObj_wire_iff abObj (by decide) (List.replicate 8 0) 0 0 abObj [1, 5, 63, 0, 7]
  ⟨by decide, hwire.1.mpr ⟨by decide, by decide, by decide, by decide⟩,
    hwire.2.mpr ⟨by decide, show 0 < 1 by decide⟩⟩

/-- Seven bytes do not take "ab", and it is reported as written; a type without a value is read as what
the stack held; and the type behind the last one reads behind the table. -/
theorem objects_fail : (¬Serializes abObj (List.replicate 7 0) 0 ∧
      (serializeObObj abObj (List.replicate 7 0) 0).toOption.map (·.ret) = some .success) ∧
    (¬Reports 171 abObj [1] ∧ (deserializeObObj 171 abObj [1] 0).toOption.map (fun r => (r.ret, r.obj.value)) =
        some (.success, .number 171)) ∧
    ¬Reports 0 abObj [47] ∧ deserializeObObj 0 abObj [47] 0 = .error .tableOverrun := by
  refine ⟨⟨?_, by decide⟩, ⟨?_, by decide⟩, ?_, by decide⟩
  · rw [serializes_iff (by decide)]
    rintro ⟨-, -, hroom, -⟩
    exact absurd hroom (by decide)
  · rw [reports_iff]
    rintro ⟨hlen, -⟩
    exact absurd hlen (by decide)
  · rw [reports_iff]
    intro hne
    exact hne rfl

end ObConnector.Serialize
