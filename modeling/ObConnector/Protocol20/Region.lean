/-
# ObConnector.Protocol20.Region -- the extra infos the decoder gets over.

An extra info here is built from its parts: items the decoder has no functions for, then at most one
`FULL_TRC` item, made of groups the decoder knows and groups it does not, a known group being made of
fields it knows and at most one unknown field behind them. For such a region the outcome can be read
off the parts: `decode_region` says that the decode succeeds and leaves in the records what
`storeParts` computes from the parts alone, known fields in order and unknown parts without a trace.

The proof goes level by level, each loop being followed over the parts it meets (`fields_run`,
`groups_run`, `items_skip`).
-/
import ObConnector.Protocol20.Flt

namespace ObConnector.Protocol20

open Lib List

/-- The key in the item header at `pos`. -/
def keyAt (row : List UInt8) (pos : Int) : Nat := leNat (sliceAt row pos 2)

/-- The length in the item header at `pos`, which is read unsigned. -/
def valueLenAt (row : List UInt8) (pos : Int) : Int := leNat (sliceAt row (pos + 2) 4)

/-! ## One round of each loop -/

section Fields

variable {row : List UInt8} {g : FltGroup} {check valueLen buf len pos : Int} {fuel : Nat}
  {d d' : Decoding} {r : Ret}

theorem fields_done (h : len ≤ pos) :
    fltDeserializeExtraInfo row g buf len (fuel + 1) pos d = .ok (.obSuccess, d) := by
  rw [fltDeserializeExtraInfo, if_neg (by omega)]

/-- Behind a field header that is inside, the loop does what the field decoder does. -/
theorem fields_header (h : pos + 6 ≤ len) (hin : Inside row (buf + pos) 6) :
    fltDeserializeExtraInfo row g buf len (fuel + 1) pos d = (do
      match ← deserializeField (fltSlots g) row buf len (typeAt row (buf + pos))
          (lenAt row (buf + pos)) (pos + 6) d.flt with
      | none => return (.obError, d.move pos (pos + 6))
      | some (pos2, flt) =>
        fltDeserializeExtraInfo row g buf len fuel pos2
          (({ d with flt := flt }.move pos (pos + 6)).move (pos + 6) pos2)) := by
  rw [fltDeserializeExtraInfo, if_pos (by omega), resolve_eq, if_neg (by omega), if_pos hin]
  rfl

end Fields

section Groups

variable {row : List UInt8} {check valueLen pos e : Int} {fuel : Nat} {d d' : Decoding} {r : Ret}

theorem groups_done (h : row.length ≤ pos) :
    extrainfoDeserializeFlt row row.length (fuel + 1) pos d = .ok (.obSuccess, pos, d) := by
  rw [extrainfoDeserializeFlt, if_neg (by omega)]

theorem resolve_group (h : pos + 6 ≤ row.length) (hin : Inside row pos 6) :
    fltResolveTypeAndLen row 0 row.length pos = .ok (some (typeAt row pos, lenAt row pos, pos + 6)) := by
  rw [resolve_eq, zero_add, if_neg (by omega), if_pos hin]

theorem groups_unknown {type vLen : Int} (h : pos < row.length)
    (hres : fltResolveTypeAndLen row 0 row.length pos = .ok (some (type, vLen, pos + 6)))
    (hk : knowFltInfo type = none) :
    extrainfoDeserializeFlt row row.length (fuel + 1) pos d =
      extrainfoDeserializeFlt row row.length fuel (pos + 6 + vLen)
        ((d.move pos (pos + 6)).move (pos + 6) (pos + 6 + vLen)) := by
  rw [extrainfoDeserializeFlt, if_pos h, hres]
  simp only [ok_bind, hk]

/-- A known group does what its field loop does. -/
theorem groups_known {type vLen : Int} {g : FltGroup} (h : pos < row.length)
    (hres : fltResolveTypeAndLen row 0 row.length pos = .ok (some (type, vLen, pos + 6)))
    (hk : knowFltInfo type = some g) {res : Except Fault (Ret × Decoding)}
    (hf : fltDeserializeExtraInfo row g (pos + 6) vLen fuel 0
      ({ d with flt := d.flt.setType g }.move pos (pos + 6)) = res) :
    (∀ df, res = .ok (.obError, df) →
      extrainfoDeserializeFlt row row.length (fuel + 1) pos d = .ok (.obError, pos + 6, df)) ∧
    (∀ df, res = .ok (.obSuccess, df) →
      extrainfoDeserializeFlt row row.length (fuel + 1) pos d =
        extrainfoDeserializeFlt row row.length fuel (pos + 6 + vLen)
          (df.move (pos + 6) (pos + 6 + vLen))) ∧
    (∀ f, res = .error f →
      extrainfoDeserializeFlt row row.length (fuel + 1) pos d = .error f) := by
  rw [extrainfoDeserializeFlt, if_pos h, hres]
  simp only [ok_bind, hk, hf]
  refine ⟨?_, ?_, ?_⟩ <;> rintro _ rfl <;> rfl

end Groups

section Items

variable {row : List UInt8} {pos : Int} {fuel : Nat} {d d' : Decoding} {r : Ret}

theorem items_done (h : row.length ≤ pos) : decodeLoop row (fuel + 1) pos d = .ok (.obSuccess, d) := by
  rw [decodeLoop, if_neg (by omega)]

/-- Behind an item header that is inside, the table is consulted. -/
theorem items_header (h : pos < row.length) (hin : Inside row pos 6) {funcs : Except Fault (Option ExtraInfoFuncs)}
    (hfun : extraSerializeFuncs (keyAt row pos) = funcs) :
    (∀ f, funcs = .error f → decodeLoop row (fuel + 1) pos d = .error f) ∧
    (funcs = .ok none → decodeLoop row (fuel + 1) pos d = decodeLoop row fuel (pos + 6 + valueLenAt row pos)
        ((d.move pos (pos + 6)).move (pos + 6) (pos + 6 + valueLenAt row pos))) ∧
    (∀ res, funcs = .ok (some .flt) →
      extrainfoDeserializeFlt row row.length fuel (pos + 6) (d.move pos (pos + 6)) = res →
      (∀ f, res = .error f → decodeLoop row (fuel + 1) pos d = .error f) ∧
      (∀ e df, res = .ok (.obError, e, df) → decodeLoop row (fuel + 1) pos d = .ok (.obError, df)) ∧
      (∀ e df, res = .ok (.obSuccess, e, df) → decodeLoop row (fuel + 1) pos d =
        if e ≠ pos + 6 + valueLenAt row pos then .ok (.obError, df.move (pos + 6) e)
        else decodeLoop row fuel e (df.move (pos + 6) e))) := by
  have hkey : readAt row pos 2 = .ok (sliceAt row pos 2) :=
    readAt_inside hin.1 (by have := hin.2; omega)
  have hlen : readAt row (pos + 2) 4 = .ok (sliceAt row (pos + 2) 4) :=
    readAt_inside (by have := hin.1; omega) (by have := hin.2; omega)
  rw [decodeLoop, if_pos h, hkey, ok_bind, hlen, ← keyAt, hfun, show pos + 2 + 4 = pos + 6 by omega]
  refine ⟨?_, ?_, ?_⟩
  · rintro f rfl
    rfl
  · rintro rfl
    rfl
  · rintro res rfl hres
    simp only [hres]
    refine ⟨?_, ?_, ?_⟩
    · rintro f rfl
      rfl
    · rintro e df rfl
      rfl
    · rintro e df rfl
      rfl

/-- The table has no functions for a key in range other than `FULL_TRC`. -/
theorem extraSerializeFuncs_other {key : Nat} (hk : key ≠ fullTrc) (hle : key ≤ ob20SvrEnd) :
    extraSerializeFuncs key = .ok none := by
  rw [extraSerializeFuncs, if_neg (by omega), if_neg hk]

end Items

/-! ## Reading a header back -/

/-- The triple fits a region: its key has two bytes and its length is not negative when read as a
signed number. -/
def Tlv.InRegion (t : Tlv) : Prop := t.key < 256 ^ 2 ∧ 2 * t.value.length < 256 ^ 4

section Header

variable {row A B : List UInt8} {t : Tlv} {off : Int}

/-- What the header loads give at a triple in the region. -/
theorem header_at (hrow : row = A ++ (t.bytes ++ B)) (hoff : off = A.length) (ht : Tlv.InRegion t) :
    Inside row off 6 ∧ keyAt row off = t.key ∧ typeAt row off = intOf 2 false t.key ∧
      valueLenAt row off = t.value.length ∧ lenAt row off = t.value.length := by
  have hkey : sliceAt row off 2 = leBytes 2 t.key := by
    rw [hrow, Tlv.bytes, append_assoc]
    exact sliceAt_append hoff (by simp)
  have hlen : sliceAt row (off + 2) 4 = leBytes 4 t.value.length := by
    rw [hrow, Tlv.bytes, append_assoc, ← append_assoc A, append_assoc (leBytes 4 _)]
    exact sliceAt_append (by simp [hoff]) (by simp)
  have hn : leNat (leBytes 4 t.value.length) = t.value.length :=
    leNat_leBytes_of_lt (by have := ht.2; omega)
  refine ⟨⟨by omega, ?_⟩, ?_, ?_, ?_, ?_⟩
  · rw [hrow]
    simp only [length_append, Tlv.length_bytes]
    omega
  · rw [keyAt, hkey, leNat_leBytes_of_lt ht.1]
  · rw [typeAt, hkey, leNat_leBytes_of_lt ht.1]
  · rw [valueLenAt, hlen, hn]
  · rw [lenAt, hlen, hn, intOf_of_small ht.2]

/-- The value bytes behind the header. -/
theorem value_at (hrow : row = A ++ (t.bytes ++ B)) (hoff : off = A.length) :
    sliceAt row (off + 6) t.value.length = t.value ∧ Inside row (off + 6) t.value.length := by
  constructor
  · have hsplit : row = (A ++ (leBytes 2 t.key ++ leBytes 4 t.value.length)) ++ (t.value ++ B) := by
      rw [hrow, Tlv.bytes]
      simp only [append_assoc]
    rw [hsplit]
    exact sliceAt_append (by simp [hoff]) rfl
  · rw [hrow]
    constructor
    · omega
    · simp only [length_append, Tlv.length_bytes]
      omega

end Header

/-! ## The fields of a group -/

/-- The group decoder knows the field's id, and the value has the length it asks for. -/
def KnownField (g : FltGroup) (f : Tlv) : Prop :=
  match fltSlots g (intOf 2 false f.key) with
  | none => False
  | some (.fixed width _) => f.value.length = width
  | some (.str _) => True

/-- The group decoder does not know the field's id. -/
def UnknownField (g : FltGroup) (f : Tlv) : Prop := fltSlots g (intOf 2 false f.key) = none

instance (g : FltGroup) (f : Tlv) : Decidable (KnownField g f) := by
  unfold KnownField; split <;> infer_instance

/-- What a field leaves in the records, its group's value starting at `buf`. -/
def storeField (g : FltGroup) (buf : Int) (flt : FLTInfo) (f : Tlv) : FLTInfo :=
  match fltSlots g (intOf 2 false f.key) with
  | none => flt
  | some (.fixed _ store) => store f.value flt
  | some (.str store) => store (.inRow buf) flt

section Fields

variable {row A B : List UInt8} {g : FltGroup} {buf len pos : Int} {d : Decoding}

/-- A known field in its group is not refused, loads its own value and is stored. -/
theorem known_slot {f : Tlv} (hf : KnownField g f) {off : Int} (buf : Int) (flt : FLTInfo)
    (hslice : sliceAt row off f.value.length = f.value) (hin : Inside row off f.value.length)
    (hlen : pos + f.value.length ≤ len) :
    ¬fieldRefused (fltSlots g (intOf 2 false f.key)) len pos f.value.length ∧
      fieldLoads (fltSlots g (intOf 2 false f.key)) row off ∧
      fieldEnd (fltSlots g (intOf 2 false f.key)) pos f.value.length = pos + f.value.length ∧
      fieldStore (fltSlots g (intOf 2 false f.key)) row buf off flt = storeField g buf flt f := by
  unfold KnownField at hf
  unfold storeField
  split at hf
  · exact hf.elim
  · rename_i width store hs
    rw [hs]
    subst hf
    refine ⟨?_, hin, rfl, by simp only [fieldStore, hslice]⟩
    simp only [fieldRefused, ne_eq, not_true_eq_false, false_or]
    omega
  rename_i store hs
  rw [hs]
  refine ⟨?_, trivial, rfl, rfl⟩
  simp only [fieldRefused]
  omega

/-- A known field is stored, and the loop goes on right behind it. -/
theorem fields_known {f : Tlv} (hf : KnownField g f) (ht : Tlv.InRegion f)
    (hrow : row = A ++ (f.bytes ++ B)) (hoff : buf + pos = A.length)
    (hlen : pos + f.bytes.length ≤ len) (d : Decoding) :
    ∃ d', d'.flt = storeField g buf d.flt f ∧ ∀ fuel, fltDeserializeExtraInfo row g buf len (fuel + 1) pos d =
        fltDeserializeExtraInfo row g buf len fuel (pos + f.bytes.length) d' := by
  obtain ⟨hin, -, htype, -, hval⟩ := header_at hrow hoff ht
  obtain ⟨hslice, hvin⟩ := value_at hrow hoff
  rw [Tlv.length_bytes] at hlen ⊢
  rw [add_assoc] at hslice hvin
  obtain ⟨href, hload, hend, hstore⟩ := known_slot hf buf d.flt hslice hvin
    (show pos + 6 + f.value.length ≤ len by push_cast at hlen; omega)
  refine ⟨({ d with flt := storeField g buf d.flt f }.move pos (pos + 6)).move (pos + 6)
    (pos + 6 + f.value.length), rfl, fun fuel => ?_⟩
  rw [fields_header (by push_cast at hlen; omega) hin, htype, hval,
    deserializeField_stored _ _ href hload, ok_bind, hend, hstore]
  push_cast
  rw [add_assoc pos 6]

/-- An unknown field is skipped when nothing stands behind it: the cursor goes too far, and the loop
ends. -/
theorem fields_unknown_last {u : Tlv} (hu : UnknownField g u) (ht : Tlv.InRegion u)
    (hrow : row = A ++ (u.bytes ++ B)) (hoff : buf + pos = A.length) (hpos : 0 ≤ pos)
    (hlen : pos + u.bytes.length = len) (d : Decoding) :
    ∃ d', d'.flt = d.flt ∧ ∀ fuel,
      fltDeserializeExtraInfo row g buf len (fuel + 2) pos d = .ok (.obSuccess, d') := by
  obtain ⟨hin, -, htype, -, hval⟩ := header_at hrow hoff ht
  rw [Tlv.length_bytes] at hlen
  refine ⟨(d.move pos (pos + 6)).move (pos + 6) (pos + 6 + (pos + 6 + u.value.length)), rfl, fun fuel => ?_⟩
  rw [fields_header (by omega) hin, htype, hval, deserializeField, hu]
  exact fields_done (by omega)

/-- The known fields of a group are stored in turn. -/
theorem fields_known_run {fs : List Tlv} (hfs : ∀ f ∈ fs, KnownField g f ∧ Tlv.InRegion f)
    (hrow : row = A ++ (tlvBytes fs ++ B)) (hoff : buf + pos = A.length)
    (hlen : pos + (tlvBytes fs).length ≤ len) (d : Decoding) :
    ∃ d', d'.flt = fs.foldl (storeField g buf) d.flt ∧ ∀ fuel,
      fltDeserializeExtraInfo row g buf len (fuel + fs.length) pos d =
        fltDeserializeExtraInfo row g buf len fuel (pos + (tlvBytes fs).length) d' := by
  induction fs generalizing A pos d with
  | nil => exact ⟨d, rfl, fun fuel => by simp⟩
  | cons f fs ih =>
    obtain ⟨hf, ht⟩ := hfs f (by simp)
    rw [tlvBytes_cons, append_assoc] at hrow
    rw [tlvBytes_cons, length_append] at hlen
    obtain ⟨d1, hd1, hstep⟩ := fields_known hf ht hrow hoff
      (show pos + f.bytes.length ≤ len by omega) d
    obtain ⟨d2, hd2, hrun⟩ := ih (fun f' h' => hfs f' (by simp [h']))
      (by rw [hrow, append_assoc])
      (show buf + (pos + f.bytes.length) = _ by simp only [length_append]; omega)
      (by omega) d1
    refine ⟨d2, by rw [hd2, hd1, foldl_cons], fun fuel => ?_⟩
    rw [length_cons, ← add_assoc, hstep, hrun, tlvBytes_cons, length_append]
    push_cast
    rw [add_assoc]

/-- The fields of a group, known ones and at most one unknown one behind them. -/
def FieldsResume (g : FltGroup) (fs : List Tlv) : Prop :=
  (∀ f ∈ fs, Tlv.InRegion f) ∧
    ((∀ f ∈ fs, KnownField g f) ∨
      ∃ ks u, fs = ks ++ [u] ∧ (∀ f ∈ ks, KnownField g f) ∧ UnknownField g u)

/-- **The field loop of a whole group** stores the known fields. -/
theorem fields_run {fs : List Tlv} (hfs : FieldsResume g fs)
    (hrow : row = A ++ (tlvBytes fs ++ B)) (hoff : buf = A.length) (d : Decoding) :
    ∃ n d', d'.flt = fs.foldl (storeField g buf) d.flt ∧ ∀ fuel, n ≤ fuel →
      fltDeserializeExtraInfo row g buf (tlvBytes fs).length fuel 0 d = .ok (.obSuccess, d') := by
  obtain ⟨hin, hk | ⟨ks, u, rfl, hk, hu⟩⟩ := hfs
  · obtain ⟨d', hd', hrun⟩ := fields_known_run (fun f h => ⟨hk f h, hin f h⟩) hrow
      (show buf + 0 = A.length by omega) (show (0 : Int) + _ ≤ (tlvBytes fs).length by omega) d
    refine ⟨fs.length + 1, d', hd', fun fuel hf => ?_⟩
    obtain ⟨k, rfl⟩ : ∃ k, fuel = k + 1 + fs.length := ⟨fuel - 1 - fs.length, by omega⟩
    rw [hrun]
    exact fields_done (by omega)
  rw [tlvBytes_append, append_assoc] at hrow
  have hlen : ((tlvBytes (ks ++ [u])).length : Int) = (tlvBytes ks).length + u.bytes.length := by
    simp
  obtain ⟨d1, hd1, hrun⟩ := fields_known_run (fun f h => ⟨hk f h, hin f (by simp [h])⟩) hrow
    (show buf + 0 = A.length by omega)
    (show (0 : Int) + _ ≤ (tlvBytes (ks ++ [u])).length by omega) d
  obtain ⟨d2, hd2, hlast⟩ := fields_unknown_last hu (hin u (by simp))
    (show row = (A ++ tlvBytes ks) ++ (u.bytes ++ B) by rw [hrow]; simp)
    (show buf + (0 + (tlvBytes ks).length) = _ by simp [hoff]) (by omega)
    (show _ = ((tlvBytes (ks ++ [u])).length : Int) by omega) d1
  refine ⟨ks.length + 2, d2, ?_, fun fuel hf => ?_⟩
  · have hskip : ∀ flt, storeField g buf flt u = flt := by
      intro flt
      unfold UnknownField at hu
      simp only [storeField, hu]
    rw [hd2, hd1, foldl_append, foldl_cons, foldl_nil, hskip]
  · obtain ⟨k, rfl⟩ : ∃ k, fuel = k + 2 + ks.length := ⟨fuel - 2 - ks.length, by omega⟩
    rw [hrun, hlast]

end Fields

/-! ## The groups of an item -/

/-- A part of the value of a `FULL_TRC` item: a group the decoder knows, with its fields, or one it
does not know. -/
inductive Part where
  | known (g : FltGroup) (fields : List Tlv)
  | unknown (t : Tlv)
  deriving DecidableEq, Repr

/-- The group's wire triple. -/
def Part.tlv : Part → Tlv
  | .known g fields => ⟨g.type, tlvBytes fields⟩
  | .unknown t => t

/-- The decoder gets over the part: a known group's fields as in `FieldsResume`, or a key that it
does not know. -/
def Part.Resumes : Part → Prop
  | .known g fields => FieldsResume g fields
  | .unknown t => knowFltInfo (intOf 2 false t.key) = none

/-- The bytes of a sequence of parts. -/
def partsBytes (ps : List Part) : List UInt8 := tlvBytes (ps.map Part.tlv)

@[simp] theorem partsBytes_nil : partsBytes [] = [] := rfl

@[simp] theorem partsBytes_cons (p : Part) (ps : List Part) :
    partsBytes (p :: ps) = p.tlv.bytes ++ partsBytes ps := by
  simp [partsBytes]

@[simp] theorem partsBytes_append (ps qs : List Part) : partsBytes (ps ++ qs) = partsBytes ps ++ partsBytes qs := by
  simp [partsBytes]

/-- What a part that starts at `off` in the region leaves in the records. -/
def storePart (off : Int) (flt : FLTInfo) : Part → FLTInfo
  | .known g fields => fields.foldl (storeField g (off + 6)) (flt.setType g)
  | .unknown _ => flt

/-- What a sequence of parts leaves, the first of them starting at `off`. -/
def storeParts : Int → FLTInfo → List Part → FLTInfo
  | _, flt, [] => flt
  | off, flt, p :: ps => storeParts (off + p.tlv.bytes.length) (storePart off flt p) ps

theorem storeParts_append (off : Int) (flt : FLTInfo) (ps qs : List Part) : storeParts off flt (ps ++ qs) =
      storeParts (off + (partsBytes ps).length) (storeParts off flt ps) qs := by
  induction ps generalizing off flt with
  | nil => simp [storeParts]
  | cons p ps ih =>
    rw [cons_append, storeParts, ih, storeParts, partsBytes_cons, length_append]
    push_cast
    rw [add_assoc]

theorem intOf_type (g : FltGroup) : intOf 2 false g.type = g.type := by
  cases g <;> rfl

section Groups

variable {row A B : List UInt8} {pos : Int}

/-- A part is got over, and the loop goes on right behind it. -/
theorem groups_part {p : Part} (hp : p.Resumes) (ht : Tlv.InRegion p.tlv)
    (hrow : row = A ++ (p.tlv.bytes ++ B)) (hoff : pos = A.length) (d : Decoding) :
    ∃ n d', d'.flt = storePart pos d.flt p ∧ ∀ fuel, n ≤ fuel →
      extrainfoDeserializeFlt row row.length (fuel + 1) pos d =
        extrainfoDeserializeFlt row row.length fuel (pos + p.tlv.bytes.length) d' := by
  obtain ⟨hin, -, htype, -, hval⟩ := header_at hrow hoff ht
  have hroom : pos + 6 ≤ row.length := by
    rw [hrow]
    simp only [length_append, Tlv.length_bytes]
    omega
  have hres := resolve_group hroom hin
  rw [htype, hval] at hres
  have hnext : pos + p.tlv.bytes.length = pos + 6 + p.tlv.value.length := by
    rw [Tlv.length_bytes]
    omega
  cases p with
  | unknown t =>
    refine ⟨0, (d.move pos (pos + 6)).move (pos + 6) (pos + 6 + t.value.length), rfl, fun fuel _ => ?_⟩
    rw [groups_unknown (by omega) hres hp, hnext]
    rfl
  | known g fields =>
    have hk : knowFltInfo (intOf 2 false (Part.known g fields).tlv.key) = some g := by
      rw [Part.tlv, intOf_type, knowFltInfo_type]
    have hbody : row = (A ++ (leBytes 2 g.type ++ leBytes 4 (tlvBytes fields).length)) ++
        (tlvBytes fields ++ B) := by
      rw [hrow, Part.tlv, Tlv.bytes]
      simp only [append_assoc]
    obtain ⟨n, df, hdf, hrun⟩ := fields_run hp hbody (show pos + 6 = _ by simp [hoff])
      ({ d with flt := d.flt.setType g }.move pos (pos + 6))
    refine ⟨n, df.move (pos + 6) (pos + 6 + (tlvBytes fields).length), hdf, fun fuel hf => ?_⟩
    rw [(groups_known (by omega) hres hk (hrun fuel hf)).2.1 df rfl, hnext]
    rfl

/-- **The group loop of a whole item** at the end of the region stores its known groups. -/
theorem groups_run {ps : List Part} (hps : ∀ p ∈ ps, p.Resumes ∧ Tlv.InRegion p.tlv)
    (hrow : row = A ++ partsBytes ps) (hoff : pos = A.length) (d : Decoding) :
    ∃ n d', d'.flt = storeParts pos d.flt ps ∧ ∀ fuel, n ≤ fuel →
      extrainfoDeserializeFlt row row.length fuel pos d = .ok (.obSuccess, row.length, d') := by
  induction ps generalizing A pos d with
  | nil =>
    have hend : pos = row.length := by rw [hrow, hoff]; simp
    refine ⟨1, d, rfl, fun fuel hf => ?_⟩
    obtain ⟨k, rfl⟩ : ∃ k, fuel = k + 1 := ⟨fuel - 1, by omega⟩
    rw [groups_done (by omega), hend]
  | cons p ps ih =>
    obtain ⟨hp, ht⟩ := hps p (by simp)
    rw [partsBytes_cons] at hrow
    obtain ⟨n1, d1, hd1, hstep⟩ := groups_part hp ht hrow hoff d
    obtain ⟨n2, d2, hd2, hrun⟩ := ih (fun q hq => hps q (by simp [hq]))
      (by rw [hrow, append_assoc])
      (show pos + p.tlv.bytes.length = _ by simp [hoff]) d1
    refine ⟨max n1 n2 + 1, d2, by rw [hd2, hd1, storeParts], fun fuel hf => ?_⟩
    obtain ⟨k, rfl⟩ : ∃ k, fuel = k + 1 := ⟨fuel - 1, by omega⟩
    rw [hstep k (by omega), hrun k (by omega)]

end Groups

/-! ## A region -/

/-- A region the decoder gets over: items it does not know, then at most one `FULL_TRC` item. -/
structure Region where
  skipped : List Tlv
  item : Option (List Part)

/-- The region's bytes. -/
def Region.bytes (r : Region) : List UInt8 :=
  tlvBytes r.skipped ++ match r.item with
    | none => []
    | some ps => Tlv.bytes ⟨fullTrc, partsBytes ps⟩

/-- The skipped keys have a place in the table but no functions, and the parts are got over. -/
structure Region.Resumes (r : Region) : Prop where
  skipped : ∀ t ∈ r.skipped, t.key ≠ fullTrc ∧ t.key ≤ ob20SvrEnd
  parts : ∀ ps, r.item = some ps → ∀ p ∈ ps, p.Resumes ∧ p.tlv.key < 256 ^ 2
  /-- the region fits a frame -/
  length : r.bytes.length < 2 ^ 24

/-- What the region leaves in the records. -/
def Region.store (r : Region) (flt : FLTInfo) : FLTInfo :=
  match r.item with
  | none => flt
  | some ps => storeParts ((tlvBytes r.skipped).length + 6) flt ps

theorem length_le_tlvBytes {t : Tlv} {ts : List Tlv} (h : t ∈ ts) : t.value.length + 6 ≤ (tlvBytes ts).length := by
  induction ts with
  | nil => cases h
  | cons u us ih =>
    rw [tlvBytes_cons, length_append, Tlv.length_bytes]
    rcases mem_cons.1 h with rfl | h
    · omega
    have := ih h
    omega

/-- Items without functions are skipped in turn. -/
theorem items_skip {row A B : List UInt8} {ts : List Tlv} {pos : Int}
    (hts : ∀ t ∈ ts, t.key ≠ fullTrc ∧ t.key ≤ ob20SvrEnd) (hlen : (tlvBytes ts).length < 2 ^ 24)
    (hrow : row = A ++ (tlvBytes ts ++ B)) (hoff : pos = A.length) (d : Decoding) :
    ∃ d', d'.flt = d.flt ∧ ∀ fuel, decodeLoop row (fuel + ts.length) pos d =
      decodeLoop row fuel (pos + (tlvBytes ts).length) d' := by
  induction ts generalizing A pos d with
  | nil => exact ⟨d, rfl, fun fuel => by simp⟩
  | cons t ts ih =>
    obtain ⟨hne, hle⟩ := hts t (by simp)
    have hin : Tlv.InRegion t := by
      have := length_le_tlvBytes (show t ∈ t :: ts by simp)
      unfold ob20SvrEnd at hle
      exact ⟨by omega, by omega⟩
    rw [tlvBytes_cons, append_assoc] at hrow
    rw [tlvBytes_cons, length_append] at hlen
    obtain ⟨hhead, hkey, -, hval, -⟩ := header_at hrow hoff hin
    obtain ⟨d', hd', hrun⟩ := ih (fun u hu => hts u (by simp [hu])) (by omega)
      (by rw [hrow, append_assoc])
      (show pos + 6 + t.value.length = _ by simp [hoff]; omega)
      ((d.move pos (pos + 6)).move (pos + 6) (pos + 6 + t.value.length))
    refine ⟨d', hd', fun fuel => ?_⟩
    have hlt : pos < row.length := by
      have := hhead.2
      omega
    rw [length_cons, ← add_assoc, (items_header hlt hhead
      (extraSerializeFuncs_other (by rwa [hkey]) (by rwa [hkey]))).2.1 rfl, hval, hrun]
    congr 1
    simp only [tlvBytes_cons, length_append, Tlv.length_bytes]
    omega

/-- **The decode of a region** succeeds and leaves in the records what the parts say. -/
theorem decode_region {r : Region} (hr : r.Resumes) (flt : FLTInfo) :
    ∃ n d', d'.flt = r.store flt ∧ ∀ fuel, n ≤ fuel →
      decodeProtocol20ExtraInfo fuel r.bytes flt = .ok (.obSuccess, d') := by
  obtain ⟨skipped, item⟩ := r
  have hlen := hr.length
  simp only [Region.bytes, length_append] at hlen
  obtain ⟨d1, hd1, hskip⟩ := items_skip hr.skipped (by simp only; omega)
    (show Region.bytes ⟨skipped, item⟩ = [] ++ (tlvBytes skipped ++ _) from rfl)
    (show 0 = _ by simp) ⟨flt, []⟩
  cases item with
  | none =>
    refine ⟨skipped.length + 1, d1, hd1, fun fuel hf => ?_⟩
    obtain ⟨k, rfl⟩ : ∃ k, fuel = k + 1 + skipped.length := ⟨fuel - 1 - skipped.length, by omega⟩
    rw [decodeProtocol20ExtraInfo, hskip]
    exact items_done (by simp [Region.bytes])
  | some ps =>
    simp only [Tlv.length_bytes] at hlen
    have hrow : Region.bytes ⟨skipped, some ps⟩ =
        tlvBytes skipped ++ (Tlv.bytes ⟨fullTrc, partsBytes ps⟩ ++ []) := by
      simp [Region.bytes]
    have hsize : ((Region.bytes ⟨skipped, some ps⟩).length) =
        (tlvBytes skipped).length + 6 + (partsBytes ps).length := by
      simp [Region.bytes]
      omega
    generalize Region.bytes ⟨skipped, some ps⟩ = row at hrow hsize hskip
    obtain ⟨hhead, hkey, -, hval, -⟩ := header_at hrow
      (show 0 + ((tlvBytes skipped).length : Int) = _ by simp)
      ⟨show fullTrc < 256 ^ 2 by decide, by simp only; omega⟩
    have hps : ∀ p ∈ ps, p.Resumes ∧ Tlv.InRegion p.tlv := by
      intro p hp
      obtain ⟨hres, hk⟩ := hr.parts ps rfl p hp
      have := length_le_tlvBytes (mem_map_of_mem (f := Part.tlv) hp)
      unfold partsBytes at hlen
      exact ⟨hres, hk, by omega⟩
    obtain ⟨n, d2, hd2, hrun⟩ := groups_run hps
      (show row = (tlvBytes skipped ++ (leBytes 2 fullTrc ++ leBytes 4 (partsBytes ps).length)) ++
        partsBytes ps by rw [hrow, Tlv.bytes]; simp)
      (show 0 + ((tlvBytes skipped).length : Int) + 6 = _ by simp)
      (d1.move (0 + (tlvBytes skipped).length) (0 + (tlvBytes skipped).length + 6))
    refine ⟨skipped.length + n + 2, d2.move (0 + (tlvBytes skipped).length + 6) row.length, ?_, fun fuel hf => ?_⟩
    · show d2.flt = _
      rw [hd2, zero_add]
      exact congrArg (storeParts _ · ps) hd1
    · obtain ⟨k, rfl⟩ : ∃ k, fuel = k + 2 + skipped.length := ⟨fuel - 2 - skipped.length, by omega⟩
      rw [decodeProtocol20ExtraInfo, hskip, ((items_header (by omega) hhead (by rw [hkey]; rfl)).2.2
        _ rfl (hrun (k + 1) (by omega))).2.2 _ d2 rfl, hval, if_neg (by simp only; omega),
        items_done (by omega)]

end ObConnector.Protocol20
