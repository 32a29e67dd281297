/-
# ObConnector.Protocol20.FltRoundTrip -- reading back what was written.

One group of a `FULL_TRC` value, written by `flt_serialize_extra_info` and met by
`extrainfo_deserialize_flt` at any place of a region. The six kinds go wrong in four ways. A field of
`flt_store_int8` is announced with seven bytes where `flt_get_int8` wants eight, so control and query
information are refused. `flt_get_str` hands out the start of the group instead of the start of the
string. Span information is decoded into the control record. Driver spans and show-trace spans have
types that the decoder does not know.

`roundTrips_iff` says what is left: application information whose every string happens to be the bytes
that its group starts with, and span information that is not written at all.
-/
import ObConnector.Protocol20.FltWrite
import ObConnector.Protocol20.Region

namespace ObConnector.Protocol20

open Lib List

/-! ## One group in the loop -/

/-- One iteration of `extrainfo_deserialize_flt`: the cursor and the records behind the group, or
nothing for `OB_ERROR`. -/
def groupStep (row : List UInt8) (fuel : Nat) (pos : Int) (d : Decoding) :
    Except Fault (Option (Int × Decoding)) := do
  match ← fltResolveTypeAndLen row 0 row.length pos with
  | none => return none
  | some (type, tmpVLen, pos1) =>
    match knowFltInfo type with
    | some group =>
      match ← fltDeserializeExtraInfo row group pos1 tmpVLen fuel 0
          ({ d with flt := d.flt.setType group }.move pos pos1) with
      | (.obError, _) => return none
      | (.obSuccess, d) => return some (pos1 + tmpVLen, d.move pos1 (pos1 + tmpVLen))
    | none => return some (pos1 + tmpVLen, (d.move pos pos1).move pos1 (pos1 + tmpVLen))

/-- The loop is `groupStep` until the cursor is at the end. -/
theorem extrainfoDeserializeFlt_ok_iff {row : List UInt8} {fuel : Nat} {pos e : Int} {d df : Decoding}
    (hpos : pos < row.length) :
    extrainfoDeserializeFlt row row.length (fuel + 1) pos d = .ok (.obSuccess, e, df) ↔
      ∃ pos' d', groupStep row fuel pos d = .ok (some (pos', d')) ∧
        extrainfoDeserializeFlt row row.length fuel pos' d' = .ok (.obSuccess, e, df) := by
  rw [extrainfoDeserializeFlt, if_pos hpos, groupStep]
  cases fltResolveTypeAndLen row 0 row.length pos with
  | error f => simp
  | ok header =>
    cases header with
    | none => simp
    | some h =>
      obtain ⟨type, len, pos1⟩ := h
      simp only [ok_bind]
      cases knowFltInfo type with
      | none => simp
      | some g =>
        dsimp only
        cases fltDeserializeExtraInfo row g pos1 len fuel 0
            ({ d with flt := d.flt.setType g }.move pos pos1) with
        | error f => simp
        | ok r =>
          obtain ⟨ret, d1⟩ := r
          cases ret <;> simp

/-- With enough fuel the loop, at `pos` with the records `flt`, comes to `pos'` with `flt'`. -/
def ReadsTo (row : List UInt8) (pos pos' : Nat) (flt flt' : FLTInfo) : Prop :=
  (pos' = pos ∧ flt' = flt) ∨ ∃ n d', d'.flt = flt' ∧ ∀ fuel, n ≤ fuel →
    groupStep row fuel pos ⟨flt, []⟩ = .ok (some (pos', d'))

/-! ## What should be stored -/

/-- `FLTSpanInfo`. -/
structure FLTSpanInfo where
  traceEnable_ : Int
  forcePrint_ : Int
  traceId_ : CharPtr
  refType_ : Int
  spanId_ : CharPtr
  deriving DecidableEq, Repr

/-- All the records of `FLTInfo`, with those that no decode writes. -/
structure TraceRecords where
  flt : FLTInfo
  spanInfo_ : FLTSpanInfo
  clientSpan_ : CharPtr
  showTraceSpan_ : CharPtr

/-- The pointer leads to the string, in the region. -/
def PointsTo (row : List UInt8) (p : CharPtr) (s : CStr) : Prop :=
  ∃ off : Nat, p = .inRow off ∧ ∃ tail, row.drop off = s.bytes ++ 0 :: tail

/-- The pointer leads to the bytes, in the region. -/
def PointsToBytes (row : List UInt8) (p : CharPtr) (bs : List UInt8) : Prop :=
  ∃ off : Nat, p = .inRow off ∧ (row.drop off).take bs.length = bs

/-- A string that was sent is pointed to, one that was not leaves the pointer alone. -/
def StringStored (row : List UInt8) (before after : CharPtr) : Option CStr → Prop
  | none => after = before
  | some s => PointsTo row after s

/-- The application record after its strings were read. -/
structure AppStored (row : List UInt8) (i : AppValues) (before after : FLTAppInfo) : Prop where
  type : after.type_ = 2001
  identifier : StringStored row before.identifier_ after.identifier_ i.identifier
  module_ : StringStored row before.module_ after.module_ i.module_
  action : StringStored row before.action_ after.action_ i.action
  clientInfo : StringStored row before.clientInfo_ after.clientInfo_ i.clientInfo

/-- The span record after its fields were read. -/
structure SpanStored (row : List UInt8) (i : SpanValues) (after : FLTSpanInfo) : Prop where
  traceEnable : after.traceEnable_ = i.traceEnable
  forcePrint : after.forcePrint_ = i.forcePrint
  traceId : PointsToBytes row after.traceId_ i.traceId
  refType : after.refType_ = i.refType
  spanId : PointsToBytes row after.spanId_ i.spanId

/-- **The record of the same kind holds what was sent, and the others are as they were.** -/
def Stored (row : List UInt8) (before after : TraceRecords) : TraceInfo → Prop
  | .control i => after = { before with flt := { before.flt with controlInfo_ :=
      ⟨2003, i.level, .bits i.samplePct, i.rp, .bits i.printSamplePct, i.slowQueryThreshold,
        i.fltShowTraceEnable⟩ } }
  | .app i => AppStored row i before.flt.appInfo_ after.flt.appInfo_ ∧
      after = { before with flt := { before.flt with appInfo_ := after.flt.appInfo_ } }
  | .query i => after = { before with flt := { before.flt with queryInfo_ :=
      ⟨2002, i.queryStartTimestamp, i.queryEndTimestamp⟩ } }
  | .span i => if i.traceEnable = 1 then
      SpanStored row i after.spanInfo_ ∧ after = { before with spanInfo_ := after.spanInfo_ }
    else after = before   -- nothing was sent
  | .driverSpan text => PointsTo row after.clientSpan_ text ∧
      after = { before with clientSpan_ := after.clientSpan_ }
  | .showTrace text => PointsTo row after.showTraceSpan_ text ∧
      after = { before with showTraceSpan_ := after.showTraceSpan_ }

/-- The information in `bytes` is read back at its place between `front` and `back`, whatever the
records held before. -/
def RoundTrips (i : TraceInfo) (front bytes back : List UInt8) : Prop :=
  ∀ before : TraceRecords, ∃ flt',
    ReadsTo (front ++ (bytes ++ back)) front.length (front.length + bytes.length) before.flt flt' ∧
    Stored (front ++ (bytes ++ back)) before { before with flt := flt' } i

/-- The strings that come back: each is the three bytes that the group starts with when the first
string has three, its id and its length. -/
def AppValues.Echoes (i : AppValues) : Prop :=
  ∀ f ∈ i.strings.head?, ∀ g ∈ i.strings, g.2.bytes = [UInt8.ofNat f.1, 7, 3]

/-- The information that comes back. -/
def Survives : TraceInfo → Prop
  | .control _ => False
  | .app i => i.Echoes
  | .query _ => False
  | .span i => i.traceEnable ≠ 1
  | .driverSpan _ => False
  | .showTrace _ => False

/-! ## How a written group is met -/

section Met

variable {front back : List UInt8} {type : Nat} {ts : List Tlv} {d : Decoding} {fuel : Nat}

/-- The header of a group whose length may not fit four bytes. -/
theorem group_header (front back : List UInt8) (htype : type < 256 ^ 2) (value : List UInt8) :
    fltResolveTypeAndLen (front ++ (Tlv.bytes ⟨type, value⟩ ++ back)) 0
        (front ++ (Tlv.bytes ⟨type, value⟩ ++ back)).length front.length =
      .ok (some (intOf 2 false type, intOf 4 false (value.length % 256 ^ 4), front.length + 6)) := by
  have hkey : sliceAt (front ++ (Tlv.bytes ⟨type, value⟩ ++ back)) front.length 2 = leBytes 2 type := by
    rw [Tlv.bytes, append_assoc]
    exact sliceAt_append rfl (by simp)
  have hlen : sliceAt (front ++ (Tlv.bytes ⟨type, value⟩ ++ back)) (front.length + 2) 4 =
      leBytes 4 value.length := by
    rw [Tlv.bytes, append_assoc, ← append_assoc front, append_assoc (leBytes 4 _)]
    exact sliceAt_append (by simp) (by simp)
  have hroom : (front.length : Int) + 6 ≤ (front ++ (Tlv.bytes ⟨type, value⟩ ++ back)).length := by
    simp only [length_append, Tlv.length_bytes]
    omega
  rw [resolve_group hroom ⟨Int.natCast_nonneg _, hroom⟩, typeAt, lenAt, hkey, hlen,
    leNat_leBytes_of_lt htype, leNat_leBytes]

variable {g : FltGroup}

/-- Behind the header of a group that the decoder knows, its field loop decides. -/
theorem groupStep_of_header {row : List UInt8} {pos len : Int} (fuel : Nat)
    (hres : fltResolveTypeAndLen row 0 row.length pos = .ok (some ((g.type : Int), len, pos + 6))) :
    groupStep row fuel pos d = (do
      match ← fltDeserializeExtraInfo row g (pos + 6) len fuel 0
          ({ d with flt := d.flt.setType g }.move pos (pos + 6)) with
      | (.obError, _) => return none
      | (.obSuccess, d) => return some (pos + 6 + len, d.move (pos + 6) (pos + 6 + len))) := by
  rw [groupStep, hres, ok_bind]
  simp only [knowFltInfo_type]

/-- The header of a written group whose length is not read as negative. -/
theorem group_header_small (g : FltGroup) (hbody : 2 * (tlvBytes ts).length < 256 ^ 4) :
    fltResolveTypeAndLen (front ++ (Tlv.bytes ⟨g.type, tlvBytes ts⟩ ++ back)) 0
        (front ++ (Tlv.bytes ⟨g.type, tlvBytes ts⟩ ++ back)).length front.length =
      .ok (some ((g.type : Int), (tlvBytes ts).length, front.length + 6)) := by
  have hlen : intOf 4 false ((tlvBytes ts).length % 256 ^ 4) = (tlvBytes ts).length := by
    rw [Nat.mod_eq_of_lt (by omega), intOf_of_small hbody]
  have hheader := group_header front back g.type_lt (tlvBytes ts)
  rw [hlen, intOf_type] at hheader
  exact hheader

/-- The fields of a written group in the region. -/
theorem group_split (front back : List UInt8) (type : Nat) (value : List UInt8) :
    front ++ (Tlv.bytes ⟨type, value⟩ ++ back) =
      (front ++ (leBytes 2 type ++ leBytes 4 value.length)) ++ (value ++ back) := by
  rw [Tlv.bytes]
  simp only [append_assoc]

/-- The width of a field by its id: nothing inside for a string. -/
def slotWidth (g : FltGroup) (id : Nat) : Option (Option Nat) :=
  (fltSlots g (intOf 2 false id)).map fun slot => match slot with
    | .fixed width _ => some width
    | .str _ => none

/-- A field that has its width, or is a string. -/
def HasWidth (g : FltGroup) (t : Tlv) : Prop :=
  slotWidth g t.key = some (some t.value.length) ∨ slotWidth g t.key = some none

theorem known_of_hasWidth {t : Tlv} (h : HasWidth g t) : KnownField g t := by
  unfold HasWidth at h
  unfold slotWidth at h
  unfold KnownField
  cases hslot : fltSlots g (intOf 2 false t.key) with
  | none => simp [hslot] at h
  | some slot =>
    cases slot with
    | fixed width store =>
      simp only [hslot, Option.map_some, Option.some.injEq, reduceCtorEq, or_false] at h
      exact h.symm
    | str store => trivial

theorem inRegion_of_small (hkeys : ∀ t ∈ ts, t.key < 256 ^ 2) (hbody : 2 * (tlvBytes ts).length < 256 ^ 4) :
    ∀ t ∈ ts, Tlv.InRegion t := by
  intro t ht
  have hle := length_le_tlvBytes ht
  exact ⟨hkeys t ht, by omega⟩

/-- **A group of fields that the decoder knows is read**, each field being stored. -/
theorem groupStep_reads (front back : List UInt8) (hts : ∀ t ∈ ts, HasWidth g t)
    (hkeys : ∀ t ∈ ts, t.key < 256 ^ 2) (hbody : 2 * (tlvBytes ts).length < 256 ^ 4) (d : Decoding) :
    ∃ n d', d'.flt = ts.foldl (storeField g (front.length + 6)) (d.flt.setType g) ∧ ∀ fuel, n ≤ fuel →
        groupStep (front ++ (Tlv.bytes ⟨g.type, tlvBytes ts⟩ ++ back)) fuel front.length d =
          .ok (some (front.length + 6 + (tlvBytes ts).length, d')) := by
  have hin := inRegion_of_small hkeys hbody
  obtain ⟨n, df, hdf, hrun⟩ := fields_run ⟨hin, Or.inl fun t ht => known_of_hasWidth (hts t ht)⟩
    (group_split front back g.type _)
    (show (front.length : Int) + 6 = _ by simp)
    ({ d with flt := d.flt.setType g }.move front.length (front.length + 6))
  refine ⟨n, df.move (front.length + 6) (front.length + 6 + (tlvBytes ts).length), hdf, fun fuel hfuel => ?_⟩
  rw [groupStep_of_header fuel (group_header_small g hbody), hrun fuel hfuel]
  rfl

/-- **A group with a field of the wrong length is refused.** -/
theorem groupStep_refuses {ks rest : List Tlv} {bad : Tlv} (width : Nat)
    (hts : ts = ks ++ bad :: rest) (hks : ∀ t ∈ ks, HasWidth g t) (hkeys : ∀ t ∈ ts, t.key < 256 ^ 2)
    (hwidth : slotWidth g bad.key = some (some width))
    (hbad : bad.value.length ≠ width) (hbody : 2 * (tlvBytes ts).length < 256 ^ 4) (d : Decoding)
    (hfuel : ks.length + 1 ≤ fuel) :
    groupStep (front ++ (Tlv.bytes ⟨g.type, tlvBytes ts⟩ ++ back)) fuel front.length d = .ok none := by
  have hin := inRegion_of_small hkeys hbody
  have hlength : (tlvBytes ts).length = (tlvBytes ks).length + bad.bytes.length + (tlvBytes rest).length := by
    rw [hts]
    simp
    omega
  have hrow : front ++ (Tlv.bytes ⟨g.type, tlvBytes ts⟩ ++ back) =
      (front ++ (leBytes 2 g.type ++ leBytes 4 (tlvBytes ts).length)) ++
        (tlvBytes ks ++ (bad.bytes ++ (tlvBytes rest ++ back))) := by
    rw [group_split, hts]
    simp
  -- the fields in front are read, then the bad one is met
  obtain ⟨d1, -, hrun⟩ := fields_known_run
    (fun t ht => ⟨known_of_hasWidth (hks t ht), hin t (by rw [hts]; simp [ht])⟩) hrow
    (show (front.length : Int) + 6 + 0 = _ by simp)
    (show (0 : Int) + (tlvBytes ks).length ≤ (tlvBytes ts).length by omega) ({ d with flt := d.flt.setType g }.move front.length (front.length + 6))
  obtain ⟨k, rfl⟩ : ∃ k, fuel = k + 1 + ks.length := ⟨fuel - 1 - ks.length, by omega⟩
  rw [groupStep_of_header _ (group_header_small g hbody), hrun]
  have hrow' : front ++ (Tlv.bytes ⟨g.type, tlvBytes ts⟩ ++ back) =
      (front ++ (leBytes 2 g.type ++ leBytes 4 (tlvBytes ts).length) ++ tlvBytes ks) ++
        (bad.bytes ++ (tlvBytes rest ++ back)) := by
    rw [hrow]
    simp only [append_assoc]
  obtain ⟨hinside, -, htype, -, hval⟩ := header_at hrow'
    (show (front.length : Int) + 6 + (0 + (tlvBytes ks).length) = _ by simp; omega) (hin bad (by rw [hts]; simp))
  have hroom : (0 : Int) + (tlvBytes ks).length + 6 ≤ (tlvBytes ts).length := by
    rw [hlength, Tlv.length_bytes]
    omega
  rw [fields_header hroom hinside, htype, hval, deserializeField_refused]
  · rfl
  · unfold slotWidth at hwidth
    cases hslot : fltSlots g (intOf 2 false bad.key) with
    | none => simp [hslot] at hwidth
    | some slot =>
      cases slot with
      | fixed w store =>
        simp only [hslot, Option.map_some, Option.some.injEq] at hwidth
        rw [← hwidth] at hbad
        left
        exact_mod_cast Ne.symm hbad
      | str store => simp [hslot] at hwidth

end Met

/-! ## The kinds one by one -/

variable {front back : List UInt8}

/-- What a round trip asks of the loop when something was written. -/
theorem RoundTrips.groupStep {i : TraceInfo} {bytes : List UInt8} (h : RoundTrips i front bytes back)
    (hne : bytes ≠ []) (before : TraceRecords) :
    ∃ n d', Stored (front ++ (bytes ++ back)) before { before with flt := d'.flt } i ∧ ∀ fuel, n ≤ fuel →
      groupStep (front ++ (bytes ++ back)) fuel front.length ⟨before.flt, []⟩ =
        .ok (some ((front.length + bytes.length : Nat), d')) := by
  obtain ⟨flt', hreads, hstored⟩ := h before
  rcases hreads with ⟨hpos, -⟩ | ⟨n, d', rfl, hstep⟩
  · exact absurd (eq_nil_of_length_eq_zero (by omega)) hne
  · exact ⟨n, d', hstored, hstep⟩

theorem tlv_bytes_ne_nil (t : Tlv) : t.bytes ≠ [] := by
  intro h
  have hlength := t.length_bytes
  rw [h, length_nil] at hlength
  omega

/-- Records that hold nothing. -/
def zeroRecords : TraceRecords := ⟨zeroFlt, ⟨0, 0, .null, 0, .null⟩, .null, .null⟩

/-- **A group that the loop refuses does not come back.** -/
theorem not_roundTrips_of_refused {i : TraceInfo} {t : Tlv} {m : Nat}
    (h : ∀ d fuel, m ≤ fuel → groupStep (front ++ (t.bytes ++ back)) fuel front.length d = .ok none) :
    ¬RoundTrips i front t.bytes back := by
  intro hround
  obtain ⟨n, d', -, hstep⟩ := hround.groupStep (tlv_bytes_ne_nil t) zeroRecords
  have hsome := hstep (max n m) (le_max_left n m)
  rw [h _ _ (le_max_right n m)] at hsome
  cases hsome

variable {ts : List Tlv}

variable {fields : List (Nat × FltValue)}

/-- The key and the length of a triple. -/
def shape (t : Tlv) : Nat × Nat := (t.key, t.value.length)

theorem shape_wires (h : List.Forall₂ Wire fields ts) : ts.map shape = fields.map fun f => (f.1, f.2.width) := by
  induction h with
  | nil => rfl
  | cons hwire _ ih => rw [map_cons, map_cons, ih, shape, hwire.key, hwire.length]

theorem length_tlvBytes_shape (ts : List Tlv) : (tlvBytes ts).length = ((ts.map shape).map fun k => 6 + k.2).sum := by
  induction ts with
  | nil => rfl
  | cons t ts ih =>
    rw [tlvBytes_cons, length_append, Tlv.length_bytes, ih, map_cons, map_cons, sum_cons, shape]

variable {mem' mem : List UInt8}

/-- **A written group with a field of the wrong length**, behind fields that have theirs, does not come back. -/
theorem not_roundTrips_of_field {i : TraceInfo} {pos end_ : Nat} (g : FltGroup) (ks : List (Nat × Nat)) (id n : Nat)
    (rest : List (Nat × Nat)) (width : Nat) (h : serializeGroup g.type fields mem pos = .ok (some (mem', end_)))
    (hfields : fields.map (fun f => (f.1, f.2.width)) = ks ++ (id, n) :: rest)
    (hks : ∀ k ∈ ks, slotWidth g k.1 = some (some k.2)) (hwidth : slotWidth g id = some (some width)) (hn : n ≠ width)
    (hkeys : ∀ k ∈ ks ++ (id, n) :: rest, k.1 < 256 ^ 2)
    (hsum : 2 * ((ks ++ (id, n) :: rest).map fun k => 6 + k.2).sum < 256 ^ 4) :
    ¬RoundTrips i front ((mem'.drop pos).take (end_ - pos)) back := by
  obtain ⟨ts, hwires, hbytes⟩ := serializeGroup_wire h
  rw [← hfields, ← shape_wires hwires] at hkeys hsum
  rw [← shape_wires hwires] at hfields
  rw [← length_tlvBytes_shape] at hsum
  -- the triples split as the fields do
  obtain ⟨us, vs, rfl, rfl, hvs⟩ := map_eq_append_iff.1 hfields
  obtain ⟨t, vs, rfl, ht, -⟩ := map_eq_cons_iff.1 hvs
  obtain ⟨rfl, rfl⟩ := Prod.mk.inj ht
  rw [hbytes]
  apply not_roundTrips_of_refused
  intro d fuel hfuel
  refine groupStep_refuses width rfl ?_ ?_ hwidth hn hsum d hfuel
  · intro u hu
    exact .inl (hks (shape u) (mem_map_of_mem hu))
  · intro u hu
    exact hkeys (shape u) (mem_map_of_mem hu)

/-- Query information: the first field is refused. -/
theorem not_roundTrips_query {i : QueryValues} {pos end_ : Nat}
    (h : fltSerializeExtraInfo (.query i) mem pos = .ok (some (mem', end_))) :
    ¬RoundTrips (.query i) front ((mem'.drop pos).take (end_ - pos)) back :=
  not_roundTrips_of_field .queryInfo [] 2010 7 [(2011, 7)] 8 h rfl (by decide) (by decide) (by decide) (by decide)
    (by decide)

/-- Control information: the fifth field is refused. -/
theorem not_roundTrips_control {i : ControlValues} {pos end_ : Nat}
    (h : fltSerializeExtraInfo (.control i) mem pos = .ok (some (mem', end_))) :
    ¬RoundTrips (.control i) front ((mem'.drop pos).take (end_ - pos)) back :=
  not_roundTrips_of_field .controlInfo [(2020, 1), (2021, 8), (2022, 1), (2023, 8)] 2024 7 [(2025, 7)] 8 h rfl
    (by decide) (by decide) (by decide) (by decide) (by decide)

/-- Driver spans and show-trace spans are in no record that a decode writes. -/
theorem not_roundTrips_driverSpan {text : CStr} {bytes : List UInt8} :
    ¬RoundTrips (.driverSpan text) front bytes back := by
  intro h
  obtain ⟨flt', -, ⟨off, hnull, -⟩, -⟩ := h zeroRecords
  cases hnull

theorem not_roundTrips_showTrace {text : CStr} {bytes : List UInt8} :
    ¬RoundTrips (.showTrace text) front bytes back := by
  intro h
  obtain ⟨flt', -, ⟨off, hnull, -⟩, -⟩ := h zeroRecords
  cases hnull

/-- Span information comes back when it was not written, and in no other case: no decode writes the
span record. -/
theorem roundTrips_span_iff {i : SpanValues} {pos end_ : Nat}
    (h : fltSerializeExtraInfo (.span i) mem pos = .ok (some (mem', end_))) :
    RoundTrips (.span i) front ((mem'.drop pos).take (end_ - pos)) back ↔ i.traceEnable ≠ 1 := by
  by_cases henable : i.traceEnable = 1
  · refine ⟨fun hround => ?_, fun hne => absurd henable hne⟩
    obtain ⟨flt', -, hstored⟩ := hround zeroRecords
    rw [Stored, if_pos henable] at hstored
    have hzero := hstored.1.traceEnable
    rw [henable] at hzero
    cases hzero
  refine ⟨fun _ => henable, fun _ before => ⟨before.flt, .inl ⟨?_, rfl⟩, ?_⟩⟩
  · rw [fltSerializeExtraInfo, fltSerializeSpaninfo, if_neg henable] at h
    obtain ⟨rfl, rfl⟩ := Prod.mk.inj (Option.some.inj (Except.ok.inj h))
    simp
  · rw [Stored, if_neg henable]

/-! ## Application information -/

/-- A string ends at its first zero byte. -/
theorem cstr_eq_of_append {s s' : CStr} {tail tail' : List UInt8}
    (h : s.bytes ++ 0 :: tail = s'.bytes ++ 0 :: tail') : s.bytes = s'.bytes := by
  have hfirst : ∀ (c : CStr) rest, (c.bytes ++ 0 :: rest).takeWhile (· ≠ 0) = c.bytes := by
    intro c rest
    have hne : ∀ b ∈ c.bytes, decide (b ≠ 0) = true := by
      intro b hb
      exact decide_eq_true fun hzero => c.2 (hzero ▸ hb)
    rw [takeWhile_append_of_pos hne]
    simp
  rw [← hfirst s tail, h, hfirst]

/-- **A string that starts with its own header** is that header, up to the third byte. -/
theorem eq_of_own_header {s : CStr} {a b : UInt8} {tail rest : List UInt8} (ha : a ≠ 0) (hb : b ≠ 0)
    (h : s.bytes ++ 0 :: tail = a :: b :: (leBytes 4 s.bytes.length ++ (s.bytes ++ rest))) :
    s.bytes = [a, b, 3] := by
  obtain ⟨bs, hbs⟩ := s
  change bs ++ 0 :: tail = a :: b :: (leBytes 4 bs.length ++ (bs ++ rest)) at h
  match bs, hbs, h with
  | [], _, h =>
    simp only [nil_append, List.cons.injEq] at h
    exact absurd h.1.symm ha
  | [x], _, h =>
    simp only [cons_append, nil_append, List.cons.injEq] at h
    exact absurd h.2.1.symm hb
  | [x, y], _, h =>
    simp [leBytes] at h
  | [x, y, z], _, h =>
    simp [leBytes] at h
    obtain ⟨rfl, rfl, rfl, -⟩ := h
    rfl
  | [x, y, z, w], hbs, h =>
    simp [leBytes] at h
    simp [h.2.2.2.1] at hbs
  | [x, y, z, w, v], hbs, h =>
    simp [leBytes] at h
    simp [h.2.2.2.1] at hbs
  | x :: y :: z :: w :: v :: u :: bs, hbs, h =>
    -- behind the six bytes of the header the string would have to start again
    have hrest : bs ++ 0 :: tail = (x :: y :: z :: w :: v :: u :: bs) ++ rest := by
      simp only [leBytes, cons_append, List.cons.injEq] at h
      exact h.2.2.2.2.2.2
    have hat : (bs ++ 0 :: tail)[bs.length]? = ((x :: y :: z :: w :: v :: u :: bs) ++ rest)[bs.length]? := by
      rw [hrest]
    rw [List.getElem?_append_right le_rfl, Nat.sub_self,
      List.getElem?_append_left (by simp only [length_cons]; omega)] at hat
    exact absurd (mem_of_getElem? hat.symm) hbs

/-- The fields of application information are strings. -/
theorem appinfo_str {id : Int} {slot : FieldSlot FLTAppInfo} (h : appinfoSlots id = some slot) :
    ∃ store, slot = .str store := by
  unfold appinfoSlots at h
  split_ifs at h <;> exact ⟨_, (Option.some.inj h).symm⟩

/-- What a field with the slot leaves in the records. -/
def storeSlot (slot : Option (FieldSlot FLTInfo)) (buf : Int) (value : List UInt8) (flt : FLTInfo) : FLTInfo :=
  match slot with
  | none => flt
  | some (.fixed _ store) => store value flt
  | some (.str store) => store (.inRow buf) flt

theorem storeField_eq (g : FltGroup) (buf : Int) (flt : FLTInfo) (t : Tlv) :
    storeField g buf flt t = storeSlot (fltSlots g (intOf 2 false t.key)) buf t.value flt := by
  rfl

/-- What is stored for a string depends on its id only. -/
theorem storeSlot_app (buf : Int) (flt : FLTInfo) (id : Int) (value : List UInt8) :
    storeSlot (fltSlots .appInfo id) buf value flt = storeSlot (fltSlots .appInfo id) buf [] flt := by
  cases hslot : appinfoSlots id with
  | none =>
    rw [fltSlots, hslot]
    rfl
  | some slot =>
    obtain ⟨store, rfl⟩ := appinfo_str hslot
    rw [fltSlots, hslot]
    rfl

theorem foldl_storeField_app (buf : Int) (flt : FLTInfo) (ts : List Tlv) : ts.foldl (storeField .appInfo buf) flt =
      (ts.map fun t => fltSlots .appInfo (intOf 2 false t.key)).foldl
        (fun flt slot => storeSlot slot buf [] flt) flt := by
  induction ts generalizing flt with
  | nil => rfl
  | cons t ts ih =>
    rw [foldl_cons, ih, map_cons, foldl_cons, storeField_eq, storeSlot_app]

theorem map_key_wires (h : List.Forall₂ Wire fields ts) : ts.map Tlv.key = fields.map Prod.fst := by
  have hfst := congrArg (List.map Prod.fst) (shape_wires h)
  simpa only [map_map, Function.comp_def, shape] using hfst

/-- The slots of the four strings. -/
theorem appinfo_slots : fltSlots .appInfo (intOf 2 false 2001) = some (.str fun p flt =>
      { flt with appInfo_ := { flt.appInfo_ with identifier_ := p } }) ∧
    fltSlots .appInfo (intOf 2 false 2002) = some (.str fun p flt =>
      { flt with appInfo_ := { flt.appInfo_ with module_ := p } }) ∧
    fltSlots .appInfo (intOf 2 false 2003) = some (.str fun p flt =>
      { flt with appInfo_ := { flt.appInfo_ with action_ := p } }) ∧
    fltSlots .appInfo (intOf 2 false 2004) = some (.str fun p flt =>
      { flt with appInfo_ := { flt.appInfo_ with clientInfo_ := p } }) := by
  have h1 : intOf 2 false 2001 = 2001 := by decide
  have h2 : intOf 2 false 2002 = 2002 := by decide
  have h3 : intOf 2 false 2003 = 2003 := by decide
  have h4 : intOf 2 false 2004 = 2004 := by decide
  rw [h1, h2, h3, h4]
  refine ⟨?_, ?_, ?_, ?_⟩ <;> simp [fltSlots, appinfoSlots, FieldSlot.within]

/-- The pointer of a string behind a group that starts at `buf`. -/
def pointerAfter (buf : Int) (before : CharPtr) (s : Option CStr) : CharPtr :=
  if s.isSome then .inRow buf else before

/-- **The application record behind a group**: every string that was sent points to the start of the
group. -/
theorem foldl_app (i : AppValues) (buf : Int) (flt : FLTInfo)
    (h : List.Forall₂ Wire (i.strings.map fun f => (f.1, FltValue.str f.2.bytes)) ts) :
    ts.foldl (storeField .appInfo buf) flt = { flt with appInfo_ :=
      ⟨flt.appInfo_.type_, pointerAfter buf flt.appInfo_.identifier_ i.identifier,
        pointerAfter buf flt.appInfo_.module_ i.module_, pointerAfter buf flt.appInfo_.action_ i.action,
        pointerAfter buf flt.appInfo_.clientInfo_ i.clientInfo⟩ } := by
  have hslots : (ts.map fun t => fltSlots .appInfo (intOf 2 false t.key)) =
      i.strings.map fun f => fltSlots .appInfo (intOf 2 false f.1) := by
    have hkeys := congrArg (List.map fun key : Nat => fltSlots .appInfo (intOf 2 false key)) (map_key_wires h)
    simpa only [map_map, Function.comp_def] using hkeys
  rw [foldl_storeField_app, hslots]
  obtain ⟨h1, h2, h3, h4⟩ := appinfo_slots
  obtain ⟨identifier, module_, action, clientInfo⟩ := i
  cases identifier <;> cases module_ <;> cases action <;> cases clientInfo <;>
    simp [AppValues.strings, h1, h2, h3, h4, storeSlot, pointerAfter]

variable {i : AppValues}

theorem mem_strings {f : Nat × CStr} : f ∈ i.strings ↔
    (f.1 = 2001 ∧ i.identifier = some f.2) ∨ (f.1 = 2002 ∧ i.module_ = some f.2) ∨
      (f.1 = 2003 ∧ i.action = some f.2) ∨ (f.1 = 2004 ∧ i.clientInfo = some f.2) := by
  obtain ⟨id, s⟩ := f
  simp only [AppValues.strings, mem_filterMap, mem_cons, Option.map_eq_some_iff]
  grind

theorem id_of_mem_strings {f : Nat × CStr} (hf : f ∈ i.strings) : f.1 ∈ [2001, 2002, 2003, 2004] := by
  rcases mem_strings.1 hf with h | h | h | h <;> simp [h.1]

/-- **What the application record needs**: that every string sent stands at the start of the group. -/
theorem appStored_iff {row : List UInt8} {buf : Nat} {before : FLTAppInfo} :
    AppStored row i before ⟨2001, pointerAfter buf before.identifier_ i.identifier,
        pointerAfter buf before.module_ i.module_, pointerAfter buf before.action_ i.action,
        pointerAfter buf before.clientInfo_ i.clientInfo⟩ ↔
      ∀ f ∈ i.strings, ∃ tail, row.drop buf = f.2.bytes ++ 0 :: tail := by
  have hpoints : ∀ p s, StringStored row p (pointerAfter buf p s) s ↔
      ∀ c ∈ s, ∃ tail, row.drop buf = CStr.bytes c ++ 0 :: tail := by
    intro p s
    cases s with
    | none => simp [StringStored, pointerAfter]
    | some c =>
      simp only [Option.mem_def, Option.some.injEq, forall_eq']
      constructor
      · rintro ⟨off, hoff, htail⟩
        obtain rfl : buf = off := by
          have hcast : (buf : Int) = off := CharPtr.inRow.inj hoff
          omega
        exact htail
      · intro htail
        exact ⟨buf, rfl, htail⟩
  constructor
  · rintro ⟨-, h1, h2, h3, h4⟩ f hf
    rw [hpoints] at h1 h2 h3 h4
    rcases mem_strings.1 hf with ⟨-, hs⟩ | ⟨-, hs⟩ | ⟨-, hs⟩ | ⟨-, hs⟩
    · exact h1 f.2 hs
    · exact h2 f.2 hs
    · exact h3 f.2 hs
    · exact h4 f.2 hs
  · intro h
    refine ⟨rfl, ?_, ?_, ?_, ?_⟩ <;> rw [hpoints] <;> intro c hc
    · exact h (2001, c) (mem_strings.2 (.inl ⟨rfl, hc⟩))
    · exact h (2002, c) (mem_strings.2 (.inr (.inl ⟨rfl, hc⟩)))
    · exact h (2003, c) (mem_strings.2 (.inr (.inr (.inl ⟨rfl, hc⟩))))
    · exact h (2004, c) (mem_strings.2 (.inr (.inr (.inr ⟨rfl, hc⟩))))

/-- The cursor behind a group is where its length says. -/
theorem groupStep_pos {row : List UInt8} {fuel : Nat} {pos pos1 pos' type len : Int} {d d' : Decoding}
    (hres : fltResolveTypeAndLen row 0 row.length pos = .ok (some (type, len, pos1)))
    (h : groupStep row fuel pos d = .ok (some (pos', d'))) : pos' = pos1 + len := by
  rw [groupStep, hres, ok_bind] at h
  dsimp only at h
  cases hk : knowFltInfo type with
  | none =>
    rw [hk] at h
    exact (Prod.mk.inj (Option.some.inj (Except.ok.inj h))).1.symm
  | some g =>
    rw [hk] at h
    simp only [bind_eq_ok] at h
    obtain ⟨⟨ret, df⟩, -, h⟩ := h
    cases ret with
    | obError => cases h
    | obSuccess => exact (Prod.mk.inj (Option.some.inj (Except.ok.inj h))).1.symm

/-- A group that leaves the cursor behind itself has a length that was read back. -/
theorem small_of_groupStep {value : List UInt8} {type fuel : Nat} {d d' : Decoding} (htype : type < 256 ^ 2)
    (h : groupStep (front ++ (Tlv.bytes ⟨type, value⟩ ++ back)) fuel front.length d = .ok (some ((front.length + (Tlv.bytes ⟨type, value⟩).length : Nat), d'))) :
    2 * value.length < 256 ^ 4 := by
  have hpos := groupStep_pos (group_header front back htype value) h
  have hrep := representable_intOf (w := 4) false
    (Nat.mod_lt value.length (by decide))
  generalize intOf 4 false (value.length % 256 ^ 4) = len at hpos hrep
  have hvalue : len = value.length := by
    rw [Tlv.length_bytes] at hpos
    push_cast at hpos
    omega
  rw [hvalue] at hrep
  have hbound := hrep.2
  exact_mod_cast hbound

/-- Application information is read whenever its length is, and all its pointers lead to the start of the
group. -/
theorem groupStep_app (front back : List UInt8)
    (hwires : List.Forall₂ Wire (i.strings.map fun f => (f.1, FltValue.str f.2.bytes)) ts)
    (hbody : 2 * (tlvBytes ts).length < 256 ^ 4) (flt : FLTInfo) :
    ∃ n d', d'.flt = { flt with appInfo_ :=
        ⟨2001, pointerAfter (front.length + 6 : Nat) flt.appInfo_.identifier_ i.identifier,
          pointerAfter (front.length + 6 : Nat) flt.appInfo_.module_ i.module_,
          pointerAfter (front.length + 6 : Nat) flt.appInfo_.action_ i.action,
          pointerAfter (front.length + 6 : Nat) flt.appInfo_.clientInfo_ i.clientInfo⟩ } ∧
      ∀ fuel, n ≤ fuel →
        groupStep (front ++ (Tlv.bytes ⟨2001, tlvBytes ts⟩ ++ back)) fuel front.length ⟨flt, []⟩ =
          .ok (some ((front.length + (Tlv.bytes ⟨2001, tlvBytes ts⟩).length : Nat), d')) := by
  have hkey : ∀ t ∈ ts, t.key ∈ [2001, 2002, 2003, 2004] := by
    intro t ht
    have hmem : t.key ∈ ts.map Tlv.key := mem_map_of_mem ht
    rw [map_key_wires hwires, map_map] at hmem
    obtain ⟨f, hf, hfkey⟩ := mem_map.1 hmem
    rw [← hfkey]
    exact id_of_mem_strings hf
  have hwidth : ∀ t ∈ ts, HasWidth .appInfo t := by
    intro t ht
    exact .inr ((show ∀ k ∈ [2001, 2002, 2003, 2004], slotWidth .appInfo k = some none by decide) _ (hkey t ht))
  have hkeys : ∀ t ∈ ts, t.key < 256 ^ 2 := by
    intro t ht
    exact (show ∀ k ∈ [2001, 2002, 2003, 2004], k < 256 ^ 2 by decide) _ (hkey t ht)
  obtain ⟨n, d', hflt, hstep⟩ := groupStep_reads front back hwidth hkeys hbody ⟨flt, []⟩
  refine ⟨n, d', ?_, fun fuel hfuel => ?_⟩
  · rw [hflt, foldl_app i _ _ hwires]
    rfl
  · have hnext : front.length + 6 + (tlvBytes ts).length =
        (front.length + (Tlv.bytes ⟨2001, tlvBytes ts⟩).length : Nat) := by
      rw [Tlv.length_bytes]
      push_cast
      omega
    rw [← hnext]
    exact hstep fuel hfuel

/-- The group's bytes behind its header. -/
theorem drop_group (front back : List UInt8) (type : Nat) (value : List UInt8) :
    (front ++ (Tlv.bytes ⟨type, value⟩ ++ back)).drop (front.length + 6) = value ++ back := by
  rw [group_split]
  exact drop_left' (by simp)

/-- A string's field holds the string. -/
theorem wire_str {id : Nat} {bs : List UInt8} {t : Tlv} (h : Wire (id, .str bs) t) : t = ⟨id, bs⟩ := by
  obtain ⟨left, hleft⟩ := h.content
  have hlength : t.value.length = bs.length := h.length
  have hvalue : t.value = bs := by
    have hsplit : t.value = bs ++ left := hleft
    rw [hsplit, length_append] at hlength
    rw [hsplit, eq_nil_of_length_eq_zero (show left.length = 0 by omega), append_nil]
  obtain ⟨key, value⟩ := t
  rw [show key = id from h.key, show value = bs from hvalue]

/-- The first string's header starts the group. -/
theorem tlvBytes_first {f : Nat × CStr} {fs : List (Nat × CStr)} (hstrings : i.strings = f :: fs)
    (hwires : List.Forall₂ Wire (i.strings.map fun f => (f.1, FltValue.str f.2.bytes)) ts) :
    ∃ rest, tlvBytes ts = UInt8.ofNat f.1 :: 7 :: (leBytes 4 f.2.bytes.length ++ (f.2.bytes ++ rest)) := by
  rw [hstrings] at hwires
  obtain ⟨t1, ts1, hw1, -, rfl⟩ := List.forall₂_cons_left_iff.1 hwires
  obtain rfl := wire_str hw1
  have hseven : leBytes 2 f.1 = [UInt8.ofNat f.1, 7] := by
    have hf : f ∈ i.strings := by rw [hstrings]; exact mem_cons_self
    exact (show ∀ k ∈ [2001, 2002, 2003, 2004], leBytes 2 k = [UInt8.ofNat k, 7] by decide) _ (id_of_mem_strings hf)
  rw [tlvBytes_cons, Tlv.bytes, hseven]
  simp

/-- Strings that come back are short. -/
theorem length_echoes (h : i.Echoes)
    (hwires : List.Forall₂ Wire (i.strings.map fun f => (f.1, FltValue.str f.2.bytes)) ts) :
    (tlvBytes ts).length ≤ 36 := by
  have hcount : i.strings.length ≤ 4 := length_filterMap_le _ _
  have hnine : ∀ n ∈ (ts.map shape).map fun k => 6 + k.2, n ≤ 9 := by
    rw [shape_wires hwires]
    intro n hn
    simp only [map_map, mem_map, Function.comp_apply] at hn
    obtain ⟨g, hg, rfl⟩ := hn
    obtain ⟨f, fs, hstrings⟩ := exists_cons_of_ne_nil (ne_nil_of_mem hg)
    have hecho := h f (by rw [hstrings]; rfl) g hg
    rw [hecho]
    exact le_refl 9
  have hsum := sum_le_card_nsmul _ 9 hnine
  rw [← length_tlvBytes_shape, shape_wires hwires, length_map, length_map, length_map] at hsum
  exact hsum.trans (Nat.mul_le_mul_right 9 hcount)

/-- **Application information comes back when its strings are what its group starts with**, and in no
other case. -/
theorem roundTrips_app_iff {pos end_ : Nat} (h : fltSerializeExtraInfo (.app i) mem pos = .ok (some (mem', end_))) :
    RoundTrips (.app i) front ((mem'.drop pos).take (end_ - pos)) back ↔ i.Echoes := by
  obtain ⟨ts, hwires, hbytes⟩ := serializeGroup_wire h
  rw [hbytes]
  constructor
  · intro hround
    -- the length of the group is read back, so the group is read and its strings are pointed to
    obtain ⟨n1, d1, hstored, hstep1⟩ := hround.groupStep (tlv_bytes_ne_nil _) zeroRecords
    have hbody := small_of_groupStep (by decide) (hstep1 n1 le_rfl)
    obtain ⟨n2, d2, hflt, hstep2⟩ := groupStep_app front back hwires hbody zeroFlt
    have hsame : d1 = d2 := by
      have hboth := (hstep1 (max n1 n2) (le_max_left _ _)).symm.trans (hstep2 (max n1 n2) (le_max_right _ _))
      exact (Prod.mk.inj (Option.some.inj (Except.ok.inj hboth))).2
    rw [hsame, hflt] at hstored
    have hpoints := appStored_iff.1 hstored.1
    rw [drop_group] at hpoints
    intro f hf g hg
    obtain ⟨fs, hstrings⟩ : ∃ fs, i.strings = f :: fs := List.head?_eq_some_iff.1 hf
    obtain ⟨rest, hfirst⟩ := tlvBytes_first hstrings hwires
    obtain ⟨tail, htail⟩ := hpoints f (by rw [hstrings]; exact mem_cons_self)
    obtain ⟨tail', htail'⟩ := hpoints g hg
    have hid : UInt8.ofNat f.1 ≠ 0 := by
      have hfmem : f ∈ i.strings := by rw [hstrings]; exact mem_cons_self
      exact (show ∀ k ∈ [2001, 2002, 2003, 2004], UInt8.ofNat k ≠ 0 by decide) _ (id_of_mem_strings hfmem)
    have hheader : f.2.bytes ++ 0 :: tail =
        UInt8.ofNat f.1 :: 7 :: (leBytes 4 f.2.bytes.length ++ (f.2.bytes ++ (rest ++ back))) := by
      rw [← htail, hfirst]
      simp
    have hown := eq_of_own_header hid (by decide) hheader
    rw [cstr_eq_of_append (htail'.symm.trans htail), hown]
  · intro hechoes before
    have hbody : 2 * (tlvBytes ts).length < 256 ^ 4 := by
      have hle := length_echoes hechoes hwires
      omega
    obtain ⟨n, d', hflt, hstep⟩ := groupStep_app front back hwires hbody before.flt
    refine ⟨d'.flt, .inr ⟨n, d', rfl, hstep⟩, ?_⟩
    rw [hflt]
    refine ⟨appStored_iff.2 ?_, rfl⟩
    rw [drop_group]
    intro g hg
    obtain ⟨f, fs, hstrings⟩ : ∃ f fs, i.strings = f :: fs := exists_cons_of_ne_nil (ne_nil_of_mem hg)
    obtain ⟨rest, hfirst⟩ := tlvBytes_first hstrings hwires
    have hhead : f ∈ i.strings.head? := by rw [hstrings]; rfl
    rw [hfirst, hechoes f hhead f (by rw [hstrings]; exact mem_cons_self), hechoes f hhead g hg]
    simp [leBytes]

/-! ## All kinds -/

/-- **The information that comes back.** Whatever buffer it was written into and wherever the group
stands in the region. -/
theorem roundTrips_iff (i : TraceInfo) (front back mem mem' : List UInt8) (pos end_ : Nat)
    (h : fltSerializeExtraInfo i mem pos = .ok (some (mem', end_))) :
    RoundTrips i front ((mem'.drop pos).take (end_ - pos)) back ↔ Survives i := by
  cases i with
  | control i => exact iff_of_false (not_roundTrips_control h) id
  | app i => exact roundTrips_app_iff h
  | query i => exact iff_of_false (not_roundTrips_query h) id
  | span i => exact roundTrips_span_iff h
  | driverSpan text => exact iff_of_false not_roundTrips_driverSpan id
  | showTrace text => exact iff_of_false not_roundTrips_showTrace id

/-- A module name that is what its group starts with. -/
def echoedModule : AppValues := ⟨none, some ⟨[210, 7, 3], by decide⟩, none, none⟩

theorem echoedModule_roundTrips : fltSerializeExtraInfo (.app echoedModule) (List.replicate 16 0) 1 =
      .ok (some ([0, 209, 7, 9, 0, 0, 0, 210, 7, 3, 0, 0, 0, 210, 7, 3], 16)) ∧
    RoundTrips (.app echoedModule) [] [209, 7, 9, 0, 0, 0, 210, 7, 3, 0, 0, 0, 210, 7, 3] [1, 2] := by
  have hwritten : fltSerializeExtraInfo (.app echoedModule) (List.replicate 16 0) 1 =
      .ok (some ([0, 209, 7, 9, 0, 0, 0, 210, 7, 3, 0, 0, 0, 210, 7, 3], 16)) := by decide +kernel
  refine ⟨hwritten, (roundTrips_iff (.app echoedModule) [] [1, 2] _ _ _ _ hwritten).2 ?_⟩
  intro f hf g hg
  obtain rfl := mem_singleton.1 hg
  obtain rfl := Option.some.inj hf
  rfl

/-- The times of a query are not read back: their fields are announced with seven bytes. -/
theorem query_not_read_back : fltSerializeExtraInfo (.query ⟨1, 2⟩) (List.replicate 32 0) 0 =
      .ok (some ([210, 7, 26, 0, 0, 0, 218, 7, 7, 0, 0, 0, 0, 0, 0, 0, 0, 0, 0, 219, 7, 7, 0, 0, 0, 0, 0,
        0, 0, 0, 0, 0], 32)) ∧
    ¬RoundTrips (.query ⟨1, 2⟩) [] [210, 7, 26, 0, 0, 0, 218, 7, 7, 0, 0, 0, 0, 0, 0, 0, 0, 0, 0, 219, 7,
      7, 0, 0, 0, 0, 0, 0, 0, 0, 0, 0] [] := by
  have hwritten : fltSerializeExtraInfo (.query ⟨1, 2⟩) (List.replicate 32 0) 0 =
      .ok (some ([210, 7, 26, 0, 0, 0, 218, 7, 7, 0, 0, 0, 0, 0, 0, 0, 0, 0, 0, 219, 7, 7, 0, 0, 0, 0, 0,
        0, 0, 0, 0, 0], 32)) := by decide +kernel
  exact ⟨hwritten, not_roundTrips_query hwritten⟩

end ObConnector.Protocol20
