/-
# ObConnector.Protocol20.ForwardCompat -- unknown keys inside an extra info.

A newer server may send items, groups or fields this driver does not know, and the decoder is meant
to skip them. This module compares two decodes: of an extra info made of `FULL_TRC` items, and of
the same with one unknown key / length / value triple inserted at one of the three levels
(`Insertion`). Unchanged means: the same return code, and the same records, where a pointer into the
region is followed to where the insertion moved its target (`FLTInfo.relocate`).

The decoder skips as meant where `Insertion.Resumes` holds: before the `FULL_TRC` item when the key
has a place in the function table, anywhere among the groups, and behind the last field of a group.
Elsewhere it does not: the field decoders add the cursor to itself (`*pos += *pos + v_len`), the
group loop runs to the end of the whole extra info instead of the end of its item, and a key past the
table is looked up in it.
-/
import ObConnector.Protocol20.Region

namespace ObConnector.Protocol20

open Lib List

/-! ## Following pointers through an insertion -/

/-- Where an address of the region goes when `m` bytes are inserted at offset `a`. -/
def CharPtr.relocate (a m : Int) : CharPtr → CharPtr
  | .inRow off => .inRow (if off ≤ a then off else off + m)
  | p => p

/-- A word that holds a pointer moves with it. -/
def Word64.relocate (a m : Int) : Word64 → Word64
  | .ptr p => .ptr (p.relocate a m)
  | w => w

/-- The records, with their pointers followed. -/
def FLTInfo.relocate (a m : Int) (i : FLTInfo) : FLTInfo where
  controlInfo_ := { i.controlInfo_ with
    samplePct_ := i.controlInfo_.samplePct_.relocate a m
    printSamplePct_ := i.controlInfo_.printSamplePct_.relocate a m }
  appInfo_ := { i.appInfo_ with
    identifier_ := i.appInfo_.identifier_.relocate a m
    module_ := i.appInfo_.module_.relocate a m
    action_ := i.appInfo_.action_.relocate a m
    clientInfo_ := i.appInfo_.clientInfo_.relocate a m }
  queryInfo_ := i.queryInfo_

/-- No pointer of the records points into the region: they are from before the region arrived. -/
def FLTInfo.Outside (i : FLTInfo) : Prop := ∀ a m, i.relocate a m = i

section Relocate

variable {a m : Int} {g : FltGroup}

/-- Storing through a slot and following pointers commute; the pointer stored is followed too. -/
def FieldSlot.Moves (a m : Int) : FieldSlot FLTInfo → Prop
  | .fixed _ store => ∀ bytes i, (store bytes i).relocate a m = store bytes (i.relocate a m)
  | .str store => ∀ p i, (store p i).relocate a m = store (p.relocate a m) (i.relocate a m)

-- the converted value is a variable here, so that no proof looks into the conversion
theorem moves_int1 {α : Type} {update : (α → α) → FLTInfo → FLTInfo} {store : Int → α → α}
    (h : ∀ v i, (update (store v) i).relocate a m = update (store v) (i.relocate a m)) :
    ((FieldSlot.int1 store).within update).Moves a m := fun _ i => h _ i

theorem moves_int8 {α : Type} {update : (α → α) → FLTInfo → FLTInfo} {store : Int → α → α}
    (h : ∀ v i, (update (store v) i).relocate a m = update (store v) (i.relocate a m)) :
    ((FieldSlot.int8 store).within update).Moves a m := fun _ i => h _ i

theorem moves_double {α : Type} {update : (α → α) → FLTInfo → FLTInfo} {store : Nat → α → α}
    (h : ∀ v i, (update (store v) i).relocate a m = update (store v) (i.relocate a m)) :
    ((FieldSlot.double store).within update).Moves a m := fun _ i => h _ i

/-- Every slot of the four field decoders moves its pointers. -/
theorem fltSlots_moves {id : Int} {slot : FieldSlot FLTInfo} (h : fltSlots g id = some slot) : slot.Moves a m := by
  cases g with
  | controlInfo =>
    obtain ⟨s, hs, rfl⟩ := Option.map_eq_some_iff.1 h
    unfold controlinfoSlots at hs
    repeat' split at hs
    all_goals cases hs
    · exact moves_int1 fun _ _ => rfl
    · exact moves_double fun _ _ => rfl
    · exact moves_int1 fun _ _ => rfl
    · exact moves_double fun _ _ => rfl
    · exact moves_int8 fun _ _ => rfl
    · exact moves_int1 fun _ _ => rfl
  | appInfo =>
    obtain ⟨s, hs, rfl⟩ := Option.map_eq_some_iff.1 h
    unfold appinfoSlots at hs
    repeat' split at hs
    all_goals cases hs
    all_goals exact fun _ _ => rfl
  | queryInfo =>
    obtain ⟨s, hs, rfl⟩ := Option.map_eq_some_iff.1 h
    unfold queryinfoSlots at hs
    repeat' split at hs
    all_goals cases hs
    all_goals exact moves_int8 fun _ _ => rfl
  | spanInfo =>
    obtain ⟨s, hs, rfl⟩ := Option.map_eq_some_iff.1 h
    unfold spaninfoSlots at hs
    repeat' split at hs
    all_goals cases hs
    · exact moves_int1 fun _ _ => rfl
    · exact moves_int1 fun _ _ => rfl
    · exact fun _ _ => rfl
    · exact moves_int1 fun _ _ => rfl
    · exact fun _ _ => rfl

theorem relocate_setType (i : FLTInfo) : (i.setType g).relocate a m = (i.relocate a m).setType g := by
  cases g <;> rfl

/-- Storing a field and following pointers commute, the group's start being followed too. -/
theorem relocate_storeField (buf : Int) (flt : FLTInfo) (f : Tlv) : (storeField g buf flt f).relocate a m =
      storeField g (if buf ≤ a then buf else buf + m) (flt.relocate a m) f := by
  unfold storeField
  split
  · rfl
  · rename_i hs
    exact fltSlots_moves hs _ _
  · rename_i hs
    exact fltSlots_moves hs _ _

theorem relocate_storeFields (buf : Int) (flt : FLTInfo) (fs : List Tlv) :
    (fs.foldl (storeField g buf) flt).relocate a m =
      fs.foldl (storeField g (if buf ≤ a then buf else buf + m)) (flt.relocate a m) := by
  induction fs generalizing flt with
  | nil => rfl
  | cons f fs ih => rw [foldl_cons, foldl_cons, ih, relocate_storeField]

theorem relocate_storePart (off : Int) (flt : FLTInfo) (p : Part) : (storePart off flt p).relocate a m =
      storePart (if off + 6 ≤ a then off else off + m) (flt.relocate a m) p := by
  cases p with
  | unknown t => rfl
  | known g fields =>
    rw [storePart, relocate_storeFields, relocate_setType]
    congr 3
    split <;> omega

/-- Parts in front of the insertion stay where they are. -/
theorem relocate_storeParts_before (off : Int) (flt : FLTInfo) (ps : List Part)
    (h : off + (partsBytes ps).length ≤ a) :
    (storeParts off flt ps).relocate a m = storeParts off (flt.relocate a m) ps := by
  induction ps generalizing off flt with
  | nil => rfl
  | cons p ps ih =>
    rw [partsBytes_cons, length_append, Tlv.length_bytes] at h
    rw [storeParts, storeParts, ih _ _ (by rw [Tlv.length_bytes]; push_cast; omega),
      relocate_storePart, if_pos (by omega)]

/-- Parts behind the insertion move by its length. -/
theorem relocate_storeParts_after (off : Int) (flt : FLTInfo) (ps : List Part) (h : a ≤ off) :
    (storeParts off flt ps).relocate a m = storeParts (off + m) (flt.relocate a m) ps := by
  induction ps generalizing off flt with
  | nil => rfl
  | cons p ps ih =>
    rw [storeParts, storeParts, ih _ _ (by omega), relocate_storePart, if_neg (by omega)]
    congr 1
    omega

end Relocate

/-! ## Insertions -/

/-- The groups of a `FULL_TRC` item, each with its fields. -/
abbrev Item := List (FltGroup × List Tlv)

/-- The item's groups as parts. -/
def itemParts (it : Item) : List Part := it.map fun g => .known g.1 g.2

/-- The wire triple of the item. -/
def itemTlv (it : Item) : Tlv := ⟨fullTrc, partsBytes (itemParts it)⟩

/-- One triple `u` put between what stands before and after it: among the items, among the groups of
an item, or among the fields of a group. -/
inductive Insertion where
  | item (before after : List Item) (u : Tlv)
  | group (before after : List Item) (groupsBefore groupsAfter : Item) (u : Tlv)
  | field (before after : List Item) (groupsBefore groupsAfter : Item) (g : FltGroup)
      (fieldsBefore fieldsAfter : List Tlv) (u : Tlv)

namespace Insertion

/-- The items without the inserted triple. -/
def base : Insertion → List Item
  | .item before after _ => before ++ after
  | .group before after gb ga _ => before ++ (gb ++ ga) :: after
  | .field before after gb ga g fb fa _ => before ++ (gb ++ (g, fb ++ fa) :: ga) :: after

/-- The region without the inserted triple. -/
def baseBytes (ins : Insertion) : List UInt8 := tlvBytes (ins.base.map itemTlv)

/-- The region with it. -/
def newBytes : Insertion → List UInt8
  | .item before after u => tlvBytes (before.map itemTlv ++ u :: after.map itemTlv)
  | .group before after gb ga u =>
    tlvBytes (before.map itemTlv ++
      ⟨fullTrc, partsBytes (itemParts gb ++ .unknown u :: itemParts ga)⟩ :: after.map itemTlv)
  | .field before after gb ga g fb fa u =>
    tlvBytes (before.map itemTlv ++
      ⟨fullTrc, partsBytes (itemParts gb ++ .known g (fb ++ u :: fa) :: itemParts ga)⟩ ::
        after.map itemTlv)

/-- The inserted triple. -/
def tlv : Insertion → Tlv
  | .item _ _ u => u
  | .group _ _ _ _ u => u
  | .field _ _ _ _ _ _ _ u => u

/-- The offset at which it is inserted. -/
def offset : Insertion → Int
  | .item before _ _ => (tlvBytes (before.map itemTlv)).length
  | .group before _ gb _ _ =>
    (tlvBytes (before.map itemTlv)).length + 6 + (partsBytes (itemParts gb)).length
  | .field before _ gb _ _ fb _ _ =>
    (tlvBytes (before.map itemTlv)).length + 6 + (partsBytes (itemParts gb)).length + 6 +
      (tlvBytes fb).length

/-- The key of the inserted triple is unknown where it stands. -/
def Unknown : Insertion → Prop
  | .item _ _ u => u.key ≠ fullTrc
  | .group _ _ _ _ u => knowFltInfo (intOf 2 false u.key) = none
  | .field _ _ _ _ g _ _ u => UnknownField g u

/-- The items carry known fields only, the inserted triple is unknown, its key has two bytes, and
the result fits a frame. -/
structure Valid (ins : Insertion) : Prop where
  known : ∀ it ∈ ins.base, ∀ g ∈ it, ∀ f ∈ g.2, KnownField g.1 f ∧ f.key < 256 ^ 2
  unknown : ins.Unknown
  key : ins.tlv.key < 256 ^ 2
  length : ins.newBytes.length < 2 ^ 24

/-- The insertions the decoder gets over: there is one `FULL_TRC` item at most, and the triple is an
item in front of it whose key has a place in the table, any group, or the last field of its group. -/
def Resumes : Insertion → Prop
  | .item before after u => before = [] ∧ after.length ≤ 1 ∧ u.key ≤ ob20SvrEnd
  | .group before after _ _ _ => before = [] ∧ after = []
  | .field before after _ _ _ _ fa _ => before = [] ∧ after = [] ∧ fa = []

/-- Both decodes end, with one return code and the same records. -/
def Unchanged (ins : Insertion) (flt : FLTInfo) : Prop :=
  ∃ fuel ret d d', decodeProtocol20ExtraInfo fuel ins.baseBytes flt = .ok (ret, d) ∧
    decodeProtocol20ExtraInfo fuel ins.newBytes flt = .ok (ret, d') ∧
    d'.flt = d.flt.relocate ins.offset ins.tlv.bytes.length

variable {flt : FLTInfo}

/-- Two regions that the decoder gets over and that leave the same records make an insertion
unchanged. -/
theorem unchanged_of_regions {ins : Insertion} (rb rn : Region) (hb : rb.Resumes) (hn : rn.Resumes)
    (hbase : rb.bytes = ins.baseBytes) (hnew : rn.bytes = ins.newBytes)
    (hstore : rn.store flt = (rb.store flt).relocate ins.offset ins.tlv.bytes.length) : ins.Unchanged flt := by
  obtain ⟨n1, d1, hd1, hrun1⟩ := decode_region hb flt
  obtain ⟨n2, d2, hd2, hrun2⟩ := decode_region hn flt
  refine ⟨max n1 n2, .obSuccess, d1, d2, ?_, ?_, ?_⟩
  · rw [← hbase]
    exact hrun1 _ (le_max_left _ _)
  · rw [← hnew]
    exact hrun2 _ (le_max_right _ _)
  · rw [hd1, hd2, hstore]

/-! ## Where the decoder gets over the insertion -/

/-- A triple that is short enough for a frame is one the loops read back. -/
theorem inRegion_of_mem {t : Tlv} {ts : List Tlv} (h : t ∈ ts) (hkey : t.key < 256 ^ 2)
    (hlen : (tlvBytes ts).length < 2 ^ 24) : Tlv.InRegion t := by
  have := length_le_tlvBytes h
  exact ⟨hkey, by omega⟩

/-- A group of known fields is got over. -/
theorem resumes_known {g : FltGroup} {fields : List Tlv} (hk : ∀ f ∈ fields, KnownField g f ∧ f.key < 256 ^ 2)
    (hlen : (tlvBytes fields).length < 2 ^ 24) :
    (Part.known g fields).Resumes ∧ (Part.known g fields).tlv.key < 256 ^ 2 := by
  exact ⟨⟨fun f hf => inRegion_of_mem hf (hk f hf).2 hlen, .inl fun f hf => (hk f hf).1⟩, g.type_lt⟩

/-- A group of known fields and an unknown one behind them is got over. -/
theorem resumes_known_unknown {g : FltGroup} {fields : List Tlv} {u : Tlv}
    (hk : ∀ f ∈ fields, KnownField g f ∧ f.key < 256 ^ 2) (hu : UnknownField g u)
    (hkey : u.key < 256 ^ 2) (hlen : (tlvBytes (fields ++ [u])).length < 2 ^ 24) :
    (Part.known g (fields ++ [u])).Resumes ∧ (Part.known g (fields ++ [u])).tlv.key < 256 ^ 2 := by
  refine ⟨⟨fun f hf => inRegion_of_mem hf ?_ hlen, .inr ⟨fields, u, rfl, fun f hf => (hk f hf).1, hu⟩⟩, g.type_lt⟩
  rcases mem_append.1 hf with hf | hf
  · exact (hk f hf).2
  rw [mem_singleton.1 hf]
  exact hkey

/-- The groups of an item are got over. -/
theorem resumes_itemParts (it : Item) (hk : ∀ g ∈ it, ∀ f ∈ g.2, KnownField g.1 f ∧ f.key < 256 ^ 2)
    (hlen : (partsBytes (itemParts it)).length < 2 ^ 24) :
    ∀ p ∈ itemParts it, p.Resumes ∧ p.tlv.key < 256 ^ 2 := by
  intro p hp
  have hmem := length_le_tlvBytes (mem_map_of_mem (f := Part.tlv) hp)
  obtain ⟨g, hg, rfl⟩ := mem_map.1 hp
  refine resumes_known (hk g hg) ?_
  unfold partsBytes at hlen
  simp only [Part.tlv] at hmem
  omega

/-- A region whose only item is the given one, behind the skipped triples. -/
theorem resumes_region {skipped : List Tlv} {ps : List Part}
    (hs : ∀ t ∈ skipped, t.key ≠ fullTrc ∧ t.key ≤ ob20SvrEnd)
    (hps : ∀ p ∈ ps, p.Resumes ∧ p.tlv.key < 256 ^ 2)
    (hlen : (Region.bytes ⟨skipped, some ps⟩).length < 2 ^ 24) :
    Region.Resumes ⟨skipped, some ps⟩ :=
  ⟨hs, fun _ h => Option.some.inj h ▸ hps, hlen⟩

theorem unchanged_item {after : List Item} {u : Tlv} (hv : (Insertion.item [] after u).Valid)
    (hafter : after.length ≤ 1) (hu : u.key ≤ ob20SvrEnd) (hf : flt.Outside) :
    (Insertion.item [] after u).Unchanged flt := by
  have hlen := hv.length
  have hskip : ∀ t ∈ [u], t.key ≠ fullTrc ∧ t.key ≤ ob20SvrEnd := by
    intro t ht
    rw [mem_singleton.1 ht]
    exact ⟨hv.unknown, hu⟩
  match after, hafter with
  | [], _ =>
    refine unchanged_of_regions ⟨[], none⟩ ⟨[u], none⟩ ⟨by simp, by simp, ?_⟩
      ⟨hskip, by simp, ?_⟩ ?_ ?_ (hf _ _).symm
    · simp [Region.bytes]
    · simpa [newBytes, Region.bytes] using hlen
    · simp [Region.bytes, baseBytes, base]
    · simp [Region.bytes, newBytes]
  | [it], _ =>
    have hsize : (Insertion.item [] [it] u).newBytes.length =
        6 + u.value.length + (6 + (partsBytes (itemParts it)).length) := by
      simp [newBytes, itemTlv]
    have hps := resumes_itemParts it (hv.known it (by simp [base])) (by omega)
    refine unchanged_of_regions ⟨[], some (itemParts it)⟩ ⟨[u], some (itemParts it)⟩
      (resumes_region (by simp) hps ?_)
      (resumes_region hskip hps ?_) ?_ ?_ ?_
    · simp only [Region.bytes, tlvBytes_nil, nil_append, Tlv.length_bytes]
      omega
    · simpa [newBytes, Region.bytes, itemTlv] using hlen
    · simp [Region.bytes, baseBytes, base, itemTlv]
    · simp [Region.bytes, newBytes, itemTlv]
    · -- every group stands behind the insertion
      simp only [Region.store, offset, tlv]
      rw [relocate_storeParts_after _ _ _ (by simp), hf]
      congr 1
      simp
      omega

theorem unchanged_group {gb ga : Item} {u : Tlv} (hv : (Insertion.group [] [] gb ga u).Valid) (hf : flt.Outside) :
    (Insertion.group [] [] gb ga u).Unchanged flt := by
  have hlen := hv.length
  have hk := hv.known (gb ++ ga) (by simp [base])
  have hsize : (Insertion.group [] [] gb ga u).newBytes.length =
      6 + ((partsBytes (itemParts gb)).length +
        (6 + u.value.length + (partsBytes (itemParts ga)).length)) := by
    simp [newBytes, Part.tlv]
  have hgb := resumes_itemParts gb (fun g hg => hk g (by simp [hg])) (by omega)
  have hga := resumes_itemParts ga (fun g hg => hk g (by simp [hg])) (by omega)
  refine unchanged_of_regions ⟨[], some (itemParts gb ++ itemParts ga)⟩
    ⟨[], some (itemParts gb ++ .unknown u :: itemParts ga)⟩
    (resumes_region (by simp) ?_ ?_) (resumes_region (by simp) ?_ ?_) ?_ ?_ ?_
  · exact forall_mem_append.2 ⟨hgb, hga⟩
  · simp [Region.bytes]
    omega
  · exact forall_mem_append.2 ⟨hgb, forall_mem_cons.2 ⟨⟨hv.unknown, hv.key⟩, hga⟩⟩
  · simp [Region.bytes, Part.tlv]
    omega
  · simp [Region.bytes, baseBytes, base, itemTlv, itemParts]
  · simp [Region.bytes, newBytes]
  · -- the groups before stay, those after move
    simp only [Region.store, offset]
    rw [storeParts_append, storeParts_append, relocate_storeParts_after _ _ _ (by simp),
      relocate_storeParts_before _ _ _ (by simp), hf]
    rfl

theorem unchanged_field {gb ga : Item} {g : FltGroup} {fb : List Tlv} {u : Tlv}
    (hv : (Insertion.field [] [] gb ga g fb [] u).Valid) (hf : flt.Outside) :
    (Insertion.field [] [] gb ga g fb [] u).Unchanged flt := by
  have hlen := hv.length
  have hk := hv.known (gb ++ (g, fb ++ []) :: ga) (by simp [base])
  have hsize : (Insertion.field [] [] gb ga g fb [] u).newBytes.length =
      6 + ((partsBytes (itemParts gb)).length +
        (6 + ((tlvBytes fb).length + (6 + u.value.length)) +
          (partsBytes (itemParts ga)).length)) := by
    simp [newBytes, Part.tlv]
  have hgb := resumes_itemParts gb (fun g hg => hk g (by simp [hg])) (by omega)
  have hga := resumes_itemParts ga (fun g hg => hk g (by simp [hg])) (by omega)
  have hfb : ∀ f ∈ fb, KnownField g f ∧ f.key < 256 ^ 2 := fun f hf =>
    hk (g, fb ++ []) (by simp) f (by simpa using hf)
  refine unchanged_of_regions ⟨[], some (itemParts gb ++ .known g fb :: itemParts ga)⟩
    ⟨[], some (itemParts gb ++ .known g (fb ++ [u]) :: itemParts ga)⟩
    (resumes_region (by simp) ?_ ?_) (resumes_region (by simp) ?_ ?_) ?_ ?_ ?_
  · exact forall_mem_append.2 ⟨hgb, forall_mem_cons.2 ⟨resumes_known hfb (by omega), hga⟩⟩
  · simp [Region.bytes, Part.tlv]
    omega
  · exact forall_mem_append.2
      ⟨hgb, forall_mem_cons.2 ⟨resumes_known_unknown hfb hv.unknown hv.key (by simp; omega), hga⟩⟩
  · simp [Region.bytes, Part.tlv]
    omega
  · simp [Region.bytes, baseBytes, base, itemTlv, itemParts]
  · simp [Region.bytes, newBytes]
  · -- the group itself starts before the insertion and stays; those after it move
    have hskip : ∀ buf flt, storeField g buf flt u = flt := by
      intro buf flt
      have := hv.unknown
      unfold Unknown UnknownField at this
      simp only [storeField, this]
    simp only [Region.store, offset, tlv, map_nil]
    rw [storeParts_append, storeParts_append, storeParts, storeParts,
      relocate_storeParts_after _ _ _ (by simp [Part.tlv]; omega), relocate_storePart,
      relocate_storeParts_before _ _ _ (by simp; omega), hf, if_pos (by omega), storePart,
      foldl_append, foldl_cons, hskip]
    congr 1
    simp [Part.tlv]
    omega

/-- **Forward compatibility.** An unknown triple that is inserted where the decoder gets over it
leaves the return code and every record unchanged. -/
theorem unchanged_of_resumes (ins : Insertion) (hv : ins.Valid) (hr : ins.Resumes) (flt : FLTInfo)
    (hf : flt.Outside) : ins.Unchanged flt := by
  cases ins with
  | item before after u =>
    obtain ⟨rfl, hafter, hu⟩ := hr
    exact unchanged_item hv hafter hu hf
  | group before after gb ga u =>
    obtain ⟨rfl, rfl⟩ := hr
    exact unchanged_group hv hf
  | field before after gb ga g fb fa u =>
    obtain ⟨rfl, rfl, rfl⟩ := hr
    exact unchanged_field hv hf

/-- A return code found with some fuel is the return code. -/
theorem ret_of_map {row : List UInt8} {fuel fuel' : Nat} {ret ret' : Ret} {d : Decoding}
    (h : decodeProtocol20ExtraInfo fuel row flt = .ok (ret, d))
    (h' : (decodeProtocol20ExtraInfo fuel' row flt).map Prod.fst = .ok ret') : ret = ret' := by
  cases hrun : decodeProtocol20ExtraInfo fuel' row flt with
  | error f =>
    rw [hrun] at h'
    cases h'
  | ok out =>
    rw [hrun] at h'
    rw [← Except.ok.inj h', ← decode_unique h hrun]

/-- An unknown group in front of a control group with its level. -/
theorem unchanged_unknown_group :
    (Insertion.group [] [] [] [(.controlInfo, [⟨2020, [1]⟩])] ⟨7, [9]⟩).Unchanged zeroFlt := by
  refine unchanged_of_resumes _ ⟨?_, ?_, ?_, ?_⟩ ?_ zeroFlt fun _ _ => rfl
  · intro it hit g hg f hf
    simp only [base, nil_append, mem_singleton] at hit
    subst hit
    rw [mem_singleton.1 hg] at hf ⊢
    rw [mem_singleton.1 hf]
    exact ⟨by decide, by decide⟩
  · show knowFltInfo (intOf 2 false 7) = none
    decide
  · decide
  · decide
  · exact ⟨rfl, rfl⟩

/-- An unknown field of no bytes in front of the level: its header ends at offset 6 of the group,
the cursor goes on to 12, inside the header of the level, and the decode fails. -/
theorem unknown_field_first_fails : let ins := Insertion.field [] [] [] [] .controlInfo [] [⟨2020, [1]⟩] ⟨7, []⟩
    (decodeProtocol20ExtraInfo 4 ins.baseBytes zeroFlt).map Prod.fst = .ok .obSuccess ∧
      (decodeProtocol20ExtraInfo 4 ins.newBytes zeroFlt).map Prod.fst = .ok .obError ∧
      ¬ins.Unchanged zeroFlt := by
  intro ins
  have hbase : (decodeProtocol20ExtraInfo 4 ins.baseBytes zeroFlt).map Prod.fst =
      .ok .obSuccess := by decide +kernel
  have hnew : (decodeProtocol20ExtraInfo 4 ins.newBytes zeroFlt).map Prod.fst =
      .ok .obError := by decide +kernel
  refine ⟨hbase, hnew, ?_⟩
  rintro ⟨fuel, ret, d, d', h, h', -⟩
  have hret : ret = .obSuccess := ret_of_map h hbase
  have hret' : ret = .obError := ret_of_map h' hnew
  rw [hret] at hret'
  cases hret'

end Insertion

end ObConnector.Protocol20
