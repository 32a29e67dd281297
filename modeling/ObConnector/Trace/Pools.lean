/-
# ObConnector.Trace.Pools -- who holds the records of a trace.

`Pools` is what the lists of a trace are for: spans are free or current, tags are free or held by a
current span. Four steps are possible: a free span is taken, a free tag is given to a current span, the
first current span is retired with its tags, and the first current span is freed while its tags are
forgotten. The first three keep every tag accounted for; the last one loses the tags of its span
(`PoolStep.accounted`).

`Represents` ties a trace to its pools: the pointers make exactly these lists. Every function of
`ObConnector.Trace.ObTrace` is then a sequence of steps on the pools.
-/
import Mathlib.Data.Fintype.Card
import ObConnector.Trace.ObTrace

namespace ObConnector.Trace

open Lib List

/-! ## Pools -/

/-- Spans and tags, by who holds them. -/
structure Pools (σ τ : Type) where
  free : List σ
  current : List σ
  tags : σ → List τ
  freeTags : List τ

namespace Pools

variable {σ τ : Type}

/-- The tags that someone holds. -/
def held (p : Pools σ τ) : List τ := p.freeTags ++ p.current.flatMap p.tags

/-- Every span has one place, and no tag has two. -/
structure WellFormed (p : Pools σ τ) : Prop where
  spansNodup : (p.current ++ p.free).Nodup
  spansAll : ∀ i, i ∈ p.current ++ p.free
  tagsNodup : p.held.Nodup

variable {p : Pools σ τ}

/-- A tag of a current span is held by it alone. -/
theorem WellFormed.tags_nodup (h : p.WellFormed) {i : σ} (hi : i ∈ p.current) : (p.tags i).Nodup := by
  have hflat := (nodup_append.mp h.tagsNodup).2.1
  exact (nodup_flatMap.mp hflat).1 i hi

theorem WellFormed.tags_disjoint (h : p.WellFormed) {i j : σ} (hi : i ∈ p.current) (hj : j ∈ p.current)
    (hij : i ≠ j) {k : τ} (hk : k ∈ p.tags i) : k ∉ p.tags j := by
  have hflat := (nodup_append.mp h.tagsNodup).2.1
  have hpair := (nodup_flatMap.mp hflat).2
  have hsym : Std.Symm (Function.onFun List.Disjoint p.tags) := ⟨fun _ _ hab => hab.symm⟩
  exact fun hk' => (hpair.forall hi hj hij) hk hk'

theorem WellFormed.free_disjoint (h : p.WellFormed) {i : σ} (hi : i ∈ p.current) {k : τ} (hk : k ∈ p.freeTags) :
    k ∉ p.tags i := by
  intro hk'
  exact (nodup_append.mp h.tagsNodup).2.2 k hk k (mem_flatMap.mpr ⟨i, hi, hk'⟩) rfl

variable [DecidableEq σ]

/-- The first free span becomes the first current one, without tags. -/
def take (p : Pools σ τ) (i : σ) (free : List σ) : Pools σ τ :=
  { p with free := free, current := i :: p.current, tags := Function.update p.tags i [] }

/-- A free tag goes to a span. -/
def give (p : Pools σ τ) (i : σ) (k : τ) (freeTags : List τ) : Pools σ τ :=
  { p with tags := Function.update p.tags i (k :: p.tags i), freeTags := freeTags }

/-- The first current span becomes free and its tags with it. -/
def retire (p : Pools σ τ) (i : σ) (current : List σ) : Pools σ τ :=
  { p with free := i :: p.free, current := current, freeTags := (p.tags i).reverse ++ p.freeTags }

/-- The first current span becomes free and its tags are forgotten. -/
def forget (p : Pools σ τ) (i : σ) (current : List σ) : Pools σ τ := { p with free := i :: p.free, current := current }

/-- A step, and the tags it loses. -/
inductive PoolStep : Pools σ τ → List τ → Pools σ τ → Prop
  | take {p : Pools σ τ} {i : σ} {free : List σ} (h : p.free = i :: free) : PoolStep p [] (p.take i free)
  | give {p : Pools σ τ} {i : σ} {k : τ} {freeTags : List τ} (hi : i ∈ p.current) (h : p.freeTags = k :: freeTags) :
    PoolStep p [] (p.give i k freeTags)
  | retire {p : Pools σ τ} {i : σ} {current : List σ} (h : p.current = i :: current) :
    PoolStep p [] (p.retire i current)
  | forget {p : Pools σ τ} {i : σ} {current : List σ} (h : p.current = i :: current) :
    PoolStep p (p.tags i) (p.forget i current)

theorem flatMap_update_of_notMem {f : σ → List τ} {i : σ} {xs : List σ} (h : i ∉ xs) (ks : List τ) :
    xs.flatMap (Function.update f i ks) = xs.flatMap f := by
  apply flatMap_congr
  intro x hx
  apply Function.update_of_ne
  rintro rfl
  exact h hx

/-- One more tag for one of the spans. -/
theorem flatMap_update_perm {f : σ → List τ} {i : σ} {xs : List σ} (hi : i ∈ xs) (hxs : xs.Nodup) (k : τ) :
    (xs.flatMap (Function.update f i (k :: f i))).Perm (k :: xs.flatMap f) := by
  induction xs with
  | nil => cases hi
  | cons x xs ih =>
    obtain ⟨hx, hxs⟩ := nodup_cons.mp hxs
    rw [flatMap_cons]
    rcases mem_cons.mp hi with rfl | hi
    · rw [Function.update_self, flatMap_update_of_notMem hx]
      exact List.Perm.refl _
    have hne : x ≠ i := by
      rintro rfl
      exact hx hi
    rw [Function.update_of_ne hne]
    exact ((ih hi hxs).append_left (f x)).trans perm_middle

variable {p' : Pools σ τ} {lost : List τ}

/-- **What a step does to the tags**: those held before are those held after and the lost ones. -/
theorem PoolStep.accounted (hwf : p.WellFormed) (h : PoolStep p lost p') : p.held.Perm (p'.held ++ lost) := by
  obtain ⟨hcurrent, -, hdisjoint⟩ := nodup_append.mp hwf.spansNodup
  cases h with
  | @take i free h =>
    have hi : i ∉ p.current := fun hi => hdisjoint i hi i (by rw [h]; exact mem_cons_self) rfl
    simp only [held, Pools.take, flatMap_cons, Function.update_self, nil_append, append_nil]
    rw [flatMap_update_of_notMem hi]
  | @give i k freeTags hi h =>
    simp only [held, append_nil, h]
    exact (perm_middle.symm).trans ((flatMap_update_perm hi hcurrent k).symm.append_left freeTags)
  | @retire i current h =>
    simp only [held, append_nil, h, flatMap_cons]
    have hgiven : (p.freeTags ++ p.tags i).Perm ((p.tags i).reverse ++ p.freeTags) :=
      perm_append_comm.trans ((reverse_perm _).symm.append_right _)
    rw [← append_assoc]
    exact hgiven.append_right _
  | @forget i current h =>
    simp only [held, h]
    rw [append_assoc]
    exact perm_append_comm.append_left p.freeTags

theorem PoolStep.wellFormed (hwf : p.WellFormed) (h : PoolStep p lost p') : p'.WellFormed := by
  have htags : p'.held.Nodup := by
    have hall := (h.accounted hwf).nodup hwf.tagsNodup
    exact (nodup_append.mp hall).1
  -- a span moves from one list to the other
  have hmove {xs ys xs' ys' : List σ} (hperm : (xs ++ ys).Perm (xs' ++ ys')) (hx : xs ++ ys = p.current ++ p.free) :
      (xs' ++ ys').Nodup ∧ ∀ i, i ∈ xs' ++ ys' := by
    rw [hx] at hperm
    exact ⟨hperm.nodup hwf.spansNodup, fun i => hperm.mem_iff.mp (hwf.spansAll i)⟩
  cases h with
  | @take i free h =>
    obtain ⟨hnodup, hmem⟩ := @hmove p.current (i :: free) (i :: p.current) free perm_middle (by rw [h])
    exact ⟨hnodup, hmem, htags⟩
  | give hi h => exact ⟨hwf.spansNodup, hwf.spansAll, htags⟩
  | @retire i current h =>
    obtain ⟨hnodup, hmem⟩ := @hmove (i :: current) p.free current (i :: p.free) perm_middle.symm (by rw [h])
    exact ⟨hnodup, hmem, htags⟩
  | @forget i current h =>
    obtain ⟨hnodup, hmem⟩ := @hmove (i :: current) p.free current (i :: p.free) perm_middle.symm (by rw [h])
    exact ⟨hnodup, hmem, htags⟩

/-- Steps one after the other. -/
inductive PoolSteps : Pools σ τ → List τ → Pools σ τ → Prop
  | refl (p : Pools σ τ) : PoolSteps p [] p
  | step {p p' p'' : Pools σ τ} {lost lost' : List τ} (h : PoolStep p lost p') (hs : PoolSteps p' lost' p'') :
    PoolSteps p (lost' ++ lost) p''

/-- **What steps do to the tags.** -/
theorem PoolSteps.accounted (hwf : p.WellFormed) (h : PoolSteps p lost p') : p.held.Perm (p'.held ++ lost) := by
  induction h with
  | refl => rw [append_nil]
  | step h _ ih =>
    refine (h.accounted hwf).trans ?_
    rw [← append_assoc]
    exact (ih (h.wellFormed hwf)).append_right _

theorem PoolSteps.trans {p'' : Pools σ τ} {lost' : List τ} (h : PoolSteps p lost p') (h' : PoolSteps p' lost' p'') :
    PoolSteps p (lost' ++ lost) p'' := by
  induction h with
  | refl =>
    rw [append_nil]
    exact h'
  | step h _ ih =>
    rw [← append_assoc]
    exact .step h (ih h')

theorem PoolStep.steps (h : PoolStep p lost p') : PoolSteps p lost p' :=
  .step h (.refl p')

end Pools

/-! ## The lists of a trace -/

/-- The pointers of a trace make the lists of its pools. -/
structure Represents (t : ObTrace) (p : Pools SpanIx TagIx) : Prop where
  wellFormed : p.WellFormed
  free : Chained t.links none t.freeSpanList p.free
  current : Chained t.links none t.currentSpanList p.current
  freeTags : Linked (fun k => (t.tags k).next) t.freeTagList p.freeTags
  tags : ∀ i ∈ p.current, Linked (fun k => (t.tags k).next) (t.spans i).tags (p.tags i)

/-- A list without repetition of records of a pool is no longer than the pool. -/
theorem length_le_of_nodup {n : Nat} {xs : List (Fin n)} (h : xs.Nodup) : xs.length ≤ n :=
  (h.length_le_card).trans_eq (Fintype.card_fin n)

theorem spansFrom_eq {links : SpanIx → Link SpanIx} {before root : Option SpanIx} {xs : List SpanIx} {fuel : Nat}
    (h : Chained links before root xs) (hfuel : xs.length ≤ fuel) : spansFrom links fuel root = xs := by
  induction xs generalizing before root fuel with
  | nil =>
    obtain rfl : root = none := h
    cases fuel <;> rfl
  | cons x xs ih =>
    obtain ⟨rfl, -, hrest⟩ := h
    cases fuel with
    | zero => cases hfuel
    | succ fuel => rw [spansFrom, ih hrest (Nat.le_of_succ_le_succ hfuel)]

theorem tagsFrom_eq {tags : TagIx → ObTagCtx} {root : Option TagIx} {ks : List TagIx} {fuel : Nat}
    (h : Linked (fun k => (tags k).next) root ks) (hfuel : ks.length ≤ fuel) : tagsFrom tags fuel root = ks := by
  induction ks generalizing root fuel with
  | nil =>
    obtain rfl : root = none := h
    cases fuel <;> rfl
  | cons k ks ih =>
    obtain ⟨rfl, hrest⟩ := h
    cases fuel with
    | zero => cases hfuel
    | succ fuel => rw [tagsFrom, ih hrest (Nat.le_of_succ_le_succ hfuel)]

namespace Represents

variable {t : ObTrace} {p : Pools SpanIx TagIx}

section

variable (h : Represents t p)
include h

theorem currentSpans_eq : t.currentSpans = p.current :=
  spansFrom_eq h.current (length_le_of_nodup (nodup_append.mp h.wellFormed.spansNodup).1)

theorem freeSpans_eq : t.freeSpans = p.free :=
  spansFrom_eq h.free (length_le_of_nodup (nodup_append.mp h.wellFormed.spansNodup).2.1)

theorem tagsOf_eq {i : SpanIx} (hi : i ∈ p.current) : t.tagsOf i = p.tags i :=
  tagsFrom_eq (h.tags i hi) (length_le_of_nodup (h.wellFormed.tags_nodup hi))

theorem currentSpanList_eq : t.currentSpanList = p.current.head? := by
  have hchain := h.current
  cases hc : p.current with
  | nil =>
    rw [hc] at hchain
    exact hchain
  | cons i current =>
    rw [hc] at hchain
    exact hchain.1

theorem freeSpanList_eq : t.freeSpanList = p.free.head? := by
  have hchain := h.free
  cases hf : p.free with
  | nil =>
    rw [hf] at hchain
    exact hchain
  | cons i free =>
    rw [hf] at hchain
    exact hchain.1

/-- Only the pointers matter. -/
theorem congr {t' : ObTrace} (hlinks : t'.links = t.links) (hfree : t'.freeSpanList = t.freeSpanList)
    (hcurrent : t'.currentSpanList = t.currentSpanList) (hfreeTag : t'.freeTagList = t.freeTagList)
    (htags : t'.tags = t.tags) (hspans : ∀ i, (t'.spans i).tags = (t.spans i).tags) : Represents t' p where
  wellFormed := h.wellFormed
  free := by rw [hlinks, hfree]; exact h.free
  current := by rw [hlinks, hcurrent]; exact h.current
  freeTags := by rw [htags, hfreeTag]; exact h.freeTags
  tags := by
    intro i hi
    rw [htags, hspans]
    exact h.tags i hi

end

/-- The two chains of spans after a move from the current to the free list. -/
theorem freeSpan_chains (h : Represents t p) {i : SpanIx} {current : List SpanIx} (hcur : p.current = i :: current)
    {t' : ObTrace} (hlinks : t'.links = t.links) (hfree : t'.freeSpanList = t.freeSpanList)
    (hcurrent : t'.currentSpanList = t.currentSpanList) :
    Chained (freeSpan t' i).links none (freeSpan t' i).currentSpanList current ∧
      Chained (freeSpan t' i).links none (freeSpan t' i).freeSpanList (i :: p.free) := by
  have hroot : t.currentSpanList = some i := by rw [h.currentSpanList_eq, hcur]; rfl
  have hfrom := h.current
  have hnodup := h.wellFormed.spansNodup
  rw [hcur] at hfrom hnodup
  rw [hroot] at hfrom
  obtain ⟨hrest, hadded, -⟩ := chained_move hfrom h.free hnodup
  rw [freeSpan]
  rw [hlinks, hfree, hcurrent, hroot]
  exact ⟨hrest, hadded⟩

/-- **A span is freed and its tags forgotten.** -/
theorem freeSpan_forget (h : Represents t p) {i : SpanIx} {current : List SpanIx} (hcur : p.current = i :: current)
    (span : ObSpanCtx) : Represents (freeSpan (t.setSpan i span) i) (p.forget i current) := by
  have hstep : Pools.PoolStep p (p.tags i) (p.forget i current) := .forget hcur
  obtain ⟨hrest, hadded⟩ := @freeSpan_chains t p h i current hcur (t.setSpan i span) rfl rfl rfl
  refine ⟨hstep.wellFormed h.wellFormed, hadded, hrest, h.freeTags, ?_⟩
  intro j hj
  have hne : j ≠ i := by
    rintro rfl
    have hnodup := (nodup_append.mp h.wellFormed.spansNodup).1
    rw [hcur] at hnodup
    exact (nodup_cons.mp hnodup).1 hj
  have hspan : (freeSpan (t.setSpan i span) i).spans j = t.spans j := Function.update_of_ne hne _ _
  rw [hspan]
  exact h.tags j (by rw [hcur]; exact mem_cons_of_mem i hj)

end Represents

/-- Tags that become free stand in front of the free list, in reverse order; other tags are
untouched. -/
theorem foldl_freeTag {ks : List TagIx} {t : ObTrace} {free : List TagIx}
    (hfree : Linked (fun k => (t.tags k).next) t.freeTagList free) (hnodup : (ks ++ free).Nodup) :
    ∃ tags freeTagList, ks.foldl freeTag t = { t with tags := tags, freeTagList := freeTagList } ∧
      Linked (fun k => (tags k).next) freeTagList (ks.reverse ++ free) ∧ ∀ k, k ∉ ks → tags k = t.tags k := by
  induction ks generalizing t free with
  | nil => exact ⟨t.tags, t.freeTagList, rfl, hfree, fun _ _ => rfl⟩
  | cons k ks ih =>
    have hk : k ∉ ks ++ free := (nodup_cons.mp hnodup).1
    rw [mem_append, not_or] at hk
    have hother j hj : (freeTag t k).tags j = t.tags j := Function.update_of_ne hj _ _
    have hself : (freeTag t k).tags k = { t.tags k with next := t.freeTagList } := Function.update_self _ _ _
    have hfree' : Linked (fun j => ((freeTag t k).tags j).next) (freeTag t k).freeTagList (k :: free) := by
      refine ⟨rfl, ?_⟩
      show Linked _ ((freeTag t k).tags k).next free
      rw [hself]
      apply hfree.congr
      intro j hj
      have hjk : j ≠ k := by
        rintro rfl
        exact hk.2 hj
      rw [hother j hjk]
    obtain ⟨tags, freeTagList, hrun, hlinked, huntouched⟩ := ih hfree' (perm_middle.symm.nodup hnodup)
    refine ⟨tags, freeTagList, ?_, ?_, ?_⟩
    · rw [foldl_cons, hrun]
      rfl
    · rw [reverse_cons, append_assoc]
      exact hlinked
    · intro j hj
      rw [mem_cons, not_or] at hj
      rw [huntouched j hj.2, hother j hj.1]

/-- The loop over the tags of a span frees them one by one: freeing a tag changes no pointer behind
it. -/
theorem resetTags_eq {ks : List TagIx} {t : ObTrace} {root : Option TagIx} {fuel : Nat}
    (hks : Linked (fun k => (t.tags k).next) root ks) (hnodup : ks.Nodup) (hfuel : ks.length ≤ fuel) :
    resetTags fuel t root = .ok (ks.foldl freeTag t) := by
  induction ks generalizing t root fuel with
  | nil =>
    obtain rfl : root = none := hks
    cases fuel <;> rfl
  | cons k ks ih =>
    obtain ⟨rfl, hrest⟩ := hks
    obtain ⟨hk, hnodup⟩ := nodup_cons.mp hnodup
    cases fuel with
    | zero => cases hfuel
    | succ fuel =>
      refine ih ?_ hnodup (Nat.le_of_succ_le_succ hfuel)
      apply hrest.congr
      intro j hj
      have hjk : j ≠ k := by
        rintro rfl
        exact hk hj
      rw [show (freeTag t k).tags j = t.tags j from Function.update_of_ne hjk _ _]

/-- Spans that become free stand in front of the free list, in reverse order. -/
theorem foldl_addFreeSpan {xs : List SpanIx} {t : ObTrace} {free : List SpanIx}
    (hfree : Chained t.links none t.freeSpanList free) (hnodup : (xs ++ free).Nodup) :
    ∃ links freeSpanList, xs.foldl addFreeSpan t = { t with links := links, freeSpanList := freeSpanList } ∧
      Chained links none freeSpanList (xs.reverse ++ free) := by
  induction xs generalizing t free with
  | nil => exact ⟨t.links, t.freeSpanList, rfl, hfree⟩
  | cons x xs ih =>
    have hx : x ∉ xs ++ free := (nodup_cons.mp hnodup).1
    rw [mem_append, not_or] at hx
    have hfree' : Chained (addFreeSpan t x).links none (addFreeSpan t x).freeSpanList (x :: free) :=
      chained_listAdd hfree hx.2 (nodup_append.mp hnodup).2.1
    obtain ⟨links, freeSpanList, hrun, hchain⟩ := ih hfree' (perm_middle.symm.nodup hnodup)
    refine ⟨links, freeSpanList, ?_, ?_⟩
    · rw [foldl_cons, hrun]
      rfl
    · rw [reverse_cons, append_assoc]
      exact hchain

/-- The pools after `trace_init`: everything is free. -/
def initPools : Pools SpanIx TagIx where
  free := (List.finRange spanCacheCount).reverse
  current := []
  tags := fun _ => []
  freeTags := (List.finRange tagCacheCount).reverse

/-- What linking the records changes. -/
theorem traceInit_spec (raw : RawTrace) : ∃ tags freeTagList links freeSpanList,
      traceInit raw = { blankTrace raw with
        tags := tags, freeTagList := freeTagList, links := links, freeSpanList := freeSpanList } ∧
      Linked (fun k => (tags k).next) freeTagList initPools.freeTags ∧
      Chained links none freeSpanList initPools.free := by
  have htagsNodup : (List.finRange tagCacheCount ++ []).Nodup := by
    exact nodup_finRange _
  have hspansNodup : (List.finRange spanCacheCount ++ []).Nodup := by
    exact nodup_finRange _
  obtain ⟨tags, freeTagList, htags, hlinked, -⟩ := @foldl_freeTag _ (blankTrace raw) [] rfl htagsNodup
  obtain ⟨links, freeSpanList, hspans, hchain⟩ := @foldl_addFreeSpan _
    { blankTrace raw with tags := tags, freeTagList := freeTagList } [] rfl hspansNodup
  refine ⟨tags, freeTagList, links, freeSpanList, ?_, hlinked, hchain⟩
  rw [traceInit, htags, hspans]

theorem traceInit_represents (raw : RawTrace) : Represents (traceInit raw) initPools := by
  have hwf : initPools.WellFormed := by
    refine ⟨nodup_reverse.mpr (nodup_finRange _), ?_, ?_⟩
    · intro i
      exact mem_reverse.mpr (mem_finRange i)
    · show ((List.finRange tagCacheCount).reverse ++ []).Nodup
      exact nodup_reverse.mpr (nodup_finRange _)
  obtain ⟨tags, freeTagList, links, freeSpanList, hinit, hlinked, hchain⟩ := traceInit_spec raw
  rw [hinit]
  exact ⟨hwf, hchain, rfl, hlinked, fun i hi => absurd hi not_mem_nil⟩

namespace Represents

variable {t : ObTrace} {p : Pools SpanIx TagIx}

/-- **A span is retired with its tags.** Everything else is as before. -/
theorem clearSpan_retire (h : Represents t p) {i : SpanIx} {current : List SpanIx} (hcur : p.current = i :: current) :
    ∃ t', clearSpan t i = .ok t' ∧ Represents t' (p.retire i current) ∧ ∃ links currentSpanList tags freeTagList,
      t' = { t with
        links := links, currentSpanList := currentSpanList, freeSpanList := some i
        tags := tags, freeTagList := freeTagList
        spans := Function.update t.spans i { t.spans i with tags := none } } ∧
      ∀ k, k ∉ p.tags i → tags k = t.tags k := by
  have hi : i ∈ p.current := by rw [hcur]; exact mem_cons_self
  have hstep : Pools.PoolStep p [] (p.retire i current) := .retire hcur
  have hnodup : (p.tags i ++ p.freeTags).Nodup := by
    rw [nodup_append]
    refine ⟨h.wellFormed.tags_nodup hi, (nodup_append.mp h.wellFormed.tagsNodup).1, ?_⟩
    intro a ha b hb hab
    subst hab
    exact h.wellFormed.free_disjoint hi hb ha
  have htags := h.wellFormed.tags_nodup hi
  obtain ⟨tags, freeTagList, hfold, hlinked, huntouched⟩ := foldl_freeTag h.freeTags hnodup
  have hreset := resetTags_eq (h.tags i hi) htags (length_le_of_nodup htags)
  rw [hfold] at hreset
  have hclear : clearSpan t i = .ok (freeSpan ({ t with tags := tags, freeTagList := freeTagList }.setSpan i
      { t.spans i with tags := none }) i) := by
    rw [clearSpan, hreset, ok_bind]
  obtain ⟨hrest, hadded⟩ := @freeSpan_chains t p h i current hcur
    ({ t with tags := tags, freeTagList := freeTagList }.setSpan i { t.spans i with tags := none }) rfl rfl rfl
  refine ⟨_, hclear, ⟨hstep.wellFormed h.wellFormed, hadded, hrest, hlinked, ?_⟩, _, _, tags, freeTagList, rfl, huntouched⟩
  intro j hj
  have hj' : j ∈ p.current := by rw [hcur]; exact mem_cons_of_mem i hj
  have hne : j ≠ i := by
    rintro rfl
    have hspans := (nodup_append.mp h.wellFormed.spansNodup).1
    rw [hcur] at hspans
    exact (nodup_cons.mp hspans).1 hj
  dsimp only [freeSpan, addFreeSpan, ObTrace.setSpan]
  rw [Function.update_of_ne hne]
  -- the tags of the other spans are not among those given back
  apply (h.tags j hj').congr
  intro k hk
  rw [huntouched k (h.wellFormed.tags_disjoint hj' hi hne hk)]

/-- **A free span is taken.** -/
theorem takeSpan_take (h : Represents t p) {i : SpanIx} {free : List SpanIx} (hf : p.free = i :: free)
    (isFollow : Bool) (now : Int) : Represents (takeSpan t i isFollow now) (p.take i free) := by
  have hstep : Pools.PoolStep p [] (p.take i free) := .take hf
  have hroot : t.freeSpanList = some i := by rw [h.freeSpanList_eq, hf]; rfl
  have hfrom := h.free
  have hnodup := h.wellFormed.spansNodup
  rw [hf] at hfrom hnodup
  rw [hroot] at hfrom
  obtain ⟨hrest, hadded, -⟩ := chained_move hfrom h.current (perm_append_comm.nodup hnodup)
  have hlinks : (takeSpan t i isFollow now).links = listAdd (listDelete t.links (some i) i).1 t.currentSpanList i := by
    rw [takeSpan]
    simp only [ObTrace.setSpan, hroot]
  have hfree : (takeSpan t i isFollow now).freeSpanList = (listDelete t.links (some i) i).2 := by
    rw [takeSpan]
    simp only [ObTrace.setSpan, hroot]
  refine ⟨hstep.wellFormed h.wellFormed, ?_, ?_, h.freeTags, ?_⟩
  · rw [hlinks, hfree]
    exact hrest
  · rw [hlinks]
    exact hadded
  · intro j hj
    have hnot : i ∉ p.current := by
      intro hi
      exact (nodup_append.mp h.wellFormed.spansNodup).2.2 i hi i (by rw [hf]; exact mem_cons_self) rfl
    rcases mem_cons.mp hj with rfl | hj'
    · -- a span starts without tags
      have hspan : (takeSpan t j isFollow now).spans j = ⟨⟨t.seq + 1, 0⟩, t.lastActiveSpan, isFollow, now, 0, none⟩ :=
        Function.update_self _ _ _
      have htags : (p.take j free).tags j = [] := Function.update_self _ _ _
      rw [hspan, htags]
      rfl
    have hne : j ≠ i := by
      rintro rfl
      exact hnot hj'
    have hspan : (takeSpan t i isFollow now).spans j = t.spans j := Function.update_of_ne hne _ _
    have htags : (p.take i free).tags j = p.tags j := Function.update_of_ne hne _ _
    rw [hspan, htags]
    exact h.tags j hj'

/-- **A free tag goes to a current span.** -/
theorem appendTag_give (h : Represents t p) {i : SpanIx} (hi : i ∈ p.current) {k : TagIx} {freeTags : List TagIx}
    (hf : p.freeTags = k :: freeTags) (tagType : TagType) (str : CStr) :
    Represents (appendTag t i tagType (some str)) (p.give i k freeTags) := by
  have hstep : Pools.PoolStep p [] (p.give i k freeTags) := .give hi hf
  have hlinked := h.freeTags
  rw [hf] at hlinked
  obtain ⟨hroot, hrest⟩ := hlinked
  have happend : appendTag t i tagType (some str) =
      { t with
        freeTagList := (t.tags k).next
        tags := Function.update t.tags k ⟨(t.spans i).tags, tagType, str⟩
        spans := Function.update t.spans i { t.spans i with tags := some k } } := by
    simp only [appendTag, hroot]
  have hk : k ∈ p.freeTags := by rw [hf]; exact mem_cons_self
  have hnotMem : k ∉ freeTags := by
    have hnodup := (nodup_append.mp h.wellFormed.tagsNodup).1
    rw [hf] at hnodup
    exact (nodup_cons.mp hnodup).1
  -- lists without the tag are as before
  have hother {root : Option TagIx} {ks : List TagIx} (hks : k ∉ ks)
      (hl : Linked (fun k => (t.tags k).next) root ks) :
      Linked (fun j => (Function.update t.tags k ⟨(t.spans i).tags, tagType, str⟩ j).next) root ks := by
    apply hl.congr
    intro j hj
    have hjk : j ≠ k := by
      rintro rfl
      exact hks hj
    rw [Function.update_of_ne hjk]
  rw [happend]
  refine ⟨hstep.wellFormed h.wellFormed, h.free, h.current, hother hnotMem hrest, ?_⟩
  intro j hj
  dsimp only
  by_cases hji : j = i
  · subst hji
    have htags : (p.give j k freeTags).tags j = k :: p.tags j := Function.update_self _ _ _
    rw [htags, Function.update_self]
    refine ⟨rfl, ?_⟩
    show Linked _ (Function.update t.tags k ⟨(t.spans j).tags, tagType, str⟩ k).next _
    rw [Function.update_self]
    exact hother (h.wellFormed.free_disjoint hj hk) (h.tags j hj)
  · have htags : (p.give i k freeTags).tags j = p.tags j := Function.update_of_ne hji _ _
    rw [htags, Function.update_of_ne hji]
    exact hother (h.wellFormed.free_disjoint hj hk) (h.tags j hj)

end Represents

end ObConnector.Trace
