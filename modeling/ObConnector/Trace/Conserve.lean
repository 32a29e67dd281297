/-
# ObConnector.Trace.Conserve -- which runs keep the records of a trace.

Every call on a trace is a sequence of steps on its pools (`Call.run_spec`), whatever was called before:
from `trace_init` on, each span is in exactly one of the two span lists, and no tag is linked twice. Tags
can get lost, though. `end_trace` frees the current spans and leaves their tags hanging at them, and
`reset_span` clears the pointer to the tags without giving them back; only the two flushes return tags
to the free list. `conserved_iff_keepsTags` says that this is the only way: a run keeps all records
exactly when every `end_trace`, and every `reset_span` of a started trace, finds no tag at a current span.
-/
import ObConnector.Lib.Runs
import ObConnector.Trace.FlushLoop

namespace ObConnector.Trace

open Lib List

/-! ## Sound traces -/

/-- A trace whose lists and buffers are in order. -/
structure Sound (t : ObTrace) : Prop where
  buffersOk : BuffersOk t
  pools : ∃ p, Represents t p

/-- The log buffers are as before. -/
structure SameBuffers (t t' : ObTrace) : Prop where
  logBuf : t'.logBuf = t.logBuf
  logOffset : t'.logBufOffset = t.logBufOffset
  showBuf : t'.showTraceBuf = t.showTraceBuf
  showOffset : t'.showTraceBufOffset = t.showTraceBufOffset

theorem SameBuffers.refl (t : ObTrace) : SameBuffers t t := ⟨rfl, rfl, rfl, rfl⟩

variable {t : ObTrace}

theorem SameBuffers.buffersOk {t' : ObTrace} (h : SameBuffers t t') (hbufs : BuffersOk t) : BuffersOk t' where
  logLen := by rw [h.logBuf]; exact hbufs.logLen
  logOffset := by rw [h.logOffset]; exact hbufs.logOffset
  showLen := by rw [h.showBuf]; exact hbufs.showLen
  showOffset := by rw [h.showOffset]; exact hbufs.showOffset

theorem traceInit_buffersOk (raw : RawTrace) : BuffersOk (traceInit raw) := by
  have hbracket : (ascii "[").length = 1 := by simp [ascii]
  refine ⟨raw.logBufLen, show 0 < maxTraceLogSize by decide, ?_, show 1 < maxTraceLogSize by decide⟩
  show (ascii "[" ++ raw.showTraceBuf.drop 1).length = maxTraceLogSize
  rw [length_append, length_drop, hbracket, raw.showTraceBufLen]
  rfl

/-! ## Calls that only move records -/

theorem beginTrace_frame (t : ObTrace) (c : Sampling) :
    ∃ traceEnable showTraceEnable seed traceId level forcePrint, beginTrace t c = { t with
      traceEnable := traceEnable, showTraceEnable := showTraceEnable, uuidRandomSeed := seed, traceId := traceId
      level := level, forcePrint := forcePrint } := by
  obtain ⟨valid, showTraceEnable, rp, level, sampleHit, printHit, now⟩ := c
  cases valid <;> cases showTraceEnable <;> cases sampleHit <;> cases rp <;> exact ⟨_, _, _, _, _, _, rfl⟩

theorem endSpan_frame (t : ObTrace) (span : Option SpanIx) (rp : RecordPolicy) (slowQueryThreshold now : Int) :
    SameBuffers t (endSpan t span rp slowQueryThreshold now) ∧
      ∀ p, Represents t p → Represents (endSpan t span rp slowQueryThreshold now) p := by
  cases span with
  | none => exact ⟨.refl t, fun _ h => h⟩
  | some i =>
    have htags j : (Function.update t.spans i { t.spans i with endTs := now } j).tags = (t.spans j).tags := by
      by_cases hj : j = i
      · subst hj
        rw [Function.update_self]
      · rw [Function.update_of_ne hj]
    rw [endSpan]
    split
    · exact ⟨.refl t, fun _ h => h⟩
    dsimp only
    split
    · exact ⟨⟨rfl, rfl, rfl, rfl⟩, fun _ h => h.congr rfl rfl rfl rfl rfl htags⟩
    · exact ⟨⟨rfl, rfl, rfl, rfl⟩, fun _ h => h.congr rfl rfl rfl rfl rfl htags⟩

variable {p : Pools SpanIx TagIx}

theorem appendTag_spec (hr : Represents t p) {i : SpanIx} (hi : i ∈ p.current) (tagType : TagType)
    (str : Option CStr) : SameBuffers t (appendTag t i tagType str) ∧
      ∃ p', Represents (appendTag t i tagType str) p' ∧ Pools.PoolSteps p [] p' := by
  have hfree := hr.freeTags
  cases str with
  | none => exact ⟨.refl t, p, hr, .refl p⟩
  | some str =>
    cases hf : p.freeTags with
    | nil =>
      rw [hf] at hfree
      have hroot : t.freeTagList = none := hfree
      have hsame : appendTag t i tagType (some str) = t := by simp only [appendTag, hroot]
      rw [hsame]
      exact ⟨.refl t, p, hr, .refl p⟩
    | cons k ks =>
      rw [hf] at hfree
      have hroot : t.freeTagList = some k := hfree.1
      refine ⟨?_, p.give i k ks, hr.appendTag_give hi hf tagType str, (Pools.PoolStep.give hi hf).steps⟩
      simp only [appendTag, hroot]
      exact ⟨rfl, rfl, rfl, rfl⟩

/-- **Draining**: all spans become free, and the tags of the current ones are lost. -/
theorem drainSpans_spec {touch : SpanIx → ObSpanCtx → ObSpanCtx} {current : List SpanIx} {t : ObTrace}
    {p : Pools SpanIx TagIx} (hr : Represents t p) (hcur : p.current = current) {fuel : Nat}
    (hfuel : current.length ≤ fuel) :
    ∃ t' p' lost, drainSpans touch fuel t = .ok t' ∧ Represents t' p' ∧ SameBuffers t t' ∧
      Pools.PoolSteps p lost p' ∧ lost.Perm (current.flatMap p.tags) := by
  induction current generalizing t p fuel with
  | nil =>
    have hroot : t.currentSpanList = none := by rw [hr.currentSpanList_eq, hcur]; rfl
    refine ⟨t, p, [], ?_, hr, .refl t, .refl p, List.Perm.refl _⟩
    unfold drainSpans
    rw [hroot]
  | cons i rest ih =>
    have hroot : t.currentSpanList = some i := by rw [hr.currentSpanList_eq, hcur]; rfl
    obtain ⟨fuel, rfl⟩ : ∃ f, fuel = f + 1 := ⟨fuel - 1, by rw [length_cons] at hfuel; omega⟩
    obtain ⟨t', p', lost, hrun, hr', hsame, hsteps, hlost⟩ := ih (hr.freeSpan_forget hcur (touch i (t.spans i))) rfl
      (Nat.le_of_succ_le_succ hfuel)
    refine ⟨t', p', lost ++ p.tags i, ?_, hr', ⟨hsame.logBuf, hsame.logOffset, hsame.showBuf, hsame.showOffset⟩,
      .step (.forget hcur) hsteps, ?_⟩
    · unfold drainSpans
      rw [hroot]
      exact hrun
    · exact (hlost.append_right _).trans perm_append_comm

/-! ## Calls that log -/

section

variable (hr : Represents t p)
include hr

/-- A flush, started or not. -/
theorem flushTrace_spec (hbufs : BuffersOk t) :
    ∃ t' events p', flushTrace t = .ok (t', events) ∧ Represents t' p' ∧ BuffersOk t' ∧ Pools.PoolSteps p [] p' := by
  by_cases hstarted : t.Started
  · obtain ⟨t', events, hrun, hlooped⟩ := @flushLoop_spec t p hr hbufs (maxTraceLogSize + 1) (by omega)
    obtain ⟨p', hr', hsteps, -⟩ := hlooped.pools
    exact ⟨t', events, p', by rw [flushTrace, if_pos hstarted, hrun], hr', hlooped.buffersOk, hsteps⟩
  · exact ⟨t, [], p, by rw [flushTrace, if_neg hstarted], hr, hbufs, .refl p⟩

theorem flushFirstSpan_spec (hbufs : BuffersOk t) (stack : CStr) :
    ∃ t' events p', flushFirstSpan t stack = .ok (t', events) ∧ Represents t' p' ∧ BuffersOk t' ∧
      Pools.PoolSteps p [] p' := by
  by_cases hstarted : t.Started
  · rw [flushFirstSpan, if_pos hstarted, hr.currentSpanList_eq]
    cases hcur : p.current with
    | nil => exact ⟨t, [], p, rfl, hr, hbufs, .refl p⟩
    | cons i rest =>
      have hi : i ∈ p.current := by rw [hcur]; exact mem_cons_self
      obtain ⟨t1, text, events, hlog, hresult⟩ :=
        logSpan_result hbufs (hr.tags i hi) (hr.wellFormed.tags_nodup hi) stack
      have hr1 := hresult.ids.represents hr
      have hbufs1 := hresult.buffersOk hbufs
      dsimp only [List.head?_cons]
      rw [hlog, ok_bind]
      split
      · obtain ⟨_, hclear, hr', links, currentSpanList, tags, freeTagList, rfl, -⟩ := hr1.clearSpan_retire hcur
        rw [hclear]
        exact ⟨_, _, _, rfl, hr', ⟨hbufs1.logLen, hbufs1.logOffset, hbufs1.showLen, hbufs1.showOffset⟩,
          (Pools.PoolStep.retire hcur).steps⟩
      · exact ⟨t1, events, p, rfl, hr1, hbufs1, .refl p⟩
  · exact ⟨t, [], p, by rw [flushFirstSpan, if_neg hstarted], hr, hbufs, .refl p⟩

theorem takeFirst_spec (isFollow : Bool) (now : Int) : SameBuffers t (takeFirst t isFollow now) ∧
      ∃ p', Represents (takeFirst t isFollow now) p' ∧ Pools.PoolSteps p [] p' := by
  rw [takeFirst, hr.freeSpanList_eq]
  cases hf : p.free with
  | nil => exact ⟨.refl t, p, hr, .refl p⟩
  | cons i free =>
    exact ⟨⟨rfl, rfl, rfl, rfl⟩, _, hr.takeSpan_take hf isFollow now, (Pools.PoolStep.take hf).steps⟩

theorem makeRoom_spec (hbufs : BuffersOk t) :
    ∃ t' events p', makeRoom t = .ok (t', events) ∧ Represents t' p' ∧ BuffersOk t' ∧ Pools.PoolSteps p [] p' := by
  rw [makeRoom]
  split
  · exact flushTrace_spec hr hbufs
  · exact ⟨t, [], p, rfl, hr, hbufs, .refl p⟩

theorem beginSpan_spec (hbufs : BuffersOk t) (level : Nat) (isFollow : Bool) (now : Int) :
    ∃ t' events p', beginSpan t level isFollow now = .ok (t', events) ∧ Represents t' p' ∧ BuffersOk t' ∧
      Pools.PoolSteps p [] p' := by
  rw [beginSpan]
  split
  · exact ⟨t, [], p, rfl, hr, hbufs, .refl p⟩
  obtain ⟨t1, events, p1, hrun, hr1, hbufs1, hsteps1⟩ := makeRoom_spec hr hbufs
  obtain ⟨hsame, p2, hr2, hsteps2⟩ := takeFirst_spec hr1 isFollow now
  rw [hrun]
  exact ⟨_, events, p2, rfl, hr2, hsame.buffersOk hbufs1, hsteps1.trans hsteps2⟩

end

/-! ## Every call -/

/-- The tags that a call loses. -/
def Call.lost (t : ObTrace) : Call → List TagIx
  | .resetSpan => if t.Started then t.currentSpans.flatMap t.tagsOf else []
  | .endTrace _ => t.currentSpans.flatMap t.tagsOf
  | _ => []

theorem Represents.flatMap_tagsOf (h : Represents t p) :
    t.currentSpans.flatMap t.tagsOf = p.current.flatMap p.tags := by
  rw [h.currentSpans_eq]
  apply flatMap_congr
  intro i hi
  exact h.tagsOf_eq hi

/-- **What a call does**: it ends, keeps lists and buffers in order, and loses the tags `Call.lost`
says. -/
theorem Call.run_spec (hr : Represents t p) (hbufs : BuffersOk t) {c : Call} (hallowed : c.Allowed t) :
    ∃ t' events p' lost, c.run t = .ok (t', events) ∧ Represents t' p' ∧ BuffersOk t' ∧
      Pools.PoolSteps p lost p' ∧ lost.Perm (c.lost t) := by
  have hlen : p.current.length ≤ spanCacheCount :=
    length_le_of_nodup (nodup_append.mp hr.wellFormed.spansNodup).1
  cases c with
  | beginTrace c =>
    obtain ⟨traceEnable, showTraceEnable, seed, traceId, level, forcePrint, hbegin⟩ := beginTrace_frame t c
    refine ⟨Trace.beginTrace t c, [], p, [], rfl, ?_, ?_, .refl p, List.Perm.refl _⟩
    · rw [hbegin]
      exact hr.congr rfl rfl rfl rfl rfl fun _ => rfl
    · rw [hbegin]
      exact ⟨hbufs.logLen, hbufs.logOffset, hbufs.showLen, hbufs.showOffset⟩
  | beginSpan level isFollow now =>
    obtain ⟨t', events, p', hrun, hr', hbufs', hsteps⟩ := beginSpan_spec hr hbufs level isFollow now
    exact ⟨t', events, p', [], hrun, hr', hbufs', hsteps, List.Perm.refl _⟩
  | appendTag span tagType str =>
    have hi : span ∈ p.current := by
      rw [← hr.currentSpans_eq]
      exact hallowed
    obtain ⟨hsame, p', hr', hsteps⟩ := appendTag_spec hr hi tagType str
    exact ⟨_, [], p', [], rfl, hr', hsame.buffersOk hbufs, hsteps, List.Perm.refl _⟩
  | endSpan span rp slowQueryThreshold now =>
    obtain ⟨hsame, hrep⟩ := endSpan_frame t span rp slowQueryThreshold now
    exact ⟨_, [], p, [], rfl, hrep p hr, hsame.buffersOk hbufs, .refl p, List.Perm.refl _⟩
  | resetSpan =>
    rw [run, lost, Trace.resetSpan]
    by_cases hstarted : t.Started
    · obtain ⟨t', p', lost, hrun, hr', hsame, hsteps, hlost⟩ :=
        @drainSpans_spec (fun _ span => { span with tags := none }) _ t p hr rfl _ hlen
      rw [if_pos hstarted, if_pos hstarted, hrun, hr.flatMap_tagsOf]
      exact ⟨t', [], p', lost, rfl, hr', hsame.buffersOk hbufs, hsteps, hlost⟩
    rw [if_neg hstarted, if_neg hstarted]
    exact ⟨t, [], p, [], rfl, hr, hbufs, .refl p, List.Perm.refl _⟩
  | flushTrace =>
    obtain ⟨t', events, p', hrun, hr', hbufs', hsteps⟩ := flushTrace_spec hr hbufs
    exact ⟨t', events, p', [], hrun, hr', hbufs', hsteps, List.Perm.refl _⟩
  | flushFirstSpan stack =>
    obtain ⟨t', events, p', hrun, hr', hbufs', hsteps⟩ := flushFirstSpan_spec hr hbufs stack
    exact ⟨t', events, p', [], hrun, hr', hbufs', hsteps, List.Perm.refl _⟩
  | endTrace now =>
    obtain ⟨t', p', lost, hrun, hr', hsame, hsteps, hlost⟩ :=
      @drainSpans_spec (fun i span => if span.endTs = 0 then { span with endTs := now i } else span) _ t p hr rfl _ hlen
    have hbufs' := hsame.buffersOk hbufs
    rw [run, Trace.endTrace, hrun, Call.lost, hr.flatMap_tagsOf]
    exact ⟨_, [], p', lost, rfl, hr'.congr rfl rfl rfl rfl rfl fun _ => rfl,
      ⟨hbufs'.logLen, hbufs'.logOffset, hbufs'.showLen, hbufs'.showOffset⟩, hsteps, hlost⟩

theorem Call.run_sound (h : Sound t) {c : Call} (hallowed : c.Allowed t) :
    ∃ t' events, c.run t = .ok (t', events) ∧ Sound t' := by
  obtain ⟨hbufs, p, hr⟩ := h
  obtain ⟨t', events, p', lost, hrun, hr', hbufs', -, -⟩ := run_spec hr hbufs hallowed
  exact ⟨t', events, hrun, hbufs', p', hr'⟩

/-! ## Runs -/

/-- A call, without what it reports. -/
def Call.step (t : ObTrace) (c : Call) : Except Fault ObTrace := (c.run t).map Prod.fst

theorem Call.step_eq {t' : ObTrace} {c : Call} {events : List Event} (h : c.run t = .ok (t', events)) :
    c.step t = .ok t' := by
  rw [step, h]
  rfl

/-- Calls one after the other. -/
abbrev runCalls : ObTrace → List Call → Except Fault ObTrace := runAll Call.step

/-- Every call of a run is allowed where it is made. -/
abbrev AllowedRun : ObTrace → List Call → Prop := Along Call.step Call.Allowed

/-- The call does not free a span that has tags without them. -/
def Call.KeepsTags (t : ObTrace) : Call → Prop
  | .resetSpan => t.Started → ∀ i ∈ t.currentSpans, (t.spans i).tags = none
  | .endTrace _ => ∀ i ∈ t.currentSpans, (t.spans i).tags = none
  | _ => True

instance (t : ObTrace) : (c : Call) → Decidable (c.KeepsTags t)
  | .resetSpan => inferInstanceAs (Decidable (t.Started → ∀ i ∈ t.currentSpans, (t.spans i).tags = none))
  | .endTrace _ => inferInstanceAs (Decidable (∀ i ∈ t.currentSpans, (t.spans i).tags = none))
  | .beginTrace _ | .beginSpan _ _ _ | .appendTag _ _ _ | .endSpan _ _ _ _ | .flushTrace | .flushFirstSpan _ =>
    .isTrue trivial

/-- Every call of a run keeps the tags. -/
abbrev KeepsTags : ObTrace → List Call → Prop := Along Call.step Call.KeepsTags

theorem tagsOf_eq_nil_iff (t : ObTrace) (i : SpanIx) : t.tagsOf i = [] ↔ (t.spans i).tags = none := by
  rw [ObTrace.tagsOf]
  cases (t.spans i).tags with
  | none => exact iff_of_true rfl rfl
  | some k => exact iff_of_false (cons_ne_nil _ _) (by simp)

theorem flatMap_tagsOf_eq_nil_iff (t : ObTrace) :
    t.currentSpans.flatMap t.tagsOf = [] ↔ ∀ i ∈ t.currentSpans, (t.spans i).tags = none := by
  simp only [flatMap_eq_nil_iff, tagsOf_eq_nil_iff]

theorem Call.lost_eq_nil_iff (t : ObTrace) (c : Call) : c.lost t = [] ↔ c.KeepsTags t := by
  cases c with
  | resetSpan =>
    rw [Call.lost, Call.KeepsTags, ← flatMap_tagsOf_eq_nil_iff]
    by_cases hstarted : t.Started
    · rw [if_pos hstarted]
      exact ⟨fun h _ => h, fun h => h hstarted⟩
    rw [if_neg hstarted]
    exact iff_of_true rfl fun h => absurd h hstarted
  | endTrace now => exact flatMap_tagsOf_eq_nil_iff t
  | beginTrace _ | beginSpan _ _ _ | appendTag _ _ _ | endSpan _ _ _ _ | flushTrace | flushFirstSpan _ =>
    exact iff_of_true rfl trivial

/-- **What a run does**: it ends, keeps lists and buffers in order, and loses tags unless every call
keeps them. -/
theorem runCalls_spec (hr : Represents t p) (hbufs : BuffersOk t) {calls : List Call}
    (hallowed : AllowedRun t calls) :
    ∃ t' p' lost, runCalls t calls = .ok t' ∧ Represents t' p' ∧ BuffersOk t' ∧ Pools.PoolSteps p lost p' ∧
      (lost = [] ↔ KeepsTags t calls) := by
  induction calls generalizing t p with
  | nil => exact ⟨t, p, [], rfl, hr, hbufs, .refl p, iff_of_true rfl trivial⟩
  | cons c calls ih =>
    obtain ⟨t1, events, p1, lost1, hrun1, hr1, hbufs1, hsteps1, hlost1⟩ := Call.run_spec hr hbufs hallowed.1
    obtain ⟨t2, p2, lost2, hrun2, hr2, hbufs2, hsteps2, hlost2⟩ := ih hr1 hbufs1 (hallowed.2 t1 (Call.step_eq hrun1))
    refine ⟨t2, p2, lost2 ++ lost1, ?_, hr2, hbufs2, hsteps1.trans hsteps2, ?_⟩
    · exact (runAll_cons (Call.step_eq hrun1)).trans hrun2
    · have hnil : lost1 = [] ↔ c.KeepsTags t := by
        rw [← c.lost_eq_nil_iff t]
        constructor
        · rintro rfl
          exact hlost1.symm.eq_nil
        · intro h
          rw [h] at hlost1
          exact hlost1.eq_nil
      rw [append_eq_nil_iff, hnil, hlost2, and_comm]
      exact (along_cons_iff (Call.step_eq hrun1)).symm

theorem runCalls_sound {t : ObTrace} (h : Sound t) {calls : List Call} (hallowed : AllowedRun t calls) :
    ∃ t', runCalls t calls = .ok t' ∧ Sound t' := by
  refine runAll_invariant ?_ h hallowed
  intro t c ht hc
  obtain ⟨t', events, hrun, ht'⟩ := c.run_sound ht hc
  exact ⟨t', Call.step_eq hrun, ht'⟩

theorem traceInit_sound (raw : RawTrace) : Sound (traceInit raw) :=
  ⟨traceInit_buffersOk raw, initPools, traceInit_represents raw⟩

/-- Every span is in exactly one of the two lists, and every tag in exactly one of the free list and
the lists of the current spans. -/
def Conserved (t : ObTrace) : Prop := ∃ p, Represents t p ∧ ∀ k, k ∈ p.held

/-- What a trace holds can be read off its lists. -/
theorem Represents.held_eq (h : Represents t p) : p.held = t.freeTags ++ t.currentSpans.flatMap t.tagsOf := by
  have hfree : t.freeTags = p.freeTags :=
    tagsFrom_eq h.freeTags (length_le_of_nodup (nodup_append.mp h.wellFormed.tagsNodup).1)
  rw [Pools.held, h.flatMap_tagsOf, hfree]

/-- From pools that hold all tags, exactly the steps that lose none lead to pools that hold all. -/
theorem Pools.PoolSteps.all_held_iff {p' : Pools SpanIx TagIx} {lost : List TagIx} (hwf : p.WellFormed)
    (hall : ∀ k, k ∈ p.held) (h : Pools.PoolSteps p lost p') : (∀ k, k ∈ p'.held) ↔ lost = [] := by
  have hperm := h.accounted hwf
  have hnodup := hperm.nodup hwf.tagsNodup
  constructor
  · intro hall'
    rw [eq_nil_iff_forall_not_mem]
    intro k hk
    exact (nodup_append.mp hnodup).2.2 k (hall' k) k hk rfl
  · rintro rfl k
    rw [append_nil] at hperm
    exact hperm.mem_iff.mp (hall k)

/-- **Which runs keep all records.** -/
theorem conserved_iff_keepsTags (raw : RawTrace) {calls : List Call} (hallowed : AllowedRun (traceInit raw) calls) :
    ∃ t, runCalls (traceInit raw) calls = .ok t ∧ (Conserved t ↔ KeepsTags (traceInit raw) calls) := by
  have hinit := traceInit_represents raw
  have hall k : k ∈ initPools.held :=
    mem_append_left _ (mem_reverse.mpr (mem_finRange k))
  obtain ⟨t, p, lost, hrun, hr, -, hsteps, hlost⟩ := runCalls_spec hinit (traceInit_buffersOk raw) hallowed
  refine ⟨t, hrun, ?_⟩
  rw [← hlost, ← hsteps.all_held_iff hinit.wellFormed hall]
  constructor
  · rintro ⟨p', hr', hheld⟩
    rw [hr.held_eq, ← hr'.held_eq]
    exact hheld
  · intro hheld
    exact ⟨p, hr, hheld⟩

/-- Memory of zeros, and a seed. -/
def zeroMemory : RawTrace where
  logBuf := List.replicate maxTraceLogSize 0
  showTraceBuf := List.replicate maxTraceLogSize 0
  links := fun _ => ⟨none, none⟩
  spans := fun _ => ⟨⟨0, 0⟩, none, false, 0, 0, none⟩
  tags := fun _ => ⟨none, .commandName, emptyText⟩
  seed := (1, 2)
  logBufLen := length_replicate
  showTraceBufLen := length_replicate

/-- What a command of 100 µs does under `RP_ONLY_SLOW_QUERY`, up to the decision to print. -/
def aCommand (slowQueryThreshold : Int) : List Call :=
  [.beginTrace ⟨true, false, .onlySlowQuery, 1, true, false, 1700000000⟩, .beginSpan 1 false 1700000000000000,
    .appendTag 3 .commandName (some ⟨[113], by decide⟩), .endSpan (some 3) .onlySlowQuery slowQueryThreshold
      1700000000000100]

/-- **No run does harm**: whatever allowed calls follow `trace_init`, they end, every span is in exactly one
of the two lists, no tag is held twice, and both texts end inside their buffers. -/
theorem runCalls_harmless (raw : RawTrace) {calls : List Call} (hallowed : AllowedRun (traceInit raw) calls) :
    ∃ t, runCalls (traceInit raw) calls = .ok t ∧
      (t.currentSpans ++ spansFrom t.links spanCacheCount t.freeSpanList).Perm (finRange spanCacheCount) ∧
      (t.freeTags ++ t.currentSpans.flatMap t.tagsOf).Nodup ∧
      t.logBufOffset < maxTraceLogSize ∧ t.showTraceBufOffset < maxTraceLogSize := by
  obtain ⟨t, hrun, hbufs, p, hr⟩ := runCalls_sound (traceInit_sound raw) hallowed
  have hspans := hr.wellFormed.spansNodup
  have hfree := spansFrom_eq hr.free (length_le_of_nodup (nodup_append.mp hspans).2.1)
  refine ⟨t, hrun, ?_, ?_, hbufs.logOffset, hbufs.showOffset⟩
  · rw [hr.currentSpans_eq, hfree, perm_ext_iff_of_nodup hspans (nodup_finRange _)]
    exact fun i => iff_of_true (hr.wellFormed.spansAll i) (mem_finRange i)
  · rw [← hr.held_eq]
    exact hr.wellFormed.tagsNodup

theorem aCommand_harmless : ∃ t, runCalls (traceInit zeroMemory) (aCommand 50) = .ok t ∧
    (t.freeTags ++ t.currentSpans.flatMap t.tagsOf).Nodup := by
  have hallowed : AllowedRun (traceInit zeroMemory) (aCommand 50) := by decide +kernel
  obtain ⟨t, hrun, -, hnodup, -⟩ := runCalls_harmless zeroMemory hallowed
  exact ⟨t, hrun, hnodup⟩

/-- A slow command is printed, and its tag comes back. -/
theorem slowCommand_conserved :
    AllowedRun (traceInit zeroMemory) (aCommand 50 ++ [.flushFirstSpan emptyText, .endTrace fun _ => 0]) ∧
      ∃ t, runCalls (traceInit zeroMemory) (aCommand 50 ++ [.flushFirstSpan emptyText, .endTrace fun _ => 0]) = .ok t ∧
        Conserved t := by
  have hallowed : AllowedRun (traceInit zeroMemory) (aCommand 50 ++ [.flushFirstSpan emptyText, .endTrace fun _ => 0]) := by
    decide +kernel
  obtain ⟨t, hrun, hiff⟩ := conserved_iff_keepsTags zeroMemory hallowed
  exact ⟨hallowed, t, hrun, hiff.mpr (by decide +kernel)⟩

/-- A fast command is not printed, and the tag of its span is in no list afterwards. -/
theorem fastCommand_losesTag :
    ∃ t, runCalls (traceInit zeroMemory) (aCommand 1000 ++ [.endTrace fun _ => 0]) = .ok t ∧ ¬Conserved t := by
  have hlist : ((runCalls (traceInit zeroMemory) (aCommand 1000 ++ [.endTrace fun _ => 0])).toOption.map
      fun t => decide (15 ∈ t.freeTags ++ t.currentSpans.flatMap t.tagsOf)) = some false := by decide +kernel
  obtain ⟨t, hrun, htags⟩ := Option.map_eq_some_iff.mp hlist
  refine ⟨t, toOption_eq_some_iff.mp hrun, ?_⟩
  rintro ⟨p, hr, hheld⟩
  have htag := hheld 15
  rw [hr.held_eq] at htag
  exact of_decide_eq_false htags htag

end ObConnector.Trace
