/-
# ObConnector.Trace.FlushOnce -- when a flush logs every span once.

`flush_trace` always looks at the first current span and leaves it in front unless it has ended. So a
span that has not ended is logged again and again, until its record no longer fits the log, and the
ended spans behind it are never reached. An ended span in turn is retired only when its record, one
byte longer, also fits the show-trace buffer.

`FlushesOnce` is what a flush is for: one record for a span, ended spans freed, running ones kept, and no
ended span left when there is room for its record and for those of the spans in front of it. `Orderly` is
exactly when it does that (`flushTrace_once_iff`): the records of the ended spans in front never fit the
log alone, and the first running span, if the flush reaches it, fits the log once but not twice and keeps
no ended span waiting for which there is room.
-/
import ObConnector.Trace.Conserve

namespace ObConnector.Trace

open Lib List

/-! ## Room -/

/-- The records of the jobs are known and fit the log together. -/
def LogFits (log : Nat) (js : List Job) : Prop :=
  (∀ j ∈ js, j.size ≠ none) ∧ log + (js.map fun j => j.size.getD 0).sum < maxTraceLogSize

/-- The records, with a comma each, fit the show-trace buffer. -/
def ShowFits (show_ : Nat) (js : List Job) : Prop :=
  show_ + (js.map fun j => j.size.getD 0 + 1).sum < maxTraceLogSize

/-- There is room for a record of every one of the jobs. -/
def RoomForAll (log show_ : Nat) (js : List Job) : Prop :=
  LogFits log js ∧ ShowFits show_ (js.filter Job.ended)

section Room

variable {log show_ n : Nat} {j : Job} {js : List Job}

/-- Room for a job and those behind it. -/
theorem logFits_cons (hsize : j.size = some n) : LogFits log (j :: js) ↔ LogFits (log + n) js := by
  simp only [LogFits, mem_cons, forall_eq_or_imp, hsize, map_cons, sum_cons, Option.getD_some]
  simp only [ne_eq, reduceCtorEq, not_false_eq_true, true_and, add_assoc]

theorem LogFits.head (h : LogFits log (j :: js)) : ∃ n, j.size = some n ∧ log + n < maxTraceLogSize := by
  obtain ⟨hsizes, hfit⟩ := h
  obtain ⟨n, hn⟩ := Option.ne_none_iff_exists'.mp (hsizes j mem_cons_self)
  refine ⟨n, hn, ?_⟩
  simp only [map_cons, sum_cons, hn, Option.getD_some] at hfit
  omega

theorem showFits_cons (hsize : j.size = some n) : ShowFits show_ (j :: js) ↔ ShowFits (show_ + (n + 1)) js := by
  simp only [ShowFits, hsize, map_cons, sum_cons, Option.getD_some, add_assoc]

theorem ShowFits.head (h : ShowFits show_ (j :: js)) (hsize : j.size = some n) : show_ + (n + 1) < maxTraceLogSize := by
  simp only [ShowFits, hsize, map_cons, sum_cons, Option.getD_some] at h
  omega

theorem roomForAll_cons_ended (hsize : j.size = some n) (hended : j.ended = true) :
    RoomForAll log show_ (j :: js) ↔ RoomForAll (log + n) (show_ + (n + 1)) js := by
  rw [RoomForAll, RoomForAll, logFits_cons hsize, filter_cons_of_pos hended, showFits_cons hsize]

end Room

/-! ## Jobs done once -/

/-- What a flush of the jobs is for, when it logs the spans `result.1` and leaves the jobs `result.2`. -/
structure DoneOnce (log show_ : Nat) (js : List Job) (result : List SpanIx × List Job) : Prop where
  once : result.1.Nodup
  freed : ∀ j ∈ js, j.ended = true → j.span ∈ result.1 → j.span ∉ result.2.map Job.span
  stays : ∀ j ∈ js, j.ended = false → j.span ∈ result.2.map Job.span
  all : ∀ front rest, js = front ++ rest → RoomForAll log show_ front →
    ∀ j ∈ front, j.ended = true → j.span ∉ result.2.map Job.span

/-- Records in front never fit the log alone, and a running span is logged once and blocks nobody. -/
structure Orderly (log show_ : Nat) (js : List Job) : Prop where
  shown : ∀ front rest, js = front ++ rest → (∀ j ∈ front, j.ended = true) → LogFits log front → ShowFits show_ front
  running : ∀ front j rest, js = front ++ j :: rest → (∀ j ∈ front, j.ended = true) → j.ended = false →
    LogFits log (front ++ [j]) →
      ¬LogFits log (front ++ [j, j]) ∧
        ∀ behind rest', rest = behind ++ rest' → RoomForAll log show_ (front ++ j :: behind) →
          ∀ j ∈ behind, j.ended = false

section Jobs

variable {log show_ n : Nat} {j : Job} {js : List Job}

/-- What is left is the end of what was there. -/
theorem flushJobs_suffix (fuel : Nat) (js : List Job) (log show_ : Nat) :
    (flushJobs fuel js log show_).2 <:+ js := by
  fun_induction flushJobs fuel js log show_ with
  | case6 _ _ _ _ _ _ _ _ _ _ ih => exact ih.trans (suffix_cons _ _)
  | case7 _ _ _ _ _ _ _ _ _ ih => exact ih
  | _ => exact suffix_rfl

theorem flushJobs_subset (fuel : Nat) (js : List Job) (log show_ : Nat) :
    (flushJobs fuel js log show_).1 ⊆ js.map Job.span := by
  fun_induction flushJobs fuel js log show_ with
  | case5 => simp
  | case6 _ _ _ _ _ _ _ _ _ _ ih => exact cons_subset_cons _ ih
  | case7 _ _ _ _ _ _ _ _ _ ih => exact cons_subset.mpr ⟨mem_cons_self, ih⟩
  | _ => exact nil_subset _

theorem orderly_nil (hshow : show_ < maxTraceLogSize) : Orderly log show_ [] := by
  refine ⟨?_, ?_⟩
  · intro front rest h _ _
    obtain ⟨rfl, rfl⟩ := append_eq_nil_iff.mp h.symm
    simpa [ShowFits] using hshow
  · intro front j rest h
    simp at h

/-- The first job does not get into the log. -/
theorem orderly_of_stop (hstop : ∀ n, j.size = some n → maxTraceLogSize ≤ log + n) (hshow : show_ < maxTraceLogSize) :
    Orderly log show_ (j :: js) := by
  have hnot front rest (h : j :: js = front ++ rest) (hne : front ≠ []) :
      ¬LogFits log front := by
    intro hfits
    cases front with
    | nil => exact hne rfl
    | cons j' front =>
      cases h
      obtain ⟨n, hn, hlt⟩ := hfits.head
      exact absurd (hstop n hn) (by omega)
  refine ⟨?_, ?_⟩
  · intro front rest h _ hfits
    cases front with
    | nil => simpa [ShowFits] using hshow
    | cons j' front => exact absurd hfits (hnot _ rest h (cons_ne_nil _ _))
  · intro front j' rest h _ _ hfits
    refine absurd hfits (hnot _ rest ?_ (by simp))
    rw [h, append_assoc, singleton_append]

theorem doneOnce_of_stop (hstop : ∀ n, j.size = some n → maxTraceLogSize ≤ log + n) :
    DoneOnce log show_ (j :: js) ([], j :: js) where
  once := nodup_nil
  freed := fun _ _ _ h => absurd h not_mem_nil
  stays := fun _ hj' _ => mem_map_of_mem hj'
  all := by
    intro front rest h hroom j' hj'
    cases front with
    | nil => exact absurd hj' not_mem_nil
    | cons j'' front =>
      cases h
      obtain ⟨n, hn, hlt⟩ := hroom.1.head
      exact absurd (hstop n hn) (by omega)

/-- An ended span is retired, and the rest is done with less room. -/
theorem orderly_cons_ended (hsize : j.size = some n) (hended : j.ended = true)
    (hshow : show_ + (n + 1) < maxTraceLogSize) :
    Orderly log show_ (j :: js) ↔ Orderly (log + n) (show_ + (n + 1)) js := by
  constructor
  · rintro ⟨hshown, hrunning⟩
    refine ⟨?_, ?_⟩
    · intro front rest h hfront hlog
      have hcons := hshown (j :: front) rest (by rw [h]; rfl) (forall_mem_cons.mpr ⟨hended, hfront⟩)
        ((logFits_cons hsize).mpr hlog)
      exact (showFits_cons hsize).mp hcons
    · intro front j' rest h hfront hj' hlog
      obtain ⟨htwice, hblock⟩ := hrunning (j :: front) j' rest (by rw [h]; rfl)
        (forall_mem_cons.mpr ⟨hended, hfront⟩) hj' ((logFits_cons hsize).mpr hlog)
      rw [cons_append, logFits_cons hsize] at htwice
      exact ⟨htwice, fun behind rest' h hroom =>
        hblock behind rest' h ((roomForAll_cons_ended hsize hended).mpr hroom)⟩
  · rintro ⟨hshown, hrunning⟩
    refine ⟨?_, ?_⟩
    · intro front rest h hfront hlog
      cases front with
      | nil =>
        show show_ + 0 < maxTraceLogSize
        omega
      | cons j' front =>
        cases h
        exact (showFits_cons hsize).mpr
          (hshown front rest rfl (fun k hk => hfront k (mem_cons_of_mem _ hk)) ((logFits_cons hsize).mp hlog))
    · intro front j' rest h hfront hj' hlog
      cases front with
      | nil =>
        cases h
        rw [hended] at hj'
        cases hj'
      | cons j'' front =>
        cases h
        rw [cons_append, logFits_cons hsize] at hlog
        rw [cons_append, logFits_cons hsize]
        obtain ⟨htwice, hblock⟩ := hrunning front j' rest rfl (fun k hk => hfront k (mem_cons_of_mem _ hk)) hj' hlog
        exact ⟨htwice, fun behind rest' h hroom =>
          hblock behind rest' h ((roomForAll_cons_ended hsize hended).mp hroom)⟩

theorem doneOnce_cons_ended (hspans : (j.span :: js.map Job.span).Nodup) (hsize : j.size = some n)
    (hended : j.ended = true) {result : List SpanIx × List Job} (hlogged : result.1 ⊆ js.map Job.span)
    (hleft : result.2 <:+ js) :
    DoneOnce log show_ (j :: js) (j.span :: result.1, result.2) ↔ DoneOnce (log + n) (show_ + (n + 1)) js result := by
  have hj : j.span ∉ js.map Job.span := (nodup_cons.mp hspans).1
  have hnotLeft : j.span ∉ result.2.map Job.span := fun h => hj (map_subset _ hleft.subset h)
  have hne {j' : Job} (hj' : j' ∈ js) : j'.span ≠ j.span := by
    intro h
    rw [← h] at hj
    exact hj (mem_map_of_mem hj')
  constructor
  · rintro ⟨honce, hfreed, hstays, hall⟩
    refine ⟨(nodup_cons.mp honce).2, ?_, ?_, ?_⟩
    · intro j' hj' he hm
      exact hfreed j' (mem_cons_of_mem _ hj') he (mem_cons_of_mem _ hm)
    · intro j' hj' he
      exact hstays j' (mem_cons_of_mem _ hj') he
    · intro front rest h hroom j' hj' he
      exact hall (j :: front) rest (by rw [h]; rfl) ((roomForAll_cons_ended hsize hended).mpr hroom) j'
        (mem_cons_of_mem _ hj') he
  · rintro ⟨honce, hfreed, hstays, hall⟩
    refine ⟨nodup_cons.mpr ⟨fun h => hj (hlogged h), honce⟩, ?_, ?_, ?_⟩
    · intro j' hj' he hm
      rcases mem_cons.mp hj' with rfl | hj'
      · exact hnotLeft
      · exact hfreed j' hj' he ((mem_cons.mp hm).resolve_left (hne hj'))
    · intro j' hj' he
      rcases mem_cons.mp hj' with rfl | hj'
      · rw [hended] at he
        cases he
      · exact hstays j' hj' he
    · intro front rest h hroom j' hj' he
      cases front with
      | nil => exact absurd hj' not_mem_nil
      | cons j'' front =>
        cases h
        rcases mem_cons.mp hj' with rfl | hj'
        · exact hnotLeft
        · exact hall front rest rfl ((roomForAll_cons_ended hsize hended).mp hroom) j' hj' he

/-- A running span in front that is logged: once is fine, unless it keeps an ended span waiting. -/
theorem orderly_cons_running (hsize : j.size = some n) (hfits : log + n < maxTraceLogSize) (hrunning : j.ended = false)
    (hshow : show_ < maxTraceLogSize) :
    Orderly log show_ (j :: js) ↔
      maxTraceLogSize ≤ log + n + n ∧
        ∀ behind rest, js = behind ++ rest → RoomForAll log show_ (j :: behind) → ∀ j' ∈ behind, j'.ended = false := by
  have honce : LogFits log [j] := by
    rw [logFits_cons hsize]
    exact ⟨fun _ h => absurd h not_mem_nil, hfits⟩
  have htwice : LogFits log [j, j] ↔ log + n + n < maxTraceLogSize := by
    rw [logFits_cons hsize, logFits_cons hsize, LogFits]
    simp
  constructor
  · rintro ⟨-, hrun⟩
    obtain ⟨hnot, hblock⟩ := hrun [] j js rfl (fun _ h => absurd h not_mem_nil) hrunning honce
    rw [nil_append, htwice] at hnot
    exact ⟨by omega, hblock⟩
  · rintro ⟨hfull, hblock⟩
    refine ⟨?_, ?_⟩
    · intro front rest h hfront _
      cases front with
      | nil => simpa [ShowFits] using hshow
      | cons j' front =>
        cases h
        rw [hfront j mem_cons_self] at hrunning
        cases hrunning
    · intro front j' rest h hfront hj' _
      cases front with
      | nil =>
        cases h
        rw [nil_append, htwice]
        exact ⟨by omega, hblock⟩
      | cons j'' front =>
        cases h
        rw [hfront j mem_cons_self] at hrunning
        cases hrunning

/-- **Jobs are done once exactly when they are orderly.** -/
theorem flushJobs_doneOnce_iff {fuel : Nat} (hspans : (js.map Job.span).Nodup)
    (hpos : ∀ j ∈ js, ∀ n, j.size = some n → 1 ≤ n) (hlog : log < maxTraceLogSize) (hshow : show_ < maxTraceLogSize)
    (hfuel : maxTraceLogSize - log < fuel) :
    DoneOnce log show_ js (flushJobs fuel js log show_) ↔ Orderly log show_ js := by
  induction js generalizing fuel log show_ with
  | nil =>
    have hdone : DoneOnce log show_ [] (flushJobs fuel [] log show_) := by
      have hall : ∀ front rest : List Job, [] = front ++ rest → RoomForAll log show_ front →
          ∀ j ∈ front, j.ended = true → j.span ∉ ([] : List SpanIx) := fun _ _ _ _ _ _ _ => not_mem_nil
      cases fuel <;> exact ⟨nodup_nil, by simp, by simp, hall⟩
    exact iff_of_true hdone (orderly_nil hshow)
  | cons j js ih =>
    obtain ⟨fuel, rfl⟩ : ∃ f, fuel = f + 2 := ⟨fuel - 2, by omega⟩
    by_cases hstop : ∀ n, j.size = some n → maxTraceLogSize ≤ log + n
    · rw [flushJobs_stop hstop]
      exact ⟨fun _ => orderly_of_stop hstop hshow, fun _ => doneOnce_of_stop hstop⟩
    push Not at hstop
    obtain ⟨n, hsize, hfits⟩ := hstop
    have hn : 1 ≤ n := hpos j mem_cons_self n hsize
    cases hj : j.ended with
    | true =>
      by_cases hfull : maxTraceLogSize ≤ show_ + (n + 1)
      · -- logged, but still current
        rw [flushJobs_showFull hsize hfits hj hfull]
        refine ⟨fun h => absurd (mem_map_of_mem mem_cons_self)
          (h.freed j mem_cons_self hj mem_cons_self), fun h => ?_⟩
        have hfront := h.shown [j] js rfl (by simpa using hj) ((logFits_cons hsize).mpr ⟨by simp, by simpa using hfits⟩)
        exact absurd (hfront.head hsize) (by omega)
      rw [flushJobs_ended hsize hfits hj (by omega), orderly_cons_ended hsize hj (by omega),
        doneOnce_cons_ended hspans hsize hj (flushJobs_subset _ _ _ _) (flushJobs_suffix _ _ _ _)]
      exact ih (nodup_cons.mp hspans).2 (fun k hk => hpos k (mem_cons_of_mem _ hk)) hfits (by omega)
        (by omega)
    | false =>
      rw [flushJobs_running hsize hfits hj, orderly_cons_running hsize hfits hj hshow]
      by_cases htwice : maxTraceLogSize ≤ log + n + n
      · rw [flushJobs_stop (by rw [hsize]; rintro _ ⟨⟩; exact htwice)]
        refine ⟨fun h => ⟨htwice, ?_⟩, fun ⟨_, hblock⟩ => ⟨nodup_singleton _, ?_, ?_, ?_⟩⟩
        · intro behind rest hsplit hroom j' hj'
          by_contra hne
          have hjs : j' ∈ js := by
            rw [hsplit]
            exact mem_append_left _ hj'
          exact h.all (j :: behind) rest (by rw [hsplit]; rfl) hroom j' (mem_cons_of_mem _ hj') (by simpa using hne)
            (mem_map_of_mem (mem_cons_of_mem _ hjs))
        · intro j' hj' he hm
          rw [mem_singleton] at hm
          rcases mem_cons.mp hj' with rfl | hj'
          · rw [hj] at he
            cases he
          have hnodup := (nodup_cons.mp hspans).1
          rw [← hm] at hnodup
          exact absurd (mem_map_of_mem hj') hnodup
        · intro j' hj' _
          exact mem_map_of_mem hj'
        · intro front rest h hroom j' hj' he
          cases front with
          | nil => exact absurd hj' not_mem_nil
          | cons j'' front =>
            cases h
            rcases mem_cons.mp hj' with rfl | hj'
            · rw [hj] at he
              cases he
            rw [hblock front rest rfl hroom j' hj'] at he
            cases he
      · -- the running span is logged a second time
        rw [flushJobs_running hsize (by omega) hj]
        refine ⟨fun h => absurd h.once (by simp), fun ⟨hfull, _⟩ => absurd hfull htwice⟩

end Jobs

/-! ## Flushes -/

/-- The jobs of a trace. -/
def ObTrace.jobs (t : ObTrace) : List Job := t.currentSpans.map fun i => jobWith t (t.tagsOf i) i

/-- What a flush is for. An ended span is freed when there is room for its record and for one record of
every span in front of it, whether that has ended or not. -/
structure FlushedOnce (t t' : ObTrace) (events : List Event) : Prop where
  once : (loggedSpans events).Nodup
  current : ∀ i ∈ loggedSpans events, i ∈ t.currentSpans
  text : t'.logBuf.take t'.logBufOffset = t.logBuf.take t.logBufOffset ++ loggedText events
  freed : ∀ i ∈ t.currentSpans, (t.spans i).endTs ≠ 0 → i ∈ loggedSpans events → i ∈ t'.freeSpans
  stays : ∀ i ∈ t.currentSpans, (t.spans i).endTs = 0 → i ∈ t'.currentSpans
  all : t.Started → ∀ front rest, t.jobs = front ++ rest → RoomForAll t.logBufOffset t.showTraceBufOffset front →
    ∀ j ∈ front, j.ended = true → j.span ∈ t'.freeSpans

/-- A flush ends, and does what it is for. -/
def FlushesOnce (t : ObTrace) : Prop := ∃ t' events, flushTrace t = .ok (t', events) ∧ FlushedOnce t t' events

variable {t : ObTrace} {p : Pools SpanIx TagIx}

theorem Represents.jobs_eq (h : Represents t p) : t.jobs = jobs t p := by
  rw [ObTrace.jobs, h.currentSpans_eq]
  apply map_congr_left
  intro i hi
  rw [h.tagsOf_eq hi]

theorem map_span_jobs (t : ObTrace) (p : Pools SpanIx TagIx) : (jobs t p).map Job.span = p.current := by
  rw [jobs, map_map]
  exact map_id _

theorem Represents.mem_freeSpans_iff (h : Represents t p) {i : SpanIx} : i ∈ t.freeSpans ↔ i ∉ t.currentSpans := by
  rw [h.freeSpans_eq, h.currentSpans_eq]
  constructor
  · intro hfree hcur
    exact (nodup_append.mp h.wellFormed.spansNodup).2.2 i hcur i hfree rfl
  · intro hcur
    exact (mem_append.mp (h.wellFormed.spansAll i)).resolve_left hcur

/-- A flush does what it is for when its jobs are done once. -/
theorem Looped.flushedOnce_iff {t' : ObTrace} {events : List Event} {result : List SpanIx × List Job}
    (hr : Represents t p) (h : Looped t p t' events result) (hlogged : result.1 ⊆ (jobs t p).map Job.span)
    (hstarted : t.Started) :
    FlushedOnce t t' events ↔ DoneOnce t.logBufOffset t.showTraceBufOffset (jobs t p) result := by
  obtain ⟨hbufs, htext, hspans, p', hr', hsteps, hleft⟩ := h
  have hcur' : t'.currentSpans = result.2.map Job.span := by rw [hr'.currentSpans_eq, ← hleft, map_span_jobs]
  have hfree {i : SpanIx} : i ∈ t'.freeSpans ↔ i ∉ result.2.map Job.span := by rw [hr'.mem_freeSpans_iff, hcur']
  have hforall {P : Job → Prop} : (∀ j ∈ jobs t p, P j) ↔ ∀ i ∈ t.currentSpans, P (jobWith t (p.tags i) i) := by
    rw [hr.currentSpans_eq, jobs, forall_mem_map]
  have hended i : (jobWith t (p.tags i) i).ended = true ↔ (t.spans i).endTs ≠ 0 := by simp [jobWith]
  have hrunning i : (jobWith t (p.tags i) i).ended = false ↔ (t.spans i).endTs = 0 := by simp [jobWith]
  constructor
  · rintro ⟨honce, -, -, hfreed, hstays, hall⟩
    rw [hspans] at honce
    rw [hspans] at hfreed
    rw [hcur'] at hstays
    refine ⟨honce, ?_, ?_, ?_⟩
    · rw [hforall]
      intro i hi he hm
      exact hfree.mp (hfreed i hi ((hended i).mp he) hm)
    · rw [hforall]
      intro i hi he
      exact hstays i hi ((hrunning i).mp he)
    · intro front rest h hroom j hj he
      exact hfree.mp (hall hstarted front rest (hr.jobs_eq.trans h) hroom j hj he)
  · rintro ⟨honce, hfreed, hstays, hall⟩
    rw [hforall] at hfreed hstays
    refine ⟨by rw [hspans]; exact honce, ?_, htext, ?_, ?_, ?_⟩
    · intro i hi
      rw [hspans] at hi
      rw [hr.currentSpans_eq, ← map_span_jobs t p]
      exact hlogged hi
    · intro i hi he hm
      rw [hspans] at hm
      exact hfree.mpr (hfreed i hi ((hended i).mpr he) hm)
    · intro i hi he
      rw [hcur']
      exact hstays i hi ((hrunning i).mpr he)
    · intro _ front rest h hroom j hj he
      exact hfree.mpr (hall front rest (hr.jobs_eq.symm.trans h) hroom j hj he)

/-- A flush of a trace that was not started does nothing. -/
theorem flushesOnce_of_not_started (h : ¬t.Started) : FlushesOnce t := by
  refine ⟨t, [], if_neg h, nodup_nil, fun _ hi => absurd hi not_mem_nil, (append_nil _).symm,
    fun _ _ _ hi => absurd hi not_mem_nil, fun _ hi _ => hi, fun hs => absurd hs h⟩

theorem jobs_size_pos : ∀ j ∈ jobs t p, ∀ n, j.size = some n → 1 ≤ n := by
  intro j hj n hn
  obtain ⟨i, -, rfl⟩ := mem_map.mp hj
  exact sizeWith_pos hn

/-- A flush of a started trace, through its jobs. -/
theorem flushesOnce_iff_orderly (h : Sound t) (hstarted : t.Started) :
    FlushesOnce t ↔ Orderly t.logBufOffset t.showTraceBufOffset t.jobs := by
  obtain ⟨hbufs, p, hr⟩ := h
  obtain ⟨t', events, hrun, hlooped⟩ := @flushLoop_spec t p hr hbufs (maxTraceLogSize + 1) (by omega)
  have hflush : flushTrace t = .ok (t', events) := by rw [flushTrace, if_pos hstarted, hrun]
  have hnodup : ((jobs t p).map Job.span).Nodup := by
    rw [map_span_jobs]
    exact (nodup_append.mp hr.wellFormed.spansNodup).1
  have honce := hlooped.flushedOnce_iff hr (flushJobs_subset _ _ _ _) hstarted
  rw [flushJobs_doneOnce_iff hnodup jobs_size_pos hbufs.logOffset hbufs.showOffset (by omega)] at honce
  rw [hr.jobs_eq, ← honce]
  constructor
  · rintro ⟨t'', events', hflush', hdone⟩
    rw [hflush] at hflush'
    cases hflush'
    exact hdone
  · intro hdone
    exact ⟨t', events, hflush, hdone⟩

/-- Two spans, the outer one ended, the inner one not. -/
def twoSpans : List Call :=
  [.beginTrace ⟨true, false, .all, 1, true, false, 1700000000⟩, .beginSpan 1 false 1700000000000000,
    .beginSpan 1 false 1700000000000050, .endSpan (some 3) .all 50 1700000000000100]

end ObConnector.Trace
