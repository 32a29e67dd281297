/-
# ObConnector.Trace.FlushLoop -- a flush as a loop over jobs.

What `flush_trace` does is decided by three things it finds for every current span: which span it is,
whether it has ended and how long its record is (`Job`). `flushJobs` is the loop over these alone, and
`flushLoop_spec` says that the code runs it: the same spans are logged, the same ones stay current, the
logged texts stand behind each other in the log buffer, and on the way only ended spans were retired.
-/
import ObConnector.Trace.Flush

namespace ObConnector.Trace

open Lib List

/-! ## Jobs -/

/-- A current span, as a flush sees it. -/
structure Job where
  span : SpanIx
  ended : Bool
  size : Option Nat
  deriving DecidableEq, Repr

/-- The job of a span that has the tags `ks`. -/
def jobWith (t : ObTrace) (ks : List TagIx) (i : SpanIx) : Job :=
  ⟨i, (t.spans i).endTs ≠ 0, sizeWith emptyText t.tags (t.spans i) ks⟩

/-- The jobs of the current spans. -/
def jobs (t : ObTrace) (p : Pools SpanIx TagIx) : List Job := p.current.map fun i => jobWith t (p.tags i) i

/-- The loop of `flush_trace` over jobs: the spans that are logged and the jobs that are left. -/
def flushJobs : Nat → List Job → Nat → Nat → List SpanIx × List Job
  | 0, js, _, _ => ([], js)
  | _ + 1, [], _, _ => ([], [])
  | fuel + 1, j :: js, log, show_ =>
    match j.size with
    | none => ([], j :: js)
    | some n =>
      if maxTraceLogSize ≤ log + n then ([], j :: js)
      else if j.ended then
        if maxTraceLogSize ≤ show_ + (n + 1) then ([j.span], j :: js)
        else (j.span :: (flushJobs fuel js (log + n) (show_ + (n + 1))).1,
          (flushJobs fuel js (log + n) (show_ + (n + 1))).2)
      else (j.span :: (flushJobs fuel (j :: js) (log + n) show_).1, (flushJobs fuel (j :: js) (log + n) show_).2)

section Steps

variable {fuel log show_ n : Nat} {j : Job} {js : List Job}

/-- A record that cannot be rendered or does not fit the log ends the flush. -/
theorem flushJobs_stop (hsize : ∀ n, j.size = some n → maxTraceLogSize ≤ log + n) :
    flushJobs (fuel + 1) (j :: js) log show_ = ([], j :: js) := by
  rw [flushJobs]
  cases hj : j.size with
  | none => rfl
  | some n => exact if_pos (hsize n hj)

section

variable (hsize : j.size = some n) (hfits : log + n < maxTraceLogSize)
include hsize hfits

/-- A record that does not fit the show-trace buffer ends the flush as well, but it is in the log. -/
theorem flushJobs_showFull (hended : j.ended = true) (hfull : maxTraceLogSize ≤ show_ + (n + 1)) :
    flushJobs (fuel + 1) (j :: js) log show_ = ([j.span], j :: js) := by
  rw [flushJobs, hsize]
  dsimp only
  rw [if_neg (by omega), if_pos hended, if_pos hfull]

/-- An ended span is retired. -/
theorem flushJobs_ended (hended : j.ended = true) (hshow : show_ + (n + 1) < maxTraceLogSize) :
    flushJobs (fuel + 1) (j :: js) log show_ = (j.span :: (flushJobs fuel js (log + n) (show_ + (n + 1))).1,
        (flushJobs fuel js (log + n) (show_ + (n + 1))).2) := by
  rw [flushJobs, hsize]
  dsimp only
  rw [if_neg (by omega), if_pos hended, if_neg (by omega)]

/-- A span that has not ended stays in front. -/
theorem flushJobs_running (hrunning : j.ended = false) : flushJobs (fuel + 1) (j :: js) log show_ =
      (j.span :: (flushJobs fuel (j :: js) (log + n) show_).1, (flushJobs fuel (j :: js) (log + n) show_).2) := by
  rw [flushJobs, hsize]
  dsimp only
  rw [if_neg (by omega), if_neg (by rw [hrunning]; exact Bool.false_ne_true)]

end

end Steps

variable {i : SpanIx} {ks : List TagIx}

variable {t' t : ObTrace}

/-- Ids do not show in a job. -/
theorem jobWith_congr (hspan : t'.spans i = { t.spans i with spanId  := (t'.spans i).spanId })
    (htags : ∀ k ∈ ks, t'.tags k = t.tags k) :
    jobWith t' ks i = jobWith t ks i := by
  rw [jobWith, jobWith, sizeWith, sizeWith, renderAll_congr htags, hspan]

theorem IdsOnly.jobs (h : IdsOnly t t') (p : Pools SpanIx TagIx) : jobs t' p = jobs t p :=
  map_congr_left fun i _ => jobWith_congr (h.spans i) fun k _ => by rw [h.tags]

/-! ## Events -/

/-- The spans that were logged. -/
def loggedSpans (events : List Event) : List SpanIx :=
  events.filterMap fun
    | .logged i _ => some i
    | _ => none

/-- The texts that were logged, one behind the other. -/
def loggedText (events : List Event) : List UInt8 :=
  events.flatMap fun
    | .logged _ text => text
    | _ => []

@[simp] theorem loggedSpans_append (es es' : List Event) :
    loggedSpans (es ++ es') = loggedSpans es ++ loggedSpans es' := filterMap_append

@[simp] theorem loggedText_append (es es' : List Event) :
    loggedText (es ++ es') = loggedText es ++ loggedText es' := flatMap_append

/-! ## The loop -/

/-- What a part of the loop leaves. -/
structure Looped (t : ObTrace) (p : Pools SpanIx TagIx) (t' : ObTrace) (events : List Event)
    (result : List SpanIx × List Job) : Prop where
  buffersOk : BuffersOk t'
  text : t'.logBuf.take t'.logBufOffset = t.logBuf.take t.logBufOffset ++ loggedText events
  spans : loggedSpans events = result.1
  pools : ∃ p', Represents t' p' ∧ Pools.PoolSteps p [] p' ∧ jobs t' p' = result.2

variable {events : List Event}

/-- A log record stands behind the text so far. -/
theorem LogResult.text {untouched : CStr} {text : Option (List UInt8)}
    (h : LogResult t i ks untouched t' text events) (hbufs : BuffersOk t) :
    t'.logBuf.take t'.logBufOffset = t.logBuf.take t.logBufOffset ++ loggedText events := by
  cases h with
  | unrendered ids size logBuf logOffset showBuf showOffset =>
    rw [logBuf, logOffset]
    exact (append_nil _).symm
  | overflow ids record full logBuf logOffset showBuf showOffset =>
    rw [logBuf, logOffset, take_printAt hbufs.logLen (le_of_lt hbufs.logOffset)]
    exact (append_nil _).symm
  | @logged text ids record fits logBuf logOffset showBuf showOffset =>
    rw [logBuf, logOffset, take_printAt_fits hbufs.logLen hbufs.logOffset fits]
    simp [loggedText]

/-- Why nothing was logged. -/
theorem LogResult.stops (h : LogResult t i ks emptyText t' none events) :
    (∀ n, (jobWith t ks i).size = some n → maxTraceLogSize ≤ t.logBufOffset + n) ∧ loggedSpans events = [] := by
  cases h with
  | unrendered ids size =>
    refine ⟨?_, rfl⟩
    intro n hn
    rw [jobWith, size] at hn
    cases hn
  | overflow ids record full =>
    refine ⟨?_, rfl⟩
    intro n hn
    rw [jobWith, record.size] at hn
    cases hn
    exact full

/-- What a record that was logged tells. -/
theorem LogResult.fits {untouched : CStr} {text : List UInt8}
    (h : LogResult t i ks untouched t' (some text) events) :
    sizeWith untouched t.tags (t.spans i) ks = some text.length ∧ t.logBufOffset + text.length < maxTraceLogSize ∧
      t'.logBufOffset = t.logBufOffset + text.length ∧ t'.showTraceBuf = t.showTraceBuf ∧
      t'.showTraceBufOffset = t.showTraceBufOffset := by
  cases h with
  | logged ids record fits logBuf logOffset showBuf showOffset =>
    exact ⟨record.size, fits, logOffset, showBuf, showOffset⟩

/-- A round that only logged goes in front. -/
theorem Looped.cons_logged {t1 : ObTrace} {p : Pools SpanIx TagIx} {text : List UInt8}
    {result : List SpanIx × List Job} (h : Looped t1 p t' events result)
    (htext : t1.logBuf.take t1.logBufOffset = t.logBuf.take t.logBufOffset ++ loggedText [.logged i text]) :
    Looped t p t' ([.logged i text] ++ events) (i :: result.1, result.2) where
  buffersOk := h.buffersOk
  text := by rw [h.text, htext, loggedText_append, append_assoc]
  spans := by
    rw [loggedSpans_append, h.spans]
    rfl
  pools := h.pools

/-- The jobs behind a retired span are as before. -/
theorem jobs_retire {p : Pools SpanIx TagIx} (hwf : p.WellFormed) {rest : List SpanIx}
    (hcur : p.current = i :: rest)
    (hspans : ∀ j, j ≠ i → t'.spans j = { t.spans j with spanId  := (t'.spans j).spanId })
    (htags : ∀ k, k ∉ p.tags i → t'.tags k = t.tags k) :
    jobs t' (p.retire i rest) = rest.map fun j => jobWith t (p.tags j) j := by
  have hnodup := (nodup_append.mp hwf.spansNodup).1
  rw [hcur] at hnodup
  apply map_congr_left
  intro j hj
  have hji : j ≠ i := by
    rintro rfl
    exact (nodup_cons.mp hnodup).1 hj
  refine jobWith_congr (hspans j hji) ?_
  intro k hk
  apply htags
  exact hwf.tags_disjoint (by rw [hcur]; exact mem_cons_of_mem i hj) (by rw [hcur]; exact mem_cons_self) hji hk

/-- **The loop of `flush_trace` runs the jobs.** Every round that goes on makes the log longer, so the
fuel lasts. -/
theorem flushLoop_spec {t : ObTrace} {p : Pools SpanIx TagIx} (hr : Represents t p) (hbufs : BuffersOk t)
    {fuel : Nat} (hfuel : maxTraceLogSize - t.logBufOffset < fuel) :
    ∃ t' events, flushLoop fuel t = .ok (t', events) ∧
      Looped t p t' events (flushJobs fuel (jobs t p) t.logBufOffset t.showTraceBufOffset) := by
  induction fuel generalizing t p with
  | zero => cases hfuel
  | succ fuel ih =>
    have hhead := hr.currentSpanList_eq
    rw [flushLoop]
    cases hcur : p.current with
    | nil =>
      rw [hhead, hcur]
      have hjobs : jobs t p = [] := by rw [jobs, hcur, map_nil]
      rw [hjobs]
      exact ⟨t, [], rfl, hbufs, (append_nil _).symm, rfl, p, hr, .refl p, hjobs⟩
    | cons i rest =>
      rw [hhead, hcur]
      dsimp only [List.head?_cons]
      have hjobs : jobs t p = jobWith t (p.tags i) i :: rest.map fun j => jobWith t (p.tags j) j := by
        rw [jobs, hcur, map_cons]
      obtain ⟨t1, ok, events, hround, hresult⟩ := flushSpan_result hr hbufs hcur
      rw [hround, ok_bind, hjobs]
      cases hresult with
      | failed log =>
        refine ⟨t1, events, rfl, log.buffersOk hbufs, log.text hbufs, ?_, p, log.ids.represents hr, .refl p, ?_⟩
        · rw [flushJobs_stop log.stops.1]
          exact log.stops.2
        · rw [flushJobs_stop log.stops.1, log.ids.jobs, hjobs]
      | @unfinished _ text log running =>
        have hbufs1 := log.buffersOk hbufs
        have htext := log.text hbufs
        obtain ⟨hsize, hfits, hoff, -, hshow⟩ := log.fits
        have hpos : 1 ≤ text.length := sizeWith_pos hsize
        have hjob : (jobWith t (p.tags i) i).ended = false := by simp [jobWith, running]
        obtain ⟨t2, events, hrun, hlooped⟩ := ih (log.ids.represents hr) hbufs1 (by omega)
        rw [log.ids.jobs, hjobs, hoff, hshow] at hlooped
        rw [hrun, flushJobs_running hsize hfits hjob]
        exact ⟨_, _, rfl, hlooped.cons_logged htext⟩
      | @showFull t2 _ text log ended full eq =>
        obtain ⟨hsize, hfits, hoff, -, hshow⟩ := log.fits
        have hjob : (jobWith t (p.tags i) i).ended = true := by simp [jobWith, ended]
        have hids : IdsOnly t t1 := by
          rw [eq]
          exact ⟨log.ids.links, log.ids.free, log.ids.current, log.ids.freeTag, log.ids.tags, log.ids.spans,
            log.ids.showEnable⟩
        have hbufs1 := log.buffersOk hbufs
        rw [flushJobs_showFull hsize hfits hjob full]
        refine ⟨t1, _, rfl, ?_, ?_, rfl, p, hids.represents hr, .refl p, by rw [hids.jobs, hjobs]⟩
        · rw [eq]
          exact ⟨hbufs1.logLen, hbufs1.logOffset, length_printAt hbufs.showLen hbufs.showOffset _, hbufs1.showOffset⟩
        · rw [eq]
          exact log.text hbufs
      | @retired t2 _ text log ended fits represents logBuf logOffset showBuf showOffset spans tags =>
        obtain ⟨hsize, hfits, hoff, -, -⟩ := log.fits
        have hpos : 1 ≤ text.length := sizeWith_pos hsize
        have hjob : (jobWith t (p.tags i) i).ended = true := by simp [jobWith, ended]
        have hbufs2 := log.buffersOk hbufs
        have hbufs1 : BuffersOk t1 := by
          refine ⟨by rw [logBuf]; exact hbufs2.logLen, by rw [logOffset]; exact hbufs2.logOffset, ?_, ?_⟩
          · rw [showBuf]
            exact length_printAt hbufs.showLen hbufs.showOffset _
          · rw [showOffset]
            exact fits
        have htext := log.text hbufs
        rw [← logBuf, ← logOffset] at htext
        obtain ⟨t3, events, hrun, hlooped⟩ := ih represents hbufs1 (by omega)
        rw [jobs_retire hr.wellFormed hcur spans tags, logOffset, hoff, showOffset] at hlooped
        rw [hrun, flushJobs_ended hsize hfits hjob fits]
        obtain ⟨hbufs3, htext3, hspans3, p', hp', hsteps, hleft⟩ := hlooped
        refine ⟨_, _, rfl, hbufs3, ?_, ?_, p', hp', ?_, hleft⟩
        · rw [htext3, htext]
          simp [loggedText]
        · rw [loggedSpans_append, hspans3]
          rfl
        · exact .step (.retire hcur) hsteps

end ObConnector.Trace
