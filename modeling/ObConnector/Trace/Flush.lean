/-
# ObConnector.Trace.Flush -- one round of a flush.

A round of `flush_trace` renders the tags of the first current span, draws ids, prints the record and,
when the span has ended, copies the record to the show-trace buffer and retires the span. It has five
outcomes (`FlushResult`), and which one it is depends on the sizes of the record and of the buffers
alone (`flushSpan_result`). All of them leave the lists of the trace in order; only the last one changes
who holds what.
-/
import ObConnector.Trace.Pools

namespace ObConnector.Trace

open Lib List

/-! ## Printing -/

/-- Both buffers have their size, and what is filled of them leaves room for a terminator. -/
structure BuffersOk (t : ObTrace) : Prop where
  logLen : t.logBuf.length = maxTraceLogSize
  logOffset : t.logBufOffset < maxTraceLogSize
  showLen : t.showTraceBuf.length = maxTraceLogSize
  showOffset : t.showTraceBufOffset < maxTraceLogSize

/-- A buffer after a text was printed behind its first `off` bytes: as much of the text as there is room
for, and a terminator. -/
def printAt (buf : List UInt8) (off : Nat) (text : List UInt8) : List UInt8 :=
  buf.take off ++ (text.take (maxTraceLogSize - off - 1) ++ [0]) ++
    buf.drop (off + (text.take (maxTraceLogSize - off - 1) ++ [0]).length)

variable {text : List UInt8}

section Print

variable {buf : List UInt8} {off : Nat} (hlen : buf.length = maxTraceLogSize) (hoff : off < maxTraceLogSize)

include hlen hoff

omit hlen in
theorem printed_length (text : List UInt8) :
    off + (text.take (maxTraceLogSize - off - 1) ++ [0]).length ≤ maxTraceLogSize := by
  rw [length_append, length_take, length_singleton]
  omega

theorem snprintf_eq (text : List UInt8) : snprintf buf off text = .ok (printAt buf off text) := by
  have hfit := printed_length hoff text
  rw [snprintf, if_neg (by omega), writeAt_inside (by omega), printAt]

theorem length_printAt (text : List UInt8) : (printAt buf off text).length = maxTraceLogSize := by
  have hfit := printed_length hoff text
  rw [printAt, length_append, length_append, length_take, length_drop]
  omega

omit hlen in
/-- A text that fits stands there with its terminator. -/
theorem printAt_fits (hfit : off + text.length < maxTraceLogSize) :
    printAt buf off text = buf.take off ++ (text ++ [0]) ++ buf.drop (off + text.length + 1) := by
  have hwhole : text.take (maxTraceLogSize - off - 1) = text := take_of_length_le (by omega)
  rw [printAt, hwhole, length_append]
  rfl

theorem take_printAt_fits (hfit : off + text.length < maxTraceLogSize) :
    (printAt buf off text).take (off + text.length) = buf.take off ++ text := by
  rw [printAt_fits hoff hfit, append_assoc, append_assoc, ← append_assoc (buf.take off)]
  apply take_left'
  rw [length_append, length_take]
  omega

omit hoff in
/-- Nothing in front changes. -/
theorem take_printAt (hoff' : off ≤ maxTraceLogSize) (text : List UInt8) :
    (printAt buf off text).take off = buf.take off := by
  rw [printAt, append_assoc]
  apply take_left'
  rw [length_take]
  omega

end Print

/-! ## Ids -/

/-- The lists, the tags and the spans are as before, up to the ids of spans. -/
structure IdsOnly (t t' : ObTrace) : Prop where
  links : t'.links = t.links
  free : t'.freeSpanList = t.freeSpanList
  current : t'.currentSpanList = t.currentSpanList
  freeTag : t'.freeTagList = t.freeTagList
  tags : t'.tags = t.tags
  spans : ∀ j, t'.spans j = { t.spans j with spanId := (t'.spans j).spanId }
  showEnable : t'.showTraceEnable = t.showTraceEnable

theorem IdsOnly.refl (t : ObTrace) : IdsOnly t t := ⟨rfl, rfl, rfl, rfl, rfl, fun _ => rfl, rfl⟩

variable {t t' : ObTrace}

theorem IdsOnly.trans {t'' : ObTrace} (h : IdsOnly t t') (h' : IdsOnly t' t'') : IdsOnly t t'' where
  links := h'.links.trans h.links
  free := h'.free.trans h.free
  current := h'.current.trans h.current
  freeTag := h'.freeTag.trans h.freeTag
  tags := h'.tags.trans h.tags
  spans := by
    intro j
    have hj := h'.spans j
    rw [h.spans j] at hj
    exact hj
  showEnable := h'.showEnable.trans h.showEnable

theorem IdsOnly.represents {p : Pools SpanIx TagIx} (h : IdsOnly t t') (hr : Represents t p) : Represents t' p :=
  hr.congr h.links h.free h.current h.freeTag h.tags fun j => by rw [h.spans j]

/-- `INIT_SPAN` draws an id and leaves the buffers alone. -/
theorem initSpan_spec (t : ObTrace) (o : Option SpanIx) :
    IdsOnly t (initSpan t o) ∧ (initSpan t o).logBuf = t.logBuf ∧ (initSpan t o).logBufOffset = t.logBufOffset ∧
      (initSpan t o).showTraceBuf = t.showTraceBuf ∧ (initSpan t o).showTraceBufOffset = t.showTraceBufOffset := by
  cases o with
  | none => exact ⟨.refl t, rfl, rfl, rfl, rfl⟩
  | some i =>
    rw [initSpan]
    split
    · refine ⟨⟨rfl, rfl, rfl, rfl, rfl, ?_, rfl⟩, rfl, rfl, rfl, rfl⟩
      intro j
      by_cases hj : j = i
      · subst hj
        simp [ObTrace.setSpan]
      · simp [ObTrace.setSpan, hj]
    · exact ⟨.refl t, rfl, rfl, rfl, rfl⟩

/-! ## The size of a record -/

/-- The text of a list of tags. -/
def renderAll (tags : TagIx → ObTagCtx) : List TagIx → Bool → List UInt8 → Option (List UInt8)
  | [], _, out => some out
  | k :: ks, first, out => (renderTag first out (tags k).tagType (tags k).data).bind (renderAll tags ks false)

theorem renderTags_eq {tags : TagIx → ObTagCtx} {root : Option TagIx} {ks : List TagIx} {fuel : Nat}
    (h : Linked (fun k => (tags k).next) root ks) (hfuel : ks.length ≤ fuel) (first : Bool) (out : List UInt8) :
    renderTags tags fuel root first out = .ok (renderAll tags ks first out) := by
  induction ks generalizing root fuel first out with
  | nil =>
    obtain rfl : root = none := h
    cases fuel <;> rfl
  | cons k ks ih =>
    obtain ⟨rfl, hrest⟩ := h
    cases fuel with
    | zero => cases hfuel
    | succ fuel =>
      rw [renderTags, renderAll]
      cases renderTag first out (tags k).tagType (tags k).data with
      | none => rfl
      | some out => exact ih hrest (Nat.le_of_succ_le_succ hfuel) false out

variable {ks : List TagIx} {tags : TagIx → ObTagCtx}

theorem renderAll_congr {tags' : TagIx → ObTagCtx} (h : ∀ k ∈ ks, tags' k = tags k) (first : Bool)
    (out : List UInt8) : renderAll tags' ks first out = renderAll tags ks first out := by
  induction ks generalizing first out with
  | nil => rfl
  | cons k ks ih =>
    have hrest : renderAll tags' ks false = renderAll tags ks false :=
      funext fun out => ih (fun j hj => h j (mem_cons_of_mem k hj)) false out
    rw [renderAll, renderAll, h k mem_cons_self, hrest]

theorem zero_notMem_renderAll {first : Bool} {out out' : List UInt8} (hout : (0 : UInt8) ∉ out.take (maxTraceLogSize - 1))
    (h : renderAll tags ks first out = some out') : (0 : UInt8) ∉ out'.take (maxTraceLogSize - 1) := by
  induction ks generalizing first out with
  | nil =>
    cases h
    exact hout
  | cons k ks ih =>
    rw [renderAll, Option.bind_eq_some_iff] at h
    obtain ⟨next, hnext, h⟩ := h
    exact ih (zero_notMem_renderTag hout hnext) h

/-- The size of the record of a span with the tags `ks`; none when the tags cannot be rendered. -/
def sizeWith (untouched : CStr) (tags : TagIx → ObTagCtx) (span : ObSpanCtx) (ks : List TagIx) : Option Nat :=
  (renderAll tags ks true []).map fun out =>
    recordSize span.startTs span.endTs span.isFollow (closeTags untouched out)

variable {untouched : CStr}

theorem sizeWith_pos {span : ObSpanCtx} {n : Nat} (h : sizeWith untouched tags span ks = some n) : 1 ≤ n := by
  rw [sizeWith, Option.map_eq_some_iff] at h
  obtain ⟨out, -, rfl⟩ := h
  exact recordSize_pos _ _ _ _

/-! ## Logging a span -/

/-- The text is a record of the span, with some ids and its tags. -/
def RecordOf (untouched : CStr) (tags : TagIx → ObTagCtx) (span : ObSpanCtx) (ks : List TagIx) (text : List UInt8) : Prop :=
  ∃ traceId spanId parentId out, renderAll tags ks true [] = some out ∧
    text = recordText traceId spanId parentId span.startTs span.endTs span.isFollow (closeTags untouched out)

theorem RecordOf.size {span : ObSpanCtx} (h : RecordOf untouched tags span ks text) :
    sizeWith untouched tags span ks = some text.length := by
  obtain ⟨traceId, spanId, parentId, out, hall, rfl⟩ := h
  rw [sizeWith, hall, length_recordText_ids]
  rfl

theorem RecordOf.noZero {span : ObSpanCtx} (h : RecordOf untouched tags span ks text) : (0 : UInt8) ∉ text := by
  obtain ⟨traceId, spanId, parentId, out, hall, rfl⟩ := h
  exact zero_notMem_recordText _ _ _ _ _ _ (zero_notMem_closeTags _ (zero_notMem_renderAll (by simp) hall))

/-- How the logging of the span `i`, which has the tags `ks`, ends. -/
inductive LogResult (t : ObTrace) (i : SpanIx) (ks : List TagIx) (untouched : CStr) :
    ObTrace → Option (List UInt8) → List Event → Prop
  /-- the tags could not be rendered -/
  | unrendered {t' : ObTrace} (ids : IdsOnly t t') (size : sizeWith untouched t.tags (t.spans i) ks = none)
    (logBuf : t'.logBuf = t.logBuf) (logOffset : t'.logBufOffset = t.logBufOffset)
    (showBuf : t'.showTraceBuf = t.showTraceBuf) (showOffset : t'.showTraceBufOffset = t.showTraceBufOffset) :
    LogResult t i ks untouched t' none []
  /-- the record did not fit, and a part of it is in the buffer -/
  | overflow {t' : ObTrace} {text : List UInt8} (ids : IdsOnly t t')
    (record : RecordOf untouched t.tags (t.spans i) ks text)
    (full : maxTraceLogSize ≤ t.logBufOffset + text.length)
    (logBuf : t'.logBuf = printAt t.logBuf t.logBufOffset text) (logOffset : t'.logBufOffset = t.logBufOffset)
    (showBuf : t'.showTraceBuf = t.showTraceBuf) (showOffset : t'.showTraceBufOffset = t.showTraceBufOffset) :
    LogResult t i ks untouched t' none [.logOverflow]
  /-- the record is in the buffer -/
  | logged {t' : ObTrace} {text : List UInt8} (ids : IdsOnly t t')
    (record : RecordOf untouched t.tags (t.spans i) ks text)
    (fits : t.logBufOffset + text.length < maxTraceLogSize)
    (logBuf : t'.logBuf = printAt t.logBuf t.logBufOffset text)
    (logOffset : t'.logBufOffset = t.logBufOffset + text.length)
    (showBuf : t'.showTraceBuf = t.showTraceBuf) (showOffset : t'.showTraceBufOffset = t.showTraceBufOffset) :
    LogResult t i ks untouched t' (some text) [.logged i text]

theorem logSpan_result (hbufs : BuffersOk t) {i : SpanIx}
    (hks : Linked (fun k => (t.tags k).next) (t.spans i).tags ks) (hnodup : ks.Nodup) (untouched : CStr) :
    ∃ t' text events, logSpan t i untouched = .ok (t', text, events) ∧ LogResult t i ks untouched t' text events := by
  obtain ⟨hids, hlog, hoff, hshow, hshowOff⟩ := initSpan_spec t (some i)
  have hrender := @renderTags_eq (initSpan t (some i)).tags _ ks tagCacheCount (by rw [hids.tags]; exact hks)
    (length_le_of_nodup hnodup) true []
  rw [hids.tags] at hrender
  rw [logSpan, hids.tags, hrender, ok_bind]
  cases hall : renderAll t.tags ks true [] with
  | none => exact ⟨_, _, _, rfl, .unrendered hids (by rw [sizeWith, hall]; rfl) hlog hoff hshow hshowOff⟩
  | some out =>
    obtain ⟨hids', hlog', hoff', hshow', hshowOff'⟩ := initSpan_spec (initSpan t (some i)) (t.spans i).sourceSpan
    have hids'' := hids.trans hids'
    rw [hlog] at hlog'
    rw [hoff] at hoff'
    rw [hshow] at hshow'
    rw [hshowOff] at hshowOff'
    dsimp only
    generalize initSpan (initSpan t (some i)) (t.spans i).sourceSpan = t2 at hids'' hlog' hoff' hshow' hshowOff'
    -- the text, with whatever ids were drawn
    obtain ⟨text, htext⟩ : ∃ text, text = recordText t2.traceId (t2.spans i).spanId
        (t2.parentId (t.spans i).sourceSpan) (t.spans i).startTs (t.spans i).endTs (t.spans i).isFollow
        (closeTags untouched out) := ⟨_, rfl⟩
    have hrecord : RecordOf untouched t.tags (t.spans i) ks text := ⟨_, _, _, out, hall, htext⟩
    have hprint : snprintf t2.logBuf t2.logBufOffset text = .ok (printAt t.logBuf t.logBufOffset text) := by
      rw [hlog', hoff']
      exact snprintf_eq hbufs.logLen hbufs.logOffset text
    rw [← htext, hprint, ok_bind, hoff']
    by_cases hfull : t.logBufOffset + text.length ≥ maxTraceLogSize
    · rw [if_pos hfull]
      exact ⟨_, _, _, rfl, .overflow ⟨hids''.links, hids''.free, hids''.current, hids''.freeTag, hids''.tags,
        hids''.spans, hids''.showEnable⟩ hrecord hfull rfl rfl hshow' hshowOff'⟩
    rw [if_neg hfull]
    exact ⟨_, _, _, rfl, .logged ⟨hids''.links, hids''.free, hids''.current, hids''.freeTag, hids''.tags,
      hids''.spans, hids''.showEnable⟩ hrecord (by omega) rfl rfl hshow' hshowOff'⟩

/-- Buffers stay what they are. -/
theorem LogResult.buffersOk {i : SpanIx} {text : Option (List UInt8)} {events : List Event}
    (h : LogResult t i ks untouched t' text events) (hbufs : BuffersOk t) : BuffersOk t' := by
  have hlen text := length_printAt hbufs.logLen hbufs.logOffset text
  cases h with
  | unrendered ids size logBuf logOffset showBuf showOffset =>
    exact ⟨by rw [logBuf]; exact hbufs.logLen, by rw [logOffset]; exact hbufs.logOffset,
      by rw [showBuf]; exact hbufs.showLen, by rw [showOffset]; exact hbufs.showOffset⟩
  | overflow ids record full logBuf logOffset showBuf showOffset =>
    exact ⟨by rw [logBuf]; exact hlen _, by rw [logOffset]; exact hbufs.logOffset,
      by rw [showBuf]; exact hbufs.showLen, by rw [showOffset]; exact hbufs.showOffset⟩
  | logged ids record fits logBuf logOffset showBuf showOffset =>
    exact ⟨by rw [logBuf]; exact hlen _, by rw [logOffset]; exact fits,
      by rw [showBuf]; exact hbufs.showLen, by rw [showOffset]; exact hbufs.showOffset⟩

theorem LogResult.ids {i : SpanIx} {text : Option (List UInt8)} {events : List Event}
    (h : LogResult t i ks untouched t' text events) : IdsOnly t t' := by
  cases h <;> assumption

/-! ## One round -/

/-- The record that was logged is read back whole. -/
theorem lastLogged_eq (hbufs : BuffersOk t) (hzero : (0 : UInt8) ∉ text)
    (hfits : t.logBufOffset + text.length < maxTraceLogSize)
    (hbuf : t'.logBuf = printAt t.logBuf t.logBufOffset text)
    (hoff : t'.logBufOffset = t.logBufOffset + text.length) : lastLogged t' text.length = text := by
  have hslice : (t'.logBuf.drop t.logBufOffset).take text.length = text := by
    have htake := take_printAt_fits hbufs.logLen hbufs.logOffset hfits
    rw [take_drop, hbuf, htake]
    apply drop_left'
    rw [length_take, hbufs.logLen]
    exact min_eq_left (le_of_lt hbufs.logOffset)
  rw [lastLogged, hoff, Nat.add_sub_cancel, hslice]
  exact takeWhile_eq_self_iff.mpr fun b hb => by
    have hne : b ≠ 0 := by
      rintro rfl
      exact hzero hb
    simpa using hne

@[simp] theorem length_comma : (ascii ",").length = 1 := by simp [ascii]

/-- How a round for the span `i`, in front of the current spans `rest`, ends. -/
inductive FlushResult (t : ObTrace) (p : Pools SpanIx TagIx) (i : SpanIx) (rest : List SpanIx) :
    ObTrace → Bool → List Event → Prop
  /-- nothing was logged -/
  | failed {t' : ObTrace} {events : List Event} (log : LogResult t i (p.tags i) emptyText t' none events) :
    FlushResult t p i rest t' false events
  /-- the span was logged and has not ended -/
  | unfinished {t' : ObTrace} {text : List UInt8}
    (log : LogResult t i (p.tags i) emptyText t' (some text) [.logged i text]) (running : (t.spans i).endTs = 0) :
    FlushResult t p i rest t' true [.logged i text]
  /-- the span was logged and has ended, but the record did not fit the show-trace buffer -/
  | showFull {t1 t' : ObTrace} {text : List UInt8}
    (log : LogResult t i (p.tags i) emptyText t1 (some text) [.logged i text]) (ended : (t.spans i).endTs ≠ 0)
    (full : maxTraceLogSize ≤ t.showTraceBufOffset + (text.length + 1))
    (eq : t' = { t1 with showTraceBuf := printAt t.showTraceBuf t.showTraceBufOffset (text ++ ascii ",") }) :
    FlushResult t p i rest t' false [.logged i text, .showOverflow]
  /-- the span was logged, has ended, and is free now -/
  | retired {t1 t' : ObTrace} {text : List UInt8}
    (log : LogResult t i (p.tags i) emptyText t1 (some text) [.logged i text]) (ended : (t.spans i).endTs ≠ 0)
    (fits : t.showTraceBufOffset + (text.length + 1) < maxTraceLogSize)
    (represents : Represents t' (p.retire i rest))
    (logBuf : t'.logBuf = t1.logBuf) (logOffset : t'.logBufOffset = t1.logBufOffset)
    (showBuf : t'.showTraceBuf = printAt t.showTraceBuf t.showTraceBufOffset (text ++ ascii ","))
    (showOffset : t'.showTraceBufOffset = t.showTraceBufOffset + (text.length + 1))
    (spans : ∀ j, j ≠ i → t'.spans j = { t.spans j with spanId := (t'.spans j).spanId })
    (tags : ∀ k, k ∉ p.tags i → t'.tags k = t.tags k) (showEnable : t'.showTraceEnable = t.showTraceEnable) :
    FlushResult t p i rest t' true [.logged i text, .shown i text]

theorem flushSpan_result {p : Pools SpanIx TagIx} (hr : Represents t p) (hbufs : BuffersOk t) {i : SpanIx}
    {rest : List SpanIx} (hcur : p.current = i :: rest) :
    ∃ t' ok events, flushSpan t i = .ok (t', ok, events) ∧ FlushResult t p i rest t' ok events := by
  have hi : i ∈ p.current := by rw [hcur]; exact mem_cons_self
  obtain ⟨t1, text, events, hlog, hresult⟩ :=
    logSpan_result hbufs (hr.tags i hi) (hr.wellFormed.tags_nodup hi) emptyText
  have hids := hresult.ids
  have hend : (t1.spans i).endTs = (t.spans i).endTs := by rw [hids.spans i]
  rw [flushSpan, hlog, ok_bind]
  cases hresult with
  | unrendered ids size logBuf logOffset showBuf showOffset =>
    exact ⟨_, _, _, rfl, .failed (.unrendered ids size logBuf logOffset showBuf showOffset)⟩
  | overflow ids record full logBuf logOffset showBuf showOffset =>
    exact ⟨_, _, _, rfl, .failed (.overflow ids record full logBuf logOffset showBuf showOffset)⟩
  | @logged text ids record fits logBuf logOffset showBuf showOffset =>
    have hlogged : LogResult t i (p.tags i) emptyText t1 (some text) [.logged i text] :=
      .logged ids record fits logBuf logOffset showBuf showOffset
    dsimp only
    rw [hend]
    by_cases hrunning : (t.spans i).endTs = 0
    · rw [if_pos hrunning]
      exact ⟨_, _, _, rfl, .unfinished hlogged hrunning⟩
    have hlast := lastLogged_eq hbufs record.noZero fits logBuf logOffset
    have hprint : snprintf t1.showTraceBuf t1.showTraceBufOffset (text ++ ascii ",") =
        .ok (printAt t.showTraceBuf t.showTraceBufOffset (text ++ ascii ",")) := by
      rw [showBuf, showOffset]
      exact snprintf_eq hbufs.showLen hbufs.showOffset _
    rw [if_neg hrunning, showSpan, hlast, hprint, ok_bind, length_append, length_comma, showOffset]
    by_cases hfull : t.showTraceBufOffset + (text.length + 1) ≥ maxTraceLogSize
    · rw [if_pos hfull]
      exact ⟨_, _, _, rfl, .showFull hlogged hrunning hfull (by rw [← showOffset])⟩
    rw [if_neg hfull, ok_bind]
    obtain ⟨_, hclear, hrepresents, links, currentSpanList, tags, freeTagList, rfl, huntouched⟩ :=
      @Represents.clearSpan_retire { t1 with
        showTraceBuf := printAt t.showTraceBuf t.showTraceBufOffset (text ++ ascii ",")
        showTraceBufOffset := t.showTraceBufOffset + (text.length + 1) } p
        ((hids.represents hr).congr rfl rfl rfl rfl rfl fun _ => rfl) i rest hcur
    rw [hclear]
    refine ⟨_, _, _, rfl, .retired hlogged hrunning (by omega) hrepresents rfl rfl rfl rfl ?_ ?_
      hids.showEnable⟩
    · intro j hj
      dsimp only
      rw [Function.update_of_ne hj]
      exact hids.spans j
    · intro k hk
      dsimp only
      rw [huntouched k hk, hids.tags]

end ObConnector.Trace
