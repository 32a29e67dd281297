/-
# ObConnector.Trace.RequestText -- requests send whole records, unless one was cut off.

A record is printed before it is known whether it fits. When it does not, the offset stays, but a piece of
the record stands behind it, and a request reads the buffer as a string. Likewise a request that is refused
has already closed the show-trace text with a bracket, and the next record follows the bracket. And
`flush_first_span` prints an uninitialised buffer in place of the tags of a span that has none.

`Records` is what holds as long as none of this happens: each buffer has the records of the history up to
its offset and, when there are any, a zero there. Every tidy call and every tidy request keeps it
(`Call.run_records`, `fltBuildRequest_records`), so a tidy run only sends complete texts
(`tidy_sendsRecords`).
-/
import ObConnector.Trace.Request

namespace ObConnector.Trace

open Lib Protocol20 List

/-! ## Terminated texts -/

/-- The buffer starts with the text and a zero. -/
def Terminated (buf text : List UInt8) : Prop := ∃ rest, buf = text ++ 0 :: rest

variable {text : List UInt8}

theorem Terminated.textOf_eq {buf : List UInt8} (h : Terminated buf text) (hzero : (0 : UInt8) ∉ text) :
    textOf buf = .ok ⟨text, hzero⟩ := by
  obtain ⟨rest, rfl⟩ := h
  have hmem : 0 ∈ text ++ 0 :: rest := by simp
  have htext : (text ++ 0 :: rest).takeWhile (· ≠ 0) = text := by
    rw [takeWhile_append_of_pos]
    · simp
    · intro b hb
      have hne : b ≠ 0 := by
        rintro rfl
        exact hzero hb
      simpa using hne
  rw [textOf, if_pos hmem]
  congr 1
  exact Subtype.ext htext

/-- A text that was printed and fits is terminated, together with what stands in front of it. -/
theorem terminated_printAt {buf : List UInt8} {off : Nat} (hoff : off < maxTraceLogSize)
    (hfit : off + text.length < maxTraceLogSize) : Terminated (printAt buf off text) (buf.take off ++ text) := by
  refine ⟨buf.drop (off + text.length + 1), ?_⟩
  rw [printAt_fits hoff hfit]
  simp

/-- Records between a bracket and commas. -/
def shownText (shown : List (List UInt8)) : List UInt8 := ascii "[" ++ shown.flatMap (· ++ ascii ",")

theorem shownText_append (shown : List (List UInt8)) (text : List UInt8) :
    shownText (shown ++ [text]) = shownText shown ++ (text ++ ascii ",") := by
  simp [shownText]

theorem ascii_comma : ascii "," = [44] := by simp [ascii]

/-- The last comma stands at the end. -/
theorem flatMap_comma {shown : List (List UInt8)} (h : shown ≠ []) :
    shown.flatMap (· ++ ascii ",") = [44].intercalate shown ++ ascii "," := by
  rw [ascii_comma]
  induction shown with
  | nil => exact absurd rfl h
  | cons text shown ih =>
    cases shown with
    | nil => simp [List.intercalate]
    | cons text' shown =>
      rw [flatMap_cons, ih (cons_ne_nil _ _)]
      simp [List.intercalate]

/-! ## Records -/

theorem IsRecord.noZero (h : IsRecord text) : (0 : UInt8) ∉ text := by
  obtain ⟨tags, span, ks, hrec⟩ := h
  exact hrec.noZero

/-- **The buffers have the records of the history**, and a zero behind them. -/
structure Records (t : ObTrace) (h : History) : Prop where
  sound : Sound t
  log : t.logBuf.take t.logBufOffset = h.logged.flatten
  logEnd : h.logged ≠ [] → Terminated t.logBuf h.logged.flatten
  show_ : t.showTraceBuf.take t.showTraceBufOffset = shownText h.shown
  showEnd : h.shown ≠ [] → Terminated t.showTraceBuf (shownText h.shown)
  logged : ∀ rec ∈ h.logged, IsRecord rec
  shown : ∀ rec ∈ h.shown, IsRecord rec

variable {t : ObTrace} {h : History}

theorem Records.congr {t' : ObTrace} (hrec : Records t h) (hsame : SameBuffers t t') (hsound : Sound t') :
    Records t' h where
  sound := hsound
  log := by rw [hsame.logBuf, hsame.logOffset]; exact hrec.log
  logEnd := by rw [hsame.logBuf]; exact hrec.logEnd
  show_ := by rw [hsame.showBuf, hsame.showOffset]; exact hrec.show_
  showEnd := by rw [hsame.showBuf]; exact hrec.showEnd
  logged := hrec.logged
  shown := hrec.shown

@[simp] theorem History.add_nil (h : History) : h.add [] = h := by
  simp [add, loggedTexts, shownTexts]

theorem History.add_append (h : History) (es es' : List Event) : h.add (es ++ es') = (h.add es).add es' := by
  simp [add, loggedTexts, shownTexts]

theorem traceInit_records (raw : RawTrace) : Records (traceInit raw) .empty := by
  have hbracket : (ascii "[").length = 1 := by simp [ascii]
  refine ⟨traceInit_sound raw, ?_, fun h => absurd rfl h, ?_, fun h => absurd rfl h, ?_, ?_⟩
  · rfl
  · show (ascii "[" ++ raw.showTraceBuf.drop 1).take 1 = ascii "[" ++ []
    rw [append_nil]
    exact take_left' hbracket
  · intro rec hrec
    cases hrec
  · intro rec hrec
    cases hrec

/-- The log after one more record. -/
theorem Records.log_record (hrec : Records t h) (hfits : t.logBufOffset + text.length < maxTraceLogSize)
    {t' : ObTrace} (hbuf : t'.logBuf = printAt t.logBuf t.logBufOffset text)
    (hoff : t'.logBufOffset = t.logBufOffset + text.length) :
    t'.logBuf.take t'.logBufOffset = (h.logged ++ [text]).flatten ∧
      Terminated t'.logBuf (h.logged ++ [text]).flatten := by
  have hbufs := hrec.sound.buffersOk
  have htext : (h.logged ++ [text]).flatten = t.logBuf.take t.logBufOffset ++ text := by
    rw [hrec.log]
    simp
  rw [htext, hbuf, hoff]
  exact ⟨take_printAt_fits hbufs.logLen hbufs.logOffset hfits, terminated_printAt hbufs.logOffset hfits⟩

/-- The show-trace buffer after one more record. -/
theorem Records.show_record (hrec : Records t h)
    (hfits : t.showTraceBufOffset + (text.length + 1) < maxTraceLogSize) {t' : ObTrace}
    (hbuf : t'.showTraceBuf = printAt t.showTraceBuf t.showTraceBufOffset (text ++ ascii ","))
    (hoff : t'.showTraceBufOffset = t.showTraceBufOffset + (text.length + 1)) :
    t'.showTraceBuf.take t'.showTraceBufOffset = shownText (h.shown ++ [text]) ∧
      Terminated t'.showTraceBuf (shownText (h.shown ++ [text])) := by
  have hbufs := hrec.sound.buffersOk
  have hlen : (text ++ ascii ",").length = text.length + 1 := by rw [length_append, length_comma]
  rw [← hlen] at hfits hoff
  rw [shownText_append, ← hrec.show_, hbuf, hoff]
  exact ⟨take_printAt_fits hbufs.showLen hbufs.showOffset hfits, terminated_printAt hbufs.showOffset hfits⟩

theorem forall_mem_concat {P : List UInt8 → Prop} {xs : List (List UInt8)} {x : List UInt8} (hxs : ∀ y ∈ xs, P y)
    (hx : P x) : ∀ y ∈ xs ++ [x], P y := by
  intro y hy
  rcases mem_append.mp hy with hy | hy
  · exact hxs y hy
  rw [mem_singleton.mp hy]
  exact hx

/-! ## Quiet flushes -/

/-- **A quiet flush** adds whole records. -/
theorem flushLoop_records {p : Pools SpanIx TagIx} (hr : Represents t p) (hrec : Records t h) {fuel : Nat}
    (hfuel : maxTraceLogSize - t.logBufOffset < fuel) {log show_ : Nat}
    (hquiet : quietJobs (jobs t p) t.logBufOffset t.showTraceBufOffset = some (log, show_)) :
    ∃ t' events, flushLoop fuel t = .ok (t', events) ∧ Records t' (h.add events) ∧ t'.logBufOffset = log ∧
      t'.showTraceBufOffset = show_ ∧ t'.showTraceEnable = t.showTraceEnable := by
  have hbufs := hrec.sound.buffersOk
  induction fuel generalizing t p h with
  | zero => cases hfuel
  | succ fuel ih =>
    have hhead := hr.currentSpanList_eq
    rw [flushLoop]
    cases hcur : p.current with
    | nil =>
      rw [hhead, hcur]
      rw [jobs, hcur] at hquiet
      cases hquiet
      refine ⟨t, [], rfl, ?_, rfl, rfl, rfl⟩
      rw [History.add_nil]
      exact hrec
    | cons i rest =>
      rw [hhead, hcur]
      dsimp only [List.head?_cons]
      rw [jobs, hcur, map_cons] at hquiet
      obtain ⟨t1, ok, events, hround, hresult⟩ := flushSpan_result hr hbufs hcur
      rw [hround, ok_bind]
      -- only a span that ended and fits both buffers, or one that cannot be rendered, is quiet
      have hfit {n : Nat} (hn : (jobWith t (p.tags i) i).size = some n) :
          (jobWith t (p.tags i) i).ended = true ∧ t.logBufOffset + n < maxTraceLogSize ∧
            t.showTraceBufOffset + (n + 1) < maxTraceLogSize := by
        by_contra hnot
        rw [quietJobs, hn] at hquiet
        dsimp only at hquiet
        rw [if_neg hnot] at hquiet
        cases hquiet
      cases hresult with
      | failed log =>
        cases log with
        | unrendered ids size logBuf logOffset showBuf showOffset =>
          have hjob : (jobWith t (p.tags i) i).size = none := size
          rw [quietJobs, hjob] at hquiet
          cases hquiet
          have hsame : SameBuffers t t1 := ⟨logBuf, logOffset, showBuf, showOffset⟩
          refine ⟨t1, [], rfl, ?_, logOffset, showOffset, ids.showEnable⟩
          rw [History.add_nil]
          exact hrec.congr hsame ⟨hsame.buffersOk hbufs, p, ids.represents hr⟩
        | overflow ids record full =>
          exact absurd (hfit record.size).2.1 (by omega)
      | @unfinished _ text log running =>
        have hended := (hfit log.fits.1).1
        rw [jobWith, running] at hended
        cases hended
      | @showFull t2 _ text log ended full eq =>
        exact absurd (hfit log.fits.1).2.2 (by omega)
      | @retired t2 _ text log ended fits represents logBuf logOffset showBuf showOffset spans tags showEnable =>
        cases log with
        | logged ids record hlogFits hlogBuf hlogOffset hshowBuf hshowOffset =>
          have hpos : 1 ≤ text.length := sizeWith_pos record.size
          rw [hlogBuf] at logBuf
          rw [hlogOffset] at logOffset
          have hisRecord : IsRecord text := ⟨_, _, _, record⟩
          obtain ⟨hlog, hlogEnd⟩ := hrec.log_record hlogFits logBuf logOffset
          obtain ⟨hshow, hshowEnd⟩ := hrec.show_record fits showBuf showOffset
          have hbufs1 : BuffersOk t1 := by
            refine ⟨?_, by rw [logOffset]; exact hlogFits, ?_, by rw [showOffset]; exact fits⟩
            · rw [logBuf]
              exact length_printAt hbufs.logLen hbufs.logOffset _
            · rw [showBuf]
              exact length_printAt hbufs.showLen hbufs.showOffset _
          have hrec1 : Records t1 (h.add [.logged i text, .shown i text]) :=
            ⟨⟨hbufs1, _, represents⟩, hlog, fun _ => hlogEnd, hshow, fun _ => hshowEnd,
              forall_mem_concat hrec.logged hisRecord, forall_mem_concat hrec.shown hisRecord⟩
          rw [quietJobs, show (jobWith t (p.tags i) i).size = some text.length from record.size] at hquiet
          dsimp only at hquiet
          rw [if_pos (hfit record.size), ← logOffset, ← showOffset,
            ← jobs_retire hr.wellFormed hcur spans tags] at hquiet
          obtain ⟨t3, events, hrun, hrec3, hlog3, hshow3, henable3⟩ := ih represents hrec1 (by omega) hquiet hbufs1
          rw [hrun]
          refine ⟨t3, _, rfl, ?_, hlog3, hshow3, henable3.trans showEnable⟩
          rw [History.add_append]
          exact hrec3

theorem flushTrace_records (hrec : Records t h) {log show_ : Nat} (hquiet : quietFlush t = some (log, show_)) :
    ∃ t' events, flushTrace t = .ok (t', events) ∧ Records t' (h.add events) ∧ t'.logBufOffset = log ∧
      t'.showTraceBufOffset = show_ ∧ t'.showTraceEnable = t.showTraceEnable := by
  rw [quietFlush] at hquiet
  by_cases hstarted : t.Started
  · obtain ⟨p, hr⟩ := hrec.sound.pools
    rw [if_pos hstarted, hr.jobs_eq] at hquiet
    rw [flushTrace, if_pos hstarted]
    exact flushLoop_records hr hrec (by omega) hquiet
  rw [if_neg hstarted] at hquiet
  cases hquiet
  refine ⟨t, [], by rw [flushTrace, if_neg hstarted], ?_, rfl, rfl, rfl⟩
  rw [History.add_nil]
  exact hrec

/-! ## Calls -/

theorem length_le_putEscape (bufLen : Nat) (esc out : List UInt8) (ok : Bool) :
    out.length ≤ (putEscape bufLen esc out ok).1.length := by
  induction esc generalizing out ok with
  | nil => exact le_rfl
  | cons b bs ih =>
    rw [putEscape]
    split
    · refine le_trans ?_ (ih _ _)
      simp
    · exact ih _ _

theorem length_le_tagChars (bufLen : Nat) (first : Bool) (cs out : List UInt8) (conv ok : Bool) :
    out.length ≤ (tagChars bufLen first cs out conv ok).1.length := by
  induction cs generalizing first out conv ok with
  | nil => exact le_rfl
  | cons c cs ih =>
    rw [tagChars]
    split
    · exact (length_le_putEscape _ _ _ _).trans (ih _ _ _ _)
    refine le_trans ?_ (ih _ _ _ _)
    split
    · simp
    · exact le_rfl

/-- A rendered tag leaves something. -/
theorem tostring_ne_nil {bufLen pos : Nat} {out buf : List UInt8} {tagType : TagType} {data : CStr}
    (h : tostringObTagCtx bufLen out tagType data = some (pos, buf)) : buf.take pos ≠ [] := by
  have hbrace : 1 ≤ (ascii "\x7b\"").length := by simp [ascii]
  have hlen := length_le_tagChars bufLen true data.bytes
    (out ++ ascii "\x7b\"" ++ tagStr tagType ++ ascii "\":") false true
  simp only [length_append] at hlen
  unfold tostringObTagCtx at h
  split at h
  · cases h
  dsimp only at h
  split at h
  · cases h
  apply ne_nil_of_length_pos
  split at h <;> cases h <;> rw [length_take, length_append, length_singleton] <;> omega

theorem renderTag_ne_nil {first : Bool} {out out' : List UInt8} {tagType : TagType} {data : CStr}
    (h : renderTag first out tagType data = some out') : out' ≠ [] := by
  rw [renderTag] at h
  by_cases hroom : out.length + 10 ≥ maxTraceLogSize
  · rw [if_pos hroom] at h
    cases h
  rw [if_neg hroom, Option.map_eq_some_iff] at h
  obtain ⟨⟨pos, buf⟩, h, rfl⟩ := h
  exact tostring_ne_nil h

theorem renderAll_ne_nil {tags : TagIx → ObTagCtx} {ks : List TagIx} {first : Bool} {out out' : List UInt8}
    (hne : ks ≠ [] ∨ out ≠ []) (h : renderAll tags ks first out = some out') : out' ≠ [] := by
  induction ks generalizing first out with
  | nil =>
    cases h
    exact hne.resolve_left fun h => h rfl
  | cons k ks ih =>
    rw [renderAll, Option.bind_eq_some_iff] at h
    obtain ⟨next, hnext, h⟩ := h
    exact ih (.inr (renderTag_ne_nil hnext)) h

/-- What was in the buffer for the tags does not show when there are tags. -/
theorem RecordOf.of_stack {stack : CStr} {tags : TagIx → ObTagCtx} {span : ObSpanCtx} {ks : List TagIx}
    (h : RecordOf stack tags span ks text) (hstack : ks = [] → stack = emptyText) :
    RecordOf emptyText tags span ks text := by
  by_cases hks : ks = []
  · rw [hstack hks] at h
    exact h
  obtain ⟨traceId, spanId, parentId, out, hall, htext⟩ := h
  have hout : out.length ≠ 0 := by
    rw [ne_eq, length_eq_zero_iff]
    exact renderAll_ne_nil (.inl hks) hall
  refine ⟨traceId, spanId, parentId, out, hall, ?_⟩
  rw [htext, closeTags, closeTags, if_pos hout, if_pos hout]

theorem flushFirstSpan_records (hrec : Records t h) {stack : CStr} (htidy : (Call.flushFirstSpan stack).Tidy t) :
    ∃ t' events, flushFirstSpan t stack = .ok (t', events) ∧ Records t' (h.add events) := by
  obtain ⟨hbufs, p, hr⟩ := hrec.sound
  have hsame : Records t (h.add []) := by
    rw [History.add_nil]
    exact hrec
  by_cases hstarted : t.Started
  · rw [flushFirstSpan, if_pos hstarted]
    cases hcur : p.current with
    | nil =>
      rw [hr.currentSpanList_eq, hcur]
      exact ⟨t, [], rfl, hsame⟩
    | cons i rest =>
      have hroot : t.currentSpanList = some i := by rw [hr.currentSpanList_eq, hcur]; rfl
      have hi : i ∈ p.current := by rw [hcur]; exact mem_cons_self
      obtain ⟨hfits, hstack⟩ := htidy hstarted i hroot
      rw [hr.tagsOf_eq hi] at hfits
      have hnone : p.tags i = [] → stack = emptyText := by
        rw [← hr.tagsOf_eq hi, tagsOf_eq_nil_iff]
        exact hstack
      obtain ⟨t1, text, events, hlog, hresult⟩ :=
        logSpan_result hbufs (hr.tags i hi) (hr.wellFormed.tags_nodup hi) stack
      have hr1 := hresult.ids.represents hr
      have hbufs1 := hresult.buffersOk hbufs
      rw [hroot]
      dsimp only
      rw [hlog, ok_bind]
      cases hresult with
      | unrendered ids size logBuf logOffset showBuf showOffset =>
        exact ⟨t1, [], rfl, hsame.congr ⟨logBuf, logOffset, showBuf, showOffset⟩ ⟨hbufs1, p, hr1⟩⟩
      | overflow ids record full =>
        exact absurd (hfits _ (record.of_stack hnone).size) (by omega)
      | @logged text ids record fits logBuf logOffset showBuf showOffset =>
        obtain ⟨hlogged, hlogEnd⟩ := hrec.log_record fits logBuf logOffset
        have hrec1 : Records t1 (h.add [.logged i text]) := by
          refine ⟨⟨hbufs1, p, hr1⟩, hlogged, fun _ => hlogEnd, ?_, ?_,
            forall_mem_concat hrec.logged ⟨_, _, _, record.of_stack hnone⟩, ?_⟩
          · rw [showBuf, showOffset, hrec.show_]
            exact congrArg shownText (append_nil _).symm
          · rw [showBuf, History.add, shownTexts, filterMap_cons, filterMap_nil, append_nil]
            exact hrec.showEnd
          · rw [History.add, shownTexts, filterMap_cons, filterMap_nil, append_nil]
            exact hrec.shown
        dsimp only
        split
        · obtain ⟨_, hclear, hr', links, currentSpanList, tags, freeTagList, rfl, -⟩ := hr1.clearSpan_retire hcur
          rw [hclear]
          refine ⟨_, _, rfl, hrec1.congr ⟨rfl, rfl, rfl, rfl⟩ ⟨?_, _, hr'⟩⟩
          exact ⟨hbufs1.logLen, hbufs1.logOffset, hbufs1.showLen, hbufs1.showOffset⟩
        · exact ⟨t1, _, rfl, hrec1⟩
  · exact ⟨t, [], by rw [flushFirstSpan, if_neg hstarted], hsame⟩

theorem beginSpan_records (hrec : Records t h) {level : Nat} {isFollow : Bool} {now : Int}
    (htidy : (Call.beginSpan level isFollow now).Tidy t) :
    ∃ t' events, beginSpan t level isFollow now = .ok (t', events) ∧ Records t' (h.add events) := by
  rw [beginSpan]
  by_cases hskip : ¬t.Started ∨ level > t.level
  · rw [if_pos hskip]
    refine ⟨t, [], rfl, ?_⟩
    rw [History.add_nil]
    exact hrec
  rw [if_neg hskip]
  rw [not_or, not_not, Nat.not_lt] at hskip
  have hroom : ∃ t1 events, makeRoom t = .ok (t1, events) ∧ Records t1 (h.add events) := by
    rw [makeRoom]
    by_cases hfree : t.freeSpanList = none
    · obtain ⟨⟨log, show_⟩, hquiet⟩ := Option.ne_none_iff_exists'.mp (htidy hskip.1 hskip.2 hfree)
      obtain ⟨t1, events, hrun, hrec1, -⟩ := flushTrace_records hrec hquiet
      rw [if_pos hfree]
      exact ⟨t1, events, hrun, hrec1⟩
    rw [if_neg hfree]
    refine ⟨t, [], rfl, ?_⟩
    rw [History.add_nil]
    exact hrec
  obtain ⟨t1, events, hrun, hrec1⟩ := hroom
  obtain ⟨hbufs, p, hr⟩ := hrec1.sound
  obtain ⟨hsame, p', hr', -⟩ := takeFirst_spec hr isFollow now
  rw [hrun]
  exact ⟨_, events, rfl, hrec1.congr hsame ⟨hsame.buffersOk hbufs, p', hr'⟩⟩

/-- **A tidy call** only adds whole records. -/
theorem Call.run_records (hrec : Records t h) {c : Call} (hallowed : c.Allowed t) (htidy : c.Tidy t) :
    ∃ t' events, c.run t = .ok (t', events) ∧ Records t' (h.add events) := by
  obtain ⟨t', events, hrun, hsound⟩ := c.run_sound hrec.sound hallowed
  obtain ⟨hbufs, p, hr⟩ := hrec.sound
  have hlen : p.current.length ≤ spanCacheCount :=
    length_le_of_nodup (nodup_append.mp hr.wellFormed.spansNodup).1
  -- calls that print nothing
  have hprintless (hsame : events = [] ∧ SameBuffers t t') :
      ∃ t' events, c.run t = .ok (t', events) ∧ Records t' (h.add events) := by
    refine ⟨t', events, hrun, ?_⟩
    rw [hsame.1, History.add_nil]
    exact hrec.congr hsame.2 hsound
  cases c with
  | beginSpan level isFollow now => exact beginSpan_records hrec htidy
  | flushTrace =>
    obtain ⟨⟨log, show_⟩, hquiet⟩ := Option.ne_none_iff_exists'.mp htidy
    obtain ⟨t1, events, hflush, hrec1, -⟩ := flushTrace_records hrec hquiet
    exact ⟨t1, events, hflush, hrec1⟩
  | flushFirstSpan stack => exact flushFirstSpan_records hrec htidy
  | beginTrace c =>
    apply hprintless
    obtain ⟨traceEnable, showTraceEnable, seed, traceId, level, forcePrint, hbegin⟩ := beginTrace_frame t c
    rw [run, hbegin] at hrun
    cases hrun
    exact ⟨rfl, rfl, rfl, rfl, rfl⟩
  | appendTag span tagType str =>
    apply hprintless
    have hi : span ∈ p.current := by
      rw [← hr.currentSpans_eq]
      exact hallowed
    cases hrun
    exact ⟨rfl, (appendTag_spec hr hi tagType str).1⟩
  | endSpan span rp slowQueryThreshold now =>
    apply hprintless
    cases hrun
    exact ⟨rfl, (endSpan_frame t span rp slowQueryThreshold now).1⟩
  | resetSpan =>
    apply hprintless
    rw [run, Trace.resetSpan] at hrun
    by_cases hstarted : t.Started
    · obtain ⟨t1, p1, lost, hdrain, -, hsame, -, -⟩ :=
        @drainSpans_spec (fun _ span => { span with tags := none }) _ t p hr rfl _ hlen
      rw [if_pos hstarted, hdrain] at hrun
      cases hrun
      exact ⟨rfl, hsame⟩
    rw [if_neg hstarted] at hrun
    cases hrun
    exact ⟨rfl, .refl t⟩
  | endTrace now =>
    apply hprintless
    obtain ⟨t1, p1, lost, hdrain, -, hsame, -, -⟩ :=
      @drainSpans_spec (fun i span => if span.endTs = 0 then { span with endTs := now i } else span) _ t p hr rfl _ hlen
    rw [run, Trace.endTrace, hdrain] at hrun
    cases hrun
    exact ⟨rfl, hsame.logBuf, hsame.logOffset, hsame.showBuf, hsame.showOffset⟩

/-! ## Requests -/

section Build

variable {t : ObTrace} {h : History}

theorem Records.logOffset_eq (hrec : Records t h) : t.logBufOffset = h.logged.flatten.length := by
  have hbufs := hrec.sound.buffersOk
  have hlen := congrArg List.length hrec.log
  rw [length_take, hbufs.logLen, min_eq_left (le_of_lt hbufs.logOffset)] at hlen
  exact hlen

theorem Records.showOffset_eq (hrec : Records t h) : t.showTraceBufOffset = (shownText h.shown).length := by
  have hbufs := hrec.sound.buffersOk
  have hlen := congrArg List.length hrec.show_
  rw [length_take, hbufs.showLen, min_eq_left (le_of_lt hbufs.showOffset)] at hlen
  exact hlen

/-- The log is sent as it is. -/
theorem clientText_records (hrec : Records t h) :
    ∃ client, clientText t = .ok client ∧ (∀ text, client = some text → text.bytes = h.logged.flatten) ∧
      ∀ r : RequestInfo, r.clientSpan = client →
        r.clientInfo.bytes = if t.logBufOffset = 0 then 0 else 13 + t.logBufOffset := by
  rw [clientText]
  by_cases hzero : t.logBufOffset = 0
  · rw [if_neg (not_not.mpr hzero), if_pos hzero]
    refine ⟨none, rfl, fun _ h => (by cases h), ?_⟩
    intro r hr
    rw [RequestInfo.clientInfo, hr]
    rfl
  have hne : h.logged ≠ [] := by
    intro hnil
    rw [hrec.logOffset_eq, hnil] at hzero
    exact hzero rfl
  have hnoZero : 0 ∉ h.logged.flatten := by
    intro hmem
    obtain ⟨rec, hmem, hbyte⟩ := mem_flatten.mp hmem
    exact (hrec.logged rec hmem).noZero hbyte
  rw [if_pos hzero, if_neg hzero, (hrec.logEnd hne).textOf_eq hnoZero]
  refine ⟨_, rfl, ?_, ?_⟩
  · rintro text ⟨⟩
    rfl
  · intro r hr
    rw [RequestInfo.clientInfo, hr, hrec.logOffset_eq]
    rfl

/-- The show-trace text is closed and sent. -/
theorem showText_records (hrec : Records t h) (hpending : 1 < t.showTraceBufOffset ∧ t.showTraceEnable = true) :
    ∃ showTraceBuf text, showText t = .ok ({ t with showTraceBuf := showTraceBuf }, some text) ∧
      showTraceBuf.length = maxTraceLogSize ∧ text.bytes = ascii "[" ++ [44].intercalate h.shown ++ ascii "]" ∧
      text.bytes.length = t.showTraceBufOffset := by
  have hbracket : (ascii "[").length = 1 := by simp [ascii]
  have hclose : (ascii "]").length = 1 := by simp [ascii]
  have hne : h.shown ≠ [] := by
    intro hnil
    have hoff := hrec.showOffset_eq
    rw [hnil, shownText, flatMap_nil, append_nil] at hoff
    omega
  have hcommas := flatMap_comma hne
  have htext : shownText h.shown = ascii "[" ++ [44].intercalate h.shown ++ ascii "," := by
    rw [shownText, hcommas, append_assoc]
  obtain ⟨rest, hbuf⟩ := hrec.showEnd hne
  have hoff : t.showTraceBufOffset = (ascii "[" ++ [44].intercalate h.shown).length + 1 := by
    rw [hrec.showOffset_eq, htext]
    simp only [length_append, length_comma]
  have hwrite : writeAt t.showTraceBuf (t.showTraceBufOffset - 1) (ascii "]") =
      .ok ((ascii "[" ++ [44].intercalate h.shown) ++ ascii "]" ++ 0 :: rest) := by
    rw [hbuf, htext, append_assoc _ (ascii ","), append_assoc _ (ascii "]")]
    exact writeAt_over (by omega) (by rw [length_comma, hclose])
  have hnoZero : 0 ∉ ascii "[" ++ [44].intercalate h.shown ++ ascii "]" := by
    have hrecords : 0 ∉ [44].intercalate h.shown := by
      intro hmem
      have hmem' : 0 ∈ h.shown.flatMap (· ++ ascii ",") := by
        rw [hcommas]
        exact mem_append_left _ hmem
      obtain ⟨rec, hmem, hbyte⟩ := mem_flatMap.mp hmem'
      rcases mem_append.mp hbyte with hbyte | hbyte
      · exact (hrec.shown rec hmem).noZero hbyte
      rw [ascii_comma] at hbyte
      exact absurd hbyte (by decide)
    simp only [mem_append, not_or]
    exact ⟨⟨by simp [ascii], hrecords⟩, by simp [ascii]⟩
  refine ⟨(ascii "[" ++ [44].intercalate h.shown) ++ ascii "]" ++ 0 :: rest, ⟨_, hnoZero⟩, ?_, ?_, rfl, ?_⟩
  · rw [showText, if_pos hpending, hwrite, ok_bind, Terminated.textOf_eq ⟨rest, rfl⟩ hnoZero]
    rfl
  · rw [length_of_writeAt hwrite]
    exact hrec.sound.buffersOk.showLen
  · show (ascii "[" ++ [44].intercalate h.shown ++ ascii "]").length = _
    rw [hoff]
    simp only [length_append, hclose]

/-- The buffers start anew. -/
theorem afterRequest_records (hsound : Sound t) (bytes : List UInt8) :
    Records (afterRequest t (.value bytes)) .empty := by
  obtain ⟨hbufs, p, hr⟩ := hsound
  have hbracket : (ascii "[").length = 1 := by simp [ascii]
  refine ⟨⟨⟨hbufs.logLen, show 0 < maxTraceLogSize by decide, ?_, show 1 < maxTraceLogSize by decide⟩, p,
    hr.congr rfl rfl rfl rfl rfl fun _ => rfl⟩, rfl, fun h => absurd rfl h, ?_, fun h => absurd rfl h, ?_, ?_⟩
  · show (ascii "[" ++ t.showTraceBuf.drop 1).length = maxTraceLogSize
    rw [length_append, length_drop, hbracket, hbufs.showLen]
    rfl
  · show (ascii "[" ++ t.showTraceBuf.drop 1).take 1 = ascii "[" ++ []
    rw [append_nil]
    exact take_left' hbracket
  · intro rec hrec
    cases hrec
  · intro rec hrec
    cases hrec

/-- Drawing an id changes nothing that a flush or a request looks at. -/
theorem initSpan_records (hrec : Records t h) (o : Option SpanIx) :
    Records (initSpan t o) h ∧ quietFlush (initSpan t o) = quietFlush t ∧
      (initSpan t o).activeSpan = t.activeSpan ∧ (initSpan t o).forcePrint = t.forcePrint := by
  obtain ⟨hids, hlog, hlogOff, hshow, hshowOff⟩ := initSpan_spec t o
  obtain ⟨hbufs, p, hr⟩ := hrec.sound
  have hsame : SameBuffers t (initSpan t o) := ⟨hlog, hlogOff, hshow, hshowOff⟩
  have hr' := hids.represents hr
  have hfields : (initSpan t o).traceId = t.traceId ∧ (initSpan t o).activeSpan = t.activeSpan ∧
      (initSpan t o).forcePrint = t.forcePrint := by
    cases o with
    | none => exact ⟨rfl, rfl, rfl⟩
    | some i =>
      rw [initSpan]
      split
      · exact ⟨rfl, rfl, rfl⟩
      · exact ⟨rfl, rfl, rfl⟩
  have hstarted : (initSpan t o).Started ↔ t.Started := by rw [ObTrace.Started, ObTrace.Started, hfields.1]
  refine ⟨hrec.congr hsame ⟨hsame.buffersOk hbufs, p, hr'⟩, ?_, hfields.2⟩
  simp only [quietFlush, hstarted, hr'.jobs_eq, hr.jobs_eq, hids.jobs, hlogOff, hshowOff]

/-- The flush in front of a tidy request. -/
theorem flushOnBuild_records (hrec : Records t h) {log show_ : Nat}
    (hquiet : (if t.FlushesOnBuild then quietFlush t else some (t.logBufOffset, t.showTraceBufOffset)) =
      some (log, show_)) :
    ∃ t' events, flushOnBuild t = .ok (t', events) ∧ Records t' (h.add events) ∧ t'.logBufOffset = log ∧
      t'.showTraceBufOffset = show_ ∧ t'.showTraceEnable = t.showTraceEnable := by
  rw [flushOnBuild]
  by_cases hflush : t.FlushesOnBuild
  · rw [if_pos hflush] at hquiet ⊢
    exact flushTrace_records hrec hquiet
  rw [if_neg hflush] at hquiet ⊢
  cases hquiet
  refine ⟨t, [], rfl, ?_, rfl, rfl, rfl⟩
  rw [History.add_nil]
  exact hrec

/-- **A tidy request** sends complete texts, and what it leaves has the records of the history. -/
theorem fltBuildRequest_records (hrec : Records t h) {b : BuildInput} (htidy : b.Tidy t) {out : BuildOutput}
    (hrun : fltBuildRequest t b = .ok out) :
    (out.sent = true → CompleteTexts (h.add out.events) out.request) ∧
      Records out.trace (if out.sent then .empty else h.add out.events) := by
  obtain ⟨log, show_, hquiet, hsize⟩ := htidy
  obtain ⟨hrec0, hquiet0, hactive, hforce⟩ := initSpan_records hrec t.activeSpan
  obtain ⟨hids, -, hlogOff, -, hshowOff⟩ := initSpan_spec t t.activeSpan
  have henable0 := hids.showEnable
  rw [fltBuildRequest] at hrun
  dsimp only at hrun
  generalize hspan : spanInfo (initSpan t t.activeSpan) b.span (initSpan t t.activeSpan).activeSpan = span at hrun
  have hspanBytes : (FltInfo.given (.span span)).bytes = if t.activeSpan = none then 0 else 71 := by
    rw [← hspan, hactive]
    cases t.activeSpan with
    | none => rfl
    | some i => rfl
  have hflushes : (initSpan t t.activeSpan).FlushesOnBuild ↔ t.FlushesOnBuild := by
    rw [ObTrace.FlushesOnBuild, ObTrace.FlushesOnBuild, hactive, hforce]
  generalize initSpan t t.activeSpan = t0 at *
  obtain ⟨t1, events, hflush, hrec1, hlog1, hshow1, henable1⟩ := @flushOnBuild_records t0 h hrec0 log show_
    (by rw [hquiet0, hlogOff, hshowOff]; simp only [hflushes]; exact hquiet)
  obtain ⟨client, hclient, hclientText, hclientBytes⟩ := clientText_records hrec1
  rw [hflush, ok_bind] at hrun
  rw [hclient, ok_bind] at hrun
  by_cases hpending : 1 < t1.showTraceBufOffset ∧ t1.showTraceEnable = true
  · obtain ⟨showTraceBuf, text, hshow, hlen, htext, htextLen⟩ := showText_records hrec1 hpending
    rw [hshow, ok_bind] at hrun
    -- a request with a show-trace text is accepted
    have hbytes : (⟨b.app, client, span, some text⟩ : RequestInfo).bytes = requestSize t b log show_ := by
      rw [RequestInfo.bytes, hclientBytes _ rfl, hspanBytes, hlog1, ← hshow1, ← htextLen]
      rfl
    have hfits := hsize (by rw [← hshow1]; exact hpending.1) (by rw [← henable0, ← henable1]; exact hpending.2)
    have hpos : 13 ≤ requestSize t b log show_ := by
      rw [requestSize]
      omega
    have hmax : maxFltSerializeSize = 2048 := rfl
    have hsent : ∃ mem, fltBuildRequestValue ⟨b.app, client, span, some text⟩ b.serializeBuf = .ok (.value mem) := by
      rcases fltBuildRequestValue_result (by rw [hbytes]; omega) b.serializeBufLen with ⟨-, hzero⟩ | ⟨-, hlarge⟩ | ⟨-, hmem⟩
      · omega
      · omega
      · exact hmem
    obtain ⟨mem, hmem⟩ := hsent
    rw [hmem] at hrun
    cases hrun
    obtain ⟨hbufs1, p, hr⟩ := hrec1.sound
    refine ⟨fun _ => ⟨?_, ?_⟩, ?_⟩
    · intro text' htext'
      exact ⟨hclientText text' htext', hrec1.logged⟩
    · rintro text' ⟨⟩
      exact ⟨htext, hrec1.shown⟩
    · refine @afterRequest_records { t1 with showTraceBuf := showTraceBuf } ⟨?_, p, ?_⟩ mem
      · exact ⟨hbufs1.logLen, hbufs1.logOffset, hlen, hbufs1.showOffset⟩
      · exact hr.congr rfl rfl rfl rfl rfl fun _ => rfl
  rw [showText, if_neg hpending, ok_bind] at hrun
  obtain ⟨result, -, hrun⟩ := bind_eq_ok.mp hrun
  cases hrun
  refine ⟨fun _ => ⟨?_, fun _ hnone => by cases hnone⟩, ?_⟩
  · intro text' htext'
    exact ⟨hclientText text' htext', hrec1.logged⟩
  · cases result with
    | value mem => exact afterRequest_records hrec1.sound mem
    | nothing => exact hrec1
    | tooLarge => exact hrec1
    | mismatch => exact hrec1

end Build

/-- **A tidy run only sends whole records.** -/
theorem sendsRecords_of_tidy (hrec : Records t h) {ops : List Op} (hallowed : Along Op.step Op.Allowed t ops)
    (htidy : Along Op.step Op.Tidy t ops) : SendsRecords t h ops := by
  induction ops generalizing t h with
  | nil => trivial
  | cons op ops ih =>
    cases op with
    | call c =>
      obtain ⟨t1, events, hrun, hrec1⟩ := c.run_records hrec hallowed.1 htidy.1
      intro t' events' hrun'
      rw [hrun] at hrun'
      cases hrun'
      exact ih hrec1 (hallowed.2 t1 (Call.step_eq hrun)) (htidy.2 t1 (Call.step_eq hrun))
    | build b =>
      intro out hout
      have hstep : (Op.build b).step t = .ok out.trace := by
        rw [Op.step, hout]
        rfl
      obtain ⟨hcomplete, hrec1⟩ := fltBuildRequest_records hrec htidy.1 hout
      exact ⟨hcomplete, ih hrec1 (hallowed.2 _ hstep) (htidy.2 _ hstep)⟩

theorem zeroId_length : (List.replicate 16 (0 : UInt8)).length = 16 := length_replicate

theorem zeroBuf_length : ((List.replicate 2048 (0 : UInt8)).length : Int) = Protocol20.maxFltSerializeSize := by
  rw [length_replicate]
  rfl

/-- A request without app info. -/
def plainInput : BuildInput where
  app := ⟨none, none, none, none⟩
  span := ⟨0, 0, List.replicate 16 0, 0, List.replicate 16 0, zeroId_length, zeroId_length⟩
  serializeBuf := List.replicate 2048 0
  serializeBufLen := zeroBuf_length

/-- A command under `SHOW TRACE`, flushed when it is over. -/
def shownCommand : List Op :=
  [.call (.beginTrace ⟨true, true, .all, 1, true, false, 1700000000⟩), .call (.beginSpan 1 false 1700000000000000),
    .call (.endSpan (some 3) .all 50 1700000000000100), .call .flushTrace]

/-- What goes out with a command that has to be printed: its span is flushed before it has ended. -/
def runningRequest : Except Fault (ObTrace × List Event × BuildOutput) := do
  let t := beginTrace (traceInit zeroMemory) ⟨true, false, .all, 1, true, false, 1700000000⟩
  let (t, events) ← beginSpan t 1 false 1700000000000000
  let out ← fltBuildRequest t plainInput
  .ok (t, events, out)

end ObConnector.Trace
