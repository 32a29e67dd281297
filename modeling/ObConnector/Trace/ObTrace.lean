/-
# ObConnector.Trace.ObTrace -- the client's trace: spans, tags and log buffers.

An `ObTrace` (`ob_full_link_trace.c`) owns `SPAN_CACHE_COUNT` span records and `TAG_CACHE_COUNT` tag
records, and nothing is allocated after `trace_init`. Span records hang in one of two doubly linked
lists, the free and the current spans; tag records hang in the free tag list or at a span. Here the
records are numbered, a pointer is the number of a record or `none`, and every operation relinks
records as the source does.

`flush_trace` writes a record for the first current span into the log buffer, and removes the span when
it has ended; it goes on as long as there is a first span and nothing failed. What is written, and what
did not fit, is reported as `Event`s, which the code itself does not keep.
-/
import ObConnector.Lib.Buffer
import ObConnector.Lib.Linked
import ObConnector.Trace.Record

namespace ObConnector.Trace

open Lib

/-! ## Records and lists -/

/-- `SPAN_CACHE_COUNT`. -/
abbrev spanCacheCount : Nat := 4

/-- `TAG_CACHE_COUNT`. -/
abbrev tagCacheCount : Nat := 16

instance : NeZero spanCacheCount := ⟨by decide⟩

/-- A span record, by its number; `LIST` nodes have the number of their span. -/
abbrev SpanIx : Type := Fin spanCacheCount

/-- A tag record, by its number. -/
abbrev TagIx : Type := Fin tagCacheCount

/-- `ObTagCtx`. -/
structure ObTagCtx where
  next : Option TagIx
  tagType : TagType
  data : CStr

/-- `ObSpanCtx`. -/
structure ObSpanCtx where
  spanId : Uuid
  sourceSpan : Option SpanIx
  isFollow : Bool
  startTs : Int
  endTs : Int
  tags : Option TagIx

/-- `ObTrace`. -/
structure ObTrace where
  seq : UInt64
  traceEnable : Bool
  showTraceEnable : Bool
  forcePrint : Bool
  slowQueryPrint : Bool
  uuidRandomSeed : UInt64 × UInt64
  traceId : Uuid
  rootSpanId : Uuid
  currentSpanList : Option SpanIx
  freeSpanList : Option SpanIx
  lastActiveSpan : Option SpanIx
  freeTagList : Option TagIx
  level : Nat
  logBufOffset : Nat
  logBuf : List UInt8
  showTraceBufOffset : Nat
  showTraceBuf : List UInt8
  links : SpanIx → Link SpanIx
  spans : SpanIx → ObSpanCtx
  tags : TagIx → ObTagCtx

/-- The trace has an id. -/
def ObTrace.Started (t : ObTrace) : Prop := ¬(t.traceId.low = 0 ∧ t.traceId.high = 0)

instance (t : ObTrace) : Decidable t.Started := inferInstanceAs (Decidable (¬_))

/-- The spans of a list, from its head on. -/
def spansFrom (links : SpanIx → Link SpanIx) : Nat → Option SpanIx → List SpanIx
  | _, none => []
  | 0, some _ => []
  | fuel + 1, some i => i :: spansFrom links fuel (links i).next

/-- The spans of the current list. -/
def ObTrace.currentSpans (t : ObTrace) : List SpanIx := spansFrom t.links spanCacheCount t.currentSpanList

/-- The spans of the free list. -/
def ObTrace.freeSpans (t : ObTrace) : List SpanIx := spansFrom t.links spanCacheCount t.freeSpanList

/-- The tags of a list, from its head on. -/
def tagsFrom (tags : TagIx → ObTagCtx) : Nat → Option TagIx → List TagIx
  | _, none => []
  | 0, some _ => []
  | fuel + 1, some k => k :: tagsFrom tags fuel (tags k).next

/-- The tags of a span. -/
def ObTrace.tagsOf (t : ObTrace) (i : SpanIx) : List TagIx := tagsFrom t.tags tagCacheCount (t.spans i).tags

/-- The tags of the free list. -/
def ObTrace.freeTags (t : ObTrace) : List TagIx := tagsFrom t.tags tagCacheCount t.freeTagList

/-! ## Initialisation -/

/-- The memory that `trace_init` gets, and the random seed. -/
structure RawTrace where
  logBuf : List UInt8
  showTraceBuf : List UInt8
  links : SpanIx → Link SpanIx
  spans : SpanIx → ObSpanCtx
  tags : TagIx → ObTagCtx
  seed : UInt64 × UInt64
  logBufLen : logBuf.length = maxTraceLogSize
  showTraceBufLen : showTraceBuf.length = maxTraceLogSize

/-- Put a tag in front of the free tag list. -/
def freeTag (t : ObTrace) (k : TagIx) : ObTrace :=
  { t with tags := Function.update t.tags k { t.tags k with next := t.freeTagList }, freeTagList := some k }

/-- Put a span in front of the free span list. -/
def addFreeSpan (t : ObTrace) (i : SpanIx) : ObTrace :=
  { t with links := listAdd t.links t.freeSpanList i, freeSpanList := some i }

/-- The fields that `trace_init` sets, before anything is linked. -/
def blankTrace (raw : RawTrace) : ObTrace where
  seq := 0
  traceEnable := false
  showTraceEnable := false
  forcePrint := false
  slowQueryPrint := false
  uuidRandomSeed := raw.seed
  traceId := ⟨0, 0⟩
  rootSpanId := ⟨0, 0⟩
  currentSpanList := none
  freeSpanList := none
  lastActiveSpan := none
  freeTagList := none
  level := 0
  logBufOffset := 0
  logBuf := raw.logBuf
  showTraceBufOffset := 1
  showTraceBuf := ascii "[" ++ raw.showTraceBuf.drop 1
  links := raw.links
  spans := raw.spans
  tags := raw.tags

/-- `trace_init`. -/
def traceInit (raw : RawTrace) : ObTrace :=
  (List.finRange spanCacheCount).foldl addFreeSpan ((List.finRange tagCacheCount).foldl freeTag (blankTrace raw))

/-! ## Ids -/

/-- `xorshift128plus`: the number and the next seed. -/
def xorshift128plus (s : UInt64 × UInt64) : UInt64 × (UInt64 × UInt64) :=
  let s1 := s.1 ^^^ (s.1 <<< 23)
  let next := s1 ^^^ s.2 ^^^ (s1 >>> 18) ^^^ (s.2 >>> 5)
  (next + s.2, (s.2, next))

/-- Change a span record. -/
def ObTrace.setSpan (t : ObTrace) (i : SpanIx) (span : ObSpanCtx) : ObTrace :=
  { t with spans := Function.update t.spans i span }

/-- `INIT_SPAN`: a span gets its id when it is first needed. -/
def initSpan (t : ObTrace) : Option SpanIx → ObTrace
  | none => t
  | some i =>
    if (t.spans i).spanId.high = 0 then
      let drawn := xorshift128plus t.uuidRandomSeed
      { t with uuidRandomSeed := drawn.2 }.setSpan i
        { t.spans i with spanId := ⟨drawn.1, UInt64.ofBitVec (BitVec.ofInt 64 (t.spans i).startTs)⟩ }
    else t

/-! ## Flushing -/

/-- What was written, or did not fit. -/
inductive Event where
  | logged (span : SpanIx) (text : List UInt8)
  | logOverflow
  | shown (span : SpanIx) (text : List UInt8)
  | showOverflow
  deriving DecidableEq, Repr

/-- `snprintf` into a log buffer, behind the first `off` bytes. -/
def snprintf (buf : List UInt8) (off : Nat) (text : List UInt8) : Except Fault (List UInt8) :=
  if off = maxTraceLogSize then .ok buf else writeAt buf off (text.take (maxTraceLogSize - off - 1) ++ [0])

/-- The loop that renders the tags of a span; nothing for `OB_ERROR`. -/
def renderTags (tags : TagIx → ObTagCtx) : Nat → Option TagIx → Bool → List UInt8 →
    Except Fault (Option (List UInt8))
  | _, none, _, out => .ok (some out)
  | 0, some _, _, _ => .error .outOfFuel
  | fuel + 1, some k, first, out =>
    match renderTag first out (tags k).tagType (tags k).data with
    | none => .ok none
    | some out => renderTags tags fuel (tags k).next false out

/-- The id of a span's parent. -/
def ObTrace.parentId (t : ObTrace) : Option SpanIx → Uuid
  | none => t.rootSpanId
  | some j => (t.spans j).spanId

/-- What `flush_trace` and `flush_first_span` share: the tags are rendered, the ids drawn and the record
printed. The text is `none` when something failed; `untouched` is what the buffer for the tags holds
before. -/
def logSpan (t : ObTrace) (i : SpanIx) (untouched : CStr) :
    Except Fault (ObTrace × Option (List UInt8) × List Event) := do
  let span := t.spans i
  let t := initSpan t (some i)
  match ← renderTags t.tags tagCacheCount span.tags true [] with
  | none => .ok (t, none, [])
  | some out => do
    let t := initSpan t span.sourceSpan
    let text := recordText t.traceId (t.spans i).spanId (t.parentId span.sourceSpan) span.startTs span.endTs
      span.isFollow (closeTags untouched out)
    let logBuf ← snprintf t.logBuf t.logBufOffset text
    if t.logBufOffset + text.length ≥ maxTraceLogSize then .ok ({ t with logBuf := logBuf }, none, [.logOverflow])
    else .ok ({ t with logBuf := logBuf, logBufOffset := t.logBufOffset + text.length }, some text, [.logged i text])

/-- The record that was just logged, as `%.*s` prints it. -/
def lastLogged (t : ObTrace) (logBufLen : Nat) : List UInt8 :=
  ((t.logBuf.drop (t.logBufOffset - logBufLen)).take logBufLen).takeWhile (· ≠ 0)

/-- The copy of the last log record to the show-trace buffer; whether it fits. -/
def showSpan (t : ObTrace) (i : SpanIx) (logBufLen : Nat) : Except Fault (ObTrace × Bool × List Event) := do
  let text := lastLogged t logBufLen
  let printed := text ++ ascii ","
  let showTraceBuf ← snprintf t.showTraceBuf t.showTraceBufOffset printed
  if t.showTraceBufOffset + printed.length ≥ maxTraceLogSize then
    .ok ({ t with showTraceBuf := showTraceBuf }, false, [.showOverflow])
  else
    .ok ({ t with showTraceBuf := showTraceBuf, showTraceBufOffset := t.showTraceBufOffset + printed.length }, true,
      [.shown i text])

/-- The loop that gives the tags of a span back. -/
def resetTags : Nat → ObTrace → Option TagIx → Except Fault ObTrace
  | _, t, none => .ok t
  | 0, _, some _ => .error .outOfFuel
  | fuel + 1, t, some k => resetTags fuel (freeTag t k) (t.tags k).next

/-- Move a span from the current to the free list. -/
def freeSpan (t : ObTrace) (i : SpanIx) : ObTrace :=
  let deleted := listDelete t.links t.currentSpanList i
  addFreeSpan { t with links := deleted.1, currentSpanList := deleted.2 } i

/-- The end of a span that was logged: its tags and the span itself become free. -/
def clearSpan (t : ObTrace) (i : SpanIx) : Except Fault ObTrace := do
  let t ← resetTags tagCacheCount t (t.spans i).tags
  .ok (freeSpan (t.setSpan i { t.spans i with tags := none }) i)

/-- What a buffer of zeros holds. -/
def emptyText : CStr := ⟨[], by decide⟩

/-- The body of the loop of `flush_trace`; whether nothing failed. -/
def flushSpan (t : ObTrace) (i : SpanIx) : Except Fault (ObTrace × Bool × List Event) := do
  let (t, text, events) ← logSpan t i emptyText
  match text with
  | none => .ok (t, false, events)
  | some text =>
    if (t.spans i).endTs = 0 then .ok (t, true, events)
    else do
      let (t, fits, events') ← showSpan t i text.length
      if fits then do
        let t ← clearSpan t i
        .ok (t, true, events ++ events')
      else .ok (t, false, events ++ events')

/-- The loop of `flush_trace`. -/
def flushLoop : Nat → ObTrace → Except Fault (ObTrace × List Event)
  | 0, _ => .error .outOfFuel
  | fuel + 1, t =>
    match t.currentSpanList with
    | none => .ok (t, [])
    | some i => do
      let (t, ok, events) ← flushSpan t i
      if ok then do
        let (t, events') ← flushLoop fuel t
        .ok (t, events ++ events')
      else .ok (t, events)

/-- `flush_trace`. Every round that goes on fills the log, so that a round for each of its bytes is
enough. -/
def flushTrace (t : ObTrace) : Except Fault (ObTrace × List Event) :=
  if t.Started then flushLoop (maxTraceLogSize + 1) t else .ok (t, [])

/-- `flush_first_span`; `stack` is what stands in its uninitialised buffer. -/
def flushFirstSpan (t : ObTrace) (stack : CStr) : Except Fault (ObTrace × List Event) :=
  if t.Started then
    match t.currentSpanList with
    | none => .ok (t, [])
    | some i => do
      let (t, text, events) ← logSpan t i stack
      if text.isSome ∧ (t.spans i).endTs ≠ 0 then do
        let t ← clearSpan t i
        .ok (t, events)
      else .ok (t, events)
  else .ok (t, [])

/-! ## The other operations -/

/-- `RecordPolicy`. -/
inductive RecordPolicy where
  | all
  | onlySlowQuery
  | sampleAndSlowQuery
  deriving DecidableEq, Repr

/-- What `begin_trace` decides on: the control information, whether the two random percentages are hit,
and the time. -/
structure Sampling where
  valid : Bool
  showTraceEnable : Bool
  rp : RecordPolicy
  level : Nat
  sampleHit : Bool
  printHit : Bool
  now : UInt64

/-- `begin_trace`. -/
def beginTrace (t : ObTrace) (c : Sampling) : ObTrace :=
  let t :=
    if c.valid = false then { t with traceEnable := false, showTraceEnable := false }
    else if c.showTraceEnable then { t with traceEnable := true, showTraceEnable := true }
    else
      { t with
        uuidRandomSeed := (xorshift128plus t.uuidRandomSeed).2, showTraceEnable := false, traceEnable := c.sampleHit }
  if t.traceEnable then
    let drawn := xorshift128plus t.uuidRandomSeed
    let t := { t with uuidRandomSeed := drawn.2, traceId := ⟨drawn.1, c.now⟩, level := c.level }
    if c.showTraceEnable then { t with forcePrint := true }
    else
      match c.rp with
      | .all => { t with forcePrint := true }
      | .sampleAndSlowQuery =>
        { t with uuidRandomSeed := (xorshift128plus t.uuidRandomSeed).2, forcePrint := c.printHit }
      | .onlySlowQuery => { t with forcePrint := false }
  else { t with level := 0, forcePrint := false, traceId := ⟨0, 0⟩ }

/-- The head of the free list becomes the first current span. -/
def takeSpan (t : ObTrace) (i : SpanIx) (isFollow : Bool) (now : Int) : ObTrace :=
  let t := { t with seq := t.seq + 1 }
  let t := t.setSpan i ⟨⟨t.seq, 0⟩, t.lastActiveSpan, isFollow, now, 0, none⟩
  let deleted := listDelete t.links t.freeSpanList i
  { t with
    lastActiveSpan := some i
    links := listAdd deleted.1 t.currentSpanList i, freeSpanList := deleted.2, currentSpanList := some i }

/-- The flush of `begin_span`, when no span is free. -/
def makeRoom (t : ObTrace) : Except Fault (ObTrace × List Event) :=
  if t.freeSpanList = none then flushTrace t else .ok (t, [])

/-- The first free span is taken, if there is one. -/
def takeFirst (t : ObTrace) (isFollow : Bool) (now : Int) : ObTrace :=
  match t.freeSpanList with
  | none => t
  | some i => takeSpan t i isFollow now

/-- `begin_span`. -/
def beginSpan (t : ObTrace) (level : Nat) (isFollow : Bool) (now : Int) : Except Fault (ObTrace × List Event) :=
  if ¬t.Started ∨ level > t.level then .ok (t, [])
  else do
    let (t, events) ← makeRoom t
    .ok (takeFirst t isFollow now, events)

/-- `end_span`. -/
def endSpan (t : ObTrace) (span : Option SpanIx) (rp : RecordPolicy) (slowQueryThreshold now : Int) : ObTrace :=
  match span with
  | none => t
  | some i =>
    if ¬t.Started ∨ (t.spans i).spanId.low = 0 ∧ (t.spans i).spanId.high = 0 then t
    else
      let t := { t with lastActiveSpan := (t.spans i).sourceSpan }.setSpan i { t.spans i with endTs := now }
      if (rp = .onlySlowQuery ∨ rp = .sampleAndSlowQuery) ∧
          slowQueryThreshold ≠ -1 ∧ slowQueryThreshold ≤ now - (t.spans i).startTs then
        { t with slowQueryPrint := true }
      else t

/-- The loop that `end_trace` and `reset_span` share: every current span becomes free, and `touch` is
what else is done to it. -/
def drainSpans (touch : SpanIx → ObSpanCtx → ObSpanCtx) : Nat → ObTrace → Except Fault ObTrace
  | fuel, t =>
    match t.currentSpanList with
    | none => .ok t
    | some i =>
      match fuel with
      | 0 => .error .outOfFuel
      | fuel + 1 => drainSpans touch fuel (freeSpan (t.setSpan i (touch i (t.spans i))) i)

/-- `reset_span`: the tags of the spans are forgotten. -/
def resetSpan (t : ObTrace) : Except Fault ObTrace :=
  if t.Started then drainSpans (fun _ span => { span with tags := none }) spanCacheCount t else .ok t

/-- `end_trace`; `now` is the time when the loop comes to a span. -/
def endTrace (t : ObTrace) (now : SpanIx → Int) : Except Fault ObTrace := do
  let t ← drainSpans (fun i span => if span.endTs = 0 then { span with endTs := now i } else span) spanCacheCount t
  .ok { t with level := 0, lastActiveSpan := none }

/-- `append_tag`. -/
def appendTag (t : ObTrace) (i : SpanIx) (tagType : TagType) (str : Option CStr) : ObTrace :=
  match str, t.freeTagList with
  | some str, some k =>
    { t with
      freeTagList := (t.tags k).next
      tags := Function.update t.tags k ⟨(t.spans i).tags, tagType, str⟩
      spans := Function.update t.spans i { t.spans i with tags := some k } }
  | _, _ => t

/-! ## Calls -/

/-- The calls on a trace, with what they get from the outside. -/
inductive Call where
  | beginTrace (c : Sampling)
  | beginSpan (level : Nat) (isFollow : Bool) (now : Int)
  | appendTag (span : SpanIx) (tagType : TagType) (str : Option CStr)
  | endSpan (span : Option SpanIx) (rp : RecordPolicy) (slowQueryThreshold now : Int)
  | resetSpan
  | flushTrace
  | flushFirstSpan (stack : CStr)
  | endTrace (now : SpanIx → Int)

/-- One call. -/
def Call.run (t : ObTrace) : Call → Except Fault (ObTrace × List Event)
  | .beginTrace c => .ok (Trace.beginTrace t c, [])
  | .beginSpan level isFollow now => Trace.beginSpan t level isFollow now
  | .appendTag span tagType str => .ok (Trace.appendTag t span tagType str, [])
  | .endSpan span rp slowQueryThreshold now => .ok (Trace.endSpan t span rp slowQueryThreshold now, [])
  | .resetSpan => do
    let t ← Trace.resetSpan t
    .ok (t, [])
  | .flushTrace => Trace.flushTrace t
  | .flushFirstSpan stack => Trace.flushFirstSpan t stack
  | .endTrace now => do
    let t ← Trace.endTrace t now
    .ok (t, [])

/-- Tags are appended to spans in use. -/
def Call.Allowed (t : ObTrace) : Call → Prop
  | .appendTag span _ _ => span ∈ t.currentSpans
  | _ => True

instance (t : ObTrace) : (c : Call) → Decidable (c.Allowed t)
  | .appendTag span _ _ => inferInstanceAs (Decidable (span ∈ t.currentSpans))
  | .beginTrace _ | .beginSpan _ _ _ | .endSpan _ _ _ _ | .resetSpan | .flushTrace | .flushFirstSpan _ |
    .endTrace _ => .isTrue trivial

end ObConnector.Trace
