/-
# ObConnector.Trace.Request -- what `flt_build_request` sends of the logs.

Before a command is sent, `flt_build_request` (`ob_full_link_trace.c`) may flush the trace, and then it
sends the log buffer and the show-trace buffer as strings: from their first byte to their first zero, and
not to their offset. When the request is accepted, the offsets are set back and the buffers start anew.

A history has the records that were printed since. A request is complete when its texts are exactly
these records: joined for the log, and between brackets with commas for the show-trace text.
-/
import ObConnector.Protocol20.FltSize
import ObConnector.Trace.FlushOnce

namespace ObConnector.Trace

open Lib Protocol20

/-! ## The request -/

/-- The string at the beginning of a buffer. -/
def textOf (buf : List UInt8) : Except Fault CStr :=
  if 0 ∈ buf then .ok ⟨buf.takeWhile (· ≠ 0), fun h => by simpa using List.mem_takeWhile_imp h⟩
  else .error .readOutside

/-- `serialize_UUID`: both halves with the most significant byte first. -/
def serializeUuid (uuid : Uuid) : List UInt8 := (leBytes 8 uuid.high.toNat).reverse ++ (leBytes 8 uuid.low.toNat).reverse

theorem length_serializeUuid (uuid : Uuid) : (serializeUuid uuid).length = 16 := by
  rw [serializeUuid, List.length_append, List.length_reverse, List.length_reverse, length_leBytes, length_leBytes]

/-- What `flt_build_request` finds outside the trace: the app info, the span info of the last request,
and `flt_serialize_buf_`. -/
structure BuildInput where
  app : AppValues
  span : SpanValues
  serializeBuf : List UInt8
  serializeBufLen : (serializeBuf.length : Int) = maxFltSerializeSize

/-- The span info, with its ids when the trace is enabled and has an active span. -/
def spanInfo (t : ObTrace) (span : SpanValues) : Option SpanIx → SpanValues
  | some i =>
    { span with
      traceEnable := 1, forcePrint := if t.forcePrint then 1 else 0
      traceId := serializeUuid t.traceId, spanId := serializeUuid (t.spans i).spanId
      traceIdLen := length_serializeUuid _, spanIdLen := length_serializeUuid _ }
  | none => { span with traceEnable := 0 }

/-- The active span of an enabled trace. -/
def ObTrace.activeSpan (t : ObTrace) : Option SpanIx := if t.traceEnable then t.lastActiveSpan else none

/-- `flt_build_request` flushes when the trace is enabled, has an active span and must be printed. -/
def ObTrace.FlushesOnBuild (t : ObTrace) : Prop := t.activeSpan ≠ none ∧ t.forcePrint = true

instance (t : ObTrace) : Decidable t.FlushesOnBuild := inferInstanceAs (Decidable (_ ∧ _))

/-- The flush of `flt_build_request`. -/
def flushOnBuild (t : ObTrace) : Except Fault (ObTrace × List Event) :=
  if t.FlushesOnBuild then flushTrace t else .ok (t, [])

/-- `client_span_`. -/
def clientText (t : ObTrace) : Except Fault (Option CStr) :=
  if t.logBufOffset ≠ 0 then (textOf t.logBuf).map some else .ok none

/-- `client_span_json_`; its final comma becomes a bracket. -/
def showText (t : ObTrace) : Except Fault (ObTrace × Option CStr) :=
  if 1 < t.showTraceBufOffset ∧ t.showTraceEnable = true then do
    let showTraceBuf ← writeAt t.showTraceBuf (t.showTraceBufOffset - 1) (ascii "]")
    let text ← textOf showTraceBuf
    .ok ({ t with showTraceBuf := showTraceBuf }, some text)
  else .ok (t, none)

/-- What a request leaves: only an accepted one starts the buffers anew. -/
def afterRequest (t : ObTrace) : BuildResult → ObTrace
  | .value _ =>
    { t with logBufOffset := 0, showTraceBuf := ascii "[" ++ t.showTraceBuf.drop 1, showTraceBufOffset := 1 }
  | _ => t

/-- How `flt_build_request` ends. -/
structure BuildOutput where
  trace : ObTrace
  events : List Event
  request : RequestInfo
  result : BuildResult

/-- `flt_build_request`. -/
def fltBuildRequest (t : ObTrace) (b : BuildInput) : Except Fault BuildOutput := do
  let t := initSpan t t.activeSpan
  let span := spanInfo t b.span t.activeSpan
  let (t, events) ← flushOnBuild t
  let client ← clientText t
  let (t, show_) ← showText t
  let request : RequestInfo := ⟨b.app, client, span, show_⟩
  let result ← fltBuildRequestValue request b.serializeBuf
  .ok ⟨afterRequest t result, events, request, result⟩

/-- The request was accepted. -/
def BuildOutput.sent (out : BuildOutput) : Bool :=
  match out.result with
  | .value _ => true
  | _ => false

/-! ## Histories -/

/-- The records in the log and in the show-trace buffer since the last request that was sent. -/
structure History where
  logged : List (List UInt8)
  shown : List (List UInt8)

/-- Nothing was printed. -/
def History.empty : History := ⟨[], []⟩

/-- The records that were printed to the log. -/
def loggedTexts (events : List Event) : List (List UInt8) :=
  events.filterMap fun
    | .logged _ text => some text
    | _ => none

/-- The records that were printed to the show-trace buffer. -/
def shownTexts (events : List Event) : List (List UInt8) :=
  events.filterMap fun
    | .shown _ text => some text
    | _ => none

/-- The history after some events. -/
def History.add (h : History) (events : List Event) : History :=
  ⟨h.logged ++ loggedTexts events, h.shown ++ shownTexts events⟩

/-- A record of some span. -/
def IsRecord (text : List UInt8) : Prop :=
  ∃ (tags : TagIx → ObTagCtx) (span : ObSpanCtx) (ks : List TagIx), RecordOf emptyText tags span ks text

/-- The texts of a request are the records of the history. -/
structure CompleteTexts (h : History) (r : RequestInfo) : Prop where
  client : ∀ text, r.clientSpan = some text → text.bytes = h.logged.flatten ∧ ∀ rec ∈ h.logged, IsRecord rec
  showTrace : ∀ text, r.showTraceSpan = some text →
    text.bytes = ascii "[" ++ [44].intercalate h.shown ++ ascii "]" ∧ ∀ rec ∈ h.shown, IsRecord rec

/-- A call on the trace, or a request. -/
inductive Op where
  | call (c : Call)
  | build (b : BuildInput)

/-- One call or request. -/
def Op.step (t : ObTrace) : Op → Except Fault ObTrace
  | .call c => c.step t
  | .build b => (fltBuildRequest t b).map BuildOutput.trace

/-- Calls are allowed where they are made; requests always are. -/
def Op.Allowed (t : ObTrace) : Op → Prop
  | .call c => c.Allowed t
  | .build _ => True

instance (t : ObTrace) : (op : Op) → Decidable (op.Allowed t)
  | .call c => inferInstanceAs (Decidable (c.Allowed t))
  | .build _ => .isTrue trivial

/-- **Every request of a run that is sent is complete.** -/
def SendsRecords (t : ObTrace) (h : History) : List Op → Prop
  | [] => True
  | .call c :: ops => ∀ t' events, c.run t = .ok (t', events) → SendsRecords t' (h.add events) ops
  | .build b :: ops => ∀ out, fltBuildRequest t b = .ok out →
    (out.sent = true → CompleteTexts (h.add out.events) out.request) ∧
      SendsRecords out.trace (if out.sent then .empty else h.add out.events) ops

/-! ## Runs that cut nothing off -/

/-- The offsets behind a flush that cuts no record off: up to the first span whose tags cannot be
rendered, all have ended and fit both buffers. -/
def quietJobs : List Job → Nat → Nat → Option (Nat × Nat)
  | [], log, show_ => some (log, show_)
  | j :: js, log, show_ =>
    match j.size with
    | none => some (log, show_)
    | some n =>
      if j.ended = true ∧ log + n < maxTraceLogSize ∧ show_ + (n + 1) < maxTraceLogSize then
        quietJobs js (log + n) (show_ + (n + 1))
      else none

/-- The offsets behind a flush of a trace, if it cuts nothing off. -/
def quietFlush (t : ObTrace) : Option (Nat × Nat) :=
  if t.Started then quietJobs t.jobs t.logBufOffset t.showTraceBufOffset
  else some (t.logBufOffset, t.showTraceBufOffset)

/-- The call cuts no record off, and prints no tags that are not there. -/
def Call.Tidy (t : ObTrace) : Call → Prop
  | .beginSpan level _ _ => t.Started → level ≤ t.level → t.freeSpanList = none → quietFlush t ≠ none
  | .flushTrace => quietFlush t ≠ none
  | .flushFirstSpan stack => t.Started → ∀ i, t.currentSpanList = some i →
    (∀ n, (jobWith t (t.tagsOf i) i).size = some n → t.logBufOffset + n < maxTraceLogSize) ∧
      ((t.spans i).tags = none → stack = emptyText)
  | _ => True

instance (t : ObTrace) : (c : Call) → Decidable (c.Tidy t)
  | .beginSpan level _ _ =>
    inferInstanceAs (Decidable (t.Started → level ≤ t.level → t.freeSpanList = none → quietFlush t ≠ none))
  | .flushTrace => inferInstanceAs (Decidable (quietFlush t ≠ none))
  | .flushFirstSpan stack =>
    decidable_of_iff (t.Started → ∀ i ∈ t.currentSpanList,
        (∀ n ∈ (jobWith t (t.tagsOf i) i).size, t.logBufOffset + n < maxTraceLogSize) ∧
          ((t.spans i).tags = none → stack = emptyText)) Iff.rfl
  | .beginTrace _ | .appendTag _ _ _ | .endSpan _ _ _ _ | .resetSpan | .endTrace _ => .isTrue trivial

/-- The bytes of a request of the texts up to the offsets. -/
def requestSize (t : ObTrace) (b : BuildInput) (log show_ : Nat) : Nat :=
  (FltInfo.given (.app b.app)).bytes + (if log = 0 then 0 else 13 + log) +
    (if t.activeSpan = none then 0 else 71) + (13 + show_)

/-- The request cuts no record off, and is not too large when there is a show-trace text. -/
def BuildInput.Tidy (t : ObTrace) (b : BuildInput) : Prop :=
  ∃ log show_, (if t.FlushesOnBuild then quietFlush t else some (t.logBufOffset, t.showTraceBufOffset)) =
      some (log, show_) ∧
    (1 < show_ → t.showTraceEnable = true → (requestSize t b log show_ : Int) ≤ maxFltSerializeSize)

instance (t : ObTrace) (b : BuildInput) : Decidable (b.Tidy t) :=
  decidable_of_iff (∃ offsets ∈ (if t.FlushesOnBuild then quietFlush t
      else some (t.logBufOffset, t.showTraceBufOffset)), 1 < offsets.2 → t.showTraceEnable = true →
        (requestSize t b offsets.1 offsets.2 : Int) ≤ maxFltSerializeSize)
    ⟨fun ⟨(log, show_), h⟩ => ⟨log, show_, h⟩, fun ⟨log, show_, h⟩ => ⟨(log, show_), h⟩⟩

/-- The call or the request is tidy in the state it is made in. -/
def Op.Tidy (t : ObTrace) : Op → Prop
  | .call c => c.Tidy t
  | .build b => b.Tidy t

instance (t : ObTrace) : (op : Op) → Decidable (op.Tidy t)
  | .call c => inferInstanceAs (Decidable (c.Tidy t))
  | .build b => inferInstanceAs (Decidable (b.Tidy t))

end ObConnector.Trace
