/-
# ObConnector.Trace.FailedRequest -- what a failed request leaves behind.

`flt_build_request` should change nothing when it fails, apart from its own flush. But it closes the
show-trace text with a bracket before it knows the size of the request, and it starts the buffers anew
and clears the app info before `ob20_set_extra_info` has the memory for the item. All pending items point
to one value, which is overwritten by then.

How a call ends depends on the size of its request alone (`fltBuildRequest_spec`), and
`failedRequest_unchanged` says what must not be there for a failure to change nothing.
-/
import ObConnector.Trace.RequestText

namespace ObConnector.Trace

open Lib Protocol20

/-- The trace, the app info, `flt_value_data_`, and the number of pending items that point to it. -/
structure Pending where
  trace : ObTrace
  app : AppValues
  value : List UInt8
  items : Nat

/-- The values in the list of pending extra info: one value for all items. -/
def Pending.extraInfoList (p : Pending) : List (List UInt8) := List.replicate p.items p.value

/-- `flt_build_request` with its two last steps, the app info and `ob20_set_extra_info`, for which there is
memory or not; whether it fails. The value is overwritten before the memory is asked for. Below `2 ^ 31`
bytes no request ends in a mismatch (`fltBuildRequestValue_agrees`), and what one leaves in the value is
left out. -/
def fltBuildRequestAndSet (memory : Bool) (t : ObTrace) (b : BuildInput) (value : List UInt8) (items : Nat) :
    Except Fault (Bool × Pending) := do
  let out ← fltBuildRequest t b
  match out.result with
  | .nothing => .ok (false, ⟨out.trace, b.app, value, items⟩)
  | .tooLarge | .mismatch => .ok (true, ⟨out.trace, b.app, value, items⟩)
  | .value new =>
    let appSize ← fltGetSerializeSizeExtraInfo (.given (.app b.app))
    let app := if appSize ≠ 0 then ⟨none, none, none, none⟩ else b.app
    if memory then .ok (false, ⟨out.trace, app, new, items + 1⟩) else .ok (true, ⟨out.trace, app, new, items⟩)

/-- A failed request leaves the buffers as its flush has left them in `t₁`, the app info, and the items that
were pending. -/
def FailedUnchanged (memory : Bool) (t₁ t : ObTrace) (b : BuildInput) (value : List UInt8) (items : Nat) : Prop :=
  ∀ p, fltBuildRequestAndSet memory t b value items = .ok (true, p) →
    SameBuffers t₁ p.trace ∧ p.app = b.app ∧ p.extraInfoList = List.replicate items value

/-! ## The size of a request -/

/-- The length of the text in a buffer. -/
def textLength (buf : List UInt8) : Nat := (buf.takeWhile (· ≠ 0)).length

/-- There is a show-trace text to send. -/
def ObTrace.Shows (t : ObTrace) : Prop := 1 < t.showTraceBufOffset ∧ t.showTraceEnable = true

instance (t : ObTrace) : Decidable t.Shows := inferInstanceAs (Decidable (_ ∧ _))

/-- The bytes of a request: the app info, the log and the show-trace text as the flush has left them in `t₁`,
and the span. -/
def requestBytes (t₁ t : ObTrace) (app : AppValues) : Nat :=
  (if app.size = 0 then 0 else 6 + app.size) +
    (if t₁.logBufOffset ≠ 0 then 13 + textLength t₁.logBuf else 0) +
    (if (initSpan t t.activeSpan).activeSpan = none then 0 else 71) +
    (if t₁.Shows then 13 + textLength (t₁.showTraceBuf.set (t₁.showTraceBufOffset - 1) 93) else 0)

/-- There is no show-trace text to close, or it is closed already. -/
def Closed (t : ObTrace) : Prop := t.Shows → t.showTraceBuf[t.showTraceBufOffset - 1]? = some 93

/-- Nothing would be set back. -/
structure Fresh (t : ObTrace) (app : AppValues) : Prop where
  log : t.logBufOffset = 0
  show_ : t.showTraceBufOffset = 1
  bracket : t.showTraceBuf.head? = some 91
  app : app.strings = []

/-- A request that is too large finds no show-trace text to close, and one for which there is no memory
finds nothing to set back. -/
structure Spared (memory : Bool) (t₁ : ObTrace) (app : AppValues) (bytes : Nat) : Prop where
  refused : maxFltSerializeSize < bytes → Closed t₁
  unsent : bytes ≠ 0 → (bytes : Int) ≤ maxFltSerializeSize → memory = true ∨ Fresh t₁ app

/-- A byte that is stored. -/
theorem writeAt_bracket {buf buf' : List UInt8} {off : Nat} (h : writeAt buf off (ascii "]") = .ok buf') :
    buf' = buf.set off 93 ∧ (buf' = buf ↔ buf[off]? = some 93) := by
  have hbracket : ascii "]" = [93] := by simp [ascii]
  rw [hbracket, writeAt] at h
  split at h
  · rename_i hin
    rw [List.length_singleton] at hin h
    cases h
    have hset : buf.take off ++ [93] ++ buf.drop (off + 1) = buf.set off 93 := by
      rw [List.set_eq_take_append_cons_drop, if_pos (by omega), List.append_assoc, List.singleton_append]
    rw [hset]
    refine ⟨rfl, ?_, ?_⟩
    · intro heq
      rw [← heq, List.getElem?_set_self (by omega)]
    · intro hbyte
      obtain ⟨_, hbyte⟩ := List.getElem?_eq_some_iff.1 hbyte
      rw [← hbyte, List.set_getElem_self]
  · cases h

theorem textOf_length {buf : List UInt8} {text : CStr} (h : textOf buf = .ok text) :
    text.bytes.length = textLength buf := by
  unfold textOf at h
  split at h
  · cases h
    rfl
  · cases h

theorem showText_spec {t t' : ObTrace} {text : Option CStr} (h : showText t = .ok (t', text)) :
    t' = { t with showTraceBuf := t'.showTraceBuf } ∧ (t'.showTraceBuf = t.showTraceBuf ↔ Closed t) ∧
      (t.showTraceBufOffset = 1 → t'.showTraceBuf = t.showTraceBuf) ∧
      ∀ r : RequestInfo, r.showTraceSpan = text →
        r.showInfo.bytes = if t.Shows then 13 + textLength (t.showTraceBuf.set (t.showTraceBufOffset - 1) 93) else 0 := by
  unfold showText at h
  split at h
  · rename_i hpending
    obtain ⟨buf, hbuf, h⟩ := bind_eq_ok.1 h
    obtain ⟨text, htext, h⟩ := bind_eq_ok.1 h
    cases h
    obtain ⟨hset, hsame⟩ := writeAt_bracket hbuf
    refine ⟨rfl, ?_, fun hone => absurd hone (by omega), fun r hr => ?_⟩
    · rw [hsame]
      exact ⟨fun hbyte _ => hbyte, fun hclosed => hclosed hpending⟩
    · rw [if_pos (show t.Shows from hpending), ← hset, ← textOf_length htext, RequestInfo.showInfo, hr]
      rfl
  · rename_i hpending
    cases h
    refine ⟨rfl, iff_of_true rfl fun hshows => absurd hshows hpending, fun _ => rfl, fun r hr => ?_⟩
    rw [if_neg (show ¬t.Shows from hpending), RequestInfo.showInfo, hr]
    rfl

theorem clientText_bytes {t : ObTrace} {text : Option CStr} (h : clientText t = .ok text) (r : RequestInfo)
    (hr : r.clientSpan = text) :
    r.clientInfo.bytes = if t.logBufOffset ≠ 0 then 13 + textLength t.logBuf else 0 := by
  unfold clientText at h
  split at h
  · rename_i hlog
    cases htext : textOf t.logBuf with
    | error f =>
      rw [htext] at h
      cases h
    | ok text' =>
      rw [htext] at h
      cases h
      rw [if_pos hlog, ← textOf_length htext, RequestInfo.clientInfo, hr]
      rfl
  · rename_i hlog
    cases h
    rw [if_neg hlog, RequestInfo.clientInfo, hr]
    rfl

/-- **What `flt_build_request` does behind its flush**: how it ends is a matter of the size of the request. -/
theorem fltBuildRequest_spec {t t₁ : ObTrace} {b : BuildInput} {out : BuildOutput} (h : fltBuildRequest t b = .ok out)
    {events : List Event} (hflush : flushOnBuild (initSpan t t.activeSpan) = .ok (t₁, events))
    (hsmall : requestBytes t₁ t b.app < 2 ^ 31) :
    ∃ t₂ text, showText t₁ = .ok (t₂, text) ∧ out.trace = afterRequest t₂ out.result ∧
      (out.result = .nothing ∧ requestBytes t₁ t b.app = 0 ∨
        out.result = .tooLarge ∧ maxFltSerializeSize < requestBytes t₁ t b.app ∨
        (requestBytes t₁ t b.app ≠ 0 ∧ (requestBytes t₁ t b.app : Int) ≤ maxFltSerializeSize) ∧
          ∃ value, out.result = .value value) := by
  unfold fltBuildRequest at h
  dsimp only at h
  rw [hflush, ok_bind] at h
  obtain ⟨client, hclient, h⟩ := bind_eq_ok.1 h
  obtain ⟨⟨t₂, text⟩, hshow, h⟩ := bind_eq_ok.1 h
  obtain ⟨result, hresult, h⟩ := bind_eq_ok.1 h
  cases h
  refine ⟨t₂, text, hshow, rfl, ?_⟩
  obtain ⟨r, hr⟩ : ∃ r : RequestInfo, r = ⟨b.app, client,
      spanInfo (initSpan t t.activeSpan) b.span (initSpan t t.activeSpan).activeSpan, text⟩ := ⟨_, rfl⟩
  have hspan : (FltInfo.given (.span r.span)).bytes =
      if (initSpan t t.activeSpan).activeSpan = none then 0 else 71 := by
    rw [hr]
    cases (initSpan t t.activeSpan).activeSpan with
    | none => rfl
    | some i => rfl
  have hbytes : r.bytes = requestBytes t₁ t b.app := by
    rw [RequestInfo.bytes, hspan, clientText_bytes hclient r (by rw [hr]), (showText_spec hshow).2.2.2 r (by rw [hr]),
      requestBytes, hr]
    rfl
  rw [← hbytes] at hsmall ⊢
  rw [← hr] at hresult
  rcases fltBuildRequestValue_result hsmall b.serializeBufLen with ⟨hrun, hzero⟩ | ⟨hrun, hlarge⟩ | ⟨hsize, mem, hrun⟩
  · exact .inl ⟨Except.ok.inj (hresult.symm.trans hrun), hzero⟩
  · exact .inr (.inl ⟨Except.ok.inj (hresult.symm.trans hrun), hlarge⟩)
  · exact .inr (.inr ⟨hsize, mem, Except.ok.inj (hresult.symm.trans hrun)⟩)

theorem app_size {t₁ t : ObTrace} {app : AppValues} (hsmall : requestBytes t₁ t app < 2 ^ 31) :
    ∃ size : Int, fltGetSerializeSizeExtraInfo (.given (.app app)) = .ok size ∧ (size = 0 ↔ app.strings = []) := by
  have happ : 6 + app.size < 2 ^ 31 := by
    unfold requestBytes at hsmall
    by_cases hzero : app.size = 0
    · omega
    · rw [if_neg hzero] at hsmall
      omega
  refine ⟨_, (sent_app happ).size, ?_⟩
  rw [← app.size_eq_zero_iff, FltInfo.bytes]
  split <;> omega

/-- **When a failed request changes nothing.** A request that is too large must find no show-trace text to
close, and one for which there is no memory must find nothing to set back: no log, no show-trace text and no
app info. That is enough when no item is pending, or when there is memory. -/
theorem failedRequest_unchanged (memory : Bool) {t t₁ : ObTrace} {b : BuildInput} {events : List Event}
    (value : List UInt8) (items : Nat) (hflush : flushOnBuild (initSpan t t.activeSpan) = .ok (t₁, events))
    (hends : ∃ out, fltBuildRequest t b = .ok out) (hsmall : requestBytes t₁ t b.app < 2 ^ 31) :
    (FailedUnchanged memory t₁ t b value items → Spared memory t₁ b.app (requestBytes t₁ t b.app)) ∧
      (Spared memory t₁ b.app (requestBytes t₁ t b.app) →
        items = 0 ∨ memory = true ∨ requestBytes t₁ t b.app = 0 ∨ maxFltSerializeSize < requestBytes t₁ t b.app →
        FailedUnchanged memory t₁ t b value items) := by
  obtain ⟨out, hout⟩ := hends
  obtain ⟨t₂, text, hshow, htrace, hcases⟩ := fltBuildRequest_spec hout hflush hsmall
  obtain ⟨ht₂, hclosed, hone, -⟩ := showText_spec hshow
  obtain ⟨size, hsize, hstrings⟩ := app_size hsmall
  unfold FailedUnchanged fltBuildRequestAndSet
  rw [hout, ok_bind, htrace]
  rcases hcases with ⟨hresult, hzero⟩ | ⟨hresult, hlarge⟩ | ⟨⟨hne, hfits⟩, new, hresult⟩ <;> rw [hresult]
  · have hmax : (0 : Int) < maxFltSerializeSize := by decide
    refine ⟨fun _ => ⟨fun h => ?_, fun h => absurd hzero h⟩, fun _ _ p hp => (by cases hp)⟩
    rw [hzero] at h
    exact absurd h (by omega)
  · constructor
    · intro h
      refine ⟨fun _ => hclosed.1 (h _ rfl).1.showBuf, fun _ hle => absurd hlarge (by omega)⟩
    · intro hspared _ p hp
      cases hp
      rw [ht₂]
      exact ⟨⟨rfl, rfl, hclosed.2 (hspared.refused hlarge), rfl⟩, rfl, rfl⟩
  · simp only [hsize, ok_bind]
    cases memory with
    | true => exact ⟨fun _ => ⟨fun h => absurd hfits (by omega), fun _ _ => .inl rfl⟩, fun _ _ p hp => (by cases hp)⟩
    | false =>
      constructor
      · intro h
        refine ⟨fun hlarge => absurd hfits (by omega), fun _ _ => .inr ?_⟩
        obtain ⟨⟨-, hlog, hbuf, hoff⟩, happ, -⟩ := h _ rfl
        refine ⟨hlog.symm, hoff.symm, ?_, ?_⟩
        · rw [← hbuf]
          simp [afterRequest, ascii]
        · by_contra hset
          have hchanged : (⟨none, none, none, none⟩ : AppValues) = b.app := by
            rwa [if_pos (fun hzero => hset (hstrings.1 hzero))] at happ
          rw [← hchanged] at hset
          exact hset rfl
      · intro hspared hspace p hp
        obtain hfalse | hfresh := hspared.unsent hne hfits
        · cases hfalse
        have hitems : items = 0 := by
          rcases hspace with hitems | hfalse | hzero | hlarge
          · exact hitems
          · cases hfalse
          · exact absurd hzero hne
          · exact absurd hlarge (by omega)
        rw [if_neg (not_not.2 (hstrings.2 hfresh.app))] at hp
        cases hp
        refine ⟨?_, rfl, by rw [Pending.extraInfoList, hitems]; rfl⟩
        rw [ht₂, afterRequest, hone hfresh.show_]
        obtain ⟨tail, htail⟩ := List.head?_eq_some_iff.1 hfresh.bracket
        refine ⟨rfl, hfresh.log.symm, ?_, hfresh.show_.symm⟩
        simp [htail, ascii]

theorem longText_noZero : (0 : UInt8) ∉ List.replicate 2100 (97 : UInt8) := by
  intro h
  exact absurd (List.eq_of_mem_replicate h) (by decide)

/-- A request with app info that is too long. -/
def longInput : BuildInput := { plainInput with app := ⟨none, some ⟨List.replicate 2100 97, longText_noZero⟩, none, none⟩ }

theorem exists_ok_of_map {α β : Type} {x : Except Fault α} {f : α → β} {b : β} (h : (x.map f).toOption = some b) :
    ∃ a, x = .ok a ∧ f a = b := by
  cases x with
  | error e => cases h
  | ok a => exact ⟨a, rfl, Option.some.inj h⟩

/-- It fails, and leaves a pending item and everything else as it was. -/
theorem longInput_unchanged :
    (∃ p, fltBuildRequestAndSet false (traceInit zeroMemory) longInput [1, 2] 1 = .ok (true, p)) ∧
      FailedUnchanged false (traceInit zeroMemory) (traceInit zeroMemory) longInput [1, 2] 1 := by
  have hlarge : maxFltSerializeSize < requestBytes (traceInit zeroMemory) (traceInit zeroMemory) longInput.app := by
    decide +kernel
  have hfails : ((fltBuildRequestAndSet false (traceInit zeroMemory) longInput [1, 2] 1).map Prod.fst).toOption =
      some true := by
    decide +kernel
  have hends : ((fltBuildRequest (traceInit zeroMemory) longInput).map fun _ => ()).toOption = some () := by
    decide +kernel
  obtain ⟨⟨failed, p⟩, hp, rfl⟩ := exists_ok_of_map hfails
  obtain ⟨out, hout, -⟩ := exists_ok_of_map hends
  refine ⟨⟨p, hp⟩, (@failedRequest_unchanged false _ (traceInit zeroMemory) longInput [] [1, 2] 1 rfl
    ⟨out, hout⟩ (by decide +kernel)).2 ⟨fun _ hshows => ?_, fun _ hle => ?_⟩
    (.inr (.inr (.inr hlarge)))⟩
  · exact absurd hshows (by decide +kernel)
  · exact absurd hlarge (by omega)

/-- A trace that was never enabled, with a letter in the log. -/
def oneLetterLog : ObTrace := { traceInit zeroMemory with logBuf := 97 :: List.replicate 1023 0, logBufOffset := 1 }

/-- The log is set back although there was no memory to send it, and the item that was pending has another
value. -/
theorem log_lost_without_memory : oneLetterLog.logBufOffset = 1 ∧
    ((fltBuildRequestAndSet false oneLetterLog plainInput [1, 2] 1).map fun r =>
      (r.1, r.2.trace.logBufOffset, r.2.items, decide (r.2.value = [1, 2]))).toOption = some (true, 0, 1, false) := by
  decide +kernel

end ObConnector.Trace
