/-
# ObConnector.Trace.Record -- the text of a span's log record.

A span is logged as a JSON object (`TRACE_PATTERN` of `ob_full_link_trace.c`): the ids of the trace, of
the span and of its parent, its times, and its tags, which are rendered one after the other into a
buffer of `MAX_TRACE_LOG_SIZE` bytes first. Rendering fails when a tag no longer fits, and cuts the
last one off when it just about does.

Two facts are used of all this. A record has no zero byte (`zero_notMem_recordText`), so it is read
back whole from a terminated buffer; and its length does not depend on the ids
(`length_recordText_ids`), which are only drawn when the record is written.
-/
import ObConnector.Lib.CString
import ObConnector.Lib.Decimal

namespace ObConnector.Trace

open Lib List

/-- `MAX_TRACE_LOG_SIZE`. -/
def maxTraceLogSize : Nat := 1024

/-! ## Ids and numbers -/

/-- `OBCLIENT_UUID`. -/
structure Uuid where
  low : UInt64
  high : UInt64
  deriving DecidableEq, Repr

instance : Inhabited Uuid := ⟨⟨0, 0⟩⟩

/-- A digit below 16. -/
def hexDigit (d : Nat) : UInt8 := if d < 10 then UInt8.ofNat (48 + d) else UInt8.ofNat (87 + d)

/-- A number below 16^w with all its `w` digits: `%8.8lx` for `w` = 8, and so on. -/
def hexDigits : Nat → Nat → List UInt8
  | 0, _ => []
  | w + 1, v => hexDigits w (v / 16) ++ [hexDigit (v % 16)]

/-- `UUID_PATTERN` with the arguments of `UUID_TOSTRING`. -/
def uuidText (uuid : Uuid) : List UInt8 :=
  hexDigits 8 (uuid.high >>> 32).toNat ++ ascii "-" ++ hexDigits 4 (uuid.high >>> 16 &&& 0xffff).toNat ++ ascii "-" ++
    hexDigits 4 (uuid.high &&& 0xffff).toNat ++ ascii "-" ++ hexDigits 4 (uuid.low >>> 48).toNat ++ ascii "-" ++
    hexDigits 12 (uuid.low &&& 0xffffffffffff).toNat

/-- `%ld`. -/
def signedDecimal (n : Int) : List UInt8 := if n < 0 then ascii "-" ++ decimal n.natAbs else decimal n.natAbs

/-! ## Tags -/

/-- `enum_flt_tagtype`. -/
inductive TagType where
  | commandName
  | clientHost
  deriving DecidableEq, Repr

/-- `tag_str`. -/
def tagStr : TagType → List UInt8
  | .commandName => ascii "command_name"
  | .clientHost => ascii "client_host"

/-- `from` and `to` of `tostring_ObTagCtx`. -/
def escape (c : UInt8) : Option (List UInt8) :=
  if c = 34 then some [92, 34]
  else if c = 10 then some [92, 110]
  else if c = 13 then some [92, 114]
  else if c = 92 then some [92, 92]
  else none

/-- The bytes of an escape, as far as there is room; the flag falls when there is none. -/
def putEscape (bufLen : Nat) : List UInt8 → List UInt8 → Bool → List UInt8 × Bool
  | [], out, ok => (out, ok)
  | b :: bs, out, ok => if out.length < bufLen then putEscape bufLen bs (out ++ [b]) ok else putEscape bufLen bs out false

/-- The loop of `tostring_ObTagCtx` over the text. The first and the last byte are not escaped. `conv`
is set by the first escape and never cleared, so that from there on only escapes are copied. -/
def tagChars (bufLen : Nat) : Bool → List UInt8 → List UInt8 → Bool → Bool → List UInt8 × Bool
  | _, [], out, _, ok => (out, ok)
  | first, c :: cs, out, conv, ok =>
    match if first = false ∧ cs ≠ [] then escape c else none with
    | some esc =>
      let (out, ok) := putEscape bufLen esc out ok
      tagChars bufLen false cs out true ok
    | none => tagChars bufLen false cs (if conv = false ∧ out.length < bufLen then out ++ [c] else out) conv ok

/-- `tostring_ObTagCtx` behind the bytes `out`: `*pos` and the buffer up to its NUL; nothing for `OB_ERROR`.
A text that comes to the end of the buffer has the NUL in place of its last byte. -/
def tostringObTagCtx (bufLen : Nat) (out : List UInt8) (tagType : TagType) (data : CStr) :
    Option (Nat × List UInt8) :=
  if out.length + (tagStr tagType).length + 7 ≥ bufLen then none
  else
    let (out, ok) := tagChars bufLen true data.bytes (out ++ ascii "\x7b\"" ++ tagStr tagType ++ ascii "\":") false true
    if ok = false then none
    else if out.length + 1 ≥ bufLen then some (out.length, out.take (bufLen - 1) ++ [0])
    else some (out.length + 1, out ++ ascii "\x7d" ++ [0])

/-- One tag of a span: a comma, the name of the list in front of the first, and the tag. -/
def renderTag (first : Bool) (out : List UInt8) (tagType : TagType) (data : CStr) : Option (List UInt8) :=
  if out.length + 10 ≥ maxTraceLogSize then none
  else
    (tostringObTagCtx maxTraceLogSize (out ++ ascii "," ++ if first then ascii "\"tags\":[" else []) tagType data).map
      fun (pos, buf) => buf.take pos

/-- The end of the list; `untouched` is what the buffer holds when there is no tag. -/
def closeTags (untouched : CStr) (out : List UInt8) : List UInt8 :=
  if out.length ≠ 0 then
    if out.length + 1 < maxTraceLogSize then out ++ ascii "]" else out.take (maxTraceLogSize - 2) ++ ascii "]"
  else untouched.bytes

/-! ## Records -/

/-- `TRACE_PATTERN "%s}"`. -/
def recordText (traceId spanId parentId : Uuid) (startTs endTs : Int) (isFollow : Bool) (tags : List UInt8) :
    List UInt8 :=
  ascii "\x7b\"trace_id\":\"" ++ uuidText traceId ++ ascii "\",\"name\":\"obclient\",\"id\":\"" ++ uuidText spanId ++
    ascii "\",\"start_ts\":" ++ signedDecimal startTs ++ ascii ",\"end_ts\":" ++ signedDecimal endTs ++
    ascii ",\"parent_id\":\"" ++ uuidText parentId ++ ascii "\",\"is_follow\":" ++
    (if isFollow then ascii "true" else ascii "false") ++ tags ++ ascii "\x7d"

@[simp] theorem length_hexDigits (w v : Nat) : (hexDigits w v).length = w := by
  induction w generalizing v with
  | zero => rfl
  | succ w ih => rw [hexDigits, length_append, ih, length_singleton]

theorem length_uuidText (uuid : Uuid) : (uuidText uuid).length = (uuidText default).length := by
  simp only [uuidText, length_append, length_hexDigits]

/-- The length of a record, whatever its ids are. -/
def recordSize (startTs endTs : Int) (isFollow : Bool) (tags : List UInt8) : Nat :=
  (recordText default default default startTs endTs isFollow tags).length

theorem length_recordText_ids (traceId spanId parentId : Uuid) (startTs endTs : Int) (isFollow : Bool)
    (tags : List UInt8) :
    (recordText traceId spanId parentId startTs endTs isFollow tags).length =
      recordSize startTs endTs isFollow tags := by
  simp only [recordSize, recordText, length_append, length_uuidText traceId, length_uuidText spanId,
    length_uuidText parentId]

theorem recordSize_pos (startTs endTs : Int) (isFollow : Bool) (tags : List UInt8) :
    1 ≤ recordSize startTs endTs isFollow tags := by
  have hclose : (ascii "\x7d").length = 1 := by simp [ascii]
  simp only [recordSize, recordText, length_append]
  omega

/-! ## No zero byte -/

theorem hexDigit_ne_zero {d : Nat} (h : d < 16) : hexDigit d ≠ 0 := by
  interval_cases d <;> decide

theorem zero_notMem_hexDigits (w v : Nat) : (0 : UInt8) ∉ hexDigits w v := by
  induction w generalizing v with
  | zero => exact not_mem_nil
  | succ w ih =>
    rw [hexDigits, mem_append, mem_singleton]
    rintro (h | h)
    · exact ih _ h
    · exact hexDigit_ne_zero (Nat.mod_lt v (by decide)) h.symm

theorem zero_notMem_uuidText (uuid : Uuid) : (0 : UInt8) ∉ uuidText uuid := by
  simp only [uuidText, mem_append, zero_notMem_hexDigits]
  simp [ascii]

theorem zero_notMem_decimal (n : Nat) : (0 : UInt8) ∉ decimal n := by
  intro h
  exact absurd (isDigit_of_mem_decimal h) (by decide)

theorem zero_notMem_signedDecimal (n : Int) : (0 : UInt8) ∉ signedDecimal n := by
  rw [signedDecimal]
  split
  · rw [mem_append, not_or]
    exact ⟨by simp [ascii], zero_notMem_decimal _⟩
  · exact zero_notMem_decimal _

theorem escape_ne_zero {c : UInt8} {esc : List UInt8} (h : escape c = some esc) : (0 : UInt8) ∉ esc := by
  unfold escape at h
  split_ifs at h <;> cases h <;> decide

variable {out : List UInt8}

theorem zero_notMem_putEscape (bufLen : Nat) {esc : List UInt8} (hesc : (0 : UInt8) ∉ esc)
    (hout : (0 : UInt8) ∉ out) (ok : Bool) : (0 : UInt8) ∉ (putEscape bufLen esc out ok).1 := by
  induction esc generalizing out ok with
  | nil => exact hout
  | cons b bs ih =>
    rw [mem_cons, not_or] at hesc
    rw [putEscape]
    split
    · apply ih hesc.2
      rw [mem_append, mem_singleton, not_or]
      exact ⟨hout, hesc.1⟩
    · exact ih hesc.2 hout _

theorem zero_notMem_tagChars (bufLen : Nat) {cs : List UInt8} (hcs : (0 : UInt8) ∉ cs) (hout : (0 : UInt8) ∉ out)
    (first conv ok : Bool) : (0 : UInt8) ∉ (tagChars bufLen first cs out conv ok).1 := by
  induction cs generalizing first out conv ok with
  | nil => exact hout
  | cons c cs ih =>
    rw [mem_cons, not_or] at hcs
    rw [tagChars]
    split
    · rename_i esc hesc
      have hescape : escape c = some esc := by
        split at hesc
        · exact hesc
        · cases hesc
      exact ih hcs.2 (zero_notMem_putEscape bufLen (escape_ne_zero hescape) hout ok) _ _ _
    apply ih hcs.2
    split
    · rw [mem_append, mem_singleton, not_or]
      exact ⟨hout, hcs.1⟩
    · exact hout

theorem zero_notMem_tagStr (tagType : TagType) : (0 : UInt8) ∉ tagStr tagType := by
  cases tagType <;> simp [tagStr, ascii]

/-- Only the last byte of the buffer may be the NUL of a tag. -/
theorem zero_notMem_tostring {bufLen pos : Nat} {buf : List UInt8} {tagType : TagType} {data : CStr}
    (hout : (0 : UInt8) ∉ out) (h : tostringObTagCtx bufLen out tagType data = some (pos, buf)) :
    (0 : UInt8) ∉ (buf.take pos).take (bufLen - 1) := by
  have hdata : 0 ∉ data.bytes := data.property
  have hhead : 0 ∉ out ++ ascii "\x7b\"" ++ tagStr tagType ++ ascii "\":" := by
    simp only [mem_append, not_or]
    exact ⟨⟨⟨hout, by simp [ascii]⟩, zero_notMem_tagStr tagType⟩, by simp [ascii]⟩
  have hchars := zero_notMem_tagChars bufLen hdata hhead true false true
  unfold tostringObTagCtx at h
  split at h
  · cases h
  dsimp only at h
  split at h
  · cases h
  generalize (tagChars bufLen true data.bytes (out ++ ascii "\x7b\"" ++ tagStr tagType ++ ascii "\":") false true).1 = text
    at h hchars
  split at h <;> cases h
  · rename_i hfull
    have hlen : (text.take (bufLen - 1)).length = bufLen - 1 := by
      rw [length_take]
      omega
    have hsub : (text.take (bufLen - 1) ++ [0]).take (bufLen - 1) = text.take (bufLen - 1) := by
      rw [take_append_of_le_length hlen.ge, take_of_length_le hlen.le]
    rw [take_take, min_comm, ← take_take, hsub]
    exact fun hmem => hchars (mem_of_mem_take (mem_of_mem_take hmem))
  · have hall : (text ++ ascii "\x7d" ++ [0]).take (text.length + 1) = text ++ ascii "\x7d" :=
      take_left' (by simp [ascii])
    rw [hall]
    intro hmem
    rcases mem_append.1 (mem_of_mem_take hmem) with hmem | hmem
    · exact hchars hmem
    · simp [ascii] at hmem

theorem take_of_room {n : Nat} (hroom : ¬out.length + 10 ≥ n) : out.take (n - 1) = out :=
  take_of_length_le (by omega)

theorem zero_notMem_renderTag {first : Bool} {out' : List UInt8} {tagType : TagType} {data : CStr}
    (hout : (0 : UInt8) ∉ out.take (maxTraceLogSize - 1)) (h : renderTag first out tagType data = some out') :
    (0 : UInt8) ∉ out'.take (maxTraceLogSize - 1) := by
  rw [renderTag] at h
  by_cases hroom : out.length + 10 ≥ maxTraceLogSize
  · rw [if_pos hroom] at h
    cases h
  rw [if_neg hroom, Option.map_eq_some_iff] at h
  obtain ⟨⟨pos, buf⟩, h, rfl⟩ := h
  rw [take_of_room hroom] at hout
  refine zero_notMem_tostring ?_ h
  simp only [mem_append, not_or]
  refine ⟨⟨hout, by simp [ascii]⟩, ?_⟩
  cases first <;> simp [ascii]

theorem zero_notMem_closeTags (untouched : CStr) (hout : (0 : UInt8) ∉ out.take (maxTraceLogSize - 1)) :
    (0 : UInt8) ∉ closeTags untouched out := by
  have hbracket : 0 ∉ ascii "]" := by simp [ascii]
  unfold closeTags
  split
  · split
    · rename_i hroom
      rw [take_of_length_le (by omega)] at hout
      rw [mem_append, not_or]
      exact ⟨hout, hbracket⟩
    have htake : out.take (maxTraceLogSize - 2) = (out.take (maxTraceLogSize - 1)).take (maxTraceLogSize - 2) := by
      rw [take_take, min_eq_left (by omega)]
    rw [mem_append, not_or, htake]
    exact ⟨fun h => hout (mem_of_mem_take h), hbracket⟩
  · exact untouched.property

/-- **A record has no zero byte.** -/
theorem zero_notMem_recordText (traceId spanId parentId : Uuid) (startTs endTs : Int) (isFollow : Bool)
    {tags : List UInt8} (htags : (0 : UInt8) ∉ tags) :
    (0 : UInt8) ∉ recordText traceId spanId parentId startTs endTs isFollow tags := by
  have hfollow : 0 ∉ if isFollow then ascii "true" else ascii "false" := by
    cases isFollow <;> simp [ascii]
  simp only [recordText, mem_append, zero_notMem_uuidText, zero_notMem_signedDecimal, hfollow, htags]
  simp [ascii]

end ObConnector.Trace
