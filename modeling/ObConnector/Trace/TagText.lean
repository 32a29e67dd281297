/-
# ObConnector.Trace.TagText -- which tags are rendered faithfully.

A tag is to be written as its name and its text, with the special characters inside the text escaped.
`conv` is set at the first escape and never cleared, so everything else behind it is left out; and as
the last character is never escaped there always is something behind it. Where there is no room an
ordinary character is left out silently; only an escape that does not fit is an error.
`rendersTag_iff` puts this together.
-/
import ObConnector.Trace.Record

namespace ObConnector.Trace

open Lib List

/-- The escape of a character; the first and the last one have none. -/
def innerEscape (first : Bool) (c : UInt8) (cs : List UInt8) : Option (List UInt8) :=
  if first = false ∧ cs ≠ [] then escape c else none

/-- The text with the characters inside escaped. -/
def escaped : Bool → List UInt8 → List UInt8
  | _, [] => []
  | first, c :: cs => (innerEscape first c cs).getD [c] ++ escaped false cs

/-- The tag as it should be written behind `out`. -/
def tagText (out : List UInt8) (tagType : TagType) (data : CStr) : List UInt8 :=
  out ++ ascii "\x7b\"" ++ tagStr tagType ++ ascii "\":" ++ escaped true data.bytes ++ ascii "\x7d"

/-- A success means that the buffer holds the tag and a NUL behind it, and that `*pos` is at the NUL;
without room for them there is an error. -/
def RendersTag (bufLen : Nat) (out : List UInt8) (tagType : TagType) (data : CStr) : Prop :=
  (∀ pos buf, tostringObTagCtx bufLen out tagType data = some (pos, buf) →
    pos = (tagText out tagType data).length ∧ buf = tagText out tagType data ++ [0]) ∧
  (bufLen ≤ (tagText out tagType data).length → tostringObTagCtx bufLen out tagType data = none)

/-- The number of characters to escape. -/
def specials : Bool → List UInt8 → Nat
  | _, [] => 0
  | first, c :: cs => (if (innerEscape first c cs).isSome then 1 else 0) + specials false cs

/-- The number of characters in front of the first one to escape. -/
def front : Bool → List UInt8 → Nat
  | _, [] => 0
  | first, c :: cs => if (innerEscape first c cs).isSome then 0 else front false cs + 1

variable {cs : List UInt8}

theorem length_innerEscape {first : Bool} {c : UInt8} {esc : List UInt8} (h : innerEscape first c cs = some esc) :
    esc.length = 2 := by
  unfold innerEscape escape at h
  split_ifs at h <;> cases h <;> rfl

/-! ## Lengths -/

theorem length_escaped (first : Bool) (cs : List UInt8) : (escaped first cs).length = cs.length + specials first cs := by
  induction cs generalizing first with
  | nil => rfl
  | cons c cs ih =>
    rw [escaped, specials, length_append, ih]
    cases hesc : innerEscape first c cs with
    | none =>
      simp
      omega
    | some esc =>
      simp [length_innerEscape hesc]
      omega

theorem escaped_of_plain {first : Bool} (h : specials first cs = 0) : escaped first cs = cs := by
  induction cs generalizing first with
  | nil => rfl
  | cons c cs ih =>
    rw [specials] at h
    cases hesc : innerEscape first c cs with
    | none => rw [escaped, hesc, ih (by omega)]; rfl
    | some esc => simp [hesc] at h

/-- The last character is not escaped. -/
theorem specials_lt (h : cs ≠ []) (first : Bool) : specials first cs < cs.length := by
  induction cs generalizing first with
  | nil => exact absurd rfl h
  | cons c cs ih =>
    rw [specials, length_cons]
    by_cases hcs : cs = []
    · simp [hcs, innerEscape, specials]
    have := ih hcs false
    split <;> omega

/-- Nor is it in front of what is. -/
theorem front_lt {first : Bool} {cs : List UInt8} (h : 0 < specials first cs) :
    front first cs + specials first cs < cs.length := by
  induction cs generalizing first with
  | nil => exact absurd h (lt_irrefl 0)
  | cons c cs ih =>
    rw [specials] at h ⊢
    rw [front]
    cases hesc : innerEscape first c cs with
    | none =>
      have := @ih false (by simpa [hesc] using h)
      simp
      omega
    | some esc =>
      have hcs : cs ≠ [] := by
        rintro rfl
        simp [innerEscape] at hesc
      have := specials_lt hcs false
      simp
      omega

/-! ## The loop -/

/-- An escape is an error when it does not fit. -/
theorem putEscape_spec {bufLen : Nat} {esc out : List UInt8} (hesc : esc.length = 2) (hout : out.length ≤ bufLen) (ok : Bool) :
    (putEscape bufLen esc out ok).1.length ≤ bufLen ∧ (putEscape bufLen esc out ok).1.length ≤ out.length + 2 ∧
      ((putEscape bufLen esc out ok).2 = true ↔ ok = true ∧ out.length + 2 ≤ bufLen) ∧
      (out.length + 2 ≤ bufLen → (putEscape bufLen esc out ok).1.length = out.length + 2) := by
  match esc, hesc with
  | [a, b], _ =>
    simp only [putEscape]
    split_ifs <;> simp_all <;> omega

/-- What the loop comes to: at most the front and the escapes, and an error exactly when some escape does
not fit. -/
theorem tagChars_spec {bufLen : Nat} (first : Bool) (cs : List UInt8) {out : List UInt8} (hout : out.length ≤ bufLen)
    (conv ok : Bool) {k : Nat} (hk : k = (if conv then 0 else front first cs) + 2 * specials first cs) :
    (tagChars bufLen first cs out conv ok).1.length ≤ out.length + k ∧
      ((tagChars bufLen first cs out conv ok).2 = true ↔
        ok = true ∧ (specials first cs = 0 ∨ out.length + k ≤ bufLen)) := by
  induction cs generalizing first out conv ok k with
  | nil => simp [tagChars, specials]
  | cons c cs ih =>
    rw [tagChars, ← innerEscape]
    cases hesc : innerEscape first c cs with
    | some esc =>
      obtain ⟨hle, hlen, hok, hfull⟩ := putEscape_spec (length_innerEscape hesc) hout ok
      have hspecials : specials first (c :: cs) = 1 + specials false cs := by simp [specials, hesc]
      have hfront : front first (c :: cs) = 0 := by simp [front, hesc]
      obtain ⟨ihlen, ihok⟩ := ih false hle true (putEscape bufLen esc out ok).2 rfl
      rw [hfront, ite_self] at hk
      simp only [if_true, hok] at ihlen ihok ⊢
      rw [ihok]
      by_cases hroom : out.length + 2 ≤ bufLen
      · constructor
        · omega
        · simp only [hroom, and_true]
          exact and_congr_right fun _ => by omega
      · exact ⟨by omega, ⟨fun h => absurd h.1.2 hroom, fun h => absurd h.2 (by omega)⟩⟩
    | none =>
      have hspecials : specials first (c :: cs) = specials false cs := by simp [specials, hesc]
      have hfront : front first (c :: cs) = front false cs + 1 := by simp [front, hesc]
      rw [hspecials] at hk ⊢
      cases conv with
      | true => simpa [hk] using ih false hout true ok (k := k) (by simpa using hk)
      | false =>
        simp only [true_and, Bool.false_eq_true, if_false] at hk ⊢
        split
        · rename_i hroom
          obtain ⟨ihlen, ihok⟩ := @ih false (out ++ [c]) (by rw [length_append]; exact hroom) false ok _ rfl
          rw [length_append, length_singleton] at ihlen ihok
          simp only [Bool.false_eq_true, if_false] at ihlen ihok
          refine ⟨by omega, ihok.trans (and_congr_right fun _ => by omega)⟩
        obtain ⟨ihlen, ihok⟩ := ih false hout false ok rfl
        simp only [Bool.false_eq_true, if_false] at ihlen
        exact ⟨by omega, ihok.trans (and_congr_right fun _ => by omega)⟩

/-- A text without such characters is copied. -/
theorem tagChars_plain {bufLen : Nat} {first : Bool} {out : List UInt8} (h : specials first cs = 0)
    (hroom : out.length + cs.length ≤ bufLen) (ok : Bool) :
    tagChars bufLen first cs out false ok = (out ++ cs, ok) := by
  induction cs generalizing first out with
  | nil => simp [tagChars]
  | cons c cs ih =>
    rw [length_cons] at hroom
    rw [specials] at h
    rw [tagChars, ← innerEscape]
    cases hesc : innerEscape first c cs with
    | some esc => simp [hesc] at h
    | none =>
      rw [if_pos ⟨rfl, by omega⟩, ih (by omega) (by rw [length_append, length_singleton]; omega), append_assoc]
      rfl

/-! ## Tags -/

/-- The length in front of the text. -/
def headLength (out : List UInt8) (tagType : TagType) : Nat := out.length + (tagStr tagType).length + 4

theorem length_tagText (out : List UInt8) (tagType : TagType) (data : CStr) : (tagText out tagType data).length =
      headLength out tagType + data.bytes.length + specials true data.bytes + 1 := by
  simp [tagText, headLength, length_escaped, ascii]
  omega

/-- **When a tag is rendered faithfully:** its name does not fit, or there is nothing to escape and all of
it fits, or the text in front of the first escape and the escapes alone do not fit. -/
theorem rendersTag_iff (bufLen : Nat) (out : List UInt8) (tagType : TagType) (data : CStr) :
    RendersTag bufLen out tagType data ↔ bufLen ≤ headLength out tagType + 3 ∨
        (if specials true data.bytes = 0 then (tagText out tagType data).length < bufLen
        else bufLen < headLength out tagType + front true data.bytes + 2 * specials true data.bytes) := by
  have hlen := length_tagText out tagType data
  obtain ⟨head, hhead⟩ : ∃ head, head = out ++ ascii "\x7b\"" ++ tagStr tagType ++ ascii "\":" := ⟨_, rfl⟩
  have hheadlen : head.length = headLength out tagType := by
    simp [hhead, headLength, ascii]
    omega
  have hstep : tostringObTagCtx bufLen out tagType data =
      if bufLen ≤ headLength out tagType + 3 then none
      else
        let r := tagChars bufLen true data.bytes head false true
        if r.2 = false then none
        else if bufLen ≤ r.1.length + 1 then some (r.1.length, r.1.take (bufLen - 1) ++ [0])
        else some (r.1.length + 1, r.1 ++ ascii "\x7d" ++ [0]) := by
    rw [tostringObTagCtx, headLength, hhead]
  by_cases hfit : bufLen ≤ headLength out tagType + 3
  · simp [RendersTag, hstep, hfit]
  obtain ⟨hle, hok⟩ := tagChars_spec true data.bytes (by omega : head.length ≤ bufLen) false true rfl
  obtain ⟨r, hr⟩ : ∃ r, r = tagChars bufLen true data.bytes head false true := ⟨_, rfl⟩
  rw [or_iff_right hfit, RendersTag, hstep, if_neg hfit]
  simp only [← hr, Bool.false_eq_true, if_false, true_and] at hle hok ⊢
  by_cases hspecials : specials true data.bytes = 0
  · rw [if_neg (by simp [hok.2 (.inl hspecials)]), if_pos hspecials]
    constructor
    · rintro ⟨-, herror⟩
      by_contra hlong
      specialize herror (by omega)
      split at herror <;> cases herror
    · intro hshort
      rw [tagChars_plain hspecials (by omega)] at hr
      have hwhole : tagText out tagType data = head ++ data.bytes ++ ascii "\x7d" := by
        rw [tagText, escaped_of_plain hspecials, hhead]
      rw [if_neg (by rw [hr, length_append]; omega), hr, ← hwhole]
      refine ⟨fun pos buf hresult => ?_, fun hlong => by omega⟩
      cases hresult
      exact ⟨by rw [hwhole]; simp [ascii, add_assoc], rfl⟩
  have hlast := @front_lt true data.bytes (by omega)
  rw [if_neg hspecials]
  by_cases hroom : headLength out tagType + front true data.bytes + 2 * specials true data.bytes ≤ bufLen
  · rw [if_neg (by simp [hok.2 (.inr (by omega))])]
    refine ⟨fun hrenders => ?_, fun hlong => by omega⟩
    -- the last character is missing
    split at hrenders
    · have hpos := (hrenders.1 _ _ rfl).1
      omega
    · have hpos := (hrenders.1 _ _ rfl).1
      omega
  · rw [if_pos (by simpa using mt hok.1 (by omega))]
    exact ⟨fun _ => by omega, fun _ => ⟨fun _ _ h => (by cases h), fun _ => rfl⟩⟩

/-- A quote inside the text: the rest of the text is lost. -/
theorem quote_hides_rest : tostringObTagCtx 1024 [] .clientHost ⟨[34, 97, 34, 98, 34], by decide⟩ =
        some (20, ascii "\x7b\"client_host\":\"a\\\"\x7d" ++ [0]) ∧
      tagText [] .clientHost ⟨[34, 97, 34, 98, 34], by decide⟩ = ascii "\x7b\"client_host\":\"a\\\"b\"\x7d" := by
  decide +kernel

end ObConnector.Trace
