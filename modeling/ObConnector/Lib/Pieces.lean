/-
# ObConnector.Lib.Pieces -- scanning a text that arrives in pieces.

A scanner reads a text from the front with a state of its own; each step looks at one element and says
with which state to go on, or to stop in front of it. When the text comes through a buffer that is
refilled, the scanner runs to the end of the buffer, asks for the next piece, and runs on
(`scanPieces`). A state can be `ended`: then nothing more is asked for when the buffer is used up.

The lemma `scanPieces_spec` compares that with scanning the whole text at once (`scan`): the state and
what is left of the text are the same, wherever the pieces were cut. What may differ is only whether an
`ended` scanner notices that there is more text. Nothing here names the driver.
-/
import Mathlib.Data.List.Basic

namespace ObConnector.Lib

open List

section Scanners

variable {σ α : Type} (step : σ → α → σ × Bool) (ended : σ → Bool)

/-- Scan to the end of the text, or to the element in front of which the scanner stops. -/
def scan : σ → List α → σ × List α
  | s, [] => (s, [])
  | s, c :: cs => if (step s c).2 then scan (step s c).1 cs else ((step s c).1, c :: cs)

/-- Why scanning in pieces stopped. -/
inductive Stop where
  /-- in front of an element -/
  | here
  /-- at the end of the buffer, with nothing more to look for -/
  | ended
  /-- at the end of the text -/
  | eof
  deriving DecidableEq, Repr

/-- Scan what is left of the buffer, and then piece after piece. An empty piece is the end. -/
def scanPieces : σ → List α → List (List α) → σ × Stop × List α × List (List α)
  | s, unread, pieces =>
    match scan step s unread with
    | (s, c :: cs) => (s, .here, c :: cs, pieces)
    | (s, []) =>
      if ended s then (s, .ended, [], pieces)
      else
        match pieces with
        | [] => (s, .eof, [], [])
        | p :: ps => if p.isEmpty then (s, .eof, [], []) else scanPieces s p ps

variable {step ended}

theorem scan_append (s : σ) (as bs : List α) : scan step s (as ++ bs) =
      if (scan step s as).2.isEmpty then scan step (scan step s as).1 bs
      else ((scan step s as).1, (scan step s as).2 ++ bs) := by
  induction as generalizing s with
  | nil => rfl
  | cons c cs ih =>
    by_cases hstep : (step s c).2
    · simp only [cons_append, scan, hstep, if_true, ih]
    · simp only [cons_append, scan, hstep, Bool.false_eq_true, if_false, isEmpty_cons]

theorem scan_length_le (s : σ) (text : List α) : (scan step s text).2.length ≤ text.length := by
  induction text generalizing s with
  | nil => exact Nat.le_refl 0
  | cons c cs ih =>
    by_cases hstep : (step s c).2
    · simp only [scan, hstep]
      exact Nat.le_trans (ih _) (Nat.le_succ _)
    simp only [scan, hstep]
    exact Nat.le_refl _

/-- A scanner that is over takes nothing more. -/
theorem scan_over (hover : ∀ s c, ended s = true → step s c = (s, false)) {s : σ} (h : ended s = true)
    (text : List α) : scan step s text = (s, text) := by
  cases text with
  | nil => rfl
  | cons c cs => rw [scan, hover s c h]; rfl

/-- **The cuts do not matter**: scanning in pieces leaves the state and the rest that scanning the whole
text leaves. -/
theorem scanPieces_spec (hover : ∀ s c, ended s = true → step s c = (s, false)) {s : σ} {unread : List α}
    {pieces : List (List α)} (hpieces : ∀ p ∈ pieces, p ≠ []) {s' : σ} {stop : Stop} {unread' : List α}
    {pieces' : List (List α)} (h : scanPieces step ended s unread pieces = (s', stop, unread', pieces')) :
    scan step s (unread ++ pieces.flatten) = (s', unread' ++ pieces'.flatten) ∧ (∀ p ∈ pieces', p ≠ []) ∧
      (stop = .here → unread' ≠ []) ∧ (stop = .ended → unread' = [] ∧ ended s' = true) ∧
      (stop = .eof → unread' = [] ∧ pieces' = [] ∧ ended s' = false) := by
  induction pieces generalizing s unread with
  | nil =>
    rw [scanPieces] at h
    split at h
    · rename_i s1 c cs hscan
      cases h
      simpa using hscan
    rename_i s1 hscan
    split at h
    · rename_i hs1
      cases h
      simpa [hscan] using hs1
    rename_i hs1
    cases h
    simpa [hscan] using hs1
  | cons p ps ih =>
    rw [scanPieces] at h
    rw [scan_append]
    split at h
    · rename_i s1 c cs hscan
      cases h
      rw [hscan]
      exact ⟨rfl, hpieces, fun _ => cons_ne_nil _ _, fun hstop => (by cases hstop), fun hstop => (by cases hstop)⟩
    rename_i s1 hscan
    rw [hscan]
    split at h
    · rename_i hs1
      cases h
      refine ⟨?_, hpieces, fun hstop => (by cases hstop), fun _ => ⟨rfl, hs1⟩, fun hstop => (by cases hstop)⟩
      exact scan_over hover hs1 _
    have hp : p.isEmpty = false := by
      simpa using hpieces p mem_cons_self
    simp only [hp] at h
    exact ih (fun q hq => hpieces q (mem_cons_of_mem _ hq)) h

/-- Scanning in pieces makes nothing longer; it stops in front of something that is in the buffer, or
because it is over, or at the end. -/
theorem scanPieces_shrinks (s : σ) (unread : List α) (pieces : List (List α)) {s' : σ} {stop : Stop}
    {unread' : List α} {pieces' : List (List α)}
    (h : scanPieces step ended s unread pieces = (s', stop, unread', pieces')) :
    unread'.length + pieces'.flatten.length ≤ unread.length + pieces.flatten.length ∧
      (stop = .here → unread' ≠ []) ∧ (stop = .ended → ended s' = true) := by
  have hle := (scan_length_le s unread : (scan step s unread).2.length ≤ _)
  rw [scanPieces] at h
  split at h
  · rename_i s₁ c cs hscan
    cases h
    rw [hscan] at hle
    exact ⟨Nat.add_le_add_right hle _, fun _ => cons_ne_nil c cs, nofun⟩
  split at h
  · rename_i hover
    cases h
    exact ⟨Nat.add_le_add_right (Nat.zero_le _) _, nofun, fun _ => hover⟩
  cases pieces with
  | nil =>
    cases h
    exact ⟨Nat.zero_le _, nofun, nofun⟩
  | cons p ps =>
    dsimp only at h
    by_cases hp : p.isEmpty = true
    · rw [if_pos hp] at h
      cases h
      exact ⟨Nat.zero_le _, nofun, nofun⟩
    rw [if_neg hp] at h
    obtain ⟨hlen, hrest⟩ := scanPieces_shrinks _ _ _ h
    refine ⟨Nat.le_trans hlen ?_, hrest⟩
    rw [flatten_cons, length_append]
    exact Nat.le_add_left _ _

end Scanners

end ObConnector.Lib
