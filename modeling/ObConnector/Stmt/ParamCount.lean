/-
# ObConnector.Stmt.ParamCount -- counting the parameters of a statement.

Before a statement has been prepared on the server the driver needs to know how many parameters it
has, and counts the question marks itself (`find_sql_param_count` in `mariadb_stmt.c`). It scans the
text once, with a state for each kind of text in which a question mark is no parameter, and it looks
for a line comment only where a line starts.

`Lexed` is the lexical reading of a text that the scanner has to agree with: the text is cut into
literals, quoted identifiers, comments and single characters, and the question marks among the single
characters are counted. The rule for line comments is a parameter of it. The scanner counts what
`Lexed` counts when line comments start in the first column (`findSqlParamCount_eq_iff`).
-/
import Mathlib.Data.List.Infix

namespace ObConnector.Stmt

open List

/-! ## the scanner -/

/-- `char_state`. -/
inductive CharState where
  | normal | singleQuote | doubleQuote | singleLineComment | multiLineComment
  deriving DecidableEq, Repr

/-- `SINGLE_QUOTE`. -/
def quoteChar : UInt8 := 39

/-- `DOUBLE_QUOTE`. -/
def doubleQuoteChar : UInt8 := 34

def dashChar : UInt8 := 45

def slashChar : UInt8 := 47

def starChar : UInt8 := 42

def questionChar : UInt8 := 63

def newlineChar : UInt8 := 10

/-- One round of the loop at `c`, with `next` behind it: the state after it, whether the round takes
`next` as well (`++i`), and how many parameters it counts. -/
def charStep (state : CharState) (isLineFirst : Bool) (c : UInt8) (next : Option UInt8) : CharState × Bool × Nat :=
  match state with
  | .normal =>
    if c = quoteChar then (.singleQuote, false, 0)
    else if c = doubleQuoteChar then (.doubleQuote, false, 0)
    else if isLineFirst ∧ c = dashChar ∧ next = some dashChar then (.singleLineComment, true, 0)
    else if c = slashChar ∧ next = some starChar then (.multiLineComment, true, 0)
    else if c = questionChar then (.normal, false, 1)
    else (.normal, false, 0)
  | .singleQuote => if c = quoteChar then (.normal, false, 0) else (.singleQuote, false, 0)
  | .doubleQuote => if c = doubleQuoteChar then (.normal, false, 0) else (.doubleQuote, false, 0)
  | .singleLineComment => if c = newlineChar then (.normal, false, 0) else (.singleLineComment, false, 0)
  | .multiLineComment =>
    if c = starChar ∧ next = some slashChar then (.normal, true, 0) else (.multiLineComment, false, 0)

/-- The loop over what is left of the text; `is_line_first` is set by the last character of a round. -/
def countLoop : CharState → Bool → Nat → List UInt8 → Nat
  | _, _, paramCount, [] => paramCount
  | state, isLineFirst, paramCount, [c] =>
    paramCount + (charStep state isLineFirst c none).2.2
  | state, isLineFirst, paramCount, c :: d :: rest =>
    let (state, takesNext, n) := charStep state isLineFirst c (some d)
    if takesNext then countLoop state (d = newlineChar) (paramCount + n) rest
    else countLoop state (c = newlineChar) (paramCount + n) (d :: rest)

/-- `find_sql_param_count`, of no text or of a text. -/
def findSqlParamCount : Option (List UInt8) → Nat
  | none => 0
  | some sql => countLoop .normal true 0 sql

/-! ## the lexical reading -/

/-- The inside of a literal: a quote only as one of a pair. -/
inductive LiteralBody : List UInt8 → Prop
  | nil : LiteralBody []
  | char {c : UInt8} {body : List UInt8} (hc : c ≠ quoteChar) (h : LiteralBody body) : LiteralBody (c :: body)
  | pair {body : List UInt8} (h : LiteralBody body) : LiteralBody (quoteChar :: quoteChar :: body)

/-- What closes a block comment. -/
def blockEnd : List UInt8 := [starChar, slashChar]

/-- A line comment starts here: at two dashes, `anywhere` or only where a line starts. -/
def StartsLineComment (anywhere lineStart : Bool) (c : UInt8) (rest : List UInt8) : Prop :=
  (anywhere = true ∨ lineStart = true) ∧ c = dashChar ∧ rest.head? = some dashChar

/-- A character that stands for itself. -/
structure Plain (anywhere lineStart : Bool) (c : UInt8) (rest : List UInt8) : Prop where
  notQuote : c ≠ quoteChar
  notDoubleQuote : c ≠ doubleQuoteChar
  notQuestion : c ≠ questionChar
  notBlock : ¬(c = slashChar ∧ rest.head? = some starChar)
  notLine : ¬StartsLineComment anywhere lineStart c rest

/-- The text has `n` parameters: cut from left to right into literals, quoted identifiers, comments
and characters, it has `n` question marks among the characters. A part that is not closed runs to the
end of the text. `lineStart` says whether the text begins where a line does. -/
inductive Lexed (anywhere : Bool) : Bool → List UInt8 → Nat → Prop
  | done (lineStart : Bool) : Lexed anywhere lineStart [] 0
  | literal {lineStart : Bool} {body rest : List UInt8} {n : Nat} (hbody : LiteralBody body)
      (hrest : rest.head? ≠ some quoteChar) (h : Lexed anywhere false rest n) :
      Lexed anywhere lineStart (quoteChar :: (body ++ quoteChar :: rest)) n
  | openLiteral {lineStart : Bool} {body : List UInt8} (hbody : LiteralBody body) :
      Lexed anywhere lineStart (quoteChar :: body) 0
  | identifier {lineStart : Bool} {body rest : List UInt8} {n : Nat} (hbody : doubleQuoteChar ∉ body)
      (h : Lexed anywhere false rest n) :
      Lexed anywhere lineStart (doubleQuoteChar :: (body ++ doubleQuoteChar :: rest)) n
  | openIdentifier {lineStart : Bool} {body : List UInt8} (hbody : doubleQuoteChar ∉ body) :
      Lexed anywhere lineStart (doubleQuoteChar :: body) 0
  | block {lineStart : Bool} {body rest : List UInt8} {n : Nat} (hbody : ¬blockEnd <:+: body ++ [starChar])
      (h : Lexed anywhere false rest n) :
      Lexed anywhere lineStart (slashChar :: starChar :: (body ++ (blockEnd ++ rest))) n
  | openBlock {lineStart : Bool} {body : List UInt8} (hbody : ¬blockEnd <:+: body) :
      Lexed anywhere lineStart (slashChar :: starChar :: body) 0
  | line {lineStart : Bool} {body rest : List UInt8} {n : Nat} (hwhere : anywhere = true ∨ lineStart = true)
      (hbody : newlineChar ∉ body) (h : Lexed anywhere true rest n) :
      Lexed anywhere lineStart (dashChar :: dashChar :: (body ++ newlineChar :: rest)) n
  | openLine {lineStart : Bool} {body : List UInt8} (hwhere : anywhere = true ∨ lineStart = true)
      (hbody : newlineChar ∉ body) : Lexed anywhere lineStart (dashChar :: dashChar :: body) 0
  | param {lineStart : Bool} {rest : List UInt8} {n : Nat} (h : Lexed anywhere false rest n) :
      Lexed anywhere lineStart (questionChar :: rest) (n + 1)
  | plain {lineStart : Bool} {c : UInt8} {rest : List UInt8} {n : Nat}
      (hplain : Plain anywhere lineStart c rest) (h : Lexed anywhere (c = newlineChar) rest n) :
      Lexed anywhere lineStart (c :: rest) n

/-! ## the scanner inside a part -/

/-- A round that takes one character. -/
theorem countLoop_one {state state' : CharState} {first : Bool} {c : UInt8} {n count : Nat} {rest : List UInt8}
    (h : charStep state first c rest.head? = (state', false, n)) :
    countLoop state first count (c :: rest) = countLoop state' (c = newlineChar) (count + n) rest := by
  cases rest with
  | nil =>
    rw [List.head?_nil] at h
    simp [countLoop, h]
  | cons d rest =>
    rw [List.head?_cons] at h
    simp [countLoop, h]

/-- A round that takes one character and counts nothing. -/
theorem countLoop_pass {state state' : CharState} {first : Bool} {c : UInt8} {count : Nat} {rest : List UInt8}
    (h : charStep state first c rest.head? = (state', false, 0)) :
    countLoop state first count (c :: rest) = countLoop state' (c = newlineChar) count rest :=
  countLoop_one h

/-- A round that takes two characters. -/
theorem countLoop_pass_two {state state' : CharState} {first : Bool} {c d : UInt8} {count : Nat} {rest : List UInt8}
    (h : charStep state first c (some d) = (state', true, 0)) :
    countLoop state first count (c :: d :: rest) = countLoop state' (d = newlineChar) count rest := by
  simp [countLoop, h]

theorem countLoop_nil (state : CharState) (first : Bool) (count : Nat) : countLoop state first count [] = count := by
  unfold countLoop
  rfl

/-- The state passes over `body` without counting. -/
def PassesOver (state : CharState) (body tail : List UInt8) : Prop :=
  ∀ first count, ∃ first', countLoop state first count (body ++ tail) = countLoop state first' count tail

theorem passesOver_nil (state : CharState) (tail : List UInt8) : PassesOver state [] tail :=
  fun first _ => ⟨first, rfl⟩

theorem PassesOver.cons {state : CharState} {c : UInt8} {body tail : List UInt8} (h : PassesOver state body tail)
    (hstep : ∀ first, charStep state first c (body ++ tail).head? = (state, false, 0)) :
    PassesOver state (c :: body) tail := by
  intro first count
  obtain ⟨first', hrest⟩ := h (c = newlineChar) count
  refine ⟨first', ?_⟩
  rw [cons_append, countLoop_pass (hstep first), hrest]

variable {body : List UInt8}

/-- What runs to the end of the text counts nothing. -/
theorem PassesOver.to_end {state : CharState} (h : PassesOver state body []) (first : Bool) (count : Nat) :
    countLoop state first count body = count := by
  obtain ⟨first', hrest⟩ := h first count
  rw [append_nil] at hrest
  rw [hrest, countLoop_nil]

/-- The inside of a literal is passed over. -/
theorem passesOver_literalBody (h : LiteralBody body) (tail : List UInt8) : PassesOver .singleQuote body tail := by
  induction h with
  | nil => exact passesOver_nil _ tail
  | char hc _ ih => exact ih.cons fun _ => if_neg hc
  | pair _ ih =>
    intro first count
    obtain ⟨first', hrest⟩ := ih (quoteChar = newlineChar) count
    refine ⟨first', ?_⟩
    -- the first quote of a pair leaves the state, the second comes back
    rw [cons_append, cons_append, @countLoop_pass .singleQuote .normal _ _ _ _ rfl,
      @countLoop_pass .normal .singleQuote _ _ _ _ rfl, hrest]

/-- A state that only one character ends passes over everything else. -/
theorem passesOver_until {state : CharState} {stop : UInt8}
    (hstep : ∀ first c next, c ≠ stop → charStep state first c next = (state, false, 0)) (h : stop ∉ body)
    (tail : List UInt8) : PassesOver state body tail := by
  induction body with
  | nil => exact passesOver_nil state tail
  | cons c body ih =>
    rw [mem_cons, not_or] at h
    exact (ih h.2).cons fun first => hstep first c _ (Ne.symm h.1)

theorem passesOver_identifier (h : doubleQuoteChar ∉ body) (tail : List UInt8) :
    PassesOver .doubleQuote body tail := by
  refine passesOver_until ?_ h tail
  intro first c next hc
  exact if_neg hc

theorem passesOver_line (h : newlineChar ∉ body) (tail : List UInt8) : PassesOver .singleLineComment body tail := by
  refine passesOver_until ?_ h tail
  intro first c next hc
  exact if_neg hc

theorem blockEnd_infix_cons {c : UInt8} :
    blockEnd <:+: c :: body ↔ c = starChar ∧ body.head? = some slashChar ∨ blockEnd <:+: body := by
  rw [infix_cons_iff, blockEnd]
  cases body with
  | nil => simp
  | cons d body =>
    simp only [cons_prefix_cons, List.head?_cons, Option.some.injEq]
    tauto

/-- The inside of a block comment is passed over, up to a star that may belong to its end. -/
theorem passesOver_block {body tail : List UInt8} (h : ¬blockEnd <:+: body ++ tail.take 1) :
    PassesOver .multiLineComment body tail := by
  induction body with
  | nil => exact passesOver_nil _ tail
  | cons c body ih =>
    rw [cons_append, blockEnd_infix_cons, not_or] at h
    have hhead : (body ++ tail).head? = (body ++ tail.take 1).head? := by
      cases body <;> cases tail <;> simp
    refine (ih h.2).cons fun first => ?_
    rw [hhead]
    exact if_neg h.1

/-! ## the scanner counts what the reading counts -/

theorem charStep_plain {lineStart : Bool} {c : UInt8} {rest : List UInt8} (h : Plain false lineStart c rest) :
    charStep .normal lineStart c rest.head? = (.normal, false, 0) := by
  have hline : ¬(lineStart = true ∧ c = dashChar ∧ rest.head? = some dashChar) := by
    intro hdash
    exact h.notLine ⟨.inr hdash.1, hdash.2⟩
  simp only [charStep, if_neg h.notQuote, if_neg h.notDoubleQuote, if_neg hline, if_neg h.notBlock,
    if_neg h.notQuestion]

/-- **The loop counts the parameters of the reading.** The induction is on the reading: each part is
passed over by the state it opens, and the next part starts in the normal state again. -/
theorem countLoop_of_lexed {lineStart : Bool} {text : List UInt8} {n : Nat} (h : Lexed false lineStart text n)
    (count : Nat) : countLoop .normal lineStart count text = count + n := by
  induction h generalizing count with
  | done lineStart => rw [countLoop_nil, Nat.add_zero]
  | literal hbody _ _ ih =>
    obtain ⟨first', hpass⟩ := passesOver_literalBody hbody _ (quoteChar = newlineChar) count
    rw [@countLoop_pass .normal .singleQuote _ _ _ _ rfl, hpass, @countLoop_pass .singleQuote .normal _ _ _ _ rfl]
    exact ih count
  | openLiteral hbody =>
    rw [@countLoop_pass .normal .singleQuote _ _ _ _ rfl]
    exact (passesOver_literalBody hbody []).to_end _ count
  | identifier hbody _ ih =>
    obtain ⟨first', hpass⟩ := passesOver_identifier hbody _ (doubleQuoteChar = newlineChar) count
    rw [@countLoop_pass .normal .doubleQuote _ _ _ _ rfl, hpass, @countLoop_pass .doubleQuote .normal _ _ _ _ rfl]
    exact ih count
  | openIdentifier hbody =>
    rw [@countLoop_pass .normal .doubleQuote _ _ _ _ rfl]
    exact (passesOver_identifier hbody []).to_end _ count
  | @block lineStart body rest n hbody _ ih =>
    obtain ⟨first', hpass⟩ := @passesOver_block body (blockEnd ++ rest) hbody (starChar = newlineChar) count
    rw [@countLoop_pass_two .normal .multiLineComment _ _ _ _ _ (by cases lineStart <;> rfl), hpass]
    exact (@countLoop_pass_two .multiLineComment .normal _ _ _ _ _ rfl).trans (ih count)
  | @openBlock lineStart body hbody =>
    have hopen : ¬blockEnd <:+: body ++ List.take 1 [] := by simpa using hbody
    rw [@countLoop_pass_two .normal .multiLineComment _ _ _ _ _ (by cases lineStart <;> rfl)]
    exact (passesOver_block hopen).to_end _ count
  | line hwhere hbody _ ih =>
    obtain rfl := hwhere.resolve_left Bool.false_ne_true
    obtain ⟨first', hpass⟩ := passesOver_line hbody _ (dashChar = newlineChar) count
    rw [@countLoop_pass_two .normal .singleLineComment _ _ _ _ _ rfl, hpass,
      @countLoop_pass .singleLineComment .normal _ _ _ _ rfl]
    exact ih count
  | openLine hwhere hbody =>
    obtain rfl := hwhere.resolve_left Bool.false_ne_true
    rw [@countLoop_pass_two .normal .singleLineComment _ _ _ _ _ rfl]
    exact (passesOver_line hbody []).to_end _ count
  | @param lineStart rest n _ ih =>
    rw [@countLoop_one .normal .normal _ _ 1 _ _ (by cases lineStart <;> rfl), Nat.add_comm n 1, ← Nat.add_assoc]
    exact ih (count + 1)
  | plain hplain _ ih =>
    rw [countLoop_pass (charStep_plain hplain)]
    exact ih count

/-! ## every text has a reading -/

theorem literalBody_split : ∀ text : List UInt8,
    (∃ body rest, text = body ++ quoteChar :: rest ∧ LiteralBody body ∧ rest.head? ≠ some quoteChar) ∨
      LiteralBody text
  | [] => .inr .nil
  | [c] => by
    by_cases hc : c = quoteChar
    · exact .inl ⟨[], [], by simp [hc], .nil, by simp⟩
    · exact .inr (.char hc .nil)
  | c :: d :: text => by
    by_cases hc : c = quoteChar
    · by_cases hd : d = quoteChar
      · subst hc hd
        rcases literalBody_split text with ⟨body, rest, rfl, hbody, hrest⟩ | hbody
        · exact .inl ⟨quoteChar :: quoteChar :: body, rest, rfl, .pair hbody, hrest⟩
        · exact .inr (.pair hbody)
      · exact .inl ⟨[], d :: text, by simp [hc], .nil, by simpa using hd⟩
    rcases literalBody_split (d :: text) with ⟨body, rest, htext, hbody, hrest⟩ | hbody
    · exact .inl ⟨c :: body, rest, by rw [htext, cons_append], .char hc hbody, hrest⟩
    · exact .inr (.char hc hbody)

theorem block_split : ∀ text : List UInt8,
    (∃ body rest, text = body ++ (blockEnd ++ rest) ∧ ¬blockEnd <:+: body ++ [starChar]) ∨ ¬blockEnd <:+: text := by
  intro text
  induction text with
  | nil => exact .inr (by simp [blockEnd])
  | cons c text ih =>
    by_cases hend : c = starChar ∧ text.head? = some slashChar
    · obtain ⟨rfl, hslash⟩ := hend
      obtain ⟨rest, rfl⟩ : ∃ rest, text = slashChar :: rest := by
        cases text with
        | nil => simp at hslash
        | cons d rest => exact ⟨rest, by simpa using hslash⟩
      exact .inl ⟨[], rest, rfl, by decide⟩
    rcases ih with ⟨body, rest, rfl, hbody⟩ | hno
    · refine .inl ⟨c :: body, rest, rfl, ?_⟩
      rw [cons_append, blockEnd_infix_cons, not_or]
      refine ⟨?_, hbody⟩
      intro h
      apply hend
      refine ⟨h.1, ?_⟩
      cases body with
      | nil => simpa [blockEnd] using h.2
      | cons d body => simpa using h.2
    · refine .inr ?_
      rw [blockEnd_infix_cons, not_or]
      exact ⟨hend, hno⟩

theorem exists_lexed (anywhere : Bool) (text : List UInt8) (lineStart : Bool) :
    ∃ n, Lexed anywhere lineStart text n := by
  induction hlen : text.length using Nat.strongRecOn generalizing text lineStart with
  | ind len ih =>
    subst hlen
    cases text with
    | nil => exact ⟨0, .done lineStart⟩
    | cons c text =>
      have shorter rest start (h : rest.length ≤ text.length) :
          ∃ n, Lexed anywhere start rest n :=
        ih rest.length (by rw [length_cons]; omega) rest start rfl
      by_cases hquote : c = quoteChar
      · subst hquote
        rcases literalBody_split text with ⟨body, rest, rfl, hbody, hrest⟩ | hbody
        · obtain ⟨n, hn⟩ := shorter rest false (by simp; omega)
          exact ⟨n, .literal hbody hrest hn⟩
        · exact ⟨0, .openLiteral hbody⟩
      by_cases hdouble : c = doubleQuoteChar
      · subst hdouble
        by_cases hmem : doubleQuoteChar ∈ text
        · obtain ⟨body, rest, rfl, hbody⟩ := eq_append_cons_of_mem hmem
          obtain ⟨n, hn⟩ := shorter rest false (by simp; omega)
          exact ⟨n, .identifier hbody hn⟩
        · exact ⟨0, .openIdentifier hmem⟩
      by_cases hquestion : c = questionChar
      · subst hquestion
        obtain ⟨n, hn⟩ := shorter text false le_rfl
        exact ⟨n + 1, .param hn⟩
      by_cases hblock : c = slashChar ∧ text.head? = some starChar
      · obtain ⟨rfl, hstar⟩ := hblock
        obtain ⟨inside, rfl⟩ : ∃ inside, text = starChar :: inside := by
          cases text with
          | nil => simp at hstar
          | cons d inside => exact ⟨inside, by simpa using hstar⟩
        rcases block_split inside with ⟨body, rest, rfl, hbody⟩ | hbody
        · obtain ⟨n, hn⟩ := shorter rest false (by simp; omega)
          exact ⟨n, .block hbody hn⟩
        · exact ⟨0, .openBlock hbody⟩
      by_cases hline : StartsLineComment anywhere lineStart c text
      · obtain ⟨hwhere, rfl, hdash⟩ := hline
        obtain ⟨inside, rfl⟩ : ∃ inside, text = dashChar :: inside := by
          cases text with
          | nil => simp at hdash
          | cons d inside => exact ⟨inside, by simpa using hdash⟩
        by_cases hmem : newlineChar ∈ inside
        · obtain ⟨body, rest, rfl, hbody⟩ := eq_append_cons_of_mem hmem
          obtain ⟨n, hn⟩ := shorter rest true (by simp; omega)
          exact ⟨n, .line hwhere hbody hn⟩
        · exact ⟨0, .openLine hwhere hmem⟩
      obtain ⟨n, hn⟩ := shorter text (c = newlineChar) le_rfl
      exact ⟨n, .plain ⟨hquote, hdouble, hquestion, hblock, hline⟩ hn⟩

/-- **The driver counts the parameters of every text**, where a line comment starts in the first
column of a line. -/
theorem findSqlParamCount_eq_iff (sql : List UInt8) (n : Nat) :
    findSqlParamCount (some sql) = n ↔ Lexed false true sql n := by
  constructor
  · intro hcount
    obtain ⟨m, hm⟩ := exists_lexed false sql true
    have hloop := countLoop_of_lexed hm 0
    rw [Nat.zero_add] at hloop
    rw [← hcount, findSqlParamCount, hloop]
    exact hm
  · intro hn
    have hloop := countLoop_of_lexed hn 0
    rwa [Nat.zero_add] at hloop

/-- `1--?` has no parameter when two dashes start a comment anywhere; the driver counts one. -/
theorem comment_behind_text_counted : Lexed true true [49, dashChar, dashChar, questionChar] 0 ∧
      findSqlParamCount (some [49, dashChar, dashChar, questionChar]) = 1 := by
  refine ⟨?_, by decide⟩
  apply Lexed.plain
  · constructor <;> simp [quoteChar, doubleQuoteChar, questionChar, slashChar, StartsLineComment, dashChar]
  · apply Lexed.openLine (.inl rfl)
    simp [newlineChar, questionChar]

end ObConnector.Stmt
