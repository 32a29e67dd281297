/-
# ObConnector.Stmt.SkipComment -- what comes before a statement.

`skipcomment` looks for the first character that is neither white space nor part of a comment, and
`get_stmt_type` for a word there. A pointer into the text is the text from there on.

Two things go wrong. Behind a `*` in a block comment the scanner expects `/`; a second `*` puts it back
into the comment, so that `/***/` is not closed: an even run of `*` hides the `/` that follows it. And a
`-` or `/` that starts no comment is seen one character late. `skipcomment_exact_iff` says that nothing
else does.
-/
import Mathlib.Data.List.Infix
import ObConnector.Lib.CString

namespace ObConnector.Stmt

open Lib

/-! ## The scanner -/

/-- `STATUS_TYPE` of `skipcomment`. -/
inductive ScanStatus where
  | black
  | firstTypeCommentBegin
  | firstTypeCommentIn
  | secondeTypeCommentBegin
  | secondeTypeCommentIn
  | secondeTypeCommentEnd
  | statement
  | sqlError
  deriving DecidableEq

/-- Tab, new line, carriage return or space. -/
def isBlank (ch : UInt8) : Bool := ch = 9 || ch = 10 || ch = 13 || ch = 32

/-- The `switch` of `skipcomment`, but for the two states that return. -/
def scanSwitch (ch : UInt8) : ScanStatus → ScanStatus
  | .black =>
    if isBlank ch then .black
    else if ch = 45 then .firstTypeCommentBegin
    else if ch = 47 then .secondeTypeCommentBegin
    else .statement
  | .firstTypeCommentBegin => if ch = 45 then .firstTypeCommentIn else .statement
  | .firstTypeCommentIn => if ch = 10 then .black else .firstTypeCommentIn
  | .secondeTypeCommentBegin => if ch = 42 then .secondeTypeCommentIn else .sqlError
  | .secondeTypeCommentIn => if ch = 42 then .secondeTypeCommentEnd else .secondeTypeCommentIn
  | .secondeTypeCommentEnd => if ch = 47 then .black else .secondeTypeCommentIn
  | status => status

/-- The loop of `skipcomment`; `tmpSql` is the whole text. -/
def scanLoop (tmpSql : List UInt8) (status : ScanStatus) : List UInt8 → List UInt8
  | [] => []
  | ch :: sql =>
    if status = .sqlError then tmpSql
    else if scanSwitch ch status = .statement then ch :: sql
    else scanLoop tmpSql (scanSwitch ch status) sql

/-- `skipcomment`. -/
def skipcomment (sql : List UInt8) : List UInt8 := scanLoop sql .black sql

/-- `get_stmt_type`. -/
def getStmtType (query : List UInt8) : Int :=
  let p := (skipcomment query).dropWhile isBlank
  if strncasecmpSame p (ascii "insert") 6 then 1
  else if strncasecmpSame p (ascii "update") 6 then 2
  else if strncasecmpSame p (ascii "delete") 6 then 3
  else -1

/-- The result of `skipcomment` is a place in the text. -/
theorem scanLoop_suffix {tmpSql : List UInt8} (status : ScanStatus) {sql : List UInt8} (h : sql <:+ tmpSql) :
    scanLoop tmpSql status sql <:+ tmpSql := by
  induction sql generalizing status with
  | nil => exact List.nil_suffix
  | cons ch sql ih =>
    rw [scanLoop]
    split
    · exact List.suffix_refl _
    split
    · exact h
    · exact ih _ ((List.suffix_cons ch sql).trans h)

/-! ## White space and comments -/

/-- Where a reader is; in a block comment with the number of `*` just read. -/
inductive ReadMode where
  | blank
  | line
  | block (stars : Nat)

/-- The text from its first character that is neither white space nor in a comment. A line comment goes
to the end of the line, a block comment to the first `*/`, both at most to the end of the text. -/
def start : ReadMode → List UInt8 → List UInt8
  | _, [] => []
  | .blank, ch :: sql =>
    if isBlank ch then start .blank sql
    else match ch, sql with
      | 45, 45 :: sql => start .line sql
      | 47, 42 :: sql => start (.block 0) sql
      | ch, sql => ch :: sql
  | .line, ch :: sql => start (if ch = 10 then .blank else .line) sql
  | .block stars, ch :: sql =>
    if ch = 42 then start (.block (stars + 1)) sql
    else start (if ch = 47 ∧ 0 < stars then .blank else .block 0) sql

/-- The block comments before the first such character end with an odd number of `*` before the `/`. -/
def OddStars : ReadMode → List UInt8 → Prop
  | _, [] => True
  | .blank, ch :: sql =>
    if isBlank ch then OddStars .blank sql
    else match ch, sql with
      | 45, 45 :: sql => OddStars .line sql
      | 47, 42 :: sql => OddStars (.block 0) sql
      | _, _ => True
  | .line, ch :: sql => OddStars (if ch = 10 then .blank else .line) sql
  | .block stars, ch :: sql =>
    if ch = 42 then OddStars (.block (stars + 1)) sql
    else if ch = 47 ∧ 0 < stars then stars % 2 = 1 ∧ OddStars .blank sql
    else OddStars (.block 0) sql

/-- The state of the scanner that belongs to the reader's. -/
def ReadMode.status : ReadMode → ScanStatus
  | .blank => .black
  | .line => .firstTypeCommentIn
  | .block stars => if stars % 2 = 0 then .secondeTypeCommentIn else .secondeTypeCommentEnd

/-- What the scanner makes of the text it should return. -/
def seen (tmpSql : List UInt8) : List UInt8 → List UInt8
  | 45 :: sql => sql
  | 47 :: _ :: _ :: _ => tmpSql
  | 47 :: _ => []
  | sql => sql

theorem scanLoop_eq {tmpSql : List UInt8} (mode : ReadMode) (sql : List UInt8) (h : OddStars mode sql) :
    scanLoop tmpSql mode.status sql = seen tmpSql (start mode sql) := by
  fun_induction start mode sql with
  | case1 => rfl
  | case2 ch sql hblank ih =>
    unfold OddStars at h
    rw [if_pos hblank] at h
    rw [← ih h]
    simp [scanLoop, scanSwitch, ReadMode.status, hblank]
  | case3 sql hblank ih => exact ih h
  | case4 sql hblank ih => exact ih h
  | case5 ch sql hline hblock hblank =>
    -- a statement starts here: what it starts with decides
    by_cases hdash : ch = 45
    · subst hdash
      cases sql with
      | nil => rfl
      | cons ch' sql =>
        have hch' : ch' ≠ 45 := fun heq => hline sql rfl (heq ▸ rfl)
        simp [scanLoop, scanSwitch, ReadMode.status, seen, hch', isBlank]
    by_cases hslash : ch = 47
    · subst hslash
      match sql with
      | [] => rfl
      | [ch'] =>
        have hch' : ch' ≠ 42 := fun heq => hblock [] rfl (heq ▸ rfl)
        simp [scanLoop, scanSwitch, ReadMode.status, seen, hch', isBlank]
      | ch' :: ch'' :: sql =>
        have hch' : ch' ≠ 42 := fun heq => hblock (ch'' :: sql) rfl (heq ▸ rfl)
        simp [scanLoop, scanSwitch, ReadMode.status, seen, hch', isBlank]
    · simp [scanLoop, scanSwitch, ReadMode.status, seen, hblank, hdash, hslash]
  | case6 ch sql ih =>
    rw [← ih h]
    by_cases hch : ch = 10 <;> simp [scanLoop, scanSwitch, ReadMode.status, hch]
  | case7 stars sql ih =>
    rw [← ih h]
    rcases Nat.mod_two_eq_zero_or_one stars with heven | hodd
    · simp [scanLoop, scanSwitch, ReadMode.status, heven, Nat.add_mod]
    · simp [scanLoop, scanSwitch, ReadMode.status, hodd, Nat.add_mod]
  | case8 stars ch sql hch ih =>
    rw [OddStars, if_neg hch] at h
    by_cases hclose : ch = 47 ∧ 0 < stars
    · rw [if_pos hclose] at h ih ⊢
      rw [← ih h.2]
      simp [scanLoop, scanSwitch, ReadMode.status, h.1, hclose.1]
    rw [if_neg hclose] at h ih ⊢
    rw [← ih h]
    rcases Nat.mod_two_eq_zero_or_one stars with heven | hodd
    · simp [scanLoop, scanSwitch, ReadMode.status, heven, hch]
    have hch' : ch ≠ 47 := fun heq => hclose ⟨heq, by omega⟩
    simp [scanLoop, scanSwitch, ReadMode.status, hodd, hch']

/-! ## The classification -/

/-- The statement does not start with `-`, and with `/` only if nothing is in front of it and two more
characters follow. -/
def PlainStart (sql : List UInt8) : Prop :=
  (start .blank sql).head? ≠ some 45 ∧
    ((start .blank sql).head? = some 47 → start .blank sql = sql ∧ 3 ≤ sql.length)

theorem seen_eq_iff (sql : List UInt8) : seen sql (start .blank sql) = start .blank sql ↔ PlainStart sql := by
  unfold PlainStart
  generalize start .blank sql = found
  fun_cases seen sql found with
  | case1 rest => simp
  | case2 a b rest =>
    simp only [List.head?_cons, forall_const]
    constructor
    · intro h
      exact ⟨by decide, h.symm, by simp [h]⟩
    · rintro ⟨-, h, -⟩
      exact h.symm
  | case3 rest hshort =>
    simp only [List.head?_cons, forall_const]
    constructor
    · nofun
    · rintro ⟨-, rfl, hlen⟩
      match rest, hlen with
      | a :: b :: rest, _ => exact absurd rfl (hshort a b rest)
  | case4 found hdash hlong hslash =>
    cases found with
    | nil => simp
    | cons ch rest =>
      have hne : ch ≠ 45 ∧ ch ≠ 47 := ⟨fun heq => hdash rest (heq ▸ rfl), fun heq => hslash rest (heq ▸ rfl)⟩
      simp [hne.1, hne.2]

/-- **`skipcomment` stays in the text.** Where the block comments in front end with an odd number of `*`,
it returns the first character that is not white space or comment exactly when the statement starts
plainly; and then its class does not depend on what is in front. -/
theorem skipcomment_exact_iff (sql : List UInt8) (hodd : OddStars .blank sql) :
    skipcomment sql <:+ sql ∧ (skipcomment sql = start .blank sql ↔ PlainStart sql) ∧
      (PlainStart sql → ∀ sql', OddStars .blank sql' → PlainStart sql' → start .blank sql' = start .blank sql →
        getStmtType sql' = getStmtType sql) := by
  have hseen : ∀ sql, OddStars .blank sql → skipcomment sql = seen sql (start .blank sql) :=
    fun sql h => scanLoop_eq .blank sql h
  refine ⟨scanLoop_suffix .black (List.suffix_refl sql), ?_, ?_⟩
  · rw [hseen sql hodd]
    exact seen_eq_iff sql
  · intro hplain sql' hodd' hplain' hsame
    have hskip : skipcomment sql' = skipcomment sql := by
      rw [hseen sql hodd, hseen sql' hodd', (seen_eq_iff sql).2 hplain, (seen_eq_iff sql').2 hplain', hsame]
    rw [getStmtType, hskip, getStmtType]

theorem comment_before_insert :
    (skipcomment (ascii "insert") = start .blank (ascii "insert") ↔ PlainStart (ascii "insert")) ∧
      getStmtType (ascii "/**/insert") = getStmtType (ascii "insert") := by
  have hplain : OddStars .blank (ascii "insert") ∧ PlainStart (ascii "insert") := by
    simp [ascii, OddStars, PlainStart, start, isBlank]
  have hcomment : OddStars .blank (ascii "/**/insert") ∧ PlainStart (ascii "/**/insert") := by
    simp [ascii, OddStars, PlainStart, start, isBlank]
  obtain ⟨-, hexact, hclass⟩ := skipcomment_exact_iff (ascii "insert") hplain.1
  exact ⟨hexact, hclass hplain.2 _ hcomment.1 hcomment.2 (by simp [ascii, start, isBlank])⟩

/-- `/***/` hides the statement behind it, `-` is left out, and a late `/` leads back to the start. -/
theorem stars_hide_insert :
    start .blank (ascii "/***/insert") = ascii "insert" ∧ skipcomment (ascii "/***/insert") = [] ∧
      getStmtType (ascii "insert") = 1 ∧ getStmtType (ascii "/***/insert") = -1 ∧
      skipcomment (ascii "-1") ≠ start .blank (ascii "-1") ∧ skipcomment (ascii " /12") ≠ start .blank (ascii " /12") := by
  decide +kernel

end ObConnector.Stmt
