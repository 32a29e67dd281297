/-
# ObConnector.Tns.Tokens -- the tokens of a tnsnames file.

A tnsnames file is read through a buffer of 1024 bytes. The tokenizer takes the next token of an
expected kind (`parse`): it skips blanks and comments, looks at one byte, and takes either a single
sign or a key. All of this is scanning, a byte at a time with a small state, and the buffer is refilled
when a scan comes to its end.

Where the bytes come from is left open: a `Feed` can be scanned, and the tokenizer is written over any
feed. `pieceFeed` is the buffer with the pieces that are still to be read; `textFeed` is the whole text
at once. The two give the same tokens, but for one question. `ObClientTnsParseKey` stops behind
`OBCLIENT_TNS_KEY_SIZE` bytes, and then asks whether the buffer is used up: if it is, the key is
refused, and if it is not, the bytes so far are taken as the key (`LongKey`).
-/
import ObConnector.Lib.CString
import ObConnector.Lib.Dialogue
import ObConnector.Lib.Pieces

namespace ObConnector.Tns

open Lib List

/-! ## The scanners -/

/-- `ObClientTnsTokenType`. -/
inductive TokenType where
  | equalSign
  | leftParentheses
  | rightParentheses
  | key
  | errorType
  | maxTokenType
  deriving DecidableEq, Repr

/-- `OBCLIENT_TNS_KEY_SIZE`. -/
def tnsKeySize : Nat := 256

/-- `TNS_NO_DATA`. -/
def tnsNoData : Int := 100

theorem tnsNoData_ne : tnsNoData ≠ 0 := by decide

/-- A blank, tab, line feed or carriage return. -/
def IsBlank (c : UInt8) : Prop := c = 9 ∨ c = 10 ∨ c = 32 ∨ c = 13

instance (c : UInt8) : Decidable (IsBlank c) := inferInstanceAs (Decidable (_ ∨ _))

/-- A byte of `ObClientTnsParseBlank`; the state is `is_comment`. A comment goes on to the end of its
line, or to a zero byte, which is then no blank. -/
def blankStep (isComment : Bool) (c : UInt8) : Bool × Bool :=
  if isComment then
    if c = 10 then (false, true) else if c = 0 then (false, false) else (true, true)
  else if IsBlank c then (false, true)
  else if c = 35 then (true, true)
  else (false, false)

/-- What `ObClientTnsParseKey` keeps: whether it is inside quotes, and what it has stored. -/
structure KeyScan where
  quoted : Bool
  stored : List UInt8
  deriving DecidableEq, Repr

/-- No more fits into `tns_key`. -/
def KeyScan.full (k : KeyScan) : Bool := k.stored.length = tnsKeySize

/-- A byte of `ObClientTnsParseKey`. -/
def keyStep (k : KeyScan) (c : UInt8) : KeyScan × Bool :=
  if k.full then (k, false)
  else if c = 34 then ({ k with quoted := !k.quoted }, true)
  else if k.quoted = false ∧ (IsBlank c ∨ c = 61 ∨ c = 40 ∨ c = 41) then (k, false)
  else ({ k with stored := k.stored ++ [c] }, true)

/-- A byte of `ObClientTnsServiceSkip`; the state is `left_parentheses`. -/
def skipStep (leftParentheses : Nat) (c : UInt8) : Nat × Bool :=
  if leftParentheses = 0 then (0, false)
  else if c = 40 then (leftParentheses + 1, true)
  else if c = 41 then (leftParentheses - 1, true)
  else (leftParentheses, true)

theorem keyStep_full (k : KeyScan) (c : UInt8) (h : k.full = true) : keyStep k c = (k, false) := by
  rw [keyStep, if_pos h]

theorem skipStep_zero (n : Nat) (c : UInt8) (h : decide (n = 0) = true) : skipStep n c = (n, false) := by
  obtain rfl := of_decide_eq_true h
  rfl

/-! ## Feeds -/

/-- Something that can be scanned. -/
structure Feed (F : Type) where
  /-- scan with a step until it stops, is ended, or the feed ends -/
  scan : {σ : Type} → (σ → UInt8 → σ × Bool) → (σ → Bool) → σ → F → σ × Stop × F
  /-- the byte in front, when a scan has stopped there -/
  front : F → UInt8
  /-- one byte further -/
  advance : F → F

/-- `tns_buffer` from `buffer_pos` to `buffer_len`, and what the next reads of the file will give. -/
structure Buffered where
  unread : List UInt8
  pieces : List (List UInt8)
  deriving DecidableEq, Repr

/-- The buffer of the parser; each refill is `ObClientTnsCheckBuffer`. -/
def pieceFeed : Feed Buffered where
  scan step ended s f :=
    let (s, stop, unread, pieces) := scanPieces step ended s f.unread f.pieces
    (s, stop, ⟨unread, pieces⟩)
  front f := f.unread.headD 0
  advance f := { f with unread := f.unread.tail }

/-- A whole text. -/
def textFeed : Feed (List UInt8) where
  scan step ended s text :=
    let (s, rest) := Lib.scan step s text
    (s, if rest ≠ [] then .here else if ended s then .ended else .eof, rest)
  front text := text.headD 0
  advance text := text.tail

/-! ## The tokenizer -/

/-- The fields of `ObClientTnsParseParams` that the tokenizer works on. -/
structure ParseParams (F : Type) where
  feed : F
  isEof : Bool
  isComment : Bool
  tnsKey : List UInt8
  tnsKeyLen : Nat
  tnsTokenType : TokenType

/-- The parameters before anything is read. -/
def ParseParams.init {F : Type} (feed : F) : ParseParams F :=
  ⟨feed, false, false, List.replicate tnsKeySize 0, 0, .equalSign⟩

section Tokenizer

variable {F : Type} (fd : Feed F)

/-- `ObClientTnsParseBlank`. -/
def parseBlank (p : ParseParams F) : Int × ParseParams F :=
  let (isComment, stop, feed) := fd.scan blankStep (fun _ => false) p.isComment p.feed
  let p := { p with isComment := isComment, feed := feed }
  if stop = .eof then (tnsNoData, { p with isEof := true }) else (0, p)

/-- `ObClientTnsParseKey`. A full key with nothing behind it in the buffer is refused. -/
def parseKey (p : ParseParams F) : Int × ParseParams F :=
  let (k, stop, feed) := fd.scan keyStep KeyScan.full ⟨false, []⟩ p.feed
  let p := { p with feed := feed, tnsKey := overwrite p.tnsKey k.stored }
  match stop with
  | .here => (0, { p with tnsKeyLen := k.stored.length })
  | .ended => (-1, p)
  | .eof => (tnsNoData, { p with isEof := true })

/-- The kind of token that starts with a byte. -/
def tokenTypeOf (c : UInt8) : TokenType :=
  if c = 61 then .equalSign
  else if c = 40 then .leftParentheses
  else if c = 41 then .rightParentheses
  else .key

/-- `ObClientTnsParse`. -/
def parse (expectType : TokenType) (p : ParseParams F) : Int × ParseParams F :=
  let (ret, p) := parseBlank fd p
  if ret ≠ 0 then (ret, p)
  else if tokenTypeOf (fd.front p.feed) ≠ expectType then (-1, p)
  else
    let p := { p with tnsTokenType := expectType }
    if expectType = .key then parseKey fd p else (0, { p with feed := fd.advance p.feed })

/-- The loop of `ObClientTnsServiceSkip`, behind the first parenthesis. -/
def skipParentheses (p : ParseParams F) : Int × ParseParams F :=
  let (_, stop, feed) := fd.scan skipStep (fun n => n = 0) 1 p.feed
  let p := { p with feed := feed }
  if stop = .eof then (tnsNoData, { p with isEof := true }) else (0, p)

/-- What the building functions ask of the tokenizer. -/
inductive TnsCall where
  | parse (expectType : TokenType)
  | parseBlank
  | skipParentheses
  deriving DecidableEq, Repr

/-- What they see of the parameters afterwards. -/
structure TnsReply where
  ret : Int
  isEof : Bool
  tnsKey : List UInt8
  tnsKeyLen : Nat
  tnsTokenType : TokenType
  deriving DecidableEq, Repr

/-- The tokenizer as a service. -/
def serve (p : ParseParams F) (c : TnsCall) : TnsReply × ParseParams F :=
  let (ret, p) := match c with
    | .parse expectType => parse fd expectType p
    | .parseBlank => parseBlank fd p
    | .skipParentheses => skipParentheses fd p
  (⟨ret, p.isEof, p.tnsKey, p.tnsKeyLen, p.tnsTokenType⟩, p)

end Tokenizer

/-! ## Pieces and text -/

/-- A key is read that fills `tns_key`. -/
def LongKey (p : ParseParams (List UInt8)) (c : TnsCall) : Prop :=
  c = .parse .key ∧ (parseBlank textFeed p).1 = 0 ∧
    (scan keyStep ⟨false, []⟩ (parseBlank textFeed p).2.feed).1.full = true

instance (p : ParseParams (List UInt8)) (c : TnsCall) : Decidable (LongKey p c) :=
  inferInstanceAs (Decidable (_ ∧ _))

/-- The buffer and its pieces hold the text. -/
structure Carries (f : Buffered) (text : List UInt8) : Prop where
  text : f.unread ++ f.pieces.flatten = text
  pieces : ∀ p ∈ f.pieces, p ≠ []

/-- The parameters agree, but for where the bytes come from. -/
structure Agree (p : ParseParams Buffered) (q : ParseParams (List UInt8)) : Prop where
  feed : Carries p.feed q.feed
  isEof : p.isEof = q.isEof
  isComment : p.isComment = q.isComment
  tnsKey : p.tnsKey = q.tnsKey
  tnsKeyLen : p.tnsKeyLen = q.tnsKeyLen
  tnsTokenType : p.tnsTokenType = q.tnsTokenType

/-- Scanning pieces and scanning the text: the state and the rest are the same, and so is the reason to
stop, unless the scanner is over. -/
theorem scan_agrees {σ : Type} (step : σ → UInt8 → σ × Bool) (ended : σ → Bool)
    (hover : ∀ s c, ended s = true → step s c = (s, false)) {f : Buffered} {text : List UInt8}
    (hf : Carries f text) (s : σ) :
    (pieceFeed.scan step ended s f).1 = (textFeed.scan step ended s text).1 ∧
      Carries (pieceFeed.scan step ended s f).2.2 (textFeed.scan step ended s text).2.2 ∧
      ((pieceFeed.scan step ended s f).2.1 = .here → (pieceFeed.scan step ended s f).2.2.unread ≠ []) ∧
      (ended (textFeed.scan step ended s text).1 = false →
        (pieceFeed.scan step ended s f).2.1 = (textFeed.scan step ended s text).2.1) ∧
      ((pieceFeed.scan step ended s f).2.1 = .eof ↔ (textFeed.scan step ended s text).2.1 = .eof) := by
  obtain ⟨s', stop, unread', pieces', hscan⟩ :
      ∃ s' stop unread' pieces', scanPieces step ended s f.unread f.pieces = (s', stop, unread', pieces') :=
    ⟨_, _, _, _, rfl⟩
  obtain ⟨htext, hpieces, hhere, hstop, heof⟩ := scanPieces_spec hover hf.pieces hscan
  rw [hf.text] at htext
  simp only [pieceFeed, textFeed, hscan, htext]
  refine ⟨trivial, ⟨rfl, hpieces⟩, hhere, ?_⟩
  cases stop with
  | here =>
    have hne : unread' ++ pieces'.flatten ≠ [] := fun h => hhere rfl (append_eq_nil_iff.1 h).1
    simp [hne]
  | ended =>
    have hs' := (hstop rfl).2
    refine ⟨fun hnot => absurd (hs'.symm.trans hnot) (by decide), ?_⟩
    split <;> simp
  | eof =>
    obtain ⟨rfl, rfl, hs'⟩ := heof rfl
    simp [hs']

theorem front_agrees {f : Buffered} {text : List UInt8} (hf : Carries f text) (hne : f.unread ≠ []) :
    pieceFeed.front f = textFeed.front text := by
  obtain ⟨c, cs, hcs⟩ := exists_cons_of_ne_nil hne
  have htext := hf.text
  simp [pieceFeed, textFeed, hcs, ← htext]

theorem advance_agrees {f : Buffered} {text : List UInt8} (hf : Carries f text) (hne : f.unread ≠ []) :
    Carries (pieceFeed.advance f) (textFeed.advance text) := by
  obtain ⟨c, cs, hcs⟩ := exists_cons_of_ne_nil hne
  have htext := hf.text
  exact ⟨by simp [pieceFeed, textFeed, hcs, ← htext], hf.pieces⟩

section Agreement

variable {p : ParseParams Buffered} {q : ParseParams (List UInt8)}

theorem parseBlank_agrees (h : Agree p q) : (parseBlank pieceFeed p).1 = (parseBlank textFeed q).1 ∧
      Agree (parseBlank pieceFeed p).2 (parseBlank textFeed q).2 ∧
      ((parseBlank pieceFeed p).1 = 0 → (parseBlank pieceFeed p).2.feed.unread ≠ []) := by
  obtain ⟨hs, hfeed, hhere, hstop, -⟩ :=
    scan_agrees blankStep (fun _ => false) (fun _ _ h => by cases h) h.feed p.isComment
  have hover : (textFeed.scan blankStep (fun _ => false) p.isComment q.feed).2.1 ≠ .ended := by
    simp only [textFeed]
    split <;> simp
  simp only [parseBlank, hstop rfl, ← h.isComment]
  rw [hstop rfl] at hhere
  split
  · exact ⟨rfl, ⟨hfeed, rfl, hs, h.tnsKey, h.tnsKeyLen, h.tnsTokenType⟩, fun h0 => absurd h0 tnsNoData_ne⟩
  rename_i hne
  refine ⟨rfl, ⟨hfeed, h.isEof, hs, h.tnsKey, h.tnsKeyLen, h.tnsTokenType⟩, fun _ => hhere ?_⟩
  cases hcase : (textFeed.scan blankStep (fun _ => false) p.isComment q.feed).2.1 with
  | here => rfl
  | ended => exact absurd hcase hover
  | eof => exact absurd hcase hne

theorem parseKey_agrees (h : Agree p q) (hshort : (scan keyStep ⟨false, []⟩ q.feed).1.full = false) :
    (parseKey pieceFeed p).1 = (parseKey textFeed q).1 ∧
      Agree (parseKey pieceFeed p).2 (parseKey textFeed q).2 := by
  obtain ⟨hs, hfeed, -, hstop, -⟩ := scan_agrees keyStep KeyScan.full keyStep_full h.feed ⟨false, []⟩
  simp only [parseKey, hstop hshort, hs, h.tnsKey]
  cases hcase : (textFeed.scan keyStep KeyScan.full ⟨false, []⟩ q.feed).2.1 with
  | here => exact ⟨rfl, ⟨hfeed, h.isEof, h.isComment, rfl, rfl, h.tnsTokenType⟩⟩
  | ended => exact ⟨rfl, ⟨hfeed, h.isEof, h.isComment, rfl, h.tnsKeyLen, h.tnsTokenType⟩⟩
  | eof => exact ⟨rfl, ⟨hfeed, rfl, h.isComment, rfl, h.tnsKeyLen, h.tnsTokenType⟩⟩

theorem parse_agrees (h : Agree p q) {expectType : TokenType} (hshort : ¬LongKey q (.parse expectType)) :
    (parse pieceFeed expectType p).1 = (parse textFeed expectType q).1 ∧
      Agree (parse pieceFeed expectType p).2 (parse textFeed expectType q).2 := by
  obtain ⟨hret, hagree, hunread⟩ := parseBlank_agrees h
  simp only [parse, hret]
  split
  · exact ⟨rfl, hagree⟩
  rename_i h0
  have h0 := not_not.1 h0
  have hunread := hunread (hret.trans h0)
  rw [front_agrees hagree.feed hunread]
  split
  · exact ⟨rfl, hagree⟩
  split
  · rename_i hkey
    refine parseKey_agrees ⟨hagree.feed, hagree.isEof, hagree.isComment, hagree.tnsKey, hagree.tnsKeyLen, rfl⟩ ?_
    refine Bool.eq_false_iff.2 fun hfull => hshort ⟨by rw [hkey], h0, hfull⟩
  exact ⟨rfl, ⟨advance_agrees hagree.feed hunread, hagree.isEof, hagree.isComment, hagree.tnsKey,
    hagree.tnsKeyLen, rfl⟩⟩

theorem skipParentheses_agrees (h : Agree p q) : (skipParentheses pieceFeed p).1 = (skipParentheses textFeed q).1 ∧
      Agree (skipParentheses pieceFeed p).2 (skipParentheses textFeed q).2 := by
  obtain ⟨-, hfeed, -, -, heof⟩ := scan_agrees skipStep (fun n => n = 0) skipStep_zero h.feed 1
  simp only [skipParentheses, heof]
  split
  · exact ⟨rfl, ⟨hfeed, rfl, h.isComment, h.tnsKey, h.tnsKeyLen, h.tnsTokenType⟩⟩
  · exact ⟨rfl, ⟨hfeed, h.isEof, h.isComment, h.tnsKey, h.tnsKeyLen, h.tnsTokenType⟩⟩

/-- **The two tokenizers answer alike**, unless a key fills `tns_key`. -/
theorem serve_agrees (h : Agree p q) {c : TnsCall} (hshort : ¬LongKey q c) :
    (serve pieceFeed p c).1 = (serve textFeed q c).1 ∧ Agree (serve pieceFeed p c).2 (serve textFeed q c).2 := by
  have hmain : ∀ {r : Int × ParseParams Buffered} {r' : Int × ParseParams (List UInt8)},
      r.1 = r'.1 → Agree r.2 r'.2 →
      (⟨r.1, r.2.isEof, r.2.tnsKey, r.2.tnsKeyLen, r.2.tnsTokenType⟩ : TnsReply) =
        ⟨r'.1, r'.2.isEof, r'.2.tnsKey, r'.2.tnsKeyLen, r'.2.tnsTokenType⟩ := by
    intro r r' hret ha
    rw [hret, ha.isEof, ha.tnsKey, ha.tnsKeyLen, ha.tnsTokenType]
  cases c with
  | parse expectType =>
    obtain ⟨hret, ha⟩ := parse_agrees h hshort
    exact ⟨hmain hret ha, ha⟩
  | parseBlank =>
    obtain ⟨hret, ha, -⟩ := parseBlank_agrees h
    exact ⟨hmain hret ha, ha⟩
  | skipParentheses =>
    obtain ⟨hret, ha⟩ := skipParentheses_agrees h
    exact ⟨hmain hret ha, ha⟩

end Agreement

/-! ## What is left of the text -/

/-- A feed has a size, which scanning does not make larger, and a step behind a scan that has stopped makes
smaller. -/
class Sized {F : Type} (fd : Feed F) where
  size : F → Nat
  scan_le : ∀ {σ : Type} (step : σ → UInt8 → σ × Bool) (ended : σ → Bool) (s : σ) (f : F),
    size (fd.scan step ended s f).2.2 ≤ size f
  advance_le : ∀ f, size (fd.advance f) ≤ size f
  advance_lt : ∀ {σ : Type} (step : σ → UInt8 → σ × Bool) (ended : σ → Bool) (s : σ) (f : F),
    (fd.scan step ended s f).2.1 = .here → size (fd.advance (fd.scan step ended s f).2.2) < size f
  stop_over : ∀ {σ : Type} (step : σ → UInt8 → σ × Bool) (ended : σ → Bool) (s : σ) (f : F),
    (fd.scan step ended s f).2.1 = .ended → ended (fd.scan step ended s f).1 = true

instance : Sized textFeed where
  size text := text.length
  scan_le step _ s text := scan_length_le s text
  advance_le text := by
    show text.tail.length ≤ text.length
    rw [length_tail]
    omega
  advance_lt step ended s text h := by
    have hle : (scan step s text).2.length ≤ text.length := scan_length_le s text
    have hne : (scan step s text).2 ≠ [] := by
      intro hnil
      simp only [textFeed, hnil] at h
      revert h
      by_cases hover : ended (scan step s text).1 = true <;> simp [hover]
    have hpos := length_pos_of_ne_nil hne
    show (scan step s text).2.tail.length < text.length
    rw [length_tail]
    omega
  stop_over step ended s text h := by
    show ended (scan step s text).1 = true
    by_contra hover
    by_cases hnil : (scan step s text).2 = [] <;> simp [textFeed, hnil, hover] at h

instance : Sized pieceFeed where
  size f := f.unread.length + f.pieces.flatten.length
  scan_le step ended s f := (scanPieces_shrinks s f.unread f.pieces rfl).1
  advance_le f := by
    show f.unread.tail.length + f.pieces.flatten.length ≤ f.unread.length + f.pieces.flatten.length
    rw [length_tail]
    omega
  advance_lt step ended s f h := by
    obtain ⟨s', stop, unread', pieces', hscan⟩ :
        ∃ s' stop unread' pieces', scanPieces step ended s f.unread f.pieces = (s', stop, unread', pieces') :=
      ⟨_, _, _, _, rfl⟩
    obtain ⟨hle, hhere, -⟩ := scanPieces_shrinks s f.unread f.pieces hscan
    simp only [pieceFeed, hscan] at h ⊢
    have hpos := length_pos_of_ne_nil (hhere h)
    rw [length_tail]
    omega
  stop_over step ended s f h := (scanPieces_shrinks s f.unread f.pieces rfl).2.2 h

section Shrinking

variable {F : Type} (fd : Feed F) [Sized fd] (q : ParseParams F)

/-- What is left of the text. -/
def remaining : Nat := Sized.size fd q.feed

theorem parseBlank_remaining_le : remaining fd (parseBlank fd q).2 ≤ remaining fd q := by
  have h := (Sized.scan_le blankStep (fun _ => false) q.isComment q.feed : Sized.size fd _ ≤ _)
  simp only [parseBlank]
  split <;> exact h

theorem parseBlank_advance_lt (h : (parseBlank fd q).1 = 0) :
    Sized.size fd (fd.advance (parseBlank fd q).2.feed) < remaining fd q := by
  simp only [parseBlank] at h ⊢
  split at h
  · exact absurd h tnsNoData_ne
  rename_i hstop
  rw [if_neg hstop]
  apply Sized.advance_lt
  cases hcase : (fd.scan blankStep (fun _ => false) q.isComment q.feed).2.1 with
  | here => rfl
  | ended => exact absurd (Sized.stop_over _ _ _ _ hcase) Bool.false_ne_true
  | eof => exact absurd hcase hstop

theorem parseKey_remaining_le : remaining fd (parseKey fd q).2 ≤ remaining fd q := by
  have h := (Sized.scan_le keyStep KeyScan.full ⟨false, []⟩ q.feed : Sized.size fd _ ≤ _)
  simp only [parseKey]
  split <;> exact h

theorem parse_remaining_le (expectType : TokenType) : remaining fd (parse fd expectType q).2 ≤ remaining fd q := by
  have hblank := parseBlank_remaining_le fd q
  simp only [parse]
  split
  · exact hblank
  split
  · exact hblank
  split
  · exact le_trans (parseKey_remaining_le fd _) hblank
  · exact le_trans (Sized.advance_le _) hblank

theorem serve_remaining_le (c : TnsCall) : remaining fd (serve fd q c).2 ≤ remaining fd q := by
  cases c with
  | parse expectType => exact parse_remaining_le fd q expectType
  | parseBlank => exact parseBlank_remaining_le fd q
  | skipParentheses =>
    have h := (Sized.scan_le skipStep (fun n => n = 0) 1 q.feed : Sized.size fd _ ≤ _)
    simp only [serve, skipParentheses]
    split <;> exact h

/-- A sign that is taken is a byte less. -/
theorem serve_sign_remaining_lt {sign : TokenType} (hsign : sign ≠ .key)
    (h : (serve fd q (.parse sign)).1.ret = 0) :
    remaining fd (serve fd q (.parse sign)).2 < remaining fd q := by
  simp only [serve, parse] at h ⊢
  split at h
  · rename_i hne
    exact absurd h hne
  rename_i hret
  rw [if_neg hret]
  split at h
  · exact absurd h (show (-1) ≠ 0 by decide)
  rename_i htype
  rw [if_neg htype, if_neg hsign]
  exact parseBlank_advance_lt fd q (not_not.1 hret)

end Shrinking

end ObConnector.Tns
