/-
# ObConnector.Tns.Cursor -- where the tokenizer stands in its text.

What the building functions do depends on the text that is still to be read, and on nothing else: not on
the pieces it comes in, and not on what the buffer has held before. `At s p text` says that the tokenizer
stands in front of `text` and that the parameters `p` of a building function are those of the tokenizer.

Over that, each call of the tokenizer has one law. A sign is taken when it is the next token, and nothing
but blanks is passed over when it is not (`sign_spec`). A key is taken up to its end (`key_spec`). A key
with fewer than 256 bytes is never refused (`key_runs`).
-/
import ObConnector.Tns.Build

namespace ObConnector.Tns

open Lib
open Lib.Dialogue

/-! ## The tokens of a text -/

/-- What is left behind blanks and comments. -/
def skipBlanks (text : List UInt8) : List UInt8 := (scan blankStep false text).2

/-- The kind of the next token. -/
def tokenAt (text : List UInt8) : Option TokenType := (skipBlanks text).head?.map tokenTypeOf

/-- A sign, and the text behind it. -/
def Sign (sign : TokenType) (text rest : List UInt8) : Prop :=
  tokenAt text = some sign ∧ rest = (skipBlanks text).tail

/-- A key that is whole: there is more text behind it. -/
structure Key (k text rest : List UInt8) : Prop where
  token : tokenAt text = some .key
  stored : (scan keyStep ⟨false, []⟩ (skipBlanks text)).1.stored = k
  rest_eq : (scan keyStep ⟨false, []⟩ (skipBlanks text)).2 = rest
  rest_ne : rest ≠ []

variable {text rest : List UInt8}

/-- Where blanks and comments stop, no comment is open, and no blank is in front. -/
theorem scan_blankStep_stop {isComment isComment' : Bool} {c : UInt8}
    (h : scan blankStep isComment text = (isComment', c :: rest)) :
    isComment' = false ∧ blankStep false c = (false, false) := by
  induction text generalizing isComment with
  | nil => cases h
  | cons d ds ih =>
    rw [scan] at h
    split at h
    · exact ih h
    rename_i hstop
    cases h
    have hzero : blankStep false 0 = (false, false) := by decide
    revert hstop
    unfold blankStep
    split
    · split
      · intro hstop
        exact absurd rfl hstop
      split
      · rename_i _ hc
        rw [hc]
        exact fun _ => ⟨rfl, hzero⟩
      intro hstop
      exact absurd rfl hstop
    split
    · intro hstop
      exact absurd rfl hstop
    split
    · intro hstop
      exact absurd rfl hstop
    · exact fun _ => ⟨rfl, rfl⟩

theorem skipBlanks_of_blank {c : UInt8} (h : IsBlank c) (text : List UInt8) :
    skipBlanks (c :: text) = skipBlanks text := by
  have hstep : blankStep false c = (false, true) := by
    rw [blankStep, if_neg Bool.false_ne_true, if_pos h]
  rw [skipBlanks, scan, hstep]
  rfl

/-- Blanks in front do not count. -/
theorem skipBlanks_append {gap : List UInt8} (h : ∀ c ∈ gap, IsBlank c) (text : List UInt8) :
    skipBlanks (gap ++ text) = skipBlanks text := by
  induction gap with
  | nil => rfl
  | cons c gap ih =>
    rw [List.cons_append, skipBlanks_of_blank (h c List.mem_cons_self),
      ih fun d hd => h d (List.mem_cons_of_mem c hd)]

theorem skipBlanks_of_stop {c : UInt8} (h : blankStep false c = (false, false)) (text : List UInt8) :
    skipBlanks (c :: text) = c :: text := by
  rw [skipBlanks, scan, h]
  rfl

@[simp] theorem skipBlanks_skipBlanks (text : List UInt8) : skipBlanks (skipBlanks text) = skipBlanks text := by
  cases hscan : scan blankStep false text with
  | mk isComment rest =>
    have hrest : skipBlanks text = rest := by rw [skipBlanks, hscan]
    rw [hrest]
    cases rest with
    | nil => rfl
    | cons c cs => exact skipBlanks_of_stop (scan_blankStep_stop hscan).2 cs

@[simp] theorem tokenAt_skipBlanks (text : List UInt8) : tokenAt (skipBlanks text) = tokenAt text := by
  rw [tokenAt, skipBlanks_skipBlanks, tokenAt]

variable {text' : List UInt8}

theorem tokenAt_congr (h : skipBlanks text = skipBlanks text') : tokenAt text = tokenAt text' := by
  rw [tokenAt, h, tokenAt]

theorem Sign.congr {sign : TokenType} (h : Sign sign text rest) (heq : skipBlanks text = skipBlanks text') :
    Sign sign text' rest :=
  ⟨tokenAt_congr heq ▸ h.1, heq ▸ h.2⟩

theorem Key.congr {k : List UInt8} (h : Key k text rest) (heq : skipBlanks text = skipBlanks text') :
    Key k text' rest :=
  ⟨tokenAt_congr heq ▸ h.token, heq ▸ h.stored, heq ▸ h.rest_eq, h.rest_ne⟩

/-- The next token is one thing. -/
theorem Key.unique {k k' rest' : List UInt8} (h : Key k text rest) (h' : Key k' text rest') :
    k = k' ∧ rest = rest' :=
  ⟨h.stored.symm.trans h'.stored, h.rest_eq.symm.trans h'.rest_eq⟩

/-! ## The tokenizer in front of a text -/

/-- The tokenizer has this text to read. -/
structure Views (s : ParseParams Buffered) (text : List UInt8) : Prop where
  feed : Carries s.feed text
  comment : s.isComment = false ∨ text = []

/-- The same tokenizer with the whole text. -/
def onText (s : ParseParams Buffered) (text : List UInt8) : ParseParams (List UInt8) :=
  ⟨text, s.isEof, s.isComment, s.tnsKey, s.tnsKeyLen, s.tnsTokenType⟩

variable {s : ParseParams Buffered} {text : List UInt8}

theorem Views.agree (h : Views s text) : Agree s (onText s text) :=
  ⟨h.feed, rfl, rfl, rfl, rfl, rfl⟩

/-- What `ObClientTnsParseBlank` leaves. -/
theorem parseBlank_spec (h : Views s text) :
    ∃ s', parseBlank pieceFeed s = (if skipBlanks text = [] then tnsNoData else 0, s') ∧
      Views s' (skipBlanks text) ∧ s'.tnsKey = s.tnsKey ∧ s'.tnsKeyLen = s.tnsKeyLen ∧
      s'.tnsTokenType = s.tnsTokenType ∧ (skipBlanks text ≠ [] → s'.feed.unread ≠ []) := by
  obtain ⟨hret, hagree, hunread⟩ := parseBlank_agrees h.agree
  -- on the whole text, the scan leaves what blanks and comments leave
  have hscan : ∃ isComment, scan blankStep s.isComment text = (isComment, skipBlanks text) ∧
      (isComment = false ∨ skipBlanks text = []) := by
    rcases h.comment with hcomment | htext
    · refine ⟨(scan blankStep false text).1, by rw [hcomment]; rfl, ?_⟩
      cases hrest : scan blankStep false text with
      | mk isComment rest =>
        have hskip : skipBlanks text = rest := by rw [skipBlanks, hrest]
        rw [hskip]
        cases rest with
        | nil => exact .inr rfl
        | cons c cs => exact .inl (scan_blankStep_stop hrest).1
    · subst htext
      exact ⟨s.isComment, rfl, .inr rfl⟩
  obtain ⟨isComment, hscan, hcomment⟩ := hscan
  have htext : parseBlank textFeed (onText s text) = (if skipBlanks text = [] then tnsNoData else 0,
      ⟨skipBlanks text, if skipBlanks text = [] then true else s.isEof, isComment, s.tnsKey, s.tnsKeyLen,
        s.tnsTokenType⟩) := by
    simp only [parseBlank, textFeed, onText, hscan]
    by_cases hnil : skipBlanks text = []
    · simp [hnil]
    · simp [hnil]
  rw [htext] at hret hagree
  refine ⟨_, Prod.ext hret rfl, ⟨hagree.feed, ?_⟩, hagree.tnsKey, hagree.tnsKeyLen, hagree.tnsTokenType, ?_⟩
  · rw [hagree.isComment]
    exact hcomment
  · intro hne
    exact hunread (by rw [hret, if_neg hne])

variable {t : TokenType}

section Parse

variable {s : ParseParams Buffered} {text : List UInt8}

/-- A token of another kind is left where it is. -/
theorem parse_other (h : Views s text) (hother : tokenAt text ≠ some t) :
    ∃ ret s', parse pieceFeed t s = (ret, s') ∧ ret ≠ 0 ∧ Views s' (skipBlanks text) ∧ s'.tnsKey = s.tnsKey ∧
      s'.tnsKeyLen = s.tnsKeyLen ∧ s'.tnsTokenType = s.tnsTokenType := by
  obtain ⟨s', hblank, hviews, hkey, hlen, htype, hunread⟩ := parseBlank_spec h
  by_cases hnil : skipBlanks text = []
  · rw [if_pos hnil] at hblank
    refine ⟨tnsNoData, s', ?_, tnsNoData_ne, hviews, hkey, hlen, htype⟩
    simp only [parse, hblank]
    rw [if_pos tnsNoData_ne]
  rw [if_neg hnil] at hblank
  have hfront : tokenTypeOf (pieceFeed.front s'.feed) ≠ t := by
    rw [front_agrees hviews.feed (hunread hnil)]
    obtain ⟨c, cs, hcs⟩ := List.exists_cons_of_ne_nil hnil
    intro heq
    refine hother ?_
    rw [tokenAt, hcs]
    rw [hcs] at heq
    exact congrArg some heq
  refine ⟨-1, s', ?_, by decide, hviews, hkey, hlen, htype⟩
  simp only [parse, hblank]
  rw [if_neg (not_not.2 rfl), if_pos hfront]

/-- When the next token is of the expected kind, the blanks before it are passed over, and the rest is what
that kind does. -/
theorem parse_expected (h : Views s text) (htoken : tokenAt text = some t) : ∃ s', parse pieceFeed t s =
        (if t = .key then parseKey pieceFeed s' else (0, { s' with feed := pieceFeed.advance s'.feed })) ∧
      s'.isComment = false ∧ Carries s'.feed (skipBlanks text) ∧ s'.feed.unread ≠ [] ∧ s'.tnsKey = s.tnsKey ∧
      s'.tnsKeyLen = s.tnsKeyLen ∧ s'.tnsTokenType = t := by
  obtain ⟨s', hblank, hviews, hkey, hlen, -, hunread⟩ := parseBlank_spec h
  have hnil : skipBlanks text ≠ [] := by
    intro hnil
    rw [tokenAt, hnil] at htoken
    cases htoken
  have hcomment : s'.isComment = false := hviews.comment.resolve_right hnil
  have hfront : tokenTypeOf (pieceFeed.front s'.feed) = t := by
    rw [front_agrees hviews.feed (hunread hnil)]
    obtain ⟨c, cs, hcs⟩ := List.exists_cons_of_ne_nil hnil
    rw [tokenAt, hcs] at htoken
    rw [hcs]
    exact Option.some.inj htoken
  rw [if_neg hnil] at hblank
  refine ⟨{ s' with tnsTokenType := t }, ?_, hcomment, hviews.feed, hunread hnil, hkey, hlen, rfl⟩
  simp only [parse, hblank]
  rw [if_neg (not_not.2 rfl), if_neg (not_not.2 hfront)]

theorem parse_sign (h : Views s text) (ht : t ≠ .key) (htoken : tokenAt text = some t) :
    ∃ s', parse pieceFeed t s = (0, s') ∧ Views s' (skipBlanks text).tail ∧ s'.tnsKey = s.tnsKey ∧
      s'.tnsKeyLen = s.tnsKeyLen ∧ s'.tnsTokenType = t := by
  obtain ⟨s', hparse, hcomment, hfeed, hunread, hkey, hlen, htype⟩ := parse_expected h htoken
  rw [if_neg ht] at hparse
  exact ⟨_, hparse, ⟨advance_agrees hfeed hunread, .inl hcomment⟩, hkey, hlen, htype⟩

/-- A key is taken to its end. It can be refused: for want of more text, or because it is too long. -/
theorem parse_key (h : Views s text) (htoken : tokenAt text = some .key) :
    ∃ ret s', parse pieceFeed .key s = (ret, s') ∧
      Views s' (scan keyStep ⟨false, []⟩ (skipBlanks text)).2 ∧ s'.tnsTokenType = .key ∧
      s'.tnsKey = overwrite s.tnsKey (scan keyStep ⟨false, []⟩ (skipBlanks text)).1.stored ∧
      (ret = 0 → (scan keyStep ⟨false, []⟩ (skipBlanks text)).2 ≠ [] ∧
        s'.tnsKeyLen = (scan keyStep ⟨false, []⟩ (skipBlanks text)).1.stored.length) ∧
      ((scan keyStep ⟨false, []⟩ (skipBlanks text)).2 ≠ [] →
        (scan keyStep ⟨false, []⟩ (skipBlanks text)).1.full = false → ret = 0) := by
  obtain ⟨s1, hparse, hcomment, hfeed, -, hkey, -, htype⟩ := parse_expected h htoken
  obtain ⟨hstate, hrest, hhere, hstop, -⟩ := scan_agrees keyStep KeyScan.full keyStep_full hfeed ⟨false, []⟩
  have htext : textFeed.scan keyStep KeyScan.full ⟨false, []⟩ (skipBlanks text) =
      ((scan keyStep ⟨false, []⟩ (skipBlanks text)).1,
        if (scan keyStep ⟨false, []⟩ (skipBlanks text)).2 ≠ [] then .here
        else if (scan keyStep ⟨false, []⟩ (skipBlanks text)).1.full then .ended else .eof,
        (scan keyStep ⟨false, []⟩ (skipBlanks text)).2) := rfl
  rw [htext] at hrest hstop
  rw [hparse]
  refine ⟨_, _, rfl, ?_⟩
  rw [hstate, hkey]
  cases hcase : (pieceFeed.scan keyStep KeyScan.full ⟨false, []⟩ s1.feed).2.1 with
  | here =>
    refine ⟨⟨hrest, .inl hcomment⟩, htype, rfl, fun _ => ⟨?_, rfl⟩, fun _ _ => rfl⟩
    intro hnil
    have hunread := hhere hcase
    have hflat := hrest.text
    rw [hnil, List.append_eq_nil_iff] at hflat
    exact hunread hflat.1
  | ended =>
    refine ⟨⟨hrest, .inl hcomment⟩, htype, rfl, fun h0 => absurd h0 (show (-1) ≠ 0 by decide), ?_⟩
    intro hmore hshort
    have hhere := hstop hshort
    rw [hcase] at hhere
    simp only [if_pos hmore] at hhere
    cases hhere
  | eof =>
    refine ⟨⟨hrest, .inl hcomment⟩, htype, rfl, fun h0 => absurd h0 tnsNoData_ne, ?_⟩
    intro hmore hshort
    have hhere := hstop hshort
    rw [hcase] at hhere
    simp only [if_pos hmore] at hhere
    cases hhere

end Parse

/-! ## Runs of building functions -/

/-- A run against the tokenizer, from a state to a result and a state. -/
abbrev Runs {α : Type} (m : Parsing α) (s : ParseParams Buffered) (a : α) (s' : ParseParams Buffered) : Prop :=
  m.run (serve pieceFeed) s = some (a, s')

section Runs

variable {α γ : Type} {m : Parsing α} {f : α → Parsing γ} {s s' s'' : ParseParams Buffered}

theorem runs_bind {a : α} {c : γ} (hm : Runs m s a s') (hf : Runs (f a) s' c s'') : Runs (m >>= f) s c s'' := by
  show (m >>= f).run (serve pieceFeed) s = _
  rw [run_bind, hm]
  exact hf

theorem runs_bind_iff {c : γ} : Runs (m >>= f) s c s'' ↔ ∃ a s', Runs m s a s' ∧ Runs (f a) s' c s'' := by
  constructor
  · intro h
    have h : (m >>= f).run (serve pieceFeed) s = some (c, s'') := h
    rw [run_bind] at h
    obtain ⟨⟨a, s1⟩, hm, hf⟩ := Option.bind_eq_some_iff.1 h
    exact ⟨a, s1, hm, hf⟩
  · rintro ⟨a, s1, hm, hf⟩
    exact runs_bind hm hf

theorem runs_map_iff {g : α → γ} {c : γ} : Runs (g <$> m) s c s' ↔ ∃ a, Runs m s a s' ∧ c = g a := by
  show Runs (m >>= fun a => pure (g a)) s c s' ↔ _
  rw [runs_bind_iff]
  constructor
  · rintro ⟨a, s1, hm, hpure⟩
    cases hpure
    exact ⟨a, hm, rfl⟩
  · rintro ⟨a, hm, rfl⟩
    exact ⟨a, s', hm, rfl⟩

end Runs

/-- The tokenizer stands in front of `text`, and `p` is what is known of it. -/
structure At (s : ParseParams Buffered) (p : Params) (text : List UInt8) : Prop where
  views : Views s text
  tnsKey : p.tnsKey = s.tnsKey
  tnsKeyLen : p.tnsKeyLen = s.tnsKeyLen
  tnsTokenType : p.tnsTokenType = s.tnsTokenType

/-- What a building function does to `ret` and `keyType` does not move the tokenizer. -/
theorem At.with {p : Params} (h : At s p text) (ret : Int)
    (keyType : KeyType) : At s { p with ret := ret, keyType := keyType } text :=
  ⟨h.views, h.tnsKey, h.tnsKeyLen, h.tnsTokenType⟩

/-- How much text is left is known. -/
theorem At.remaining {p : Params} (h : At s p text) : Tns.remaining pieceFeed s = text.length := by
  rw [← h.views.feed.text, List.length_append]
  rfl

/-- No run makes the text longer. -/
theorem At.length_le {α : Type} {m : Parsing α} {s' : ParseParams Buffered} {p p' : Params} {a : α}
    (h : At s p text) (h' : At s' p' text') (hrun : Runs m s a s') : text'.length ≤ text.length := by
  rw [← h.remaining, ← h'.remaining]
  exact Dialogue.run_measure (serve_remaining_le pieceFeed) hrun

theorem runs_tnsParse {p : Params} (hret : p.ret = 0) (t : TokenType) (s : ParseParams Buffered) :
    Runs (tnsParse t p) s
      (p.update ⟨(parse pieceFeed t s).1, (parse pieceFeed t s).2.isEof, (parse pieceFeed t s).2.tnsKey,
        (parse pieceFeed t s).2.tnsKeyLen, (parse pieceFeed t s).2.tnsTokenType⟩) (parse pieceFeed t s).2 := by
  rw [tnsParse, tnsCall, if_pos hret]
  rfl

section Tokens

variable {s s' : ParseParams Buffered} {p p' : Params} {text : List UInt8}

/-- A sign that is there is taken. -/
theorem sign_runs (h : At s p text) (hret : p.ret = 0) (ht : t ≠ .key) (htoken : tokenAt text = some t) :
    ∃ p' s', Runs (tnsParse t p) s p' s' ∧ At s' p' (skipBlanks text).tail ∧ p'.ret = 0 ∧
      p'.tnsTokenType = t ∧ p'.keyType = p.keyType ∧ p'.tnsKey = p.tnsKey ∧ p'.tnsKeyLen = p.tnsKeyLen := by
  obtain ⟨s', hparse, hviews, hkey, hlen, htype⟩ := parse_sign h.views ht htoken
  have hrun := runs_tnsParse hret t s
  rw [hparse] at hrun
  exact ⟨_, s', hrun, ⟨hviews, rfl, rfl, rfl⟩, rfl, htype, rfl, hkey.trans h.tnsKey.symm,
    hlen.trans h.tnsKeyLen.symm⟩

/-- A token of another kind stays. -/
theorem other_runs (h : At s p text) (hret : p.ret = 0) (hother : tokenAt text ≠ some t) :
    ∃ p' s', Runs (tnsParse t p) s p' s' ∧ At s' p' (skipBlanks text) ∧ p'.ret ≠ 0 ∧
      p'.tnsTokenType = p.tnsTokenType ∧ p'.keyType = p.keyType ∧ p'.tnsKey = p.tnsKey ∧
      p'.tnsKeyLen = p.tnsKeyLen := by
  obtain ⟨ret, s', hparse, hne, hviews, hkey, hlen, htype⟩ := parse_other h.views hother
  have hrun := runs_tnsParse hret t s
  rw [hparse] at hrun
  exact ⟨_, s', hrun, ⟨hviews, rfl, rfl, rfl⟩, hne, htype.trans h.tnsTokenType.symm, rfl,
    hkey.trans h.tnsKey.symm, hlen.trans h.tnsKeyLen.symm⟩

/-- **A sign is taken exactly when it is the next token.** -/
theorem sign_spec (h : At s p text) (hret : p.ret = 0) (ht : t ≠ .key) (hrun : Runs (tnsParse t p) s p' s') :
    p'.keyType = p.keyType ∧ p'.tnsKey = p.tnsKey ∧ p'.tnsKeyLen = p.tnsKeyLen ∧
      ((∃ rest, Sign t text rest ∧ At s' p' rest ∧ p'.ret = 0 ∧ p'.tnsTokenType = t) ∨
        tokenAt text ≠ some t ∧ At s' p' (skipBlanks text) ∧ p'.ret ≠ 0 ∧ p'.tnsTokenType = p.tnsTokenType) := by
  by_cases htoken : tokenAt text = some t
  · obtain ⟨p1, s1, hrun1, hat, hret1, htype, hkt, hkey, hlen⟩ := sign_runs h hret ht htoken
    cases hrun.symm.trans hrun1
    exact ⟨hkt, hkey, hlen, .inl ⟨_, ⟨htoken, rfl⟩, hat, hret1, htype⟩⟩
  obtain ⟨p1, s1, hrun1, hat, hret1, htype, hkt, hkey, hlen⟩ := other_runs h hret htoken
  cases hrun.symm.trans hrun1
  exact ⟨hkt, hkey, hlen, .inr ⟨htoken, hat, hret1, htype⟩⟩

/-- The key that was read last. -/
structure HoldsKey (p : Params) (k : List UInt8) : Prop where
  len : p.tnsKeyLen = k.length
  bytes : ∃ old, p.tnsKey = k ++ old

/-- **A short key is taken.** -/
theorem key_runs (h : At s p text) (hret : p.ret = 0) {k : List UInt8} (hkey : Key k text rest)
    (hshort : k.length < tnsKeySize) :
    ∃ p' s', Runs (tnsParse .key p) s p' s' ∧ At s' p' rest ∧ p'.ret = 0 ∧ p'.tnsTokenType = .key ∧
      p'.keyType = p.keyType ∧ HoldsKey p' k := by
  obtain ⟨ret, s', hparse, hviews, htype, htnsKey, hlen, hok⟩ := parse_key h.views hkey.token
  rw [hkey.rest_eq] at hviews hok
  rw [hkey.stored] at htnsKey hlen
  have hfull : (scan keyStep ⟨false, []⟩ (skipBlanks text)).1.full = false := by
    rw [KeyScan.full, hkey.stored]
    exact decide_eq_false (ne_of_lt hshort)
  have hret0 := hok hkey.rest_ne hfull
  have hrun := runs_tnsParse hret .key s
  rw [hparse] at hrun
  exact ⟨_, s', hrun, ⟨hviews, rfl, rfl, rfl⟩, hret0, htype, rfl, (hlen hret0).2, ⟨_, htnsKey⟩⟩

/-- **What is taken as a key is one.** After a refusal the last token is no closing parenthesis, unless
it was one before. -/
theorem key_spec (h : At s p text) (hret : p.ret = 0) (hrun : Runs (tnsParse .key p) s p' s') :
    p'.keyType = p.keyType ∧
      ((∃ k rest, Key k text rest ∧ At s' p' rest ∧ p'.ret = 0 ∧ p'.tnsTokenType = .key ∧ HoldsKey p' k) ∨
        (∃ text', At s' p' text') ∧ p'.ret ≠ 0 ∧ (p'.tnsTokenType = .key ∨ p'.tnsTokenType = p.tnsTokenType)) := by
  by_cases htoken : tokenAt text = some .key
  · obtain ⟨ret, s1, hparse, hviews, htype, htnsKey, hlen, -⟩ := parse_key h.views htoken
    have hrun1 := runs_tnsParse hret .key s
    rw [hparse] at hrun1
    cases hrun.symm.trans hrun1
    refine ⟨rfl, ?_⟩
    by_cases hret0 : ret = 0
    · obtain ⟨hmore, hlen⟩ := hlen hret0
      exact .inl ⟨_, _, ⟨htoken, rfl, rfl, hmore⟩, ⟨hviews, rfl, rfl, rfl⟩, hret0, htype, hlen, ⟨_, htnsKey⟩⟩
    · exact .inr ⟨⟨_, hviews, rfl, rfl, rfl⟩, hret0, .inl htype⟩
  · obtain ⟨p1, s1, hrun1, hat, hret1, htype, hkt, -⟩ := other_runs h hret htoken
    cases hrun.symm.trans hrun1
    exact ⟨hkt, .inr ⟨⟨_, hat⟩, hret1, .inr htype⟩⟩

end Tokens

/-! ## A description in pieces -/

/-- What `ObClientTnsBuildDes` gives when its text is read in these pieces. -/
def buildDescription (pieces : List (List UInt8)) : Option Outcome :=
  ((tnsBuildDes (pieces.flatten.length + 2) ⟨none, 0⟩).run (serve pieceFeed) (.init ⟨[], pieces⟩)).map Prod.fst

/-- The descriptions of the service that was built. -/
def Outcome.descriptions (o : Outcome) : List Description := (o.tns.tnsService.map Service.description).getD []

/-- Before anything is read, the tokenizer stands in front of the whole text. -/
theorem at_init {pieces : List (List UInt8)} (hpieces : ∀ p ∈ pieces, p ≠ [])
    (htext : pieces.flatten = text) : At (.init ⟨[], pieces⟩) Params.init text :=
  ⟨⟨⟨htext, hpieces⟩, .inl rfl⟩, rfl, rfl, rfl⟩

end ObConnector.Tns
