/-
# ObConnector.Tns.Lookup -- an entry among others.

A tnsnames file is a sequence of entries. The entries in front of the one that is looked for are not read
but skipped, by a loop that counts parentheses from the first one on, inside quotes and comments as well.
It stops at the end of an entry only if the entry has one group, whose parentheses are balanced in this
sense (`Entry.Skippable`). What stands behind an entry does not matter, as long as it is not one more group.

So a well-formed entry is found as if it were alone whenever the entries in front of it can be skipped, and
a name that no entry has is not found whenever all of them can (`lookup_ignores_others`).
-/
import ObConnector.Tns.Malformed
import ObConnector.Tns.RoundTrip

namespace ObConnector.Tns

open Lib List
open Relation (ReflTransGen TransGen)

/-! ## More text -/

variable {text rest : List UInt8}

/-- Where a scanner stops, it stops with more text behind. -/
theorem scan_more {σ : Type} {step : σ → UInt8 → σ × Bool} {s s' : σ} (more : List UInt8)
    (h : scan step s text = (s', rest)) (hne : rest ≠ []) : scan step s (text ++ more) = (s', rest ++ more) := by
  rw [scan_append, h]
  exact if_neg (by simpa using hne)

theorem skipBlanks_more (more : List UInt8) (h : skipBlanks text ≠ []) :
    skipBlanks (text ++ more) = skipBlanks text ++ more :=
  congrArg Prod.snd (scan_more more rfl h)

variable {t : TokenType}

theorem tokenAt_more (more : List UInt8) (h : tokenAt text = some t) :
    skipBlanks (text ++ more) = skipBlanks text ++ more ∧ tokenAt (text ++ more) = some t := by
  have hne : skipBlanks text ≠ [] := by
    intro hnil
    rw [tokenAt_eq_none.2 hnil] at h
    cases h
  have hskip := skipBlanks_more more hne
  refine ⟨hskip, ?_⟩
  rw [tokenAt, hskip, List.head?_append_of_ne_nil _ hne]
  exact h

theorem Sign.more {sign : TokenType} (h : Sign sign text rest) (more : List UInt8) :
    Sign sign (text ++ more) (rest ++ more) := by
  obtain ⟨hskip, htoken⟩ := tokenAt_more more h.1
  refine ⟨htoken, ?_⟩
  rw [hskip, h.2, tail_append_of_ne_nil]
  intro hnil
  exact absurd ((tokenAt_eq_none.2 hnil).symm.trans h.1) (Option.some_ne_none sign).symm

theorem Key.more {k : List UInt8} (h : Key k text rest) (more : List UInt8) :
    Key k (text ++ more) (rest ++ more) := by
  obtain ⟨hskip, htoken⟩ := tokenAt_more more h.token
  have hscan : scan keyStep ⟨false, []⟩ (skipBlanks text) =
      ((scan keyStep ⟨false, []⟩ (skipBlanks text)).1, rest) := Prod.ext rfl h.rest_eq
  have hscan := scan_more more hscan h.rest_ne
  refine ⟨htoken, ?_, ?_, fun hnil => h.rest_ne (append_eq_nil_iff.1 hnil).1⟩
  · rw [hskip, hscan]
    exact h.stored
  · rw [hskip, hscan]

theorem Opens.more {K : List UInt8 → Prop} {keyType : KeyType} (h : Opens K keyType text rest) (more : List UInt8) :
    Opens K keyType (text ++ more) (rest ++ more) := by
  obtain ⟨k, t1, t2, hleft, hkey, hK, hkeyType, hknown, hequal⟩ := h
  exact ⟨k, t1 ++ more, t2 ++ more, hleft.more more, hkey.more more, hK, hkeyType, hknown, hequal.more more⟩

/-- The same place, with more text behind. -/
def Place.more {β : Type} (x : Place β) (more : List UInt8) : Place β := (x.1, x.2 ++ more)

/-- The values of a node do not look behind themselves. -/
def Extends {β : Type} (read : Place β → Place β → Prop) : Prop :=
  ∀ x y : Place β, read x y → ∀ more, read (x.more more) (y.more more)

section Extends

variable {β γ : Type} {K : List UInt8 → Prop}

theorem extends_false : Extends fun _ _ : Place β => False := fun _ _ h _ => h

theorem extends_word {words : List (String × (β → β))} : Extends (WordRead K words) := by
  rintro x y ⟨v, w, hkey, hK, hfind, hy⟩ more
  exact ⟨v, w, hkey.more more, hK, hfind, hy⟩

theorem extends_number {store : Nat → β → β} : Extends (NumberRead K store) := by
  rintro x y ⟨v, hkey, hK, hused, hy⟩ more
  exact ⟨v, hkey.more more, hK, hused, hy⟩

theorem extends_text {limit : Nat} {store : (Text → Text) → β → β} : Extends (TextRead K limit store) := by
  rintro x y ⟨v, hkey, hK, hy⟩ more
  exact ⟨v, hkey.more more, hK, hy⟩

theorem extends_step {value : Value β} (hvalue : ∀ keyType, Extends (value keyType)) : Extends (Step K value) := by
  rintro x y ⟨keyType, t1, t2, hopens, hread, hright⟩ more
  exact ⟨keyType, t1 ++ more, t2 ++ more, hopens.more more, hvalue keyType _ _ hread more, hright.more more⟩

theorem extends_steps {value : Value β} (hvalue : ∀ keyType, Extends (value keyType)) :
    Extends (TransGen (Step K value)) :=
  fun _ _ h more => h.lift (fun x => x.more more) fun _ _ hstep => extends_step hvalue _ _ hstep more

theorem extends_node {value : Value γ} (hvalue : ∀ keyType, Extends (value keyType)) {init : β → γ}
    {keep : γ → β → β} : Extends (NodeRead K value init keep) := by
  rintro x y ⟨c, hsteps, hy⟩ more
  exact ⟨c, extends_steps hvalue _ _ hsteps more, hy⟩

section

variable (keyType : KeyType)
include keyType

theorem extends_removeStrategy : Extends (removeStrategyRead K keyType) := by
  cases keyType
  all_goals dsimp only [removeStrategyRead]
  case name => exact extends_word
  case timeout => exact extends_number
  all_goals exact extends_false

theorem extends_appendStrategy : Extends (appendStrategyRead K keyType) := by
  cases keyType
  all_goals dsimp only [appendStrategyRead]
  case name => exact extends_word
  case retryTimes => exact extends_number
  case duration => exact extends_number
  all_goals exact extends_false

theorem extends_blacklistConf : Extends (blacklistConfRead K keyType) := by
  cases keyType
  all_goals dsimp only [blacklistConfRead]
  case removeStrategy => exact extends_node extends_removeStrategy
  case appendStrategy => exact extends_node extends_appendStrategy
  all_goals exact extends_false

theorem extends_address : Extends (addressRead K keyType) := by
  cases keyType
  all_goals dsimp only [addressRead]
  case protocol => exact fun x y h more => ⟨extends_text x y h.1 more, h.2⟩
  case host => exact extends_text
  case port => exact extends_number
  case weight => exact extends_number
  all_goals exact extends_false

theorem extends_addressList : Extends (addressListRead K keyType) := by
  cases keyType
  all_goals dsimp only [addressListRead]
  case address => exact extends_node extends_address
  case oblbStrategy => exact extends_word
  case oblb => exact extends_word
  all_goals exact extends_false

theorem extends_connectData : Extends (connectDataRead K keyType) := by
  cases keyType
  all_goals dsimp only [connectDataRead]
  case serviceName => exact extends_text
  case sid => exact extends_text
  case extraInfo => exact extends_text
  case obMode => exact extends_number
  case useDefaultSid => exact extends_number
  case sessionVariable => exact extends_text
  case obEnableSsl => exact extends_number
  all_goals exact extends_false

theorem extends_description : Extends (descriptionRead K keyType) := by
  cases keyType
  all_goals dsimp only [descriptionRead]
  case oblb => exact extends_word
  case oblbRetryAllDowns => exact extends_number
  case oblbRetryTimeout => exact extends_number
  case connectTimeout => exact extends_number
  case readTimeout => exact extends_number
  case writeTimeout => exact extends_number
  case oblbStrategy => exact extends_word
  case oblbGroupStrategy => exact extends_word
  case oblbBlacklist => exact extends_node extends_blacklistConf
  case addressList => exact extends_node extends_addressList
  case connectData => exact fun x y h more => ⟨h.1, extends_node extends_connectData x y h.2 more⟩
  case address => exact extends_node extends_address
  all_goals exact extends_false

/-- **A description is read with more text behind it.** -/
theorem extends_service : Extends (serviceRead K keyType) := by
  cases keyType
  all_goals dsimp only [serviceRead]
  case description => exact extends_node extends_description
  all_goals exact extends_false

end

end Extends

/-! ## Services -/

section Service

variable {fuel : Nat} {s : ParseParams Buffered} {p : Params} {text : List UInt8}

theorem serviceKey_complete (fuel : Nat) : Complete fuel (serviceKey fuel false) (serviceRead ShortKey) := by
  intro s p text b y h hret hfuel hread hend
  unfold serviceKey
  generalize p.keyType = keyType at hread
  cases keyType
  case description =>
    exact closeNode_taken (descriptionKey_complete fuel) h hfuel hread hend
  all_goals exact False.elim hread

/-- **A service is built** from well-formed groups, up to something that is no group. -/
theorem tnsServiceBuild_runs (h : At s p text) (hfuel : text.length + 2 ≤ fuel)
    (hname : strncasecmpSame (ascii "OBCISYSTEMVARIABLES") p.tnsKey p.tnsKeyLen = false) {y : Place Service}
    (hsteps : TransGen (Step ShortKey (serviceRead ShortKey)) (Service.init p.tnsKey p.tnsKeyLen, text) y)
    (hend : tokenAt y.2 ≠ some .leftParentheses) :
    ∃ p' s', Runs (tnsServiceBuild fuel p ⟨none, 0⟩) s (p', ⟨some y.1, 1⟩) s' ∧ p'.ret = 0 := by
  have hround {s p b r s'} (hrun : Runs (openPair p >>= fun p => closePair (serviceKey fuel false) p b) s r s') :
      Runs (servicePair fuel false (p, b, true)) s (r.1, r.2, true) s' := by
    rw [servicePair_eq]
    exact runs_map_iff.2 ⟨_, hrun, rfl⟩
  obtain ⟨x, hstep, hrest⟩ := TransGen.head'_iff.1 hsteps
  obtain ⟨m, rfl⟩ : ∃ m, fuel = m + 1 := ⟨fuel - 1, by omega⟩
  obtain ⟨p1, s1, hbody, hat1, hret1, htype1, hlt⟩ :=
    pair_runs (serviceKey_complete (m + 1)) (h.with 0 p.keyType) rfl hfuel hstep
  obtain ⟨p', s', hrun, -, htype'⟩ := pairLoop_runs (serviceKey_complete (m + 1)) (·, true) hround hrest hend
    hat1 hret1 htype1 (by omega) (show _ ≤ m by omega)
  have hfirst : Runs (servicePair (m + 1) false ({ p with ret := 0 }, Service.init p.tnsKey p.tnsKeyLen, false)) s
      (p1, x.1, true) s1 := by
    rw [servicePair_eq]
    refine runs_map_iff.2 ⟨_, hbody, ?_⟩
    rw [decide_eq_true hret1]
    rfl
  refine ⟨{ p' with ret := 0 }, s', ?_, rfl⟩
  show Runs (Dialogue.loop _ (servicePair _ (strncasecmpSame _ _ _)) _ _ >>= _) _ _ _
  rw [hname]
  refine runs_bind (runs_loop_step rfl hfirst hrun) ?_
  dsimp only
  rw [if_pos ⟨rfl, htype'⟩]
  rfl

end Service

/-! ## Entries -/

/-- An entry of a file: its name, and its text, from the name up to the next entry. -/
structure Entry where
  name : List UInt8
  text : List UInt8

/-- Nothing but blanks and comments, and the last comment ends. -/
def Blank (text : List UInt8) : Prop := scan blankStep false text = (false, [])

instance (text : List UInt8) : Decidable (Blank text) := inferInstanceAs (Decidable (_ = _))

theorem Blank.skip (h : Blank text) (more : List UInt8) : skipBlanks (text ++ more) = skipBlanks more := by
  rw [skipBlanks, scan_append, h]
  rfl

/-- The entry starts with its name. The name is a short one, no description, and no beginning of the
reserved name. -/
structure Entry.Named (e : Entry) (body : List UInt8) : Prop where
  starts : ∃ t, Key e.name e.text t ∧ Sign .equalSign t body
  short : ShortKey e.name
  noZero : (0 : UInt8) ∉ e.name
  notDescription : isDescriptionTns e.name = false
  notReserved : strncasecmpSame (ascii "OBCISYSTEMVARIABLES") e.name e.name.length = false

/-- The groups of the entry are descriptions, and `service` is what they build. -/
def Entry.Reads (e : Entry) (service : Service) : Prop :=
  ∃ body t, e.Named body ∧ TransGen (Step ShortKey (serviceRead ShortKey))
    (Service.init e.name e.name.length, body) (service, t) ∧ Blank t

/-- When parentheses are counted from the first one on, the entry ends with the last one. -/
def Entry.Skippable (e : Entry) : Prop :=
  ∃ body t t', e.Named body ∧ Sign .leftParentheses body t ∧ scan skipStep 1 t = (0, t') ∧ Blank t'

variable {more : List UInt8} {e : Entry}

section Runs

variable {s s' : ParseParams Buffered} {p p' : Params} {text : List UInt8}

theorem parseBlank_isEof {q : ParseParams Buffered} (h : (parseBlank pieceFeed q).1 = 0) :
    (parseBlank pieceFeed q).2.isEof = q.isEof := by
  revert h
  simp only [parseBlank]
  split
  · exact fun h => absurd h tnsNoData_ne
  · exact fun _ => rfl

theorem parseKey_isEof {q : ParseParams Buffered} (h : (parseKey pieceFeed q).1 = 0) :
    (parseKey pieceFeed q).2.isEof = q.isEof := by
  revert h
  simp only [parseKey]
  split
  · exact fun _ => rfl
  · exact fun _ => rfl
  · exact fun h => absurd h tnsNoData_ne

/-- As long as tokens are read, the end of the data was not seen. -/
theorem parse_isEof (h : (parse pieceFeed t s).1 = 0) : (parse pieceFeed t s).2.isEof = s.isEof := by
  revert h
  simp only [parse]
  split
  · rename_i hblank
    exact fun h => absurd h hblank
  rename_i hblank
  have hblank := parseBlank_isEof (not_not.1 hblank)
  split
  · exact fun _ => hblank
  split
  · exact fun h => (parseKey_isEof h).trans hblank
  · exact fun _ => hblank

theorem runs_isEof (hret : p.ret = 0) (hrun : Runs (tnsParse t p) s p' s') (hret' : p'.ret = 0) :
    p'.isEof = s.isEof ∧ s'.isEof = s.isEof := by
  cases hrun.symm.trans (runs_tnsParse hret t s)
  exact ⟨parse_isEof hret', parse_isEof hret'⟩

/-- At the end of the data. -/
theorem end_runs (h : At s p text) (hret : p.ret = 0) (hend : skipBlanks text = []) :
    ∃ p' s', Runs (tnsParse t p) s p' s' ∧ p'.ret = tnsNoData := by
  obtain ⟨s', hblank, -⟩ := parseBlank_spec h.views
  refine ⟨_, _, runs_tnsParse hret t s, ?_⟩
  show (parse pieceFeed t s).1 = tnsNoData
  rw [if_pos hend] at hblank
  simp only [parse, hblank]
  rw [if_pos tnsNoData_ne]

/-- The loop that counts parentheses. -/
theorem skip_runs {t' : List UInt8} (h : At s p text) (hret : p.ret = 0) (hskip : scan skipStep 1 text = (0, t')) :
    ∃ p' s', Runs (tnsCall .skipParentheses p) s p' s' ∧ At s' p' t' ∧ p'.ret = 0 ∧ p'.isEof = s.isEof ∧
      s'.isEof = s.isEof := by
  have htext : skipParentheses textFeed (onText s text) = (0, { onText s text with feed := t' }) := by
    simp only [skipParentheses, textFeed, onText, hskip]
    rw [if_neg]
    by_cases hnil : t' = []
    · rw [if_neg (not_not.2 hnil)]
      decide
    rw [if_pos hnil]
    decide
  obtain ⟨hret', hagree⟩ := skipParentheses_agrees h.views.agree
  rw [htext] at hret' hagree
  have hcomment : s.isComment = false := by
    refine h.views.comment.resolve_right fun hnil => ?_
    rw [hnil] at hskip
    cases hskip
  have hrun : (tnsCall .skipParentheses p).run (serve pieceFeed) s =
      some (p.update (serve pieceFeed s .skipParentheses).1, (serve pieceFeed s .skipParentheses).2) := by
    rw [tnsCall, if_pos hret]
    rfl
  exact ⟨_, _, hrun, ⟨⟨hagree.feed, .inl (hagree.isComment.trans hcomment)⟩, rfl, rfl, rfl⟩, hret', hagree.isEof,
    hagree.isEof⟩

/-- The name of an entry. -/
theorem name_runs {body : List UInt8} (hnamed : e.Named body) (h : At s p text)
    (heq : skipBlanks text = skipBlanks (e.text ++ more)) (hret : p.ret = 0) (heof : s.isEof = false) :
    ∃ p1 s1 p' s', Runs (tnsParse .key p) s p1 s1 ∧ Runs (tnsParse .equalSign p1) s1 p' s' ∧ At s' p' (body ++ more) ∧
      p'.ret = 0 ∧ s'.isEof = false ∧ HoldsKey p' e.name := by
  obtain ⟨t, hkey, hequal⟩ := hnamed.starts
  have hkey := (hkey.more more).congr heq.symm
  obtain ⟨p1, s1, hrun1, hat1, hret1, -, -, hholds⟩ := key_runs h hret hkey hnamed.short
  have hequal := hequal.more more
  obtain ⟨p2, s2, hrun2, hat2, hret2, -, -, hkey2, hlen2⟩ := sign_runs hat1 hret1 (by decide) hequal.1
  rw [← hequal.2] at hat2
  refine ⟨p1, s1, p2, s2, hrun1, hrun2, hat2, hret2, ?_, ⟨hlen2.trans hholds.len, ?_⟩⟩
  · rw [(runs_isEof hret1 hrun2 hret2).2, (runs_isEof hret hrun1 hret1).2, heof]
  · rw [hkey2]
    exact hholds.bytes

/-- The reserved name is none of an entry. -/
theorem HoldsKey.notReserved {body : List UInt8} (hnamed : e.Named body) (h : HoldsKey p e.name) :
    strncasecmpSame (ascii "OBCISYSTEMVARIABLES") p.tnsKey p.tnsKeyLen = false := by
  obtain ⟨old, hbytes⟩ := h.bytes
  rw [h.len, hbytes, strncasecmpSame, strnSame_append_right]
  exact hnamed.notReserved

/-- The name is compared as a whole. -/
theorem HoldsKey.isName {k dbname : List UInt8} (hzero : (0 : UInt8) ∉ dbname) (h : HoldsKey p k) :
    (dbname.length ≠ p.tnsKeyLen ∨ strncmpSame dbname p.tnsKey dbname.length = false) ↔ dbname ≠ k := by
  obtain ⟨old, hbytes⟩ := h.bytes
  rw [h.len, hbytes]
  by_cases hlen : dbname.length = k.length
  · rw [← Bool.not_eq_true, strncmpSame_iff old hzero hlen]
    exact ⟨fun h => h.resolve_left (not_not.2 hlen), .inr⟩
  · exact iff_of_true (.inl hlen) fun heq => hlen (congrArg List.length heq)

/-- **An entry that can be skipped is skipped.** -/
theorem skipEntry_runs (he : e.Skippable) {dbname : List UInt8} (hzero : (0 : UInt8) ∉ dbname)
    (hname : dbname ≠ e.name) (h : At s p text) (heq : skipBlanks text = skipBlanks (e.text ++ more))
    (hret : p.ret = 0) (heof : s.isEof = false) (fuel : Nat) (tns : ObClientTns) :
    ∃ p' s' text', Runs (tnsEntry fuel dbname (p, false, tns)) s (p', false, tns) s' ∧ At s' p' text' ∧
      skipBlanks text' = skipBlanks more ∧ p'.ret = 0 ∧ p'.isEof = false ∧ s'.isEof = false := by
  obtain ⟨body, t, t', hnamed, hleft, hskip, hblank⟩ := he
  obtain ⟨p1, s1, p2, s2, hrun1, hrun2, hat2, hret2, heof2, hholds⟩ := name_runs hnamed h heq hret heof
  have hleft := hleft.more more
  obtain ⟨p3, s3, hrun3, hat3, hret3, -, -⟩ := sign_runs hat2 hret2 (by decide) hleft.1
  rw [← hleft.2] at hat3
  have hskip' : scan skipStep 1 (t ++ more) = (0, t' ++ more) := by
    rw [scan_append, hskip]
    split
    · rename_i hnil
      have hnil : t' = [] := List.isEmpty_iff.1 hnil
      rw [hnil]
      exact scan_over skipStep_zero rfl more
    · rfl
  obtain ⟨p4, s4, hrun4, hat4, hret4, heof4, heof4'⟩ := skip_runs hat3 hret3 hskip'
  have heof3 : s3.isEof = false := (runs_isEof hret2 hrun3 hret3).2.trans heof2
  refine ⟨p4, s4, t' ++ more, ?_, hat4, hblank.skip more, hret4, heof4.trans heof3, heof4'.trans heof3⟩
  refine runs_bind hrun1 (runs_bind hrun2 ?_)
  rw [if_neg (not_not.2 hret2), if_pos ((hholds.isName hzero).2 hname)]
  have hservice : Runs (tnsServiceSkip p2) s2 p4 s4 := by
    rw [tnsServiceSkip, if_neg (by rw [strncmpSame_eq_false (hholds.notReserved hnamed)]; exact Bool.false_ne_true)]
    exact runs_bind hrun3 hrun4
  exact runs_bind hservice rfl

/-- **The entry that is looked for is read.** -/
theorem readEntry_runs {service : Service} (he : e.Reads service) (hmore : tokenAt more ≠ some .leftParentheses)
    (h : At s p text) (heq : skipBlanks text = skipBlanks (e.text ++ more)) (hret : p.ret = 0)
    (heof : s.isEof = false) {fuel : Nat} (hfuel : text.length + 2 ≤ fuel) :
    ∃ p' s', Runs (tnsEntry fuel e.name (p, false, ⟨none, 0⟩)) s (p', true, ⟨some service, 1⟩) s' ∧ p'.ret = 0 := by
  obtain ⟨body, t, hnamed, hsteps, hblank⟩ := he
  obtain ⟨p1, s1, p2, s2, hrun1, hrun2, hat2, hret2, -, hholds⟩ := name_runs hnamed h heq hret heof
  have hlen : (body ++ more).length ≤ text.length := h.length_le hat2 (runs_bind hrun1 hrun2)
  have hinit : Service.init p2.tnsKey p2.tnsKeyLen = Service.init e.name e.name.length := by
    obtain ⟨old, hbytes⟩ := hholds.bytes
    have hmin : min e.name.length 1024 = e.name.length :=
      min_eq_left (le_trans (le_of_lt hnamed.short) (by decide))
    rw [Service.init, Service.init, hholds.len, hbytes, hmin, strncpy_append]
  have hsteps : TransGen (Step ShortKey (serviceRead ShortKey))
      (Service.init p2.tnsKey p2.tnsKeyLen, body ++ more) (service, t ++ more) := by
    rw [hinit]
    exact extends_steps extends_service _ _ hsteps more
  have hfuel' : (body ++ more).length + 2 ≤ fuel := by omega
  have hend : tokenAt (t ++ more) ≠ some .leftParentheses := by
    rwa [tokenAt_congr (hblank.skip more)]
  obtain ⟨p', s', hbuild, hret'⟩ :=
    tnsServiceBuild_runs hat2 hfuel' (hholds.notReserved hnamed) hsteps hend
  refine ⟨p', s', runs_bind hrun1 (runs_bind hrun2 ?_), hret'⟩
  rw [if_neg (not_not.2 hret2), if_neg fun hne => (hholds.isName hnamed.noZero).1 hne rfl]
  refine runs_bind hbuild ?_
  dsimp only
  rw [if_pos hret']
  rfl

end Runs

/-! ## Files -/

section Files

variable {s s' : ParseParams Buffered} {p p' : Params} {text : List UInt8} {dbname : List UInt8}

/-- The loop of `ObClientTnsBuild`. -/
abbrev entryLoop (fuel n : Nat) (dbname : List UInt8) (a : Params × Bool × ObClientTns) :
    Parsing (Params × Bool × ObClientTns) :=
  Dialogue.loop (fun s => s.1.ret = 0 ∧ s.1.isEof = false ∧ s.2.1 = false) (tnsEntry fuel dbname) n a

variable {entries : List Entry}

/-- Entries that can be skipped are skipped one after the other. -/
theorem skipEntries_runs (hskip : ∀ e ∈ entries, e.Skippable) (hzero : (0 : UInt8) ∉ dbname)
    (hname : dbname ∉ entries.map Entry.name) (h : At s p text)
    (heq : skipBlanks text = skipBlanks (entries.flatMap Entry.text ++ more)) (hret : p.ret = 0)
    (heof : p.isEof = false ∧ s.isEof = false) (fuel : Nat) (tns : ObClientTns) :
    ∃ p' s' text', At s' p' text' ∧ skipBlanks text' = skipBlanks more ∧ p'.ret = 0 ∧
      (p'.isEof = false ∧ s'.isEof = false) ∧ text'.length ≤ text.length ∧
      ∀ n r s'', Runs (entryLoop fuel n dbname (p', false, tns)) s' r s'' →
        Runs (entryLoop fuel (n + entries.length) dbname (p, false, tns)) s r s'' := by
  induction entries generalizing s p text with
  | nil => exact ⟨p, s, text, h, heq, hret, heof, le_rfl, fun n r s'' hrun => hrun⟩
  | cons e entries ih =>
    rw [flatMap_cons, append_assoc] at heq
    rw [map_cons, mem_cons, not_or] at hname
    obtain ⟨p1, s1, text1, hrun1, hat1, heq1, hret1, heof1⟩ :=
      skipEntry_runs (hskip e mem_cons_self) hzero hname.1 h heq hret heof.2 fuel tns
    obtain ⟨p', s', text', hat', heq', hret', heof', hlen', hrest⟩ :=
      ih (fun e he => hskip e (mem_cons_of_mem _ he)) hname.2 hat1 heq1 hret1 heof1
    refine ⟨p', s', text', hat', heq', hret', heof', hlen'.trans (h.length_le hat1 hrun1), ?_⟩
    intro n r s'' hrun
    exact runs_loop_step (decide_eq_true ⟨hret, heof.1, rfl⟩) hrun1 (hrest n r s'' hrun)

theorem length_le_flatMap_text (h : ∀ e ∈ entries, e.Skippable) :
    entries.length ≤ (entries.flatMap Entry.text).length := by
  induction entries with
  | nil => exact le_rfl
  | cons e entries ih =>
    obtain ⟨⟨body, t, t', hnamed, -⟩, hrest⟩ := forall_mem_cons.1 h
    obtain ⟨t, hkey, -⟩ := hnamed.starts
    have hpos : 0 < e.text.length := length_pos_iff.2 fun hnil => by
      have htoken := hkey.token
      rw [hnil] at htoken
      cases htoken
    have hlen := ih hrest
    rw [flatMap_cons, length_append, length_cons]
    omega

variable {pieces : List (List UInt8)}

/-- The loop gets behind entries that can be skipped, with two rounds left. -/
theorem lookup_behind (hskip : ∀ f ∈ entries, f.Skippable) (hzero : (0 : UInt8) ∉ dbname)
    (hdescription : isDescriptionTns dbname = false) (hname : dbname ∉ entries.map Entry.name)
    (hpieces : ∀ p ∈ pieces, p ≠ [])
    (hfile : pieces.flatten = entries.flatMap Entry.text ++ more) :
    ∃ p s text n, At s p text ∧ skipBlanks text = skipBlanks more ∧ p.ret = 0 ∧
      (p.isEof = false ∧ s.isEof = false) ∧ text.length ≤ pieces.flatten.length ∧
      ∀ p' find tns s', Runs (entryLoop (pieces.flatten.length + 2) (n + 1 + 1) dbname (p, false, ⟨none, 0⟩)) s
        (p', find, tns) s' → lookup dbname pieces = some (closeLookup p' find tns) := by
  have hlen := length_le_flatMap_text hskip
  have hfuel : pieces.flatten.length = (entries.flatMap Entry.text).length + more.length := by
    rw [hfile, length_append]
  obtain ⟨p, s, text, hat, heq, hret, heof, hlen', hrest⟩ :=
    skipEntries_runs hskip hzero hname (at_init hpieces rfl) (by rw [hfile]) rfl ⟨rfl, rfl⟩
      (pieces.flatten.length + 2) ⟨none, 0⟩
  refine ⟨p, s, text, pieces.flatten.length - entries.length, hat, heq, hret, heof, hlen', ?_⟩
  intro p' find tns s' hrun
  have hloop := hrest _ _ s' hrun
  rw [show pieces.flatten.length - entries.length + 1 + 1 + entries.length = pieces.flatten.length + 2 by omega] at hloop
  have hbuild : Runs (tnsBuildFile (pieces.flatten.length + 2) ⟨none, 0⟩ dbname) (.init ⟨[], pieces⟩)
      (closeLookup p' find tns) s' := runs_bind hloop rfl
  rw [lookup, tnsBuild, if_neg (by rw [hdescription]; exact Bool.false_ne_true), hbuild]
  rfl

/-- A well-formed entry behind others that can be skipped. -/
theorem lookup_found {before : List Entry} (hbefore : ∀ f ∈ before, f.Skippable)
    (hname : e.name ∉ before.map Entry.name) {service : Service} (he : e.Reads service)
    (hmore : tokenAt more ≠ some .leftParentheses) (hpieces : ∀ p ∈ pieces, p ≠ [])
    (hfile : pieces.flatten = before.flatMap Entry.text ++ (e.text ++ more)) :
    lookup e.name pieces = some ⟨0, true, ⟨some service, 1⟩⟩ := by
  obtain ⟨body, -, hnamed, -⟩ := id he
  obtain ⟨p, s, text, n, hat, heq, hret, heof, hlen, hrest⟩ :=
    lookup_behind hbefore hnamed.noZero hnamed.notDescription hname hpieces hfile
  obtain ⟨p1, s1, hrun, hret1⟩ := readEntry_runs he hmore hat heq hret heof.2 (Nat.add_le_add_right hlen 2)
  rw [hrest _ _ _ s1 (runs_loop_step (decide_eq_true ⟨hret, heof.1, rfl⟩) hrun
    (runs_loop_done _ n s1 (decide_eq_false nofun))), closeLookup, if_pos hret1]

/-- A name that no entry has. -/
theorem lookup_not_found (hskip : ∀ f ∈ entries, f.Skippable) (hzero : (0 : UInt8) ∉ dbname)
    (hdescription : isDescriptionTns dbname = false) (hname : dbname ∉ entries.map Entry.name)
    (hmore : skipBlanks more = []) (hpieces : ∀ p ∈ pieces, p ≠ [])
    (hfile : pieces.flatten = entries.flatMap Entry.text ++ more) :
    lookup dbname pieces = some ⟨0, false, ⟨none, 0⟩⟩ := by
  obtain ⟨p, s, text, n, hat, heq, hret, heof, -, hrest⟩ :=
    lookup_behind hskip hzero hdescription hname hpieces hfile
  obtain ⟨p1, s1, hrun, hret1⟩ := end_runs hat hret (heq.trans hmore)
  have hne : p1.ret ≠ 0 := by
    rw [hret1]
    exact tnsNoData_ne
  have hentry : Runs (tnsEntry (pieces.flatten.length + 2) dbname (p, false, ⟨none, 0⟩)) s (p1, false, ⟨none, 0⟩) s1 := by
    refine runs_bind hrun ?_
    rw [tnsParse_failed hne, Dialogue.done_bind, if_pos hne]
    rfl
  rw [hrest _ _ _ s1 (runs_loop_step (decide_eq_true ⟨hret, heof.1, rfl⟩) hentry
    (runs_loop_done _ n s1 (decide_eq_false fun hcond => hne hcond.1))), closeLookup, if_neg hne, if_pos hret1]

end Files

/-- A printed description is a group. -/
theorem group_of_prints {t : DescriptionTree} {pair : List UInt8}
    (h : PrintsPair [.description] (descriptionForm.Prints t.entries) pair) (service : Service) (rest : List UInt8) :
    Step ShortKey (serviceRead ShortKey) (service, pair ++ rest)
      ({ service with description := service.description ++ [t.value] }, rest) := by
  refine step_of_prints h ?_ rest
  intro keyType hkeyType v tail hv _
  obtain rfl := mem_singleton.1 hkeyType
  refine ⟨t.value, ?_, rfl⟩
  rw [← t.storeAll_entries]
  exact descriptionForm_reads.node t.entries_ne_nil (show HasFirstList .init from cons_ne_nil _ _)
    (fun _ h => t.connectDataDue h) hv tail

/-- An entry with one description. -/
def sampleEntry (name : String) : Entry := ⟨ascii name, ascii name ++ 61 :: samplePair⟩

theorem sampleEntry_named {name : String} (hplain : PlainWord name) (hzero : (0 : UInt8) ∉ ascii name)
    (hdescription : isDescriptionTns (ascii name) = false)
    (hreserved : strncasecmpSame (ascii "OBCISYSTEMVARIABLES") (ascii name) (ascii name).length = false) :
    (sampleEntry name).Named samplePair := by
  have hgap := gap_nil
  have hname : IsWord (ascii name) name := rfl
  obtain ⟨hkey, hshort⟩ := key_word hgap hname hplain (delimits_gap hgap (show IsDelimiter 61 by decide) samplePair)
  exact ⟨⟨_, hkey, sign_gap hgap (show ¬IsBlank 61 by decide) (by decide) samplePair⟩, hshort, hzero,
    hdescription, hreserved⟩

theorem sampleEntry_reads {name : String} (h : (sampleEntry name).Named samplePair) :
    ∃ service, (sampleEntry name).Reads service := by
  have hgroup := group_of_prints samplePair_prints (Service.init (ascii name) (ascii name).length) []
  rw [append_nil] at hgroup
  exact ⟨_, _, [], h, .single hgroup, rfl⟩

theorem sampleEntry_skippable {name : String} (h : (sampleEntry name).Named samplePair) :
    (sampleEntry name).Skippable :=
  ⟨_, samplePair.tail, [], h, ⟨by decide +kernel, by decide +kernel⟩, by decide +kernel, rfl⟩

/-- An entry that cannot be read. -/
def brokenEntry : List UInt8 := ascii "\nC=(DESCRIPTION="

/-- Entries that are accepted when they are alone. -/
def twoDescriptions : List UInt8 := ascii "A=(DESCRIPTION=(ADDRESS=(HOST=h)))(DESCRIPTION=(ADDRESS=(HOST=i)))\n"

def quotedParenthesis : List UInt8 := ascii "A=(DESCRIPTION=(ADDRESS=(HOST=\"(\")))\n"

def commentedParenthesis : List UInt8 := ascii "A=(DESCRIPTION=(ADDRESS=(HOST=h)) # (\n)\n"

def reservedBeginning : List UInt8 := ascii "OB=(SESSION_VARIABLE=x)\n"

def lastEntry : List UInt8 := ascii "B=(DESCRIPTION=(ADDRESS=(HOST=h)))\n"

end ObConnector.Tns
