/-
# ObConnector.Tns.Malformed -- what is not well-formed is refused, but for connect data.

A description string that is found is a well-formed one, or the first of its pairs that is not well-formed
has the key `CONNECT_DATA` (`buildDescription_sound`): `ObClientConnectDataBuild` loses its error, and what
it has passed over is missing from the description. The same holds for the first `DESCRIPTION` of an entry
of a tnsnames file. A later one may also lack a closing parenthesis: `ObClientTnsServiceBuild` takes its
failure for the end of the entry.
-/
import ObConnector.Tns.Chunking
import ObConnector.Tns.Complete

namespace ObConnector.Tns

open Lib
open Relation (ReflTransGen TransGen)

/-! ## Descriptions -/

/-- The pair with connect data is not a well-formed one with its closing parenthesis, or not the first one. -/
def FaultyConnectData (keyType : KeyType) (x : Place Description) : Prop :=
  keyType = .connectData ∧
    ¬∃ des t₁ t₂, descriptionRead ShortKey .connectData x (des, t₁) ∧ Sign .rightParentheses t₁ t₂

/-- The first pair of a description that is not well-formed is connect data. -/
def FaultyFirst (text : List UInt8) : Prop :=
  Conceals (descriptionRead AnyKey) FaultyConnectData (Description.init, text)

variable {s' : ParseParams Buffered}

/-- What becomes of a value in its parent. -/
theorem Led.map {β γ : Type} {read : Place β → Place β → Prop} {read' : Place γ → Place γ → Prop} {x : Place β}
    {x' : Place γ} {p' : Params} {b' : β} {c' : γ} (h : Led read x p' b' s')
    (hread : ∀ t, read x (b', t) → read' x' (c', t)) : Led read' x' p' c' s' := by
  rcases h with ⟨text', t, hat, hret, hx, heq⟩ | hbroken | hfailed
  · exact .inl ⟨text', t, hat, hret, hread t hx, heq⟩
  · exact .inr (.inl hbroken)
  · exact .inr (.inr hfailed)

/-- An error keeps being one. -/
theorem Led.judged {β : Type} {read : Place β → Place β → Prop} {x : Place β} {p' : Params} {b' : β}
    (h : Led read x p' b' s') : Led read x (if p'.ret ≠ 0 then { p' with ret := -1 } else p') b' s' := by
  by_cases hret : p'.ret = 0
  · rwa [if_neg (not_not.2 hret)]
  rw [if_pos hret]
  rcases h with ⟨_, _, _, hok, _⟩ | ⟨hok, _⟩ | ⟨-, htype⟩
  · exact absurd hok hret
  · exact absurd hok hret
  · exact .inr (.inr ⟨show (-1) ≠ 0 by decide, htype⟩)

section Description

variable {fuel limit : Nat} {s s' : ParseParams Buffered} {p p' : Params} {text : List UInt8}

/-- Connect data that are well-formed are read; of all others nothing is known. -/
theorem connectDataBuild_sound (hfuel : limit + 2 ≤ fuel) {des des' : Description} (h : At s p text)
    (hlen : text.length ≤ limit) (htype : p.tnsTokenType ≠ .rightParentheses)
    (hrun : Runs (connectDataBuild fuel p des) s (p', des') s') :
    Led (descriptionRead AnyKey .connectData) (des, text) p' des' s' ∨ FaultyConnectData .connectData (des, text) := by
  rw [or_iff_not_imp_right]
  intro hgood
  obtain ⟨des1, t₁, t₂, ⟨hfirst, data, hreads, -⟩, hright⟩ := not_not.1 fun hnot => hgood ⟨rfl, hnot⟩
  rw [connectDataBuild_eq] at hrun
  obtain ⟨⟨p1, c⟩, hloop, hclose⟩ := runs_map_iff.1 hrun
  -- the loop stops behind a closing parenthesis, since it does so on the well-formed pairs
  have hend : tokenAt t₁ ≠ some .leftParentheses := by
    rw [hright.1]
    decide
  obtain ⟨p2, s2, hloop2, -, htype2⟩ := buildPairs_runs (connectDataKey_complete fuel) h (by omega) hreads hend
  cases hloop.symm.trans hloop2
  rw [closeConnectData, if_pos ⟨htype2, hfirst⟩] at hclose
  cases hclose
  obtain ⟨text', t, hreads, hat, heq, -⟩ | ⟨-, text', hat, hmissing⟩ | hfailed | hfault :=
    buildPairs_spec connectDataKey_sound h hlen htype hloop
  · exact .inl ⟨text', t, hat.with 0 _, rfl, ⟨hfirst, data, hreads, rfl⟩, heq⟩
  · exact .inr (.inl ⟨rfl, htype2, text', hat.with 0 _, hmissing⟩)
  · exact absurd htype2 hfailed
  · exact absurd hfault not_conceals_noFault

theorem firstAddressBuild_sound {des des' : Description} (h : At s p text) (hlen : text.length ≤ limit)
    (htype : p.tnsTokenType ≠ .rightParentheses) (hrun : Runs (firstAddressBuild fuel p des) s (p', des') s') :
    Led (descriptionRead AnyKey .address) (des, text) p' des' s' := by
  obtain ⟨⟨p1, list⟩, s1, hrun, hdone⟩ := runs_bind_iff.1 hrun
  have hled := (closeNode_led addressKey_sound h hlen htype hrun).resolve_right not_conceals_noFault
  cases hdone
  refine hled.judged.map ?_
  rintro t ⟨a, hsteps, hlist⟩
  have hlist : list = _ := hlist
  exact ⟨a, hsteps, by rw [hlist]⟩

/-- **The keys of a description.** -/
theorem descriptionKey_sound (hfuel : limit + 2 ≤ fuel) :
    Sound limit (descriptionKey fuel) (descriptionRead AnyKey) FaultyConnectData := by
  intro s p text b p' b' s' h hlen hret htype hrun
  unfold descriptionKey at hrun
  generalize hkey : p.keyType = keyType at hrun
  cases keyType
  case oblb => exact .inl (parseWord_sound h hret htype hrun)
  case oblbRetryAllDowns => exact .inl (parseInteger_sound h hret htype hrun)
  case oblbRetryTimeout => exact .inl (parseInteger_sound h hret htype hrun)
  case connectTimeout => exact .inl (parseInteger_sound h hret htype hrun)
  case readTimeout => exact .inl (parseInteger_sound h hret htype hrun)
  case writeTimeout => exact .inl (parseInteger_sound h hret htype hrun)
  case oblbStrategy => exact .inl (parseWord_sound h hret htype hrun)
  case oblbGroupStrategy => exact .inl (parseWord_sound h hret htype hrun)
  case oblbBlacklist =>
    obtain ⟨⟨p1, conf⟩, s1, hrun, hdone⟩ := runs_bind_iff.1 hrun
    cases hdone
    refine .inl ((closeInPlace_led (blacklistConfKey_sound fuel) h hlen htype hrun).map ?_)
    rintro t ⟨c, hsteps, hc⟩
    have hc : conf = c := hc
    exact ⟨c, hsteps, by rw [hc]⟩
  case addressList =>
    exact .inl ((closeNode_led (addressListKey_sound fuel) h hlen htype hrun).resolve_right not_conceals_noFault)
  case connectData => exact connectDataBuild_sound hfuel h hlen htype hrun
  case address => exact .inl (firstAddressBuild_sound h hlen htype hrun)
  all_goals exact .inl (unknownKey_led htype hrun)

end Description

/-! ## Description strings and services -/

/-- A description with such a pair. -/
def FaultyDescription (keyType : KeyType) (x : Place Service) : Prop := keyType = .description ∧ FaultyFirst x.2

section Service

variable {fuel limit : Nat} {s s' : ParseParams Buffered} {p p' : Params} {text : List UInt8}

theorem serviceKey_sound (hfuel : limit + 2 ≤ fuel) :
    Sound limit (serviceKey fuel false) (serviceRead AnyKey) FaultyDescription := by
  intro s p text b p' b' s' h hlen hret htype hrun
  unfold serviceKey at hrun
  rw [if_neg Bool.false_ne_true] at hrun
  split at hrun
  · rename_i hkey
    rw [hkey]
    rcases closeNode_led (descriptionKey_sound hfuel) h hlen htype hrun with hled | hfault
    · exact .inl hled
    · exact .inr ⟨rfl, hfault⟩
  · exact .inl (unknownKey_led htype hrun)

/-- A pair of a service is a pair like any other. -/
theorem servicePair_eq (service : Service) (ok : Bool) :
    servicePair fuel false (p, service, ok) = (fun r : Params × Service => (r.1, r.2, ok || r.1.ret = 0)) <$>
      (openPair p >>= fun p => closePair (serviceKey fuel false) p service) := by
  show (tnsParse .leftParentheses p >>= _) =
    ((openPair p >>= fun p => closePair (serviceKey fuel false) p service) >>= fun r =>
      pure (r.1, r.2, ok || r.1.ret = 0))
  rw [openPair, Dialogue.bind_assoc, Dialogue.bind_assoc]
  congr 1
  funext q
  by_cases hret : q.ret = 0
  · rw [if_neg (not_not.2 hret), Dialogue.bind_assoc]
    congr 1
    funext q
    show (tnsParse .equalSign (tnsGetKeyType q) >>= _) = _
    congr 1
    funext q
    rw [closePair, Dialogue.bind_assoc]
    congr 1
    funext r
    rw [Dialogue.bind_assoc]
    rfl
  -- nothing more is read, and the pair does not count
  rw [if_pos hret, tnsParse_failed hret, Dialogue.done_bind, tnsGetKeyType_failed hret, tnsParse_failed hret,
    Dialogue.done_bind, closePair, valueOf_failed hret, Dialogue.pure_bind]
  dsimp only
  rw [tnsParse_failed hret, Dialogue.done_bind, Dialogue.pure_bind, decide_eq_false hret, Bool.or_false]

/-- **No service is built** when its first group is no well-formed description, and has no hidden fault. -/
theorem tnsServiceBuild_refuses (hfuel : limit + 2 ≤ fuel) (h : At s p text) (hlen : text.length ≤ limit)
    (hname : strncasecmpSame (ascii "OBCISYSTEMVARIABLES") p.tnsKey p.tnsKeyLen = false)
    (hmalformed : ∀ service y, ¬Step AnyKey (serviceRead AnyKey) (service, text) y)
    (hfirst : ∀ rest, Opens AnyKey .description text rest → ¬FaultyFirst rest) {tns tns' : ObClientTns}
    (hrun : Runs (tnsServiceBuild fuel p tns) s (p', tns') s') : p'.ret ≠ 0 ∧ tns' = tns := by
  obtain ⟨⟨p1, service1, ok⟩, s1, hloop, hclose⟩ := runs_bind_iff.1 hrun
  rw [hname] at hloop
  obtain ⟨hcond, -⟩ | ⟨-, n, ⟨p2, service2, ok2⟩, s2, -, hbody, hrest⟩ := runs_loop hloop
  · exact absurd rfl (of_decide_eq_false hcond)
  rw [servicePair_eq] at hbody
  obtain ⟨⟨q, service⟩, hpair, hq⟩ := runs_map_iff.1 hbody
  -- the first pair is not read, whatever is wrong with it
  have hret : q.ret ≠ 0 := by
    obtain ⟨-, -, -, hret, -⟩ | ⟨rest, hstep, -⟩ | ⟨hret, -⟩ | ⟨hret, -⟩ | ⟨keyType, t, hopens, rfl, hfault⟩ :=
      pair_spec (serviceKey_sound hfuel) (h.with 0 p.keyType) hlen rfl hpair
    · exact hret
    · exact absurd hstep (hmalformed _ _)
    · exact hret
    · exact hret
    · exact absurd hfault (hfirst t hopens)
  cases hq
  obtain ⟨-, hsame, -⟩ | ⟨hcond, -⟩ := runs_loop hrest
  swap
  · exact absurd (of_decide_eq_true hcond) hret
  cases hsame
  have hnone : ¬((false || decide (q.ret = 0)) = true ∧ q.tnsTokenType = .rightParentheses) := by
    rw [decide_eq_false hret]
    exact fun hok => Bool.false_ne_true hok.1
  dsimp only at hclose
  rw [if_neg hnone] at hclose
  cases hclose
  exact ⟨show (-1) ≠ 0 by decide, rfl⟩

end Service

/-- A failed lookup finds nothing. -/
theorem find_closeLookup {p : Params} (h : p.ret ≠ 0) (find : Bool) (tns : ObClientTns) :
    (closeLookup p find tns).find ≠ true := by
  rw [closeLookup, if_neg h]
  exact Bool.false_ne_true

/-- **A description string that is found is well-formed**, but for the connect data. -/
theorem tnsBuildDes_sound {fuel : Nat} {s : ParseParams Buffered} {text : List UInt8} (h : At s Params.init text)
    (hfuel : text.length + 2 ≤ fuel) (hfirst : ∀ rest, Opens AnyKey .description text rest → ¬FaultyFirst rest)
    {tns : ObClientTns} {o : Outcome} (hrun : Runs (tnsBuildDes fuel tns) s o s') (hfind : o.find = true) :
    ∃ des, DescribedAs AnyKey text des := by
  have hfailure : (-1) ≠ 0 := by decide
  rw [tnsBuildDes_eq] at hrun
  obtain ⟨p1, s1, hopen, hrun⟩ := runs_bind_iff.1 hrun
  unfold describe at hrun
  split at hrun
  · rename_i hret
    cases hrun
    exact absurd hfind (find_closeLookup hret _ _)
  split at hrun
  · cases hrun
    exact absurd hfind (find_closeLookup hfailure _ _)
  rename_i hret hkey
  obtain ⟨-, -, hret1, -⟩ | ⟨t₁, hopens, hat1, hret1, htype1⟩ | ⟨hret1, -⟩ := openPair_spec h rfl hopen
  · exact absurd hret1 hret
  swap
  · exact absurd hret1 hret
  rw [not_not.1 hkey] at hopens
  obtain ⟨⟨p2, service⟩, s2, hbuild, hrun⟩ := runs_bind_iff.1 hrun
  obtain ⟨p3, s3, hclose, hrun⟩ := runs_bind_iff.1 hrun
  obtain ⟨p4, s4, hblank, hrun⟩ := runs_bind_iff.1 hrun
  dsimp only at hrun
  -- it was found, so the closing parenthesis is there and no data behind it
  have hdone : p3.ret = 0 ∧ p4.ret = tnsNoData := by
    by_cases hmore : p3.ret = 0 ∧ p4.ret ≠ tnsNoData
    · rw [if_pos hmore] at hrun
      cases hrun
      exact absurd hfind (find_closeLookup hfailure _ _)
    rw [if_neg hmore] at hrun
    split at hrun
    · rename_i hok
      exact ⟨hok.1, not_not.1 fun hdata => hmore ⟨hok.1, hdata⟩⟩
    cases hrun
    exact absurd hfind (find_closeLookup hfailure _ _)
  have hlen : t₁.length ≤ text.length := h.length_le hat1 hopen
  obtain (⟨text2, t₂, hat2, hret2, ⟨des, hsteps, -⟩, heq⟩ | ⟨hret2, -, text2, hat2, hmissing⟩ | ⟨hret2, -⟩) | hfault :=
    closeNode_led (descriptionKey_sound hfuel) hat1 hlen (by rw [htype1]; decide) hbuild
  · rw [if_neg (not_not.2 hret2)] at hclose
    obtain ⟨-, -, -, ⟨t₃, hright, hat3, -⟩ | ⟨-, -, hret3, -⟩⟩ := sign_spec hat2 hret2 (by decide) hclose
    · obtain ⟨p5, s5, hblank5, hnone⟩ := blank_runs hat3 hdone.1
      cases hblank.symm.trans hblank5
      exact ⟨des, t₁, t₂, t₃, hopens, hsteps, hright.congr heq.symm, hnone.1 hdone.2⟩
    · exact absurd hdone.1 hret3
  · rw [if_neg (not_not.2 hret2)] at hclose
    obtain ⟨-, -, -, ⟨t₃, hright, -⟩ | ⟨-, -, hret3, -⟩⟩ := sign_spec hat2 hret2 (by decide) hclose
    · exact absurd hright.1 hmissing
    · exact absurd hdone.1 hret3
  · rw [if_pos hret2] at hclose
    obtain ⟨rfl, -⟩ := runs_failed hfailure hclose
    exact absurd hdone.1 hfailure
  · exact absurd hfault (hfirst t₁ hopens)

/-- **Malformed text is refused**, as a description string in any pieces and as an entry of a file at any
place, unless the first pair of its description that is not well-formed is the connect data. Of an entry it
is the first description that counts. -/
theorem malformed_rejected (text : List UInt8)
    (hfirst : ∀ rest, Opens AnyKey .description text rest → ¬FaultyFirst rest) :
    (∀ pieces : List (List UInt8), (∀ piece ∈ pieces, piece ≠ []) → pieces.flatten = text →
      (¬∃ des, DescribedAs AnyKey text des) → ∃ o, buildDescription pieces = some o ∧ o.find = false) ∧
    (∀ (s : ParseParams Buffered) (p : Params) (tns : ObClientTns), At s p text →
      strncasecmpSame (ascii "OBCISYSTEMVARIABLES") p.tnsKey p.tnsKeyLen = false →
      (∀ service y, ¬Step AnyKey (serviceRead AnyKey) (service, text) y) →
      ∃ p' s', Runs (tnsServiceBuild (text.length + 2) p tns) s (p', tns) s' ∧ p'.ret ≠ 0) := by
  refine ⟨?_, ?_⟩
  · intro pieces hpieces htext hmalformed
    subst htext
    have hat := at_init hpieces rfl
    have hends : EndsBelow pieceFeed pieces.flatten.length
        (tnsBuildDes (pieces.flatten.length + 2) ⟨none, 0⟩) := ends_tnsBuildDes _
    obtain ⟨⟨o, s'⟩, hrun⟩ := hends (.init ⟨[], pieces⟩) hat.remaining.le
    refine ⟨o, ?_, ?_⟩
    · rw [buildDescription, hrun]
      rfl
    · exact eq_false_of_ne_true fun hfind => hmalformed (tnsBuildDes_sound hat le_rfl hfirst hrun hfind)
  · intro s p tns hat hname hmalformed
    have hends : EndsBelow pieceFeed text.length (tnsServiceBuild (text.length + 2) p tns) := ends_tnsServiceBuild p tns
    obtain ⟨⟨⟨p', tns'⟩, s'⟩, hrun⟩ := hends s hat.remaining.le
    obtain ⟨hret, rfl⟩ := tnsServiceBuild_refuses le_rfl hat le_rfl hname hmalformed hfirst hrun
    exact ⟨p', s', hrun, hret⟩

/-- A description with a key that is none. -/
def unknownKeyText : List UInt8 := ascii "(DESCRIPTION=(FOO=1))"

/-- The text behind its opening. -/
def unknownKeyRest : List UInt8 := ascii "(FOO=1))"

theorem unknownKeyText_opens {keyType : KeyType} {rest : List UInt8}
    (h : Opens AnyKey keyType unknownKeyText rest) : rest = unknownKeyRest := by
  obtain ⟨-, hrest⟩ := h.eq
  rw [hrest]
  decide +kernel

theorem unknownKeyRest_opens (keyType : KeyType) (rest : List UInt8) : ¬Opens AnyKey keyType unknownKeyRest rest := by
  intro h
  obtain ⟨hkeyType, -⟩ := h.eq
  obtain ⟨k, t₁, t₂, -, -, -, -, hknown, -⟩ := h
  refine hknown (hkeyType.trans ?_)
  decide +kernel

theorem unknownKeyRest_step {β : Type} {value : Value β} {b : β} {y : Place β} :
    ¬Step AnyKey value (b, unknownKeyRest) y := fun ⟨_, _, _, hopens, _⟩ => unknownKeyRest_opens _ _ hopens

/-- A description with an unknown key, as a string and behind the name `S` of an entry. -/
theorem unknown_key_rejected : (∃ o, buildDescription [unknownKeyText] = some o ∧ o.find = false) ∧
      ∃ p' s', Runs (tnsServiceBuild (unknownKeyText.length + 2) ⟨0, false, ascii "S", 1, .equalSign, .errorKey⟩
        ⟨none, 0⟩) ⟨⟨[], [unknownKeyText]⟩, false, false, ascii "S", 1, .equalSign⟩ (p', ⟨none, 0⟩) s' ∧ p'.ret ≠ 0 := by
  have hfirst : ∀ rest, Opens AnyKey .description unknownKeyText rest → ¬FaultyFirst rest := by
    rintro rest hopens ⟨keyType, y, t, hsteps, hfault, -⟩
    rw [unknownKeyText_opens hopens] at hsteps
    rcases ReflTransGen.cases_head hsteps with rfl | ⟨z, hstep, -⟩
    · exact unknownKeyRest_opens _ _ hfault
    · exact unknownKeyRest_step hstep
  have hpieces : ∀ piece ∈ [unknownKeyText], piece ≠ [] := by decide +kernel
  obtain ⟨hstring, hentry⟩ := malformed_rejected unknownKeyText hfirst
  refine ⟨hstring [unknownKeyText] hpieces (List.append_nil _) ?_, hentry _ _ _ ?_ (by decide +kernel) ?_⟩
  · rintro ⟨des, t₁, t₂, t₃, hopens, hsteps, -⟩
    rw [unknownKeyText_opens hopens] at hsteps
    obtain ⟨y, hstep, -⟩ := TransGen.head'_iff.1 hsteps
    exact unknownKeyRest_step hstep
  · exact ⟨⟨⟨List.append_nil _, hpieces⟩, .inl rfl⟩, rfl, rfl, rfl⟩
  · rintro service y ⟨keyType, t₁, t₂, hopens, hvalue, -⟩
    obtain rfl := unknownKeyText_opens hopens
    have hkeyType : keyType = .description := by
      have hopens : Opens AnyKey keyType unknownKeyText unknownKeyRest := hopens
      rw [hopens.eq.1]
      decide +kernel
    subst hkeyType
    obtain ⟨des, hsteps, -⟩ := hvalue
    obtain ⟨z, hstep, -⟩ := TransGen.head'_iff.1 hsteps
    exact unknownKeyRest_step hstep

/-- Two connect data. -/
def twoConnectDataText : List UInt8 :=
  ascii "(DESCRIPTION=(ADDRESS=(HOST=h))(CONNECT_DATA=(SID=a))(CONNECT_DATA=(SID=b)))"

/-- Connect data with a value that is no number. -/
def wrongModeFile : List UInt8 :=
  ascii "S=(DESCRIPTION=(ADDRESS=(HOST=h))(CONNECT_DATA=(SID=a)(OB_MODE=1x)))"

/-- A second description whose address is not closed. -/
def unclosedFile : List UInt8 :=
  ascii "S=(DESCRIPTION=(ADDRESS=(HOST=h)))(DESCRIPTION=(ADDRESS=(HOST=i)"

/-- The connect data of the descriptions that were built. -/
def Outcome.connectData (o : Outcome) : List (Option (List UInt8)) :=
  o.descriptions.map fun des => des.connectData.map fun data => data.serviceName.bytes.take data.serviceName.len

/-- Descriptions are found though a part of the text is malformed: the second connect data and connect data with
a fault are dropped, and a second description is taken without its closing parentheses. -/
theorem malformed_parts_accepted : (buildDescription [twoConnectDataText]).map Outcome.find = some true ∧
      (buildDescription [twoConnectDataText]).map Outcome.connectData = some [some (ascii "a")] ∧
      (lookup (ascii "S") [wrongModeFile]).map Outcome.find = some true ∧
      (lookup (ascii "S") [wrongModeFile]).map Outcome.connectData = some [none] ∧
      (lookup (ascii "S") [unclosedFile]).map Outcome.find = some true ∧
      (lookup (ascii "S") [unclosedFile]).map Outcome.connectData = some [none, none] := by
  refine ⟨?_, ?_, ?_, ?_, ?_, ?_⟩ <;> decide +kernel

end ObConnector.Tns
