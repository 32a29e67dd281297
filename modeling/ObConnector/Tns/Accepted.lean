/-
# ObConnector.Tns.Accepted -- what is accepted is well-formed.

Every building function is compared with the relation that gives its values (`Sound`). When it reports
success, the value was well-formed; or else a closing parenthesis is missing right behind what it has read
(`Led`), and then its parent does not get further either. Only `ObClientConnectDataBuild` reports success
when it has failed.
-/
import ObConnector.Tns.Grammar

namespace ObConnector.Tns

open Lib
open Relation (ReflTransGen TransGen)

/-! ## Values that are accepted -/

/-- What a value has led to: it was read; or a closing parenthesis is missing behind it; or it has failed. -/
def Led {β : Type} (read : Place β → Place β → Prop) (x : Place β) (p' : Params) (b' : β)
    (s' : ParseParams Buffered) : Prop :=
  (∃ text' t, At s' p' text' ∧ p'.ret = 0 ∧ read x (b', t) ∧ skipBlanks t = skipBlanks text') ∨
    (p'.ret = 0 ∧ p'.tnsTokenType = .rightParentheses ∧
      ∃ text', At s' p' text' ∧ tokenAt text' ≠ some .rightParentheses) ∨
    (p'.ret ≠ 0 ∧ p'.tnsTokenType ≠ .rightParentheses)

/-- The values that a building function accepts in a text of limited length are those of the relation, but
for faults that cannot be seen in its result. -/
def Sound {β : Type} (limit : Nat) (handle : Params → β → Parsing (Params × β)) (value : Value β)
    (fault : KeyType → Place β → Prop) : Prop :=
  ∀ {s p text b p' b' s'}, At s p text → text.length ≤ limit → p.ret = 0 → p.tnsTokenType ≠ .rightParentheses →
    Runs (handle p b) s (p', b') s' → Led (value p.keyType) (b, text) p' b' s' ∨ fault p.keyType (b, text)

/-- No fault. -/
abbrev noFault {β : Type} (_ : KeyType) (_ : Place β) : Prop := False

section Leaves

variable {β : Type} {s s' : ParseParams Buffered} {p p' : Params} {text : List UInt8} {b b' : β}

/-- A refused key is a failure, whatever is made of it. -/
theorem refused_ne {p1 : Params} (hp : p.tnsTokenType ≠ .rightParentheses)
    (h : p1.tnsTokenType = .key ∨ p1.tnsTokenType = p.tnsTokenType) : p1.tnsTokenType ≠ .rightParentheses := by
  rcases h with h | h
  · rw [h]
    decide
  rw [h]
  exact hp

section

variable (h : At s p text) (hret : p.ret = 0) (htype : p.tnsTokenType ≠ .rightParentheses)
include h hret htype

theorem parseWord_sound {words : List (String × (β → β))} (hrun : Runs (parseWord words p b) s (p', b') s') :
    Led (WordRead AnyKey words) (b, text) p' b' s' := by
  obtain ⟨p1, s1, hkey, hrest⟩ := runs_bind_iff.1 hrun
  obtain ⟨-, ⟨k, t, hk, hat, hret1, htype1, hholds⟩ | ⟨-, hret1, htype1⟩⟩ := key_spec h hret hkey
  · have hfind : (words.find? fun word => p1.keyIs word.1) = words.find? fun word => Begins k word.1 :=
      congrArg (fun f => words.find? f) (funext fun word => hholds.keyIs word.1)
    rw [hfind] at hrest
    cases hw : words.find? fun word => Begins k word.1 with
    | none =>
      rw [hw] at hrest
      cases hrest
      exact .inr (.inr ⟨show (-1) ≠ 0 by decide, by rw [htype1]; decide⟩)
    | some w =>
      rw [hw] at hrest
      cases hrest
      exact .inl ⟨t, t, hat, hret1, ⟨k, w, hk, trivial, hw, rfl⟩, rfl⟩
  cases hw : words.find? fun word => p1.keyIs word.1 with
  | none =>
    rw [hw] at hrest
    cases hrest
    exact .inr (.inr ⟨show (-1) ≠ 0 by decide, refused_ne htype htype1⟩)
  | some w =>
    rw [hw] at hrest
    cases hrest
    exact .inr (.inr ⟨hret1, refused_ne htype htype1⟩)

theorem parseInteger_sound {store : Nat → β → β} (hrun : Runs (parseInteger store p b) s (p', b') s') :
    Led (NumberRead AnyKey store) (b, text) p' b' s' := by
  rw [parseInteger_eq] at hrun
  obtain ⟨p1, s1, hkey, hrest⟩ := runs_bind_iff.1 hrun
  cases hrest
  obtain ⟨-, ⟨k, t, hk, hat, hret1, htype1, hholds⟩ | ⟨-, hret1, htype1⟩⟩ := key_spec h hret hkey
  · rw [hholds.take, hholds.len]
    by_cases hused : k.length ≠ (strtoll k).2
    · rw [if_pos hused]
      exact .inr (.inr ⟨show (-1) ≠ 0 by decide, show p1.tnsTokenType ≠ _ by rw [htype1]; decide⟩)
    rw [if_neg hused]
    exact .inl ⟨t, t, hat, hret1, ⟨k, hk, trivial, (not_not.1 hused).symm, rfl⟩, rfl⟩
  split
  · exact .inr (.inr ⟨show (-1) ≠ 0 by decide, refused_ne htype htype1⟩)
  · exact .inr (.inr ⟨hret1, refused_ne htype htype1⟩)

theorem parseString_sound {limit : Nat} {store : (Text → Text) → β → β}
    (hrun : Runs (parseString limit store p b) s (p', b') s') :
    Led (TextRead AnyKey limit store) (b, text) p' b' s' ∧ p'.tnsTokenType ≠ .rightParentheses := by
  obtain ⟨p1, s1, hkey, hrest⟩ := runs_bind_iff.1 hrun
  obtain ⟨-, ⟨k, t, hk, hat, hret1, htype1, hholds⟩ | ⟨-, hret1, htype1⟩⟩ := key_spec h hret hkey
  · obtain ⟨old, hbytes⟩ := hholds.bytes
    rw [hbytes, hholds.len, strncpy_append] at hrest
    by_cases hlimit : k.length ≤ limit
    · rw [if_pos ⟨hret1, hlimit⟩] at hrest
      cases hrest
      exact ⟨.inl ⟨t, t, hat, hret1, ⟨k, hk, trivial, by rw [if_pos hlimit]⟩, rfl⟩, by rw [htype1]; decide⟩
    rw [if_neg fun hguard => hlimit hguard.2] at hrest
    cases hrest
    exact ⟨.inl ⟨t, t, hat, hret1, ⟨k, hk, trivial, by rw [if_neg hlimit]⟩, rfl⟩, by rw [htype1]; decide⟩
  · rw [if_neg fun hguard => hret1 hguard.1] at hrest
    cases hrest
    exact ⟨.inr (.inr ⟨hret1, refused_ne htype htype1⟩), refused_ne htype htype1⟩

end

end Leaves

/-! ## Pairs that are accepted -/

section Pairs

variable {β : Type} {handle : Params → β → Parsing (Params × β)} {value : Value β}
  {fault : KeyType → Place β → Prop} {limit : Nat} {s s' : ParseParams Buffered} {p p' : Params} {text : List UInt8}
  {b b' : β}

theorem runs_failed {t : TokenType} (hret : p.ret ≠ 0) (hrun : Runs (tnsParse t p) s p' s') : p' = p ∧ s' = s := by
  rw [tnsParse_failed hret] at hrun
  cases hrun
  exact ⟨rfl, rfl⟩

/-- `(KEY=` in the loop of a building function. -/
def openPair (p : Params) : Parsing Params := do
  let p ← tnsParse .leftParentheses p
  let p ← tnsParse .key p
  tnsParse .equalSign (tnsGetKeyType p)

/-- The value and the closing parenthesis. -/
def closePair (handle : Params → β → Parsing (Params × β)) (p : Params) (b : β) : Parsing (Params × β) := do
  let (p, b) ← valueOf handle p b
  let p ← tnsParse .rightParentheses p
  return (p, b)

theorem buildPairs_eq (fuel : Nat) (handle : Params → β → Parsing (Params × β)) (p : Params) (b : β) :
    buildPairs fuel handle p b = Dialogue.loop (fun s => s.1.ret = 0)
      (fun s => openPair s.1 >>= fun p => closePair handle p s.2) fuel ({ p with ret := 0 }, b) := by
  rw [buildPairs]
  congr 1
  funext s
  rw [openPair, Dialogue.bind_assoc]
  congr 1
  funext p
  rw [Dialogue.bind_assoc]
  rfl

/-- A pair with a fault, reached by well-formed pairs. -/
def Conceals {β : Type} (value : Value β) (fault : KeyType → Place β → Prop) (x : Place β) : Prop :=
  ∃ keyType y t, ReflTransGen (Step AnyKey value) x y ∧ Opens AnyKey keyType y.2 t ∧ fault keyType (y.1, t)

theorem not_conceals_noFault {x : Place β} : ¬Conceals value noFault x :=
  fun ⟨_, _, _, _, _, hfault⟩ => hfault

theorem Conceals.head {x y : Place β} (hstep : Step AnyKey value x y) (h : Conceals value fault y) :
    Conceals value fault x := by
  obtain ⟨keyType, z, t, hreads, hfault⟩ := h
  exact ⟨keyType, z, t, hreads.head hstep, hfault⟩

/-- A closing parenthesis is missing behind the last one. -/
def Missing (p' : Params) (s' : ParseParams Buffered) : Prop :=
  p'.tnsTokenType = .rightParentheses ∧ ∃ text', At s' p' text' ∧ tokenAt text' ≠ some .rightParentheses

/-- The opening of a pair: there is none; or it is read; or it is wrong. -/
theorem openPair_spec (h : At s p text) (hret : p.ret = 0) (hrun : Runs (openPair p) s p' s') :
    (tokenAt text ≠ some .leftParentheses ∧ At s' p' (skipBlanks text) ∧ p'.ret ≠ 0 ∧
        p'.tnsTokenType = p.tnsTokenType) ∨
      (∃ rest, Opens AnyKey p'.keyType text rest ∧ At s' p' rest ∧ p'.ret = 0 ∧ p'.tnsTokenType = .equalSign) ∨
      (p'.ret ≠ 0 ∧ p'.tnsTokenType ≠ .rightParentheses) := by
  obtain ⟨p1, s1, hleft, hrun⟩ := runs_bind_iff.1 hrun
  obtain ⟨p2, s2, hkey, hequal⟩ := runs_bind_iff.1 hrun
  obtain ⟨-, -, -, ⟨t1, hsign1, hat1, hret1, htype1⟩ | ⟨hnone, hat1, hret1, htype1⟩⟩ :=
    sign_spec h hret (by decide) hleft
  swap
  · obtain ⟨rfl, rfl⟩ := runs_failed hret1 hkey
    rw [tnsGetKeyType_failed hret1] at hequal
    obtain ⟨rfl, rfl⟩ := runs_failed hret1 hequal
    exact .inl ⟨hnone, hat1, hret1, htype1⟩
  obtain ⟨-, ⟨k, t2, hk, hat2, hret2, htype2, hholds⟩ | ⟨-, hret2, htype2⟩⟩ := key_spec hat1 hret1 hkey
  swap
  · rw [tnsGetKeyType_failed hret2] at hequal
    obtain ⟨rfl, rfl⟩ := runs_failed hret2 hequal
    exact .inr (.inr ⟨hret2, refused_ne (by rw [htype1]; decide) htype2⟩)
  by_cases herror : keyTypeOf k = .errorKey
  · have hget : tnsGetKeyType p2 = { p2 with keyType := getKeyType p2, ret := -1 } := by
      rw [tnsGetKeyType, if_neg (not_not.2 hret2)]
      exact if_pos (hholds.getKeyType.trans herror)
    rw [hget] at hequal
    obtain ⟨rfl, rfl⟩ := runs_failed (show (-1) ≠ 0 by decide) hequal
    exact .inr (.inr ⟨show (-1) ≠ 0 by decide, show p2.tnsTokenType ≠ _ by rw [htype2]; decide⟩)
  have hget : tnsGetKeyType p2 = { p2 with keyType := keyTypeOf k } := by
    rw [tnsGetKeyType, if_neg (not_not.2 hret2), hholds.getKeyType]
    exact if_neg herror
  rw [hget] at hequal
  have hat2 : At s2 { p2 with keyType := keyTypeOf k } t2 := hat2.with p2.ret _
  obtain ⟨hkt, -, -, ⟨t3, hsign3, hat3, hret3, htype3⟩ | ⟨-, -, hret3, htype3⟩⟩ :=
    sign_spec hat2 hret2 (by decide) hequal
  · refine .inr (.inl ⟨t3, ?_, hat3, hret3, htype3⟩)
    rw [hkt]
    exact ⟨k, t1, t2, hsign1, hk, trivial, rfl, herror, hsign3⟩
  · exact .inr (.inr ⟨hret3, by rw [htype3, htype2]; decide⟩)

/-- **A pair**: there is none; or it is read; or its closing parenthesis is missing; or it is wrong; or it
has a hidden fault. -/
theorem pair_spec (hsound : Sound limit handle value fault) (h : At s p text) (hlen : text.length ≤ limit) (hret : p.ret = 0)
    (hrun : Runs (openPair p >>= fun p => closePair handle p b) s (p', b') s') :
    (tokenAt text ≠ some .leftParentheses ∧ b' = b ∧ At s' p' (skipBlanks text) ∧ p'.ret ≠ 0 ∧
        p'.tnsTokenType = p.tnsTokenType) ∨
      (∃ rest, Step AnyKey value (b, text) (b', rest) ∧ At s' p' rest ∧ p'.ret = 0 ∧
        p'.tnsTokenType = .rightParentheses) ∨
      (p'.ret ≠ 0 ∧ Missing p' s') ∨ (p'.ret ≠ 0 ∧ p'.tnsTokenType ≠ .rightParentheses) ∨
      (∃ keyType t, Opens AnyKey keyType text t ∧ fault keyType (b, t)) := by
  obtain ⟨p1, s1, hopen, hclose⟩ := runs_bind_iff.1 hrun
  obtain ⟨⟨p2, b2⟩, s2, hvalue, hclose⟩ := runs_bind_iff.1 hclose
  obtain ⟨p3, s3, hright, hdone⟩ := runs_bind_iff.1 hclose
  cases hdone
  -- what has failed stays as it is
  have hskip : p1.ret ≠ 0 → p' = p1 ∧ b' = b ∧ s' = s1 := by
    intro hret1
    rw [valueOf_failed hret1] at hvalue
    cases hvalue
    obtain ⟨rfl, rfl⟩ := runs_failed hret1 hright
    exact ⟨rfl, rfl, rfl⟩
  obtain ⟨hnone, hat1, hret1, htype1⟩ | ⟨t1, hopens, hat1, hret1, htype1⟩ | ⟨hret1, htype1⟩ :=
    openPair_spec h hret hopen
  · obtain ⟨rfl, rfl, rfl⟩ := hskip hret1
    exact .inl ⟨hnone, rfl, hat1, hret1, htype1⟩
  · have hvalue : Runs (handle p1 b) s1 (p2, b') s2 := by
      rwa [valueOf, if_pos hret1] at hvalue
    obtain (⟨text2, t2, hat2, hret2, hread, heq⟩ | ⟨hret2, htype2, text2, hat2, hmissing⟩ | ⟨hret2, htype2⟩) | hfault :=
      hsound hat1 ((h.length_le hat1 hopen).trans hlen) hret1 (by rw [htype1]; decide) hvalue
    · obtain ⟨-, -, -, ⟨t3, hsign3, hat3, hret3, htype3⟩ | ⟨hmissing, hat3, hret3, htype3⟩⟩ :=
        sign_spec hat2 hret2 (by decide) hright
      · exact .inr (.inl ⟨t3, ⟨_, t1, t2, hopens, hread, hsign3.congr heq.symm⟩, hat3, hret3, htype3⟩)
      by_cases htype : p'.tnsTokenType = .rightParentheses
      · exact .inr (.inr (.inl ⟨hret3, htype, _, hat3, by rwa [tokenAt_skipBlanks]⟩))
      · exact .inr (.inr (.inr (.inl ⟨hret3, htype⟩)))
    · obtain ⟨-, -, -, ⟨t3, hsign3, -⟩ | ⟨hmissing, hat3, hret3, htype3⟩⟩ := sign_spec hat2 hret2 (by decide) hright
      · exact absurd hsign3.1 hmissing
      · exact .inr (.inr (.inl ⟨hret3, htype3.trans htype2, _, hat3, by rwa [tokenAt_skipBlanks]⟩))
    · obtain ⟨rfl, rfl⟩ := runs_failed hret2 hright
      exact .inr (.inr (.inr (.inl ⟨hret2, htype2⟩)))
    · exact .inr (.inr (.inr (.inr ⟨_, t1, hopens, hfault⟩)))
  · obtain ⟨rfl, rfl, rfl⟩ := hskip hret1
    exact .inr (.inr (.inr (.inl ⟨hret1, htype1⟩)))

/-- The rounds of a loop: one, and the rest. -/
theorem runs_loop {α : Type} {cond : α → Bool} {body : α → Parsing α} {n : Nat} {a c : α}
    (hrun : Runs (Dialogue.loop cond body n a) s c s') :
    (cond a = false ∧ c = a ∧ s' = s) ∨
      cond a = true ∧ ∃ n' a' s1, n = n' + 1 ∧ Runs (body a) s a' s1 ∧ Runs (Dialogue.loop cond body n' a') s1 c s' := by
  cases n with
  | zero => cases hrun
  | succ n =>
    rw [Dialogue.loop] at hrun
    split at hrun
    · rename_i hcond
      obtain ⟨a', s1, hbody, hrest⟩ := runs_bind_iff.1 hrun
      exact .inr ⟨hcond, n, a', s1, rfl, hbody, hrest⟩
    rename_i hcond
    cases hrun
    exact .inl ⟨by simpa using hcond, rfl, rfl⟩

/-- **A node**: the pairs were read up to something that is no pair; or a closing parenthesis is missing
behind the last one; or it is wrong; or a pair has a hidden fault. -/
theorem buildPairs_spec (hsound : Sound limit handle value fault) {fuel : Nat} (h : At s p text) (hlen : text.length ≤ limit)
    (htype : p.tnsTokenType ≠ .rightParentheses) (hrun : Runs (buildPairs fuel handle p b) s (p', b') s') :
    (∃ text' t, TransGen (Step AnyKey value) (b, text) (b', t) ∧ At s' p' text' ∧ skipBlanks t = skipBlanks text' ∧
        p'.tnsTokenType = .rightParentheses) ∨
      Missing p' s' ∨ p'.tnsTokenType ≠ .rightParentheses ∨ Conceals value fault (b, text) := by
  -- the loop may already have read some pairs, and then the last token is a closing parenthesis
  have hloop : ∀ fuel {p b text s}, At s p text → text.length ≤ limit → p.ret = 0 →
      Runs (Dialogue.loop (fun s : Params × β => decide (s.1.ret = 0))
        (fun s => openPair s.1 >>= fun p => closePair handle p s.2) fuel (p, b)) s (p', b') s' →
      (∃ text' t, ReflTransGen (Step AnyKey value) (b, text) (b', t) ∧ At s' p' text' ∧ skipBlanks t = skipBlanks text' ∧
          ((b, text) = (b', t) ∧ p'.tnsTokenType = p.tnsTokenType ∨
            TransGen (Step AnyKey value) (b, text) (b', t) ∧ p'.tnsTokenType = .rightParentheses)) ∨
        Missing p' s' ∨ p'.tnsTokenType ≠ .rightParentheses ∨ Conceals value fault (b, text) := by
    intro fuel
    induction fuel with
    | zero =>
      intro p b text s _ _ _ hrun
      cases hrun
    | succ fuel ih =>
      intro p b text s hat hlen hret hrun
      obtain ⟨hcond, -⟩ | ⟨-, n, ⟨p1, b1⟩, s1, hn, hbody, hrest⟩ := runs_loop hrun
      · exact absurd hret (of_decide_eq_false hcond)
      obtain rfl := Nat.succ.inj hn
      have hstop : p1.ret ≠ 0 → p' = p1 ∧ b' = b1 ∧ s' = s1 := by
        intro hret1
        obtain ⟨-, heq, hs⟩ | ⟨hcond, -⟩ := runs_loop hrest
        · cases heq
          exact ⟨rfl, rfl, hs⟩
        · exact absurd (of_decide_eq_true hcond) hret1
      obtain ⟨hnone, rfl, hat1, hret1, htype1⟩ | ⟨t1, hstep, hat1, hret1, htype1⟩ | ⟨hret1, hmissing⟩ |
        ⟨hret1, htype1⟩ | ⟨keyType, t, hopens, hfault⟩ := pair_spec hsound hat hlen hret hbody
      · obtain ⟨rfl, rfl, rfl⟩ := hstop hret1
        exact .inl ⟨_, text, .refl, hat1, (skipBlanks_skipBlanks text).symm, .inl ⟨rfl, htype1⟩⟩
      · obtain ⟨text', t, hreads, hat', heq, hlast⟩ | hbroken | hfailed | hfault :=
          ih hat1 ((hat.length_le hat1 hbody).trans hlen) hret1 hrest
        · refine .inl ⟨text', t, hreads.head hstep, hat', heq, .inr ?_⟩
          rcases hlast with ⟨hsame, htype'⟩ | ⟨htrans, htype'⟩
          · rw [hsame] at hstep
            exact ⟨.single hstep, htype'.trans htype1⟩
          · exact ⟨.head hstep htrans, htype'⟩
        · exact .inr (.inl hbroken)
        · exact .inr (.inr (.inl hfailed))
        · exact .inr (.inr (.inr (hfault.head hstep)))
      · obtain ⟨rfl, rfl, rfl⟩ := hstop hret1
        exact .inr (.inl hmissing)
      · obtain ⟨rfl, rfl, rfl⟩ := hstop hret1
        exact .inr (.inr (.inl htype1))
      · exact .inr (.inr (.inr ⟨keyType, (b, text), t, .refl, hopens, hfault⟩))
  rw [buildPairs_eq] at hrun
  obtain ⟨text', t, -, hat', heq, ⟨-, htype'⟩ | ⟨htrans, htype'⟩⟩ | hbroken | hfailed | hfault :=
    hloop fuel (h.with 0 p.keyType) hlen rfl hrun
  · exact .inr (.inr (.inl (by rw [htype']; exact htype)))
  · exact .inl ⟨text', t, htrans, hat', heq, htype'⟩
  · exact .inr (.inl hbroken)
  · exact .inr (.inr (.inl hfailed))
  · exact .inr (.inr (.inr hfault))

end Pairs

/-! ## The building functions -/

section Nodes

variable {β γ : Type} {handle : Params → γ → Parsing (Params × γ)} {value : Value γ} {limit : Nat} {s s' : ParseParams Buffered}
  {p p' : Params} {text : List UInt8} {b b' : β}

/-- A node whose end is judged by its last token. -/
theorem node_led {fault : KeyType → Place γ → Prop} (hsound : Sound limit handle value fault) {fuel : Nat}
    {init : β → γ} {keep : γ → β → β} {close : Params × γ → Params × β}
    (hok : ∀ p c, p.tnsTokenType = .rightParentheses → close (p, c) = ({ p with ret := 0 }, keep c b))
    (hfail : ∀ p c, p.tnsTokenType ≠ .rightParentheses → (close (p, c)).1 = { p with ret := -1 })
    (h : At s p text) (hlen : text.length ≤ limit) (htype : p.tnsTokenType ≠ .rightParentheses)
    (hrun : Runs (close <$> buildPairs fuel handle p (init b)) s (p', b') s') :
    Led (NodeRead AnyKey value init keep) (b, text) p' b' s' ∨ Conceals value fault (init b, text) := by
  obtain ⟨⟨p1, c⟩, hrun, hclose⟩ := runs_map_iff.1 hrun
  obtain ⟨text', t, hreads, hat, heq, htype1⟩ | ⟨htype1, text', hat, hmissing⟩ | htype1 | hfault :=
    buildPairs_spec hsound h hlen htype hrun
  · cases hclose.trans (hok p1 c htype1)
    exact .inl (.inl ⟨text', t, hat.with 0 _, rfl, ⟨c, hreads, rfl⟩, heq⟩)
  · cases hclose.trans (hok p1 c htype1)
    exact .inl (.inr (.inl ⟨rfl, htype1, text', hat.with 0 _, hmissing⟩))
  · have hp' : p' = { p1 with ret := -1 } := (congrArg Prod.fst hclose).trans (hfail p1 c htype1)
    subst hp'
    exact .inl (.inr (.inr ⟨show (-1) ≠ 0 by decide, htype1⟩))
  · exact .inr hfault

theorem closeNode_led {fault : KeyType → Place γ → Prop} (hsound : Sound limit handle value fault) {fuel : Nat}
    {init : γ} {keep : γ → β → β} (h : At s p text) (hlen : text.length ≤ limit) (htype : p.tnsTokenType ≠ .rightParentheses)
    (hrun : Runs (closeNode keep b <$> buildPairs fuel handle p init) s (p', b') s') :
    Led (NodeRead AnyKey value (fun _ => init) keep) (b, text) p' b' s' ∨ Conceals value fault (init, text) :=
  node_led hsound (fun _ _ htype => if_pos htype) (fun _ _ htype => congrArg Prod.fst (if_neg htype)) h
    hlen htype hrun

theorem closeInPlace_led {b b' : γ} (hsound : Sound limit handle value noFault) {fuel : Nat} (h : At s p text)
    (hlen : text.length ≤ limit) (htype : p.tnsTokenType ≠ .rightParentheses)
    (hrun : Runs (closeInPlace <$> buildPairs fuel handle p b) s (p', b') s') :
    Led (NodeRead AnyKey value id fun c _ => c) (b, text) p' b' s' := by
  refine (node_led hsound (fun p c htype1 => ?_) (fun p c htype1 => ?_) h hlen htype hrun).resolve_right
    not_conceals_noFault
  · rw [closeInPlace, if_pos htype1]
  · rw [closeInPlace, if_neg htype1]

theorem unknownKey_led {read : Place β → Place β → Prop} {x : Place β}
    (htype : p.tnsTokenType ≠ .rightParentheses) (hrun : Runs (unknownKey p b) s (p', b') s') :
    Led read x p' b' s' := by
  cases hrun
  exact .inr (.inr ⟨show (-1) ≠ 0 by decide, htype⟩)

end Nodes

section Keys

variable {limit : Nat}

theorem removeStrategyKey_sound : Sound limit removeStrategyKey (removeStrategyRead AnyKey) noFault := by
  intro s p text b p' b' s' h hlen hret htype hrun
  refine .inl ?_
  unfold removeStrategyKey at hrun
  generalize p.keyType = keyType at hrun
  cases keyType
  case name => exact parseWord_sound h hret htype hrun
  case timeout => exact parseInteger_sound h hret htype hrun
  all_goals exact unknownKey_led htype hrun

theorem appendStrategyKey_sound : Sound limit appendStrategyKey (appendStrategyRead AnyKey) noFault := by
  intro s p text b p' b' s' h hlen hret htype hrun
  refine .inl ?_
  unfold appendStrategyKey at hrun
  generalize p.keyType = keyType at hrun
  cases keyType
  case name => exact parseWord_sound h hret htype hrun
  case retryTimes => exact parseInteger_sound h hret htype hrun
  case duration => exact parseInteger_sound h hret htype hrun
  all_goals exact unknownKey_led htype hrun

theorem blacklistConfKey_sound (fuel : Nat) : Sound limit (blacklistConfKey fuel) (blacklistConfRead AnyKey) noFault := by
  intro s p text b p' b' s' h hlen hret htype hrun
  refine .inl ?_
  unfold blacklistConfKey at hrun
  generalize p.keyType = keyType at hrun
  cases keyType
  case removeStrategy => exact closeInPlace_led removeStrategyKey_sound h hlen htype hrun
  case appendStrategy => exact closeInPlace_led appendStrategyKey_sound h hlen htype hrun
  all_goals exact unknownKey_led htype hrun

theorem addressKey_sound : Sound limit addressKey (addressRead AnyKey) noFault := by
  intro s p text b p' b' s' h hlen hret htype hrun
  refine .inl ?_
  unfold addressKey at hrun
  generalize p.keyType = keyType at hrun
  cases keyType
  case protocol =>
    obtain ⟨⟨p1, a⟩, s1, hstring, hjudge⟩ := runs_bind_iff.1 hrun
    cases hjudge
    obtain ⟨hled, htype1⟩ := parseString_sound h hret htype hstring
    -- a protocol that is not known is a failure, and one that is known was there or is there now
    split
    · rename_i hknown
      rcases hled with ⟨text', t, hat, hret1, hread, heq⟩ | ⟨-, hbroken, -⟩ | hfailed
      · exact .inl ⟨text', t, hat, hret1, ⟨hread, hknown⟩, heq⟩
      · exact absurd hbroken htype1
      · exact .inr (.inr hfailed)
    · exact .inr (.inr ⟨show (-1) ≠ 0 by decide, htype1⟩)
  case host => exact (parseString_sound h hret htype hrun).1
  case port => exact parseInteger_sound h hret htype hrun
  case weight => exact parseInteger_sound h hret htype hrun
  all_goals exact unknownKey_led htype hrun

theorem addressListKey_sound (fuel : Nat) : Sound limit (addressListKey fuel) (addressListRead AnyKey) noFault := by
  intro s p text b p' b' s' h hlen hret htype hrun
  refine .inl ?_
  unfold addressListKey at hrun
  generalize p.keyType = keyType at hrun
  cases keyType
  case address => exact (closeNode_led addressKey_sound h hlen htype hrun).resolve_right not_conceals_noFault
  case oblb => exact parseWord_sound h hret htype hrun
  case oblbStrategy => exact parseWord_sound h hret htype hrun
  all_goals exact unknownKey_led htype hrun

theorem connectDataKey_sound : Sound limit connectDataKey (connectDataRead AnyKey) noFault := by
  intro s p text b p' b' s' h hlen hret htype hrun
  refine .inl ?_
  unfold connectDataKey at hrun
  generalize p.keyType = keyType at hrun
  cases keyType
  case serviceName | sid | extraInfo | sessionVariable => exact (parseString_sound h hret htype hrun).1
  case obMode | useDefaultSid | obEnableSsl => exact parseInteger_sound h hret htype hrun
  all_goals exact unknownKey_led htype hrun

end Keys

end ObConnector.Tns
