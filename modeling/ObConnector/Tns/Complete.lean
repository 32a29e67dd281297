/-
# ObConnector.Tns.Complete -- what is well-formed is accepted.

The other direction: a value that the relation of its node admits is read by the building function, and what
is built is what the relation says (`Complete`). The keys and values are the short ones, so the tokenizer
takes them wherever its buffer ends; and the fuel of a loop is more than the text has bytes, since every
pair takes a sign.
-/
import ObConnector.Tns.Accepted

namespace ObConnector.Tns

open Lib
open Relation (ReflTransGen TransGen)

/-! ## Values -/

/-- The value was read, up to blanks. -/
def Taken {β : Type} (m : Parsing (Params × β)) (s : ParseParams Buffered) (y : Place β) : Prop :=
  ∃ p' s' text', Runs m s (p', y.1) s' ∧ p'.ret = 0 ∧ At s' p' text' ∧ skipBlanks text' = skipBlanks y.2

/-- The values of the relation are read by the building function. -/
def Complete {β : Type} (fuel : Nat) (handle : Params → β → Parsing (Params × β)) (value : Value β) : Prop :=
  ∀ {s p text b y}, At s p text → p.ret = 0 → text.length + 2 ≤ fuel → value p.keyType (b, text) y →
    tokenAt y.2 = some .rightParentheses → Taken (handle p b) s y

section Leaves

variable {β : Type} {s : ParseParams Buffered} {p : Params} {text : List UInt8} {b : β} {y : Place β}

theorem parseWord_complete {words : List (String × (β → β))} (h : At s p text) (hret : p.ret = 0)
    (hread : WordRead ShortKey words (b, text) y) : Taken (parseWord words p b) s y := by
  obtain ⟨v, w, hkey, hshort, hfind, hy⟩ := hread
  obtain ⟨p', s', hrun, hat, hret', -, -, hholds⟩ := key_runs h hret hkey hshort
  refine ⟨p', s', y.2, runs_bind hrun ?_, hret', hat, rfl⟩
  have hfind' : (words.find? fun word => p'.keyIs word.1) = some w := by
    rw [← hfind]
    exact congrArg (fun f => words.find? f) (funext fun word => hholds.keyIs word.1)
  rw [hfind', hy]
  rfl

theorem parseInteger_complete {store : Nat → β → β} (h : At s p text) (hret : p.ret = 0)
    (hread : NumberRead ShortKey store (b, text) y) : Taken (parseInteger store p b) s y := by
  obtain ⟨v, hkey, hshort, hused, hy⟩ := hread
  obtain ⟨p', s', hrun, hat, hret', -, -, hholds⟩ := key_runs h hret hkey hshort
  rw [parseInteger_eq]
  refine ⟨p', s', y.2, runs_bind hrun ?_, hret', hat, rfl⟩
  rw [hholds.take, hholds.len, if_neg (not_not.2 hused.symm), hy]
  rfl

theorem parseString_complete {limit : Nat} {store : (Text → Text) → β → β} (h : At s p text) (hret : p.ret = 0)
    (hread : TextRead ShortKey limit store (b, text) y) : Taken (parseString limit store p b) s y := by
  obtain ⟨v, hkey, hshort, hy⟩ := hread
  obtain ⟨p', s', hrun, hat, hret', -, -, hholds⟩ := key_runs h hret hkey hshort
  refine ⟨p', s', y.2, runs_bind hrun ?_, hret', hat, rfl⟩
  obtain ⟨old, hbytes⟩ := hholds.bytes
  rw [hbytes, hholds.len, strncpy_append, hy]
  by_cases hlimit : v.length ≤ limit
  · rw [if_pos ⟨hret', hlimit⟩, if_pos hlimit]
    rfl
  rw [if_neg fun hguard => hlimit hguard.2, if_neg hlimit]
  rfl

end Leaves

/-! ## Pairs and nodes -/

section Pairs

variable {β : Type} {handle : Params → β → Parsing (Params × β)} {value : Value β} {fuel : Nat}
  {s : ParseParams Buffered} {p : Params} {text : List UInt8} {b : β}

theorem openPair_runs (h : At s p text) (hret : p.ret = 0) {keyType : KeyType} {rest : List UInt8}
    (hopens : Opens ShortKey keyType text rest) :
    ∃ p' s', Runs (openPair p) s p' s' ∧ At s' p' rest ∧ p'.ret = 0 ∧ p'.keyType = keyType ∧
      rest.length < text.length := by
  obtain ⟨k, t1, t2, hleft, hkey, hshort, hkeyType, hknown, hequal⟩ := hopens
  obtain ⟨p1, s1, hrun1, hat1, hret1, -⟩ := sign_runs h hret (by decide) hleft.1
  rw [← hleft.2] at hat1
  obtain ⟨p2, s2, hrun2, hat2, hret2, -, -, hholds⟩ := key_runs hat1 hret1 hkey hshort
  have hget : tnsGetKeyType p2 = { p2 with keyType := keyType } := by
    rw [tnsGetKeyType, if_neg (not_not.2 hret2), hholds.getKeyType, hkeyType]
    exact if_neg hknown
  have hat2' : At s2 { p2 with keyType := keyType } t2 := hat2.with p2.ret _
  obtain ⟨p3, s3, hrun3, hat3, hret3, -, hkt3, -⟩ := sign_runs hat2' hret2 (by decide) hequal.1
  rw [← hequal.2] at hat3
  have hrun : Runs (openPair p) s p3 s3 := by
    refine runs_bind hrun1 (runs_bind hrun2 ?_)
    rw [hget]
    exact hrun3
  refine ⟨p3, s3, hrun, hat3, hret3, hkt3, ?_⟩
  have hlt : t1.length < text.length := by
    have hlt := serve_sign_remaining_lt pieceFeed s (show TokenType.leftParentheses ≠ .key by decide)
    rw [tnsParse, tnsCall, if_pos hret] at hrun1
    cases hrun1
    rw [← h.remaining, ← hat1.remaining]
    exact hlt hret1
  exact lt_of_le_of_lt (le_trans (hat2'.length_le hat3 hrun3) (hat1.length_le hat2 hrun2)) hlt

/-- **A pair is read.** -/
theorem pair_runs (hcomplete : Complete fuel handle value) (h : At s p text) (hret : p.ret = 0)
    (hfuel : text.length + 2 ≤ fuel) {y : Place β} (hstep : Step ShortKey value (b, text) y) :
    ∃ p' s', Runs (openPair p >>= fun p => closePair handle p b) s (p', y.1) s' ∧ At s' p' y.2 ∧ p'.ret = 0 ∧
      p'.tnsTokenType = .rightParentheses ∧ y.2.length < text.length := by
  obtain ⟨keyType, t1, t2, hopens, hvalue, hright⟩ := hstep
  obtain ⟨p1, s1, hrun1, hat1, hret1, rfl, hlt⟩ := openPair_runs h hret hopens
  obtain ⟨p2, s2, text2, hrun2, hret2, hat2, heq⟩ :=
    hcomplete hat1 hret1 (by omega) hvalue hright.1
  have htoken : tokenAt text2 = some .rightParentheses := (tokenAt_congr heq).trans hright.1
  obtain ⟨p3, s3, hrun3, hat3, hret3, htype3, -⟩ := sign_runs hat2 hret2 (by decide) htoken
  rw [heq, ← hright.2] at hat3
  have hclose : Runs (closePair handle p1 b) s1 (p3, y.1) s3 := by
    have hvalue : Runs (valueOf handle p1 b) s1 (p2, y.1) s2 := by
      rw [valueOf, if_pos hret1]
      exact hrun2
    exact runs_bind hvalue (runs_bind hrun3 rfl)
  refine ⟨p3, s3, runs_bind hrun1 hclose, hat3, hret3, htype3, ?_⟩
  · exact lt_of_le_of_lt (le_trans (hat2.length_le hat3 hrun3) (hat1.length_le hat2 hrun2)) hlt

/-- What is no pair is left where it is. -/
theorem no_pair_runs (h : At s p text) (hret : p.ret = 0) (hend : tokenAt text ≠ some .leftParentheses) :
    ∃ p' s', Runs (openPair p >>= fun p => closePair handle p b) s (p', b) s' ∧ At s' p' (skipBlanks text) ∧
      p'.ret ≠ 0 ∧ p'.tnsTokenType = p.tnsTokenType := by
  obtain ⟨p1, s1, hrun1, hat1, hret1, htype1, -⟩ := other_runs h hret hend
  have hkey : Runs (tnsParse .key p1) s1 p1 s1 := by rw [tnsParse_failed hret1]; rfl
  have hequal : Runs (tnsParse .equalSign (tnsGetKeyType p1)) s1 p1 s1 := by
    rw [tnsGetKeyType_failed hret1, tnsParse_failed hret1]
    rfl
  have hvalue : Runs (valueOf handle p1 b) s1 (p1, b) s1 := by rw [valueOf_failed hret1]; rfl
  have hright : Runs (tnsParse .rightParentheses p1) s1 p1 s1 := by rw [tnsParse_failed hret1]; rfl
  have hopen : Runs (openPair p) s p1 s1 := runs_bind hrun1 (runs_bind hkey hequal)
  exact ⟨p1, s1, runs_bind hopen (runs_bind hvalue (runs_bind hright rfl)), hat1, hret1, htype1⟩

theorem runs_loop_step {α : Type} {cond : α → Bool} {body : α → Parsing α} {n : Nat} {a a' c : α}
    {s1 s' : ParseParams Buffered} (hcond : cond a = true) (hbody : Runs (body a) s a' s1)
    (hrest : Runs (Dialogue.loop cond body n a') s1 c s') : Runs (Dialogue.loop cond body (n + 1) a) s c s' := by
  rw [Dialogue.loop, if_pos hcond]
  exact runs_bind hbody hrest

theorem runs_loop_done {α : Type} {cond : α → Bool} (body : α → Parsing α) (n : Nat) {a : α}
    (s : ParseParams Buffered) (hcond : cond a = false) : Runs (Dialogue.loop cond body (n + 1) a) s a s := by
  rw [Dialogue.loop, if_neg (by rw [hcond]; exact Bool.false_ne_true)]
  rfl

/-- The rounds of a loop over pairs, from any pair on and with enough of them left for the rest of the text. The
loop may carry more than the node: `carry`. -/
theorem pairLoop_runs (hcomplete : Complete fuel handle value) {δ : Type} (carry : β → δ)
    {g : Params × δ → Parsing (Params × δ)}
    (hround : ∀ {s p b r s'}, Runs (openPair p >>= fun p => closePair handle p b) s r s' →
      Runs (g (p, carry b)) s (r.1, carry r.2) s') {x y : Place β}
    (hsteps : ReflTransGen (Step ShortKey value) x y) (hend : tokenAt y.2 ≠ some .leftParentheses) {n : Nat}
    {s : ParseParams Buffered} {p : Params} (hat : At s p x.2) (hret : p.ret = 0)
    (htype : p.tnsTokenType = .rightParentheses) (hfuel : x.2.length + 2 ≤ fuel) (hn : x.2.length + 2 ≤ n) :
    ∃ p' s', Runs (Dialogue.loop (fun s => decide (s.1.ret = 0)) g n (p, carry x.1)) s (p', carry y.1) s' ∧
      At s' p' (skipBlanks y.2) ∧ p'.tnsTokenType = .rightParentheses := by
  induction hsteps using ReflTransGen.head_induction_on generalizing n s p with
  | refl =>
    obtain ⟨m, rfl⟩ : ∃ m, n = m + 2 := ⟨n - 2, by omega⟩
    obtain ⟨p1, s1, hbody, hat1, hret1, htype1⟩ := no_pair_runs hat hret hend
    refine ⟨p1, s1, runs_loop_step (decide_eq_true hret) (hround hbody) ?_, hat1, htype1.trans htype⟩
    exact runs_loop_done _ _ _ (decide_eq_false hret1)
  | head hstep _ ih =>
    obtain ⟨m, rfl⟩ : ∃ m, n = m + 1 := ⟨n - 1, by omega⟩
    obtain ⟨p1, s1, hbody, hat1, hret1, htype1, hlt⟩ := pair_runs hcomplete hat hret hfuel hstep
    obtain ⟨p', s', hrest, hend'⟩ := ih hat1 hret1 htype1 (by omega) (show _ ≤ m by omega)
    exact ⟨p', s', runs_loop_step (decide_eq_true hret) (hround hbody) hrest, hend'⟩

/-- **A node is read**, up to something that is no pair. -/
theorem buildPairs_runs (hcomplete : Complete fuel handle value) (h : At s p text)
    (hfuel : text.length + 2 ≤ fuel) {y : Place β} (hsteps : TransGen (Step ShortKey value) (b, text) y)
    (hend : tokenAt y.2 ≠ some .leftParentheses) :
    ∃ p' s', Runs (buildPairs fuel handle p b) s (p', y.1) s' ∧ At s' p' (skipBlanks y.2) ∧
      p'.tnsTokenType = .rightParentheses := by
  obtain ⟨x, hstep, hrest⟩ := TransGen.head'_iff.1 hsteps
  obtain ⟨m, rfl⟩ : ∃ m, fuel = m + 1 := ⟨fuel - 1, by omega⟩
  obtain ⟨p1, s1, hbody, hat1, hret1, htype1, hlt⟩ := pair_runs hcomplete (h.with 0 p.keyType) rfl hfuel hstep
  obtain ⟨p', s', hrun, hend'⟩ := pairLoop_runs hcomplete id
    (g := fun s => openPair s.1 >>= fun p => closePair handle p s.2) (fun h => h) hrest hend hat1 hret1 htype1 (by omega)
    (show _ ≤ m by omega)
  refine ⟨p', s', ?_, hend'⟩
  rw [buildPairs_eq]
  exact runs_loop_step rfl hbody hrun

end Pairs

section Nodes

variable {β γ : Type} {handle : Params → γ → Parsing (Params × γ)} {value : Value γ} {fuel : Nat}
  {s : ParseParams Buffered} {p : Params} {text : List UInt8} {b : β} {y : Place β}

section

variable (hcomplete : Complete fuel handle value) (h : At s p text) (hfuel : text.length + 2 ≤ fuel)
include hcomplete h hfuel

/-- A node whose end is judged by its last token. -/
theorem node_taken {init : β → γ} {keep : γ → β → β} {close : Params × γ → Params × β}
    (hread : NodeRead ShortKey value init keep (b, text) y) (hend : tokenAt y.2 = some .rightParentheses)
    (hclose : ∀ p c, p.tnsTokenType = .rightParentheses → close (p, c) = ({ p with ret  := 0 }, keep c b)) :
    Taken (close <$> buildPairs fuel handle p (init b)) s y := by
  obtain ⟨c, hsteps, hy⟩ := hread
  have hne : tokenAt y.2 ≠ some .leftParentheses := by
    rw [hend]
    decide
  obtain ⟨p', s', hrun, hat, htype⟩ := buildPairs_runs hcomplete h hfuel hsteps hne
  refine ⟨{ p' with ret := 0 }, s', skipBlanks y.2, ?_, rfl, hat.with 0 _, skipBlanks_skipBlanks _⟩
  exact runs_map_iff.2 ⟨_, hrun, by rw [hclose p' c htype, hy]⟩

theorem closeNode_taken {init : γ} {keep : γ → β → β}
    (hread : NodeRead ShortKey value (fun _ => init) keep (b, text) y)
    (hend : tokenAt y.2 = some .rightParentheses) :
    Taken (closeNode keep b <$> buildPairs fuel handle p init) s y :=
  node_taken hcomplete h hfuel hread hend fun _ _ htype => if_pos htype

theorem closeInPlace_taken {b : γ} {y : Place γ} (hread : NodeRead ShortKey value id (fun c _ => c) (b, text) y)
    (hend : tokenAt y.2 = some .rightParentheses) : Taken (closeInPlace <$> buildPairs fuel handle p b) s y := by
  refine node_taken hcomplete h hfuel hread hend fun p c htype => ?_
  rw [closeInPlace, if_pos htype]

end

end Nodes

/-! ## The building functions -/

theorem removeStrategyKey_complete (fuel : Nat) :
    Complete fuel removeStrategyKey (removeStrategyRead ShortKey) := by
  intro s p text b y h hret _ hread _
  unfold removeStrategyKey
  generalize p.keyType = keyType at hread
  cases keyType
  case name => exact parseWord_complete h hret hread
  case timeout => exact parseInteger_complete h hret hread
  all_goals exact False.elim hread

theorem appendStrategyKey_complete (fuel : Nat) :
    Complete fuel appendStrategyKey (appendStrategyRead ShortKey) := by
  intro s p text b y h hret _ hread _
  unfold appendStrategyKey
  generalize p.keyType = keyType at hread
  cases keyType
  case name => exact parseWord_complete h hret hread
  case retryTimes => exact parseInteger_complete h hret hread
  case duration => exact parseInteger_complete h hret hread
  all_goals exact False.elim hread

theorem blacklistConfKey_complete (fuel : Nat) :
    Complete fuel (blacklistConfKey fuel) (blacklistConfRead ShortKey) := by
  intro s p text b y h hret hfuel hread hend
  unfold blacklistConfKey
  generalize p.keyType = keyType at hread
  cases keyType
  case removeStrategy => exact closeInPlace_taken (removeStrategyKey_complete fuel) h hfuel hread hend
  case appendStrategy => exact closeInPlace_taken (appendStrategyKey_complete fuel) h hfuel hread hend
  all_goals exact False.elim hread

theorem addressKey_complete (fuel : Nat) : Complete fuel addressKey (addressRead ShortKey) := by
  intro s p text b y h hret _ hread _
  unfold addressKey
  generalize p.keyType = keyType at hread
  cases keyType
  case protocol =>
    obtain ⟨hread, hknown⟩ := hread
    obtain ⟨p', s', text', hrun, hret', hat, heq⟩ := parseString_complete h hret hread
    refine ⟨p', s', text', runs_bind hrun ?_, hret', hat, heq⟩
    dsimp only
    rw [if_pos hknown]
    rfl
  case host => exact parseString_complete h hret hread
  case port => exact parseInteger_complete h hret hread
  case weight => exact parseInteger_complete h hret hread
  all_goals exact False.elim hread

theorem addressListKey_complete (fuel : Nat) : Complete fuel (addressListKey fuel) (addressListRead ShortKey) := by
  intro s p text b y h hret hfuel hread hend
  unfold addressListKey
  generalize p.keyType = keyType at hread
  cases keyType
  case address => exact closeNode_taken (addressKey_complete fuel) h hfuel hread hend
  case oblbStrategy => exact parseWord_complete h hret hread
  case oblb => exact parseWord_complete h hret hread
  all_goals exact False.elim hread

theorem connectDataKey_complete (fuel : Nat) : Complete fuel connectDataKey (connectDataRead ShortKey) := by
  intro s p text b y h hret _ hread _
  unfold connectDataKey
  generalize p.keyType = keyType at hread
  cases keyType
  case serviceName => exact parseString_complete h hret hread
  case sid => exact parseString_complete h hret hread
  case extraInfo => exact parseString_complete h hret hread
  case obMode => exact parseInteger_complete h hret hread
  case useDefaultSid => exact parseInteger_complete h hret hread
  case sessionVariable => exact parseString_complete h hret hread
  case obEnableSsl => exact parseInteger_complete h hret hread
  all_goals exact False.elim hread

variable {text : List UInt8} {s : ParseParams Buffered}

theorem connectDataBuild_complete {fuel : Nat} {p : Params} {des : Description} {y : Place Description}
    (h : At s p text) (hfuel : text.length + 2 ≤ fuel)
    (hread : descriptionRead ShortKey .connectData (des, text) y) (hend : tokenAt y.2 = some .rightParentheses) :
    Taken (connectDataBuild fuel p des) s y := by
  obtain ⟨hfirst, hread⟩ := hread
  refine node_taken (connectDataKey_complete fuel) h hfuel hread hend fun p data htype => ?_
  rw [if_pos ⟨htype, hfirst⟩]

/-- An address outside a list is put into the first list. -/
theorem firstAddressBuild_complete {fuel : Nat} {p : Params} {des : Description} {y : Place Description}
    (h : At s p text) (hfuel : text.length + 2 ≤ fuel) (hread : descriptionRead ShortKey .address (des, text) y)
    (hend : tokenAt y.2 = some .rightParentheses) : Taken (firstAddressBuild fuel p des) s y := by
  obtain ⟨a, hsteps, hy⟩ := hread
  have hlist : NodeRead ShortKey (addressRead ShortKey) (fun _ => .init)
      (fun a list => { list with address := list.address ++ [a] })
      (des.addressList.headD .init, text)
      ({ des.addressList.headD .init with address := (des.addressList.headD .init).address ++ [a] }, y.2) :=
    ⟨a, hsteps, rfl⟩
  obtain ⟨p', s', text', hrun, hret', hat, heq⟩ :=
    closeNode_taken (addressKey_complete fuel) h hfuel hlist hend
  refine ⟨p', s', text', runs_bind hrun ?_, hret', hat, heq⟩
  dsimp only
  rw [if_neg (not_not.2 hret'), hy]
  rfl

theorem descriptionKey_complete (fuel : Nat) : Complete fuel (descriptionKey fuel) (descriptionRead ShortKey) := by
  intro s p text b y h hret hfuel hread hend
  unfold descriptionKey
  generalize p.keyType = keyType at hread
  cases keyType
  case oblb => exact parseWord_complete h hret hread
  case oblbRetryAllDowns => exact parseInteger_complete h hret hread
  case oblbRetryTimeout => exact parseInteger_complete h hret hread
  case connectTimeout => exact parseInteger_complete h hret hread
  case readTimeout => exact parseInteger_complete h hret hread
  case writeTimeout => exact parseInteger_complete h hret hread
  case oblbStrategy => exact parseWord_complete h hret hread
  case oblbGroupStrategy => exact parseWord_complete h hret hread
  case oblbBlacklist =>
    obtain ⟨conf, hsteps, hy⟩ := hread
    have hconf : NodeRead ShortKey (blacklistConfRead ShortKey) id (fun c _ => c) (b.blackListConf, text)
        (conf, y.2) := ⟨conf, hsteps, rfl⟩
    obtain ⟨p', s', text', hrun, hret', hat, heq⟩ :=
      closeInPlace_taken (blacklistConfKey_complete fuel) h hfuel hconf hend
    refine ⟨p', s', text', runs_bind hrun ?_, hret', hat, heq⟩
    rw [hy]
    rfl
  case addressList => exact closeNode_taken (addressListKey_complete fuel) h hfuel hread hend
  case connectData => exact connectDataBuild_complete h hfuel hread hend
  case address => exact firstAddressBuild_complete h hfuel hread hend
  all_goals exact False.elim hread

/-! ## Description strings -/

/-- What `ObClientTnsBuildDes` does behind the opening of its text. -/
def describe (fuel : Nat) (tns : ObClientTns) (p : Params) : Parsing Outcome :=
  if p.ret ≠ 0 then return closeLookup p false tns
  else if p.keyType ≠ .description then return closeLookup { p with ret := -1 } false tns
  else do
    let (p, service) ← descriptionBuild fuel p (Service.init p.tnsKey p.tnsKeyLen)
    let p ← tnsParse .rightParentheses (if p.ret ≠ 0 then { p with ret := -1 } else p)
    let st ← tnsCall .parseBlank p
    let p := if p.ret = 0 ∧ st.ret ≠ tnsNoData then { p with ret := -1 } else p
    if p.ret = 0 ∧ p.tnsTokenType = .rightParentheses then
      return ⟨0, true, { tns with
        tnsService := some (tns.tnsService.getD service), tnsServiceCount := tns.tnsServiceCount + 1 }⟩
    else return closeLookup { p with ret := -1 } false tns

theorem tnsBuildDes_eq (fuel : Nat) (tns : ObClientTns) :
    tnsBuildDes fuel tns = openPair Params.init >>= describe fuel tns := by
  rw [tnsBuildDes, openPair, Dialogue.bind_assoc]
  congr 1
  funext p
  rw [Dialogue.bind_assoc]
  rfl

theorem tokenAt_eq_none : tokenAt text = none ↔ skipBlanks text = [] := by
  rw [tokenAt, Option.map_eq_none_iff, List.head?_eq_none_iff]

/-- Behind blanks there is no more data exactly when there is no more token. -/
theorem blank_runs {p : Params} (h : At s p text) (hret : p.ret = 0) :
    ∃ p' s', Runs (tnsCall .parseBlank p) s p' s' ∧ (p'.ret = tnsNoData ↔ tokenAt text = none) := by
  obtain ⟨s', hblank, -⟩ := parseBlank_spec h.views
  have hrun : (tnsCall .parseBlank p).run (serve pieceFeed) s =
      some (p.update (serve pieceFeed s .parseBlank).1, (serve pieceFeed s .parseBlank).2) := by
    rw [tnsCall, if_pos hret]
    rfl
  refine ⟨_, _, hrun, ?_⟩
  have hanswer : (p.update (serve pieceFeed s .parseBlank).1).ret = if skipBlanks text = [] then tnsNoData else 0 :=
    congrArg Prod.fst hblank
  rw [hanswer, tokenAt_eq_none]
  by_cases hnil : skipBlanks text = []
  · rw [if_pos hnil]
    exact iff_of_true rfl hnil
  rw [if_neg hnil]
  exact iff_of_false tnsNoData_ne.symm hnil

/-- **A well-formed description string is found**, and the description is the one that it is read as. -/
theorem buildDescription_complete {pieces : List (List UInt8)} (hpieces : ∀ p ∈ pieces, p ≠ []) {des : Description}
    (h : DescribedAs ShortKey pieces.flatten des) :
    ∃ service, buildDescription pieces = some ⟨0, true, ⟨some service, 1⟩⟩ ∧ service.description = [des] := by
  obtain ⟨t1, t2, t3, hopens, hsteps, hright, hend⟩ := h
  obtain ⟨p1, s1, hopen, hat1, hret1, hkey1, hlt⟩ := openPair_runs (at_init hpieces rfl) rfl hopens
  have hread : NodeRead ShortKey (descriptionRead ShortKey) (fun _ => .init)
      (fun des service => { service with description := service.description ++ [des] })
      (Service.init p1.tnsKey p1.tnsKeyLen, t1)
      ({ Service.init p1.tnsKey p1.tnsKeyLen with description := [des] }, t2) := ⟨des, hsteps, rfl⟩
  obtain ⟨p2, s2, text2, hbuild, hret2, hat2, heq⟩ :=
    closeNode_taken (descriptionKey_complete (pieces.flatten.length + 2)) hat1 (by omega) hread hright.1
  have htoken : tokenAt text2 = some .rightParentheses := (tokenAt_congr heq).trans hright.1
  obtain ⟨p3, s3, hclose, hat3, hret3, htype3, -⟩ := sign_runs hat2 hret2 (by decide) htoken
  rw [heq, ← hright.2] at hat3
  obtain ⟨p4, s4, hblank, hnone⟩ := blank_runs hat3 hret3
  refine ⟨{ Service.init p1.tnsKey p1.tnsKeyLen with description := [des] }, ?_, rfl⟩
  have hrun : Runs (tnsBuildDes (pieces.flatten.length + 2) ⟨none, 0⟩) (.init ⟨[], pieces⟩)
      ⟨0, true, ⟨some { Service.init p1.tnsKey p1.tnsKeyLen with description := [des] }, 1⟩⟩ s4 := by
    rw [tnsBuildDes_eq]
    refine runs_bind hopen ?_
    rw [describe, if_neg (not_not.2 hret1), if_neg (not_not.2 hkey1)]
    refine runs_bind hbuild ?_
    dsimp only
    rw [if_neg (not_not.2 hret2)]
    refine runs_bind hclose (runs_bind hblank ?_)
    have hstay : (if p3.ret = 0 ∧ p4.ret ≠ tnsNoData then { p3 with ret := -1 } else p3) = p3 :=
      if_neg fun hmore => hmore.2 (hnone.2 hend)
    rw [hstay, if_pos ⟨hret3, htype3⟩]
    rfl
  rw [buildDescription, hrun]
  rfl

end ObConnector.Tns
