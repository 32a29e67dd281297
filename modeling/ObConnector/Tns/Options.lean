/-
# ObConnector.Tns.Options -- the values of options.

An option of a description is a word, a number or a text. The words are compared with `strncasecmp` over
the length of the value, so the beginning of a word is taken for the word, and the empty value for the
first one. The numbers go through `strtoll`: blanks and a sign in front are accepted, so is the empty
value, and a number that does not fit is replaced by the largest one.

A value is taken exactly when none of this can matter (`options_taken_exactly`): it is no proper beginning
of a word; it starts with something else than a blank or a sign, and is no numeral from `2 ^ 63` on. A
protocol is compared in full, but a value too long to be stored leaves the protocol that was there before.
-/
import ObConnector.Tns.Cursor

namespace ObConnector.Tns

open Lib List
open LoadBalance (ObClientLBOption)

/-! ## Nodes -/

/-- What `ObClientConnectDataBuild` does when its loop is over. -/
def closeConnectData (des : Description) (s : Params × ConnectData) : Params × Description :=
  ({ s.1 with ret := 0 },
    if s.1.tnsTokenType = .rightParentheses ∧ des.connectData = none then { des with connectData := some s.2 }
    else des)

theorem connectDataBuild_eq (fuel : Nat) (p : Params) (des : Description) :
    connectDataBuild fuel p des = closeConnectData des <$> buildPairs fuel connectDataKey p ConnectData.init := rfl

/-! ## Words and numerals -/

/-- The value is the word, in upper or lower case. -/
def IsWord (v : List UInt8) (word : String) : Prop := v.map toLower = (ascii word).map toLower

instance (v : List UInt8) (word : String) : Decidable (IsWord v word) := inferInstanceAs (Decidable (_ = _))

/-- The value is the word, as far as `strncasecmp` looks. -/
def Begins (v : List UInt8) (word : String) : Bool := strncasecmpSame v (ascii word) v.length

theorem IsWord.begins {v : List UInt8} {word : String} (h : IsWord v word) : Begins v word = true :=
  strnSame_of_map_eq toLower h

/-- The value is a decimal numeral. -/
def IsNumeral (v : List UInt8) : Prop := v ≠ [] ∧ ∀ c ∈ v, IsDigit c

instance (v : List UInt8) : Decidable (IsNumeral v) := inferInstanceAs (Decidable (_ ∧ _))

/-- The value is one that `strtoll` cannot mistake. -/
structure PlainNumber (v : List UInt8) : Prop where
  start : ∃ c cs, v = c :: cs ∧ ¬IsSpace c ∧ c ≠ 45 ∧ c ≠ 43
  small : IsNumeral v → readDecimal 0 v < 2 ^ 63
  short : v.length < tnsKeySize

theorem HoldsKey.keyIs {p : Params} {k : List UInt8} (h : HoldsKey p k) (word : String) :
    p.keyIs word = Begins k word := by
  obtain ⟨old, hkey⟩ := h.bytes
  rw [Params.keyIs, h.len, hkey]
  exact strnSame_append toLower k old (ascii word)

theorem HoldsKey.take {p : Params} {k : List UInt8} (h : HoldsKey p k) : p.tnsKey.take p.tnsKeyLen = k := by
  obtain ⟨old, hkey⟩ := h.bytes
  rw [h.len, hkey, take_left]

/-! ## What a value does -/

/-- The value is accepted, and this is what the node is then. -/
def Accepts {β : Type} (m : Parsing (Params × β)) (s : ParseParams Buffered) (b : β) : Prop :=
  ∃ p' s', Runs m s (p', b) s' ∧ p'.ret = 0

/-- The value is an error. -/
def Rejects {β : Type} (m : Parsing (Params × β)) (s : ParseParams Buffered) : Prop :=
  ∃ p' b s', Runs m s (p', b) s' ∧ p'.ret ≠ 0

section Values

variable {β : Type} {s : ParseParams Buffered} {p : Params} {text v rest : List UInt8}

/-- A program that starts with a key: it goes on with the key that stands there, or with a refusal. -/
theorem runs_key_bind {γ : Type} {f : Params → Parsing γ} (h : At s p text) (hret : p.ret = 0)
    (hkey : Key v text rest) :
    ∃ p' s', (∀ c s'', Runs (f p') s' c s'' → Runs (tnsParse .key p >>= f) s c s'') ∧
      (p'.ret = 0 ∧ HoldsKey p' v ∧ At s' p' rest ∨ p'.ret ≠ 0 ∧ ¬v.length < tnsKeySize) := by
  have hrun := runs_tnsParse hret .key s
  refine ⟨_, _, fun c s'' hf => runs_bind hrun hf, ?_⟩
  obtain ⟨-, ⟨k, rest', hkey', hat, hret', -, hholds⟩ | ⟨-, hret', -⟩⟩ := key_spec h hret hrun
  · obtain ⟨rfl, rfl⟩ := hkey.unique hkey'
    exact .inl ⟨hret', hholds, hat⟩
  refine .inr ⟨hret', fun hshort => ?_⟩
  obtain ⟨p1, s1, hrun1, -, hret1, -⟩ := key_runs h hret hkey hshort
  cases hrun.symm.trans hrun1
  exact hret' hret1

/-- **Words.** A value that begins no word but its own is taken as that word, and any other is an error. -/
theorem parseWord_exact (h : At s p text) (hret : p.ret = 0) (hkey : Key v text rest)
    {words : List (String × (β → β))} (hplain : ∀ w ∈ words, Begins v w.1 = true → IsWord v w.1)
    (hdistinct : (words.map Prod.fst).Pairwise fun w w' => (ascii w).map toLower ≠ (ascii w').map toLower)
    (hlong : ∀ w ∈ words, (ascii w.1).length < tnsKeySize) (b : β) :
    (∀ w ∈ words, IsWord v w.1 → Accepts (parseWord words p b) s (w.2 b)) ∧
      ((∀ w ∈ words, ¬IsWord v w.1) → Rejects (parseWord words p b) s) := by
  obtain ⟨p', s', hbind, ⟨hret', hholds, -⟩ | ⟨hret', hv⟩⟩ := runs_key_bind h hret hkey
  · have hfind : (words.find? fun word => p'.keyIs word.1) = words.find? fun word => Begins v word.1 :=
      congrArg (fun f => words.find? f) (funext fun word => hholds.keyIs word.1)
    constructor
    · intro w hw hword
      cases hw' : words.find? fun word => Begins v word.1 with
      | none =>
        have := List.find?_eq_none.1 hw' w hw
        exact absurd hword.begins this
      | some w' =>
        -- the word that is found first is the word that is meant
        have hmem := List.mem_of_find?_eq_some hw'
        have hword' : IsWord v w'.1 := hplain w' hmem (by simpa using List.find?_some hw')
        have hsame : w' = w := by
          by_contra hne
          have hsymm : Std.Symm fun w w' : String × (β → β) =>
              (ascii w.1).map toLower ≠ (ascii w'.1).map toLower := ⟨fun _ _ => Ne.symm⟩
          exact (pairwise_map.1 hdistinct).forall hmem hw hne (hword'.symm.trans hword)
        subst hsame
        refine ⟨p', s', hbind _ _ ?_, hret'⟩
        rw [hfind, hw']
        rfl
    · intro hnone
      have hw' : (words.find? fun word => Begins v word.1) = none := by
        rw [List.find?_eq_none]
        exact fun w hw hbegins => hnone w hw (hplain w hw hbegins)
      refine ⟨{ p' with ret := -1 }, b, s', hbind _ _ ?_, show (-1) ≠ 0 by decide⟩
      rw [hfind, hw']
      rfl
  constructor
  · intro w hw hword
    have hlen := congrArg List.length hword
    rw [length_map, length_map] at hlen
    exact absurd (hlen ▸ hlong w hw) hv
  · intro _
    cases hw' : words.find? fun word => p'.keyIs word.1 with
    | none =>
      refine ⟨{ p' with ret := -1 }, b, s', hbind _ _ ?_, show (-1) ≠ 0 by decide⟩
      rw [hw']
      rfl
    | some w =>
      refine ⟨p', w.2 b, s', hbind _ _ ?_, hret'⟩
      rw [hw']
      rfl

theorem parseInteger_eq (store : Nat → β → β) (p : Params) (b : β) :
    parseInteger store p b = tnsParse .key p >>= fun p => pure
      (if p.tnsKeyLen ≠ (strtoll (p.tnsKey.take p.tnsKeyLen)).2 then { p with ret := -1 } else p,
        store ((strtoll (p.tnsKey.take p.tnsKeyLen)).1 % 2 ^ 64).toNat b) := rfl

/-- **Numbers.** A value that `strtoll` cannot mistake is accepted when it is a numeral, and stored. -/
theorem parseInteger_exact (h : At s p text) (hret : p.ret = 0) (hkey : Key v text rest)
    (hplain : PlainNumber v) (store : Nat → β → β) (b : β) :
    (IsNumeral v → readDecimal 0 v < 2 ^ 64 → Accepts (parseInteger store p b) s (store (readDecimal 0 v) b)) ∧
      (¬(IsNumeral v ∧ readDecimal 0 v < 2 ^ 64) → Rejects (parseInteger store p b) s) := by
  rw [parseInteger_eq]
  obtain ⟨p', s', hbind, ⟨hret', hholds, -⟩ | ⟨-, hv⟩⟩ := runs_key_bind h hret hkey
  · constructor
    · intro hnumeral _
      have hsmall := hplain.small hnumeral
      have hvalue : strtoll (p'.tnsKey.take p'.tnsKeyLen) = ((readDecimal 0 v : Int), p'.tnsKeyLen) := by
        rw [hholds.take, hholds.len, strtoll_digits hnumeral.1 hnumeral.2]
        congr 1
        omega
      refine ⟨p', s', hbind _ _ ?_, hret'⟩
      rw [hvalue, if_neg (not_not.2 rfl), Int.emod_eq_of_lt (by omega) (by omega)]
      rfl
    · intro hnot
      obtain ⟨c, cs, rfl, hstart⟩ := hplain.start
      have hdigits : ¬∀ d ∈ c :: cs, IsDigit d := by
        intro hall
        have hnumeral : IsNumeral (c :: cs) := ⟨cons_ne_nil c cs, hall⟩
        have hsmall := hplain.small hnumeral
        exact hnot ⟨hnumeral, by omega⟩
      have hused : p'.tnsKeyLen ≠ (strtoll (p'.tnsKey.take p'.tnsKeyLen)).2 := by
        rw [hholds.take, hholds.len]
        exact (strtoll_not_digits hstart hdigits).symm
      refine ⟨{ p' with ret := -1 }, store ((strtoll (p'.tnsKey.take p'.tnsKeyLen)).1 % 2 ^ 64).toNat b, s',
        hbind _ _ ?_, show (-1) ≠ 0 by decide⟩
      rw [if_pos hused]
      rfl
  · exact absurd hplain.short hv

/-- The protocol in a field. -/
def protocolText (old v : List UInt8) : Text := ⟨overwrite old (strncpy v v.length), v.length⟩

/-- The end of a protocol: the one that is stored now is judged. -/
def judgeProtocol (p : Params) (a : Address) : Params × Address :=
  (if knownProtocol a then p else { p with ret := -1 }, a)

theorem protocolValue_eq (p : Params) (a : Address) :
    protocolValue p a = tnsParse .key p >>= fun p => pure (judgeProtocol p (if p.ret = 0 ∧ p.tnsKeyLen ≤ 6 then
        { a with protocol := ⟨overwrite a.protocol.bytes (strncpy p.tnsKey p.tnsKeyLen), p.tnsKeyLen⟩ }
      else a)) := by
  show (tnsParse .key p >>= _) >>= _ = _
  rw [Dialogue.bind_assoc]
  congr 1
  funext p
  split
  · rfl
  · rfl

theorem IsWord.length {word : String} (h : IsWord v word) : v.length = (ascii word).length := by
  have h := congrArg List.length h
  rwa [length_map, length_map] at h

/-- A stored protocol is a known one when it is one of the two words. -/
theorem knownProtocol_protocolText (a : Address) (old v : List UInt8) :
    knownProtocol { a with protocol := protocolText old v } = true ↔ IsWord v "TCP" ∨ IsWord v "TCPS" := by
  have hword : ∀ (word : String) n, 0 ∉ ascii word → (ascii word).length = n →
      (v.length = n ∧ strncasecmpSame (protocolText old v).bytes (ascii word) v.length = true ↔ IsWord v word) := by
    intro word n hzero hn
    constructor
    · rintro ⟨hlen, hsame⟩
      exact (strncasecmpSame_strncpy _ hzero (hlen.trans hn.symm)).1 hsame
    · intro h
      exact ⟨h.length.trans hn, (strncasecmpSame_strncpy _ hzero h.length).2 h⟩
  have htcp := hword "TCP" 3 (by decide +kernel) (by decide +kernel)
  have htcps := hword "TCPS" 4 (by decide +kernel) (by decide +kernel)
  rw [← htcp, ← htcps]
  exact decide_eq_true_iff

/-- **Protocols.** They are compared in full, when the value can be stored or none was stored before. -/
theorem protocolValue_exact (h : At s p text) (hret : p.ret = 0) (hkey : Key v text rest) (a : Address)
    (hplain : v.length ≤ 6 ∨ knownProtocol a = false) :
    (IsWord v "TCP" ∨ IsWord v "TCPS" →
        Accepts (protocolValue p a) s { a with protocol := protocolText a.protocol.bytes v }) ∧
      (¬(IsWord v "TCP" ∨ IsWord v "TCPS") → Rejects (protocolValue p a) s) := by
  have hshort : IsWord v "TCP" ∨ IsWord v "TCPS" → v.length ≤ 6 := by
    have htcp : (ascii "TCP").length = 3 := by decide +kernel
    have htcps : (ascii "TCPS").length = 4 := by decide +kernel
    rintro (hword | hword)
    · have := hword.length
      omega
    have := hword.length
    omega
  rw [protocolValue_eq]
  obtain ⟨p', s', hbind, ⟨hret', hholds, -⟩ | ⟨hret', hv⟩⟩ := runs_key_bind h hret hkey
  · by_cases hfits : v.length ≤ 6
    · have hstored : (⟨overwrite a.protocol.bytes (strncpy p'.tnsKey p'.tnsKeyLen), p'.tnsKeyLen⟩ : Text) =
          protocolText a.protocol.bytes v := by
        obtain ⟨old, hbytes⟩ := hholds.bytes
        rw [hholds.len, hbytes, strncpy_append]
        rfl
      have hguard : p'.ret = 0 ∧ p'.tnsKeyLen ≤ 6 := ⟨hret', by rw [hholds.len]; exact hfits⟩
      constructor
      · intro hword
        refine ⟨p', s', hbind _ _ ?_, hret'⟩
        rw [if_pos hguard, hstored, judgeProtocol, if_pos ((knownProtocol_protocolText a _ v).2 hword)]
        rfl
      · intro hnot
        refine ⟨{ p' with ret := -1 }, { a with protocol := protocolText a.protocol.bytes v }, s', hbind _ _ ?_,
          show (-1) ≠ 0 by decide⟩
        rw [if_pos hguard, hstored, judgeProtocol, if_neg fun hknown => hnot ((knownProtocol_protocolText a _ v).1 hknown)]
        rfl
    have hguard : ¬(p'.ret = 0 ∧ p'.tnsKeyLen ≤ 6) := by
      rw [hholds.len]
      exact fun hguard => hfits hguard.2
    refine ⟨fun hword => absurd (hshort hword) hfits, fun _ => ?_⟩
    refine ⟨{ p' with ret := -1 }, a, s', hbind _ _ ?_, show (-1) ≠ 0 by decide⟩
    rw [if_neg hguard, judgeProtocol, hplain.resolve_left hfits]
    rfl
  have hlong : ¬v.length ≤ 6 := fun hle => hv (lt_of_le_of_lt hle (by decide))
  refine ⟨fun hword => absurd (hshort hword) hlong, fun _ => ?_⟩
  refine ⟨if knownProtocol a then p' else { p' with ret := -1 }, a, s', hbind _ _ ?_, ?_⟩
  · rw [if_neg fun hguard => hret' hguard.1]
    rfl
  · split
    · exact hret'
    · exact show (-1) ≠ 0 by decide

end Values

/-! ## The options -/

/-- An option whose value is one of some words. -/
structure WordOption where
  Target : Type
  handle : Params → Target → Parsing (Params × Target)
  keyType : KeyType
  words : List (String × (Target → Target))
  handle_eq : ∀ p b, p.keyType = keyType → handle p b = parseWord words p b
  distinct : (words.map Prod.fst).Pairwise fun w w' => (ascii w).map toLower ≠ (ascii w').map toLower
  short : ∀ w ∈ words.map Prod.fst, (ascii w).length < tnsKeySize

/-- An option whose value is a number. -/
structure NumberOption where
  Target : Type
  handle : Params → Target → Parsing (Params × Target)
  keyType : KeyType
  store : Nat → Target → Target
  handle_eq : ∀ p b, p.keyType = keyType → handle p b = parseInteger store p b

/-- All the options with words, but for the protocol. -/
def wordOptions (fuel : Nat) : List WordOption :=
  [⟨BlacklistConf, removeStrategyKey, .name, [("TIMEOUT", fun black => { black with removeStrategy := .timeout })],
      fun p b h => by rw [removeStrategyKey, h], by decide +kernel, by decide +kernel⟩,
    ⟨BlacklistConf, appendStrategyKey, .name,
      [("RETRYDURATION", fun black => { black with appendStrategy := .retryDuration }),
        ("NORMAL", fun black => { black with appendStrategy := .normal })],
      fun p b h => by rw [appendStrategyKey, h], by decide +kernel, by decide +kernel⟩,
    ⟨AddressList, addressListKey fuel, .oblbStrategy, strategyWords fun o list => { list with oblbStrategy := o },
      fun p b h => by rw [addressListKey, h], by decide +kernel, by decide +kernel⟩,
    ⟨AddressList, addressListKey fuel, .oblb, switchWords fun on list => { list with oblb := on },
      fun p b h => by rw [addressListKey, h], by decide +kernel, by decide +kernel⟩,
    ⟨Description, descriptionKey fuel, .oblb, switchWords fun on des => { des with oblb := on },
      fun p b h => by rw [descriptionKey, h], by decide +kernel, by decide +kernel⟩,
    ⟨Description, descriptionKey fuel, .oblbStrategy, strategyWords fun o des => { des with oblbStrategy := o },
      fun p b h => by rw [descriptionKey, h], by decide +kernel, by decide +kernel⟩,
    ⟨Description, descriptionKey fuel, .oblbGroupStrategy,
      [("ROTATION", fun des => { des with oblbGroupStrategy := .groupRotation })],
      fun p b h => by rw [descriptionKey, h], by decide +kernel, by decide +kernel⟩]

/-- All the options with numbers. -/
def numberOptions (fuel : Nat) : List NumberOption :=
  [⟨BlacklistConf, removeStrategyKey, .timeout, fun v black => { black with removeTimeout := v },
      fun p b h => by rw [removeStrategyKey, h]⟩,
    ⟨BlacklistConf, appendStrategyKey, .retryTimes, fun v black => { black with retryTimes := v },
      fun p b h => by rw [appendStrategyKey, h]⟩,
    ⟨BlacklistConf, appendStrategyKey, .duration, fun v black => { black with duration := v },
      fun p b h => by rw [appendStrategyKey, h]⟩,
    ⟨Address, addressKey, .port, fun v a => { a with port := v }, fun p b h => by rw [addressKey, h]⟩,
    ⟨Address, addressKey, .weight, fun v a => { a with weight := v }, fun p b h => by rw [addressKey, h]⟩,
    ⟨ConnectData, connectDataKey, .obMode, fun v data => { data with obMode := v },
      fun p b h => by rw [connectDataKey, h]⟩,
    ⟨ConnectData, connectDataKey, .useDefaultSid, fun v data => { data with useDefaultSid := v },
      fun p b h => by rw [connectDataKey, h]⟩,
    ⟨ConnectData, connectDataKey, .obEnableSsl, fun v data => { data with obEnableSsl := v },
      fun p b h => by rw [connectDataKey, h]⟩,
    ⟨Description, descriptionKey fuel, .oblbRetryAllDowns, fun v des => { des with retryAllDowns := v },
      fun p b h => by rw [descriptionKey, h]⟩,
    ⟨Description, descriptionKey fuel, .oblbRetryTimeout, fun v des => { des with retryTimeout := v },
      fun p b h => by rw [descriptionKey, h]⟩,
    ⟨Description, descriptionKey fuel, .connectTimeout, fun v des => { des with connectTimout := v },
      fun p b h => by rw [descriptionKey, h]⟩,
    ⟨Description, descriptionKey fuel, .readTimeout, fun v des => { des with readTimout := v },
      fun p b h => by rw [descriptionKey, h]⟩,
    ⟨Description, descriptionKey fuel, .writeTimeout, fun v des => { des with writeTimout := v },
      fun p b h => by rw [descriptionKey, h]⟩]

/-- The value stands behind the key of an option. -/
structure Stands (s : ParseParams Buffered) (p : Params) (keyType : KeyType) (v : List UInt8) : Prop where
  ret : p.ret = 0
  keyType : p.keyType = keyType
  value : ∃ text rest, At s p text ∧ Key v text rest

/-- **Values are taken exactly**, when no comparison over the length of the value and no conversion can
mistake them: a word is accepted when it is one of the words of its option, and a number when it is a
numeral in the range of its field. -/
theorem options_taken_exactly {s : ParseParams Buffered} {p : Params} {v : List UInt8} (fuel : Nat) :
    (∀ o ∈ wordOptions fuel, Stands s p o.keyType v → (∀ w ∈ o.words, Begins v w.1 = true → IsWord v w.1) →
      ∀ b, (∀ w ∈ o.words, IsWord v w.1 → Accepts (o.handle p b) s (w.2 b)) ∧
        ((∀ w ∈ o.words, ¬IsWord v w.1) → Rejects (o.handle p b) s)) ∧
    (∀ o ∈ numberOptions fuel, Stands s p o.keyType v → PlainNumber v →
      ∀ b, (IsNumeral v → readDecimal 0 v < 2 ^ 64 → Accepts (o.handle p b) s (o.store (readDecimal 0 v) b)) ∧
        (¬(IsNumeral v ∧ readDecimal 0 v < 2 ^ 64) → Rejects (o.handle p b) s)) ∧
    (Stands s p .protocol v → ∀ a : Address, v.length ≤ 6 ∨ knownProtocol a = false →
      (IsWord v "TCP" ∨ IsWord v "TCPS" →
        Accepts (addressKey p a) s { a with protocol := protocolText a.protocol.bytes v }) ∧
        (¬(IsWord v "TCP" ∨ IsWord v "TCPS") → Rejects (addressKey p a) s)) := by
  refine ⟨?_, ?_, ?_⟩
  · intro o _ hstands hplain b
    obtain ⟨text, rest, hat, hkey⟩ := hstands.value
    rw [o.handle_eq p b hstands.keyType]
    exact parseWord_exact hat hstands.ret hkey hplain o.distinct
      (fun w hw => o.short w.1 (mem_map_of_mem hw)) b
  · intro o _ hstands hplain b
    obtain ⟨text, rest, hat, hkey⟩ := hstands.value
    rw [o.handle_eq p b hstands.keyType]
    exact parseInteger_exact hat hstands.ret hkey hplain o.store b
  · intro hstands a hplain
    obtain ⟨text, rest, hat, hkey⟩ := hstands.value
    have haddress : addressKey p a = protocolValue p a := by rw [addressKey, hstands.keyType]
    rw [haddress]
    exact protocolValue_exact hat hstands.ret hkey a hplain

/-- The tokenizer in front of a text, with nothing read before. -/
def inFrontOf (text : List UInt8) : ParseParams Buffered := .init ⟨text, []⟩

/-- The parameters behind the key of an option. -/
def behindKey (keyType : KeyType) : Params := { Params.init with keyType := keyType }

theorem stands_inFrontOf (keyType : KeyType) {v text rest : List UInt8} (h : Key v text rest) :
    Stands (inFrontOf text) (behindKey keyType) keyType v :=
  ⟨rfl, rfl, text, rest, ⟨⟨⟨append_nil text, by simp [inFrontOf, ParseParams.init]⟩, .inl rfl⟩, rfl, rfl, rfl⟩, h⟩

/-- `on`, `2883` and `tcp` are taken. -/
theorem common_values_taken :
    Accepts (descriptionKey 1 (behindKey .oblb) Description.init) (inFrontOf (ascii " on)"))
        { Description.init with oblb := true } ∧
      Accepts (addressKey (behindKey .port) Address.init) (inFrontOf (ascii "2883)"))
        { Address.init with port := 2883 } ∧
      Accepts (addressKey (behindKey .protocol) Address.init) (inFrontOf (ascii "\"tcp\")"))
        { Address.init with protocol := protocolText (List.replicate 6 0) (ascii "tcp") } := by
  refine ⟨?_, ?_, ?_⟩
  · have hkey : Key (ascii "on") (ascii " on)") (ascii ")") := by constructor <;> decide +kernel
    have h := (options_taken_exactly 1).1 _ (mem_of_getElem? (rfl : (wordOptions 1)[4]? = some _))
      (stands_inFrontOf .oblb hkey) (by decide +kernel) Description.init
    exact h.1 ("ON", fun des => { des with oblb := true }) (mem_cons_self) (by decide +kernel)
  · have hkey : Key (ascii "2883") (ascii "2883)") (ascii ")") := by constructor <;> decide +kernel
    have hplain : PlainNumber (ascii "2883") :=
      ⟨⟨50, ascii "883", by decide +kernel, by decide, by decide, by decide⟩, fun _ => by decide +kernel,
        by decide +kernel⟩
    have h := (options_taken_exactly 1).2.1 _ (mem_of_getElem? (rfl : (numberOptions 1)[3]? = some _))
      (stands_inFrontOf .port hkey) hplain Address.init
    have hvalue : readDecimal 0 (ascii "2883") = 2883 := by decide +kernel
    rw [hvalue] at h
    exact h.1 (by decide +kernel) (by decide)
  · have hkey : Key (ascii "tcp") (ascii "\"tcp\")") (ascii ")") := by constructor <;> decide +kernel
    have h := (options_taken_exactly 1).2.2 (stands_inFrontOf .protocol hkey) Address.init (by decide +kernel)
    exact h.1 (by decide +kernel)

/-- A description with the beginning of a word, a negative number and one with twenty digits. -/
def inexactText : List UInt8 :=
  ascii "(DESCRIPTION=(OBLB=O)(ADDRESS=(HOST=h)(PORT=-1)(WEIGHT=99999999999999999999)))"

theorem inexact_values_accepted : (buildDescription [inexactText]).map Outcome.find = some true ∧
      (buildDescription [inexactText]).map (fun o => o.descriptions.map Description.oblb) = some [true] ∧
      (buildDescription [inexactText]).map (fun o => (o.descriptions.flatMap Description.addressList).flatMap
        fun list => list.address.flatMap fun a => [a.port, a.weight]) = some [2 ^ 64 - 1, 2 ^ 63 - 1] := by
  refine ⟨?_, ?_, ?_⟩ <;> decide +kernel

end ObConnector.Tns
