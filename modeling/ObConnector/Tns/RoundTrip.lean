/-
# ObConnector.Tns.RoundTrip -- a printed description is read back.

A description tree has the options that are given, and nothing for the others; every node has at least one
entry, a text is not empty, has no quote and no NUL in it and fits into `tns_key`, and a number is below
`2 ^ 63`, where `strtoll10` stops (`number_saturated`). Each kind of node has a `Form`
for its entries. What the entries do to the initial values is the value of the tree, in any arrangement.

A tree that is printed and read is the tree again, wherever the buffer ends (`description_roundTrip`).
-/
import ObConnector.Tns.Complete
import ObConnector.Tns.Print

namespace ObConnector.Tns

open Lib List
open LoadBalance (ObClientLBOption)
open Relation (ReflTransGen TransGen)

/-! ## Values -/

/-- A text that can be put in quotes and fits into `tns_key`. -/
structure QuotedString where
  bytes : List UInt8
  ne_nil : bytes ≠ []
  short : bytes.length < tnsKeySize
  noQuote : 34 ∉ bytes
  noZero : (0 : UInt8) ∉ bytes

/-- A known protocol, as it is written. -/
structure Protocol where
  bytes : List UInt8
  known : IsWord bytes "TCP" ∨ IsWord bytes "TCPS"

theorem Protocol.spec (p : Protocol) : 34 ∉ p.bytes ∧ (0 : UInt8) ∉ p.bytes ∧ p.bytes.length ≤ 4 := by
  have hword : ∀ word, IsWord p.bytes word → PlainWord word → 0 ∉ (ascii word).map toLower →
      (ascii word).length ≤ 4 → 34 ∉ p.bytes ∧ 0 ∉ p.bytes ∧ p.bytes.length ≤ 4 := by
    intro word h hplain hzero hlen
    refine ⟨fun hmem => h.plain hplain 34 hmem (by decide), fun hmem => hzero ?_, h.length.trans_le hlen⟩
    rw [← h]
    exact mem_map_of_mem hmem
  rcases p.known with h | h
  · exact hword "TCP" h (by decide +kernel) (by decide +kernel) (by decide +kernel)
  · exact hword "TCPS" h (by decide +kernel) (by decide +kernel) (by decide +kernel)

/-- The strategies of a description and of an address list. -/
inductive Strategy where
  | random
  | serverAffinity
  | rotation

def Strategy.word : Strategy → String
  | .random => "RANDOM"
  | .serverAffinity => "SERVERAFFINITY"
  | .rotation => "ROTATION"

def Strategy.option : Strategy → ObClientLBOption
  | .random => .random
  | .serverAffinity => .serverAffinity
  | .rotation => .rotation

/-- The strategies for the groups of addresses. -/
inductive GroupStrategy where
  | rotation

/-- The strategies of `REMOVE_STRATEGY`. -/
inductive RemoveStrategy where
  | timeout

/-- The strategies of `APPEND_STRATEGY`. -/
inductive AppendStrategy where
  | retryDuration
  | normal

def AppendStrategy.word : AppendStrategy → String
  | .retryDuration => "RETRYDURATION"
  | .normal => "NORMAL"

def AppendStrategy.option : AppendStrategy → ObClientLBOption
  | .retryDuration => .retryDuration
  | .normal => .normal

def switchWord : Bool → String
  | true => "ON"
  | false => "OFF"

section Words

variable {β : Type} {v tail : List UInt8}

theorem switch_read {on : Bool} (h : PrintsWord (switchWord on) v) (htail : Closing tail) (store : Bool → β → β)
    (b : β) : WordRead ShortKey (switchWords store) (b, v ++ tail) (store on b, tail) := by
  cases on with
  | true =>
    exact wordRead_of_prints h htail (by decide +kernel) [] [("OFF", store false)]
      (by simp) b
  | false =>
    exact wordRead_of_prints h htail (by decide +kernel) [("ON", store true)] []
      (show ∀ w ∈ ["ON"], Begins (ascii "OFF") w = false by decide +kernel) b

theorem strategy_read {o : Strategy} (h : PrintsWord o.word v) (htail : Closing tail)
    (store : ObClientLBOption → β → β) (b : β) :
    WordRead ShortKey (strategyWords store) (b, v ++ tail) (store o.option b, tail) := by
  cases o with
  | random =>
    exact wordRead_of_prints h htail (by decide +kernel) [] [("SERVERAFFINITY", store .serverAffinity), ("ROTATION", store .rotation)]
      (by simp) b
  | serverAffinity =>
    exact wordRead_of_prints h htail (by decide +kernel) [("RANDOM", store .random)] [("ROTATION", store .rotation)]
      (show ∀ w ∈ ["RANDOM"], Begins (ascii "SERVERAFFINITY") w = false by decide +kernel) b
  | rotation =>
    exact wordRead_of_prints h htail (by decide +kernel)
      [("RANDOM", store .random), ("SERVERAFFINITY", store .serverAffinity)] []
      (show ∀ w ∈ ["RANDOM", "SERVERAFFINITY"], Begins (ascii "ROTATION") w = false by decide +kernel) b

theorem quoted_read {s : QuotedString} (h : PrintsQuoted s.bytes v) (htail : Closing tail)
    (store : (Text → Text) → β → β) (b : β) :
    TextRead ShortKey 256 store (b, v ++ tail)
      (store (fun t => ⟨overwrite t.bytes s.bytes, s.bytes.length⟩) b, tail) :=
  textRead_of_prints h htail s.noQuote s.noZero s.short (le_of_lt s.short) store b

end Words

/-! ## Addresses -/

/-- An address: what is given of it. -/
structure AddressTree where
  protocol : Option Protocol
  host : Option QuotedString
  port : Option Number
  weight : Option Number
  child : protocol.isSome ∨ host.isSome ∨ port.isSome ∨ weight.isSome

inductive AddressEntry where
  | protocol (p : Protocol)
  | host (s : QuotedString)
  | port (n : Number)
  | weight (n : Number)

def addressForm : Form AddressEntry Address where
  kinds
    | .protocol _ => [.protocol]
    | .host _ => [.host]
    | .port _ => [.port]
    | .weight _ => [.weight]
  prints
    | .protocol p => PrintsQuoted p.bytes
    | .host s => PrintsQuoted s.bytes
    | .port n => PrintsLong n
    | .weight n => PrintsLong n
  store
    | .protocol p => fun a => { a with protocol := ⟨overwrite a.protocol.bytes p.bytes, p.bytes.length⟩ }
    | .host s => fun a => { a with host := ⟨overwrite a.host.bytes s.bytes, s.bytes.length⟩ }
    | .port n => fun a => { a with port := n.toNat }
    | .weight n => fun a => { a with weight := n.toNat }

theorem addressForm_reads : addressForm.ReadsAlways (addressRead ShortKey) := by
  refine Form.readsAlways ?_ ?_
  · intro b c keyType hkeyType v tail hv htail
    rcases c with p | s | n | n <;> obtain rfl := mem_singleton.1 hkeyType <;> dsimp only [addressRead]
    · obtain ⟨hquote, hzero, hlen⟩ := p.spec
      refine ⟨textRead_of_prints hv htail hquote hzero (lt_of_le_of_lt hlen (by decide)) (hlen.trans (by decide)) _ b,
        ?_⟩
      have hknown := (knownProtocol_protocolText b b.protocol.bytes p.bytes).2 p.known
      rwa [protocolText, strncpy_self hzero] at hknown
    · exact quoted_read hv htail _ b
    · exact numberRead_of_prints hv htail _ b
    · exact numberRead_of_prints hv htail _ b
  · intro b c c' hne
    cases c <;> cases c' <;> first | rfl | exact absurd rfl hne

/-- The entries of an address. -/
def AddressTree.entries (t : AddressTree) : List AddressEntry :=
  t.protocol.toList.map .protocol ++ t.host.toList.map .host ++ t.port.toList.map .port ++
    t.weight.toList.map .weight

/-- The address: what is given, and the values of `ObClientAddressInit` for the rest. -/
def AddressTree.value (t : AddressTree) : Address where
  host := t.host.elim Address.init.host fun s => .of 257 s.bytes
  protocol := t.protocol.elim Address.init.protocol fun p => .of 6 p.bytes
  port := (t.port.map Number.toNat).getD Address.init.port
  weight := (t.weight.map Number.toNat).getD Address.init.weight

theorem AddressTree.storeAll_entries (t : AddressTree) : addressForm.storeAll t.entries Address.init = t.value := by
  obtain ⟨protocol, host, port, weight, -⟩ := t
  cases protocol <;> cases host <;> cases port <;> cases weight <;> rfl

theorem AddressTree.entries_ne_nil (t : AddressTree) : t.entries ≠ [] := by
  intro hnil
  have hchild := t.child
  simp_all [entries]

/-- An address is read by its parent. -/
theorem AddressTree.read {β : Type} (t : AddressTree) {v tail : List UInt8} (hv : addressForm.Prints t.entries v)
    (keep : Address → β → β) (b : β) :
    NodeRead ShortKey (addressRead ShortKey) (fun _ => .init) keep (b, v ++ tail) (keep t.value b, tail) := by
  refine addressForm_reads.nodeRead t.entries_ne_nil ?_ hv
  exact t.storeAll_entries

/-- An address list. -/
structure AddressListTree where
  addresses : List AddressTree
  oblb : Option Bool
  oblbStrategy : Option Strategy
  child : addresses ≠ [] ∨ oblb.isSome ∨ oblbStrategy.isSome

inductive AddressListEntry where
  | address (t : AddressTree)
  | oblb (on : Bool)
  | oblbStrategy (o : Strategy)

def addressListForm : Form AddressListEntry AddressList where
  kinds
    | .address _ => [.address]
    | .oblb _ => [.oblb]
    | .oblbStrategy _ => [.oblbStrategy]
  prints
    | .address t => addressForm.Prints t.entries
    | .oblb on => PrintsWord (switchWord on)
    | .oblbStrategy o => PrintsWord o.word
  store
    | .address t => fun list => { list with address := list.address ++ [t.value] }
    | .oblb on => fun list => { list with oblb := on }
    | .oblbStrategy o => fun list => { list with oblbStrategy := o.option }

theorem addressListForm_reads : addressListForm.ReadsAlways (addressListRead ShortKey) := by
  refine Form.readsAlways ?_ ?_
  · intro b c keyType hkeyType v tail hv htail
    rcases c with t | on | o <;> obtain rfl := mem_singleton.1 hkeyType <;> dsimp only [addressListRead]
    · exact t.read hv _ b
    · exact switch_read hv htail _ b
    · exact strategy_read hv htail _ b
  · intro b c c' hne
    cases c <;> cases c' <;> first | rfl | exact absurd rfl hne

def AddressListTree.entries (t : AddressListTree) : List AddressListEntry :=
  t.addresses.map .address ++ t.oblb.toList.map .oblb ++ t.oblbStrategy.toList.map .oblbStrategy

/-- The address list: what is given, and the values of `ObClientAddressListInit` for the rest. -/
def AddressListTree.value (t : AddressListTree) : AddressList where
  address := t.addresses.map AddressTree.value
  oblb := t.oblb.getD AddressList.init.oblb
  oblbStrategy := (t.oblbStrategy.map Strategy.option).getD AddressList.init.oblbStrategy

/-- Addresses are put behind each other. -/
theorem storeAll_addresses (ts : List AddressTree) (list : AddressList) :
    addressListForm.storeAll (ts.map .address) list =
      { list with address := list.address ++ ts.map AddressTree.value } := by
  induction ts generalizing list with
  | nil => rw [map_nil, map_nil, append_nil]; rfl
  | cons t ts ih =>
    refine (ih { list with address := list.address ++ [t.value] }).trans ?_
    rw [map_cons, append_assoc, singleton_append]

theorem AddressListTree.storeAll_entries (t : AddressListTree) :
    addressListForm.storeAll t.entries AddressList.init = t.value := by
  obtain ⟨addresses, oblb, oblbStrategy, -⟩ := t
  rw [AddressListTree.entries, Form.storeAll_append, Form.storeAll_append, storeAll_addresses]
  cases oblb <;> cases oblbStrategy <;> rfl

theorem AddressListTree.entries_ne_nil (t : AddressListTree) : t.entries ≠ [] := by
  intro hnil
  have hchild := t.child
  simp_all [entries]

/-! ## The black list -/

/-- The strategy by which a server leaves the black list. -/
structure RemoveStrategyTree where
  name : Option RemoveStrategy
  timeout : Option Number
  child : name.isSome ∨ timeout.isSome

inductive RemoveStrategyEntry where
  | name (o : RemoveStrategy)
  | timeout (n : Number)

def removeStrategyForm : Form RemoveStrategyEntry BlacklistConf where
  kinds
    | .name _ => [.name]
    | .timeout _ => [.timeout]
  prints
    | .name .timeout => PrintsWord "TIMEOUT"
    | .timeout n => PrintsLong n
  store
    | .name .timeout => fun conf => { conf with removeStrategy := .timeout }
    | .timeout n => fun conf => { conf with removeTimeout := n.toNat }

theorem removeStrategyForm_reads : removeStrategyForm.ReadsAlways (removeStrategyRead ShortKey) := by
  refine Form.readsAlways ?_ ?_
  · intro b c keyType hkeyType v tail hv htail
    rcases c with ⟨⟨⟩⟩ | n <;> obtain rfl := mem_singleton.1 hkeyType <;> dsimp only [removeStrategyRead]
    · exact wordRead_of_prints hv htail (by decide +kernel) [] []
        (by simp) b
    · exact numberRead_of_prints hv htail _ b
  · intro b c c' hne
    cases c <;> cases c' <;> first | rfl | exact absurd rfl hne

def RemoveStrategyTree.entries (t : RemoveStrategyTree) : List RemoveStrategyEntry :=
  t.name.toList.map .name ++ t.timeout.toList.map .timeout

/-- What is given is stored; the rest is left as it is. -/
def RemoveStrategyTree.apply (t : RemoveStrategyTree) (conf : BlacklistConf) : BlacklistConf :=
  { conf with
    removeStrategy := t.name.elim conf.removeStrategy fun _ => .timeout
    removeTimeout := (t.timeout.map Number.toNat).getD conf.removeTimeout }

theorem RemoveStrategyTree.storeAll_entries (t : RemoveStrategyTree) (conf : BlacklistConf) :
    removeStrategyForm.storeAll t.entries conf = t.apply conf := by
  obtain ⟨name | name, timeout | timeout, -⟩ := t <;> rfl

theorem RemoveStrategyTree.entries_ne_nil (t : RemoveStrategyTree) : t.entries ≠ [] := by
  intro hnil
  have hchild := t.child
  simp_all [entries]

/-- The strategy by which a server comes on the black list. -/
structure AppendStrategyTree where
  name : Option AppendStrategy
  retryTimes : Option Number
  duration : Option Number
  child : name.isSome ∨ retryTimes.isSome ∨ duration.isSome

inductive AppendStrategyEntry where
  | name (o : AppendStrategy)
  | retryTimes (n : Number)
  | duration (n : Number)

def appendStrategyForm : Form AppendStrategyEntry BlacklistConf where
  kinds
    | .name _ => [.name]
    | .retryTimes _ => [.retryTimes]
    | .duration _ => [.duration]
  prints
    | .name o => PrintsWord o.word
    | .retryTimes n => PrintsLong n
    | .duration n => PrintsLong n
  store
    | .name o => fun conf => { conf with appendStrategy := o.option }
    | .retryTimes n => fun conf => { conf with retryTimes := n.toNat }
    | .duration n => fun conf => { conf with duration := n.toNat }

theorem appendStrategyForm_reads : appendStrategyForm.ReadsAlways (appendStrategyRead ShortKey) := by
  refine Form.readsAlways ?_ ?_
  · intro b c keyType hkeyType v tail hv htail
    rcases c with (_ | _) | n | n <;> obtain rfl := mem_singleton.1 hkeyType <;> dsimp only [appendStrategyRead]
    · exact wordRead_of_prints hv htail (by decide +kernel) []
        [("NORMAL", fun conf => { conf with appendStrategy := .normal })]
        (by simp) b
    · exact wordRead_of_prints hv htail (by decide +kernel)
        [("RETRYDURATION", fun conf => { conf with appendStrategy := .retryDuration })] []
        (by decide +kernel) b
    · exact numberRead_of_prints hv htail _ b
    · exact numberRead_of_prints hv htail _ b
  · intro b c c' hne
    cases c <;> cases c' <;> first | rfl | exact absurd rfl hne

def AppendStrategyTree.entries (t : AppendStrategyTree) : List AppendStrategyEntry :=
  t.name.toList.map .name ++ t.retryTimes.toList.map .retryTimes ++ t.duration.toList.map .duration

/-- What is given is stored; the rest is left as it is. -/
def AppendStrategyTree.apply (t : AppendStrategyTree) (conf : BlacklistConf) : BlacklistConf :=
  { conf with
    appendStrategy := (t.name.map AppendStrategy.option).getD conf.appendStrategy
    retryTimes := (t.retryTimes.map Number.toNat).getD conf.retryTimes
    duration := (t.duration.map Number.toNat).getD conf.duration }

theorem AppendStrategyTree.storeAll_entries (t : AppendStrategyTree) (conf : BlacklistConf) :
    appendStrategyForm.storeAll t.entries conf = t.apply conf := by
  obtain ⟨name | name, retryTimes | retryTimes, duration | duration, -⟩ := t <;> rfl

theorem AppendStrategyTree.entries_ne_nil (t : AppendStrategyTree) : t.entries ≠ [] := by
  intro hnil
  have hchild := t.child
  simp_all [entries]

/-- Both strategies of the black list. -/
structure BlacklistTree where
  removeStrategy : Option RemoveStrategyTree
  appendStrategy : Option AppendStrategyTree
  child : removeStrategy.isSome ∨ appendStrategy.isSome

inductive BlacklistEntry where
  | removeStrategy (t : RemoveStrategyTree)
  | appendStrategy (t : AppendStrategyTree)

def blacklistForm : Form BlacklistEntry BlacklistConf where
  kinds
    | .removeStrategy _ => [.removeStrategy]
    | .appendStrategy _ => [.appendStrategy]
  prints
    | .removeStrategy t => removeStrategyForm.Prints t.entries
    | .appendStrategy t => appendStrategyForm.Prints t.entries
  store
    | .removeStrategy t => t.apply
    | .appendStrategy t => t.apply

theorem blacklistForm_reads : blacklistForm.ReadsAlways (blacklistConfRead ShortKey) := by
  refine Form.readsAlways ?_ ?_
  · intro b c keyType hkeyType v tail hv htail
    rcases c with t | t <;> obtain rfl := mem_singleton.1 hkeyType <;> dsimp only [blacklistConfRead]
    · refine removeStrategyForm_reads.nodeRead t.entries_ne_nil ?_ hv
      exact t.storeAll_entries _
    · refine appendStrategyForm_reads.nodeRead t.entries_ne_nil ?_ hv
      exact t.storeAll_entries _
  · intro b c c' hne
    cases c <;> cases c' <;> first | rfl | exact absurd rfl hne

def BlacklistTree.entries (t : BlacklistTree) : List BlacklistEntry :=
  t.removeStrategy.toList.map .removeStrategy ++ t.appendStrategy.toList.map .appendStrategy

/-- What is given is stored; the rest is left as it is. -/
def BlacklistTree.apply (t : BlacklistTree) (conf : BlacklistConf) : BlacklistConf :=
  t.appendStrategy.elim id AppendStrategyTree.apply (t.removeStrategy.elim id RemoveStrategyTree.apply conf)

theorem BlacklistTree.storeAll_entries (t : BlacklistTree) (conf : BlacklistConf) :
    blacklistForm.storeAll t.entries conf = t.apply conf := by
  obtain ⟨removeStrategy | removeStrategy, appendStrategy | appendStrategy, -⟩ := t <;> rfl

theorem BlacklistTree.entries_ne_nil (t : BlacklistTree) : t.entries ≠ [] := by
  intro hnil
  have hchild := t.child
  simp_all [entries]

/-! ## Connect data -/

/-- The connect data. -/
structure ConnectDataTree where
  serviceName : Option QuotedString
  userExtraInfo : Option QuotedString
  sessionVariable : Option QuotedString
  obMode : Option Number
  useDefaultSid : Option Number
  obEnableSsl : Option Number
  child : serviceName.isSome ∨ userExtraInfo.isSome ∨ sessionVariable.isSome ∨ obMode.isSome ∨
    useDefaultSid.isSome ∨ obEnableSsl.isSome

inductive ConnectDataEntry where
  | serviceName (s : QuotedString)
  | userExtraInfo (s : QuotedString)
  | sessionVariable (s : QuotedString)
  | obMode (n : Number)
  | useDefaultSid (n : Number)
  | obEnableSsl (n : Number)

/-- The service has two keys. -/
def connectDataForm : Form ConnectDataEntry ConnectData where
  kinds
    | .serviceName _ => [.serviceName, .sid]
    | .userExtraInfo _ => [.extraInfo]
    | .sessionVariable _ => [.sessionVariable]
    | .obMode _ => [.obMode]
    | .useDefaultSid _ => [.useDefaultSid]
    | .obEnableSsl _ => [.obEnableSsl]
  prints
    | .serviceName s => PrintsQuoted s.bytes
    | .userExtraInfo s => PrintsQuoted s.bytes
    | .sessionVariable s => PrintsQuoted s.bytes
    | .obMode n => PrintsLong n
    | .useDefaultSid n => PrintsLong n
    | .obEnableSsl n => PrintsLong n
  store
    | .serviceName s => fun data =>
      { data with serviceName := ⟨overwrite data.serviceName.bytes s.bytes, s.bytes.length⟩ }
    | .userExtraInfo s => fun data =>
      { data with userExtraInfo := ⟨overwrite data.userExtraInfo.bytes s.bytes, s.bytes.length⟩ }
    | .sessionVariable s => fun data =>
      { data with sessionVariable := ⟨overwrite data.sessionVariable.bytes s.bytes, s.bytes.length⟩ }
    | .obMode n => fun data => { data with obMode := n.toNat }
    | .useDefaultSid n => fun data => { data with useDefaultSid := n.toNat }
    | .obEnableSsl n => fun data => { data with obEnableSsl := n.toNat }

theorem connectDataForm_reads : connectDataForm.ReadsAlways (connectDataRead ShortKey) := by
  refine Form.readsAlways ?_ ?_
  · intro b c keyType hkeyType v tail hv htail
    rcases c with s | s | s | n | n | n
    · rcases mem_pair.1 hkeyType with rfl | rfl <;> dsimp only [connectDataRead] <;> exact quoted_read hv htail _ b
    all_goals obtain rfl := mem_singleton.1 hkeyType
    all_goals dsimp only [connectDataRead]
    · exact quoted_read hv htail _ b
    · exact quoted_read hv htail _ b
    all_goals exact numberRead_of_prints hv htail _ b
  · intro b c c' hne
    cases c <;> cases c' <;> first | rfl | exact absurd rfl hne

def ConnectDataTree.entries (t : ConnectDataTree) : List ConnectDataEntry :=
  t.serviceName.toList.map .serviceName ++ t.userExtraInfo.toList.map .userExtraInfo ++
    t.sessionVariable.toList.map .sessionVariable ++ t.obMode.toList.map .obMode ++
    t.useDefaultSid.toList.map .useDefaultSid ++ t.obEnableSsl.toList.map .obEnableSsl

/-- The connect data: what is given, and the values of `ObClientConnectDataInit` for the rest. -/
def ConnectDataTree.value (t : ConnectDataTree) : ConnectData where
  serviceName := t.serviceName.elim ConnectData.init.serviceName fun s => .of 257 s.bytes
  userExtraInfo := t.userExtraInfo.elim ConnectData.init.userExtraInfo fun s => .of 256 s.bytes
  sessionVariable := t.sessionVariable.elim ConnectData.init.sessionVariable fun s => .of 256 s.bytes
  obMode := (t.obMode.map Number.toNat).getD ConnectData.init.obMode
  useDefaultSid := (t.useDefaultSid.map Number.toNat).getD ConnectData.init.useDefaultSid
  obEnableSsl := (t.obEnableSsl.map Number.toNat).getD ConnectData.init.obEnableSsl

theorem ConnectDataTree.storeAll_entries (t : ConnectDataTree) :
    connectDataForm.storeAll t.entries ConnectData.init = t.value := by
  obtain ⟨serviceName, userExtraInfo, sessionVariable, obMode, useDefaultSid, obEnableSsl, -⟩ := t
  cases serviceName <;> cases userExtraInfo <;> cases sessionVariable <;> cases obMode <;> cases useDefaultSid <;>
    cases obEnableSsl <;> rfl

theorem ConnectDataTree.entries_ne_nil (t : ConnectDataTree) : t.entries ≠ [] := by
  intro hnil
  have hchild := t.child
  simp_all [entries]

/-! ## Descriptions -/

/-- A description; `addresses` are those that are given without a list. -/
structure DescriptionTree where
  oblb : Option Bool
  oblbStrategy : Option Strategy
  oblbGroupStrategy : Option GroupStrategy
  retryAllDowns : Option Number
  retryTimeout : Option Number
  connectTimeout : Option Number
  readTimeout : Option Number
  writeTimeout : Option Number
  blacklist : Option BlacklistTree
  connectData : Option ConnectDataTree
  addressLists : List AddressListTree
  addresses : List AddressTree
  child : oblb.isSome ∨ oblbStrategy.isSome ∨ oblbGroupStrategy.isSome ∨ retryAllDowns.isSome ∨
    retryTimeout.isSome ∨ connectTimeout.isSome ∨ readTimeout.isSome ∨ writeTimeout.isSome ∨ blacklist.isSome ∨
    connectData.isSome ∨ addressLists ≠ [] ∨ addresses ≠ []

inductive DescriptionEntry where
  | oblb (on : Bool)
  | oblbStrategy (o : Strategy)
  | oblbGroupStrategy (o : GroupStrategy)
  | retryAllDowns (n : Number)
  | retryTimeout (n : Number)
  | connectTimeout (n : Number)
  | readTimeout (n : Number)
  | writeTimeout (n : Number)
  | blacklist (t : BlacklistTree)
  | connectData (t : ConnectDataTree)
  | addressList (t : AddressListTree)
  | address (t : AddressTree)

/-- An address outside a list is put into the first one. -/
def Description.addAddress (a : Address) (des : Description) : Description :=
  { des with
    addressList := des.addressList.set 0
      { des.addressList.headD .init with address := (des.addressList.headD .init).address ++ [a] } }

def descriptionForm : Form DescriptionEntry Description where
  kinds
    | .oblb _ => [.oblb]
    | .oblbStrategy _ => [.oblbStrategy]
    | .oblbGroupStrategy _ => [.oblbGroupStrategy]
    | .retryAllDowns _ => [.oblbRetryAllDowns]
    | .retryTimeout _ => [.oblbRetryTimeout]
    | .connectTimeout _ => [.connectTimeout]
    | .readTimeout _ => [.readTimeout]
    | .writeTimeout _ => [.writeTimeout]
    | .blacklist _ => [.oblbBlacklist]
    | .connectData _ => [.connectData]
    | .addressList _ => [.addressList]
    | .address _ => [.address]
  prints
    | .oblb on => PrintsWord (switchWord on)
    | .oblbStrategy o => PrintsWord o.word
    | .oblbGroupStrategy .rotation => PrintsWord "ROTATION"
    | .retryAllDowns n => PrintsLong n
    | .retryTimeout n => PrintsLong n
    | .connectTimeout n => PrintsLong n
    | .readTimeout n => PrintsLong n
    | .writeTimeout n => PrintsLong n
    | .blacklist t => blacklistForm.Prints t.entries
    | .connectData t => connectDataForm.Prints t.entries
    | .addressList t => addressListForm.Prints t.entries
    | .address t => addressForm.Prints t.entries
  store
    | .oblb on => fun des => { des with oblb := on }
    | .oblbStrategy o => fun des => { des with oblbStrategy := o.option }
    | .oblbGroupStrategy .rotation => fun des => { des with oblbGroupStrategy := .groupRotation }
    | .retryAllDowns n => fun des => { des with retryAllDowns := n.toNat }
    | .retryTimeout n => fun des => { des with retryTimeout := n.toNat }
    | .connectTimeout n => fun des => { des with connectTimout := n.toNat }
    | .readTimeout n => fun des => { des with readTimout := n.toNat }
    | .writeTimeout n => fun des => { des with writeTimout := n.toNat }
    | .blacklist t => fun des => { des with blackListConf := t.apply des.blackListConf }
    | .connectData t => fun des => { des with connectData := some t.value }
    | .addressList t => fun des => { des with addressList := des.addressList ++ [t.value] }
    | .address t => Description.addAddress t.value

/-- No second connect data are to come. -/
def ConnectDataDue (entries : List DescriptionEntry) (des : Description) : Prop :=
  (entries.filter fun c => descriptionForm.kinds c = [.connectData]).length + des.connectData.toList.length ≤ 1

/-- The list for the addresses outside a list is there. -/
def HasFirstList (des : Description) : Prop := des.addressList ≠ []

theorem descriptionForm_reads : descriptionForm.Reads (descriptionRead ShortKey) HasFirstList ConnectDataDue where
  read := by
    intro c rest b hdue keyType hkeyType v tail hv htail
    rcases c with on | o | ⟨⟨⟩⟩ | n | n | n | n | n | t | t | t | t <;> obtain rfl := mem_singleton.1 hkeyType <;>
      dsimp only [descriptionRead]
    · exact switch_read hv htail _ b
    · exact strategy_read hv htail _ b
    · exact wordRead_of_prints hv htail (by decide +kernel) [] []
        (by simp) b
    iterate 5 exact numberRead_of_prints hv htail _ b
    · refine blacklistForm_reads.nodeRead t.entries_ne_nil ?_ hv
      exact t.storeAll_entries _
    · refine ⟨?_, connectDataForm_reads.nodeRead t.entries_ne_nil ?_ hv⟩
      · have hdue : _ + 1 + b.connectData.toList.length ≤ 1 := hdue
        have hnone : b.connectData.toList.length = 0 := by omega
        exact Option.toList_eq_nil_iff.1 (eq_nil_of_length_eq_zero hnone)
      · exact t.storeAll_entries
    · refine addressListForm_reads.nodeRead t.entries_ne_nil ?_ hv
      exact t.storeAll_entries
    · exact t.read hv _ b
  due := by
    intro c rest b hdue
    cases c with
    | connectData t =>
      have hdue : _ + 1 + b.connectData.toList.length ≤ 1 := hdue
      show _ + 1 ≤ 1
      omega
    | _ => exact hdue
  fine := by
    intro b c hfine
    cases c with
    | addressList t => exact append_ne_nil_of_left_ne_nil hfine _
    | address t =>
      intro hnil
      exact hfine ((set_eq_nil_iff _ _).1 hnil)
    | _ => exact hfine
  comm := by
    intro b c c' hfine hne
    obtain ⟨l, ls, hlists⟩ := exists_cons_of_ne_nil hfine
    obtain ⟨lists, connectData, oblb, retryAllDowns, connectTimout, readTimout, writeTimout, retryTimeout, oblbStrategy,
      oblbGroupStrategy, blackListConf⟩ := b
    cases hlists
    cases c <;> cases c' <;> first | rfl | exact absurd rfl hne

namespace DescriptionTree

/-- The words of a description. -/
def words (t : DescriptionTree) : List DescriptionEntry :=
  t.oblb.toList.map .oblb ++ t.oblbStrategy.toList.map .oblbStrategy ++
    t.oblbGroupStrategy.toList.map .oblbGroupStrategy

/-- The numbers of a description. -/
def numbers (t : DescriptionTree) : List DescriptionEntry :=
  t.retryAllDowns.toList.map .retryAllDowns ++ t.retryTimeout.toList.map .retryTimeout ++
    t.connectTimeout.toList.map .connectTimeout ++ t.readTimeout.toList.map .readTimeout ++
    t.writeTimeout.toList.map .writeTimeout

/-- The nodes of a description. -/
def nodes (t : DescriptionTree) : List DescriptionEntry :=
  t.blacklist.toList.map .blacklist ++ t.connectData.toList.map .connectData ++ t.addressLists.map .addressList ++
    t.addresses.map .address

def entries (t : DescriptionTree) : List DescriptionEntry := t.words ++ t.numbers ++ t.nodes

/-- The description: what is given, and the values of `ObClientDescriptionInit` for the rest. The first
address list is the one of the addresses that are given without a list. -/
def value (t : DescriptionTree) : Description where
  addressList := { AddressList.init with address := t.addresses.map AddressTree.value } ::
    t.addressLists.map AddressListTree.value
  connectData := t.connectData.map ConnectDataTree.value
  oblb := t.oblb.getD Description.init.oblb
  retryAllDowns := (t.retryAllDowns.map Number.toNat).getD Description.init.retryAllDowns
  connectTimout := (t.connectTimeout.map Number.toNat).getD Description.init.connectTimout
  readTimout := (t.readTimeout.map Number.toNat).getD Description.init.readTimout
  writeTimout := (t.writeTimeout.map Number.toNat).getD Description.init.writeTimout
  retryTimeout := (t.retryTimeout.map Number.toNat).getD Description.init.retryTimeout
  oblbStrategy := (t.oblbStrategy.map Strategy.option).getD Description.init.oblbStrategy
  oblbGroupStrategy := t.oblbGroupStrategy.elim Description.init.oblbGroupStrategy fun _ => .groupRotation
  blackListConf := t.blacklist.elim id BlacklistTree.apply Description.init.blackListConf

theorem storeAll_words (t : DescriptionTree) (des : Description) : descriptionForm.storeAll t.words des = { des with
      oblb := t.oblb.getD des.oblb
      oblbStrategy := (t.oblbStrategy.map Strategy.option).getD des.oblbStrategy
      oblbGroupStrategy := t.oblbGroupStrategy.elim des.oblbGroupStrategy fun _ => .groupRotation } := by
  rw [words]
  cases t.oblb <;> cases t.oblbStrategy <;> cases t.oblbGroupStrategy <;> rfl

theorem storeAll_numbers (t : DescriptionTree) (des : Description) :
    descriptionForm.storeAll t.numbers des = { des with
      retryAllDowns := (t.retryAllDowns.map Number.toNat).getD des.retryAllDowns
      connectTimout := (t.connectTimeout.map Number.toNat).getD des.connectTimout
      readTimout := (t.readTimeout.map Number.toNat).getD des.readTimout
      writeTimout := (t.writeTimeout.map Number.toNat).getD des.writeTimout
      retryTimeout := (t.retryTimeout.map Number.toNat).getD des.retryTimeout } := by
  rw [numbers]
  cases t.retryAllDowns <;> cases t.retryTimeout <;> cases t.connectTimeout <;> cases t.readTimeout <;>
    cases t.writeTimeout <;> rfl

theorem storeAll_addressLists (ts : List AddressListTree) (des : Description) :
    descriptionForm.storeAll (ts.map .addressList) des =
      { des with addressList := des.addressList ++ ts.map AddressListTree.value } := by
  induction ts generalizing des with
  | nil => rw [map_nil, map_nil, append_nil]; rfl
  | cons t ts ih =>
    refine (ih { des with addressList := des.addressList ++ [t.value] }).trans ?_
    rw [map_cons, append_assoc, singleton_append]

/-- Addresses without a list are put into the first one. -/
theorem storeAll_firstAddresses (ts : List AddressTree) (list : AddressList) (lists : List AddressList)
    {des : Description} (h : des.addressList = list :: lists) :
    descriptionForm.storeAll (ts.map .address) des =
      { des with addressList := { list with address := list.address ++ ts.map AddressTree.value } :: lists } := by
  induction ts generalizing des list with
  | nil => rw [map_nil, map_nil, append_nil, ← h]; rfl
  | cons t ts ih =>
    have hadd : des.addAddress t.value =
        { des with addressList := { list with address := list.address ++ [t.value] } :: lists } := by
      rw [Description.addAddress, h]
      rfl
    have hstep : descriptionForm.storeAll ((t :: ts).map .address) des =
        descriptionForm.storeAll (ts.map .address) (des.addAddress t.value) := rfl
    rw [hstep, hadd, ih _ rfl, map_cons, append_assoc, singleton_append]

theorem storeAll_entries (t : DescriptionTree) : descriptionForm.storeAll t.entries Description.init = t.value := by
  rw [entries, Form.storeAll_append, Form.storeAll_append, storeAll_words, storeAll_numbers, nodes,
    Form.storeAll_append, Form.storeAll_append, storeAll_addressLists]
  rw [value]
  cases t.blacklist <;> cases t.connectData <;>
    exact storeAll_firstAddresses t.addresses .init (t.addressLists.map AddressListTree.value) rfl

theorem entries_ne_nil (t : DescriptionTree) : t.entries ≠ [] := by
  intro hnil
  have hchild := t.child
  simp_all [entries, words, numbers, nodes]

/-- Entries of other kinds do not count. -/
theorem filter_kind {α : Type} (c : α → DescriptionEntry) (kinds : List KeyType)
    (h : ∀ a, descriptionForm.kinds (c a) ≠ kinds) (as : List α) :
    (as.map c).filter (fun c => descriptionForm.kinds c = kinds) = [] := by
  rw [filter_eq_nil_iff]
  intro e he
  obtain ⟨a, -, rfl⟩ := mem_map.1 he
  exact fun hkinds => h a (of_decide_eq_true hkinds)

/-- A description has at most one connect data. -/
theorem connectDataDue (t : DescriptionTree) {order : List DescriptionEntry}
    (h : Arranged descriptionForm.kinds order t.entries) : ConnectDataDue order Description.init := by
  rw [ConnectDataDue, h]
  simp only [entries, words, numbers, nodes, filter_append]
  rw [filter_kind .oblb, filter_kind .oblbStrategy, filter_kind .oblbGroupStrategy, filter_kind .retryAllDowns,
    filter_kind .retryTimeout, filter_kind .connectTimeout, filter_kind .readTimeout, filter_kind .writeTimeout,
    filter_kind .blacklist, filter_kind .addressList, filter_kind .address]
  · cases t.connectData with
    | none => exact Nat.zero_le 1
    | some data => exact Nat.le_refl 1
  all_goals exact fun _ h => nomatch h

end DescriptionTree

/-! ## Round trip -/

/-- A description tree as text: one pair, and blanks behind it. -/
def PrintsDescription (t : DescriptionTree) (text : List UInt8) : Prop :=
  ∃ pair g, PrintsPair [.description] (descriptionForm.Prints t.entries) pair ∧ Gap g ∧ text = pair ++ g

theorem describedAs_of_prints {t : DescriptionTree} {text : List UInt8} (h : PrintsDescription t text) :
    DescribedAs ShortKey text t.value := by
  obtain ⟨pair, g, hpair, hg, rfl⟩ := h
  obtain ⟨keyType, hkeyType, v, g', hv, hg', hopens⟩ := hpair.opens
  obtain rfl := mem_singleton.1 hkeyType
  refine ⟨_, g' ++ 41 :: g, g, hopens g, ?_, sign_gap hg' (by decide) (by decide) g, ?_⟩
  · rw [← t.storeAll_entries]
    exact descriptionForm_reads.node t.entries_ne_nil (show HasFirstList .init from cons_ne_nil _ _)
      (fun _ h => t.connectDataDue h) hv _
  · have hskip : skipBlanks (g ++ []) = [] := skipBlanks_append hg []
    rw [append_nil] at hskip
    exact tokenAt_eq_none.2 hskip

/-- **A printed description is read back.** Whatever blanks stand between the tokens, whatever the case of
the keywords, in whatever order the entries of different kinds stand, and in whatever pieces the text is
read: the description that is found is the tree. -/
theorem description_roundTrip (t : DescriptionTree) (pieces : List (List UInt8)) (hpieces : ∀ p ∈ pieces, p ≠ [])
    (h : PrintsDescription t pieces.flatten) :
    ∃ service, buildDescription pieces = some ⟨0, true, ⟨some service, 1⟩⟩ ∧ service.description = [t.value] :=
  buildDescription_complete hpieces (describedAs_of_prints h)

/-- An address without a list, and the switch. -/
def sampleTree : DescriptionTree where
  oblb := some true
  oblbStrategy := none
  oblbGroupStrategy := none
  retryAllDowns := none
  retryTimeout := none
  connectTimeout := none
  readTimeout := none
  writeTimeout := none
  blacklist := none
  connectData := none
  addressLists := []
  addresses := [⟨none, some ⟨ascii "h (1)", by decide +kernel, by decide +kernel, by decide +kernel, by decide +kernel⟩,
    some ⟨2883, by decide⟩, none, .inr (.inl rfl)⟩]
  child := .inl rfl

def samplePair : List UInt8 := ascii "( description = (OBLB=on) (Address=(host=\"h (1)\") (PORT= 2883)) )"

theorem samplePair_prints : PrintsPair [.description] (descriptionForm.Prints sampleTree.entries) samplePair := by
  have hhost : PrintsPair [.host] (PrintsQuoted (ascii "h (1)")) (ascii "(host=\"h (1)\")") :=
    ⟨.host, by decide, "HOST", by decide, ascii "host", [], [], [], [], ascii "\"h (1)\"", by decide +kernel,
      gap_nil, gap_nil, gap_nil, gap_nil, ⟨[], gap_nil, by decide +kernel⟩, by decide +kernel⟩
  have hport : PrintsPair [.port] (PrintsLong ⟨2883, by decide⟩) (ascii " (PORT= 2883)") :=
    ⟨.port, by decide, "PORT", by decide, ascii "PORT", ascii " ", [], [], [], ascii " 2883", by decide +kernel,
      by decide +kernel, gap_nil, gap_nil, gap_nil, ⟨ascii " ", by decide +kernel, by decide +kernel⟩,
      by decide +kernel⟩
  have hoblb : PrintsPair [.oblb] (PrintsWord "ON") (ascii " (OBLB=on)") :=
    ⟨.oblb, by decide, "OBLB", by decide, ascii "OBLB", ascii " ", [], [], [], ascii "on", by decide +kernel,
      by decide +kernel, gap_nil, gap_nil, gap_nil, ⟨[], ascii "on", gap_nil, by decide +kernel, rfl⟩,
      by decide +kernel⟩
  have haddress : ∀ t ∈ sampleTree.addresses,
      PrintsPair [.address] (addressForm.Prints t.entries) (ascii " (Address=(host=\"h (1)\") (PORT= 2883))") := by
    intro t ht
    obtain rfl := mem_singleton.1 ht
    exact ⟨.address, by decide, "ADDRESS", by decide, ascii "Address", ascii " ", [], [], [],
      [ascii "(host=\"h (1)\")", ascii " (PORT= 2883)"].flatten, by decide +kernel, by decide +kernel, gap_nil,
      gap_nil, gap_nil, ⟨_, _, .refl _, .cons hhost (.cons hport .nil), rfl⟩, by decide +kernel⟩
  exact ⟨.description, by decide, "DESCRIPTION", by decide, ascii "description", [], ascii " ", ascii " ", ascii " ",
    [ascii " (OBLB=on)", ascii " (Address=(host=\"h (1)\") (PORT= 2883))"].flatten, by decide +kernel, gap_nil,
    by decide +kernel, by decide +kernel, by decide +kernel,
    ⟨_, _, .refl _, .cons hoblb (.cons (haddress _ mem_cons_self) .nil), rfl⟩, by decide +kernel⟩

theorem sampleTree_roundTrip : PrintsDescription sampleTree [samplePair].flatten ∧
      ∃ service, buildDescription [samplePair] = some ⟨0, true, ⟨some service, 1⟩⟩ ∧
        service.description = [sampleTree.value] := by
  have hprints : PrintsDescription sampleTree [samplePair].flatten :=
    ⟨samplePair, [], samplePair_prints, gap_nil, rfl⟩
  exact ⟨hprints, description_roundTrip sampleTree [samplePair] (by decide +kernel) hprints⟩

/-- A number of `2 ^ 63` is read as the number below it, and of a text with a NUL in it only what is in
front of the NUL. -/
theorem number_saturated :
    (buildDescription [ascii "(DESCRIPTION=(OBLB_RETRY_TIMEOUT=9223372036854775808))"]).map
        (fun o => (o.ret, o.descriptions.map Description.retryTimeout)) = some (0, [9223372036854775807]) ∧
      (buildDescription [ascii "(DESCRIPTION=(CONNECT_DATA=(SERVICE_NAME=\"a" ++ 0 :: ascii "b\")))"]).map
        (fun o => (o.ret, o.descriptions.map fun des => des.connectData.map fun data => data.serviceName.bytes.take 3)) =
        some (0, [some [97, 0, 0]]) := by
  refine ⟨?_, ?_⟩ <;> decide +kernel

end ObConnector.Tns
