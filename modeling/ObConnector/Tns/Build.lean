/-
# ObConnector.Tns.Build -- looking a service up in a tnsnames file.

The file is a sequence of `name = (KEY=…)(KEY=…)…`, and a value is a word, a number or again a sequence
of pairs in parentheses. Each kind of node has a function that builds it. All but one of them are the same
loop over pairs (`buildPairs`), and differ in which keys they know and what each key does. They know where
to stop by the kind of the last token: a failure right behind a closing parenthesis is the end of the
node, any other failure is an error.

The functions reach the file through the tokenizer alone, so they are written as `Dialogue`s with it.
What they keep of the parameters is `Params`; `ret` is the variable of that name in each function, which
starts at zero and is set by the call of a nested function. Memory is always there: `malloc` and `realloc`
do not fail.
-/
import ObConnector.Lib.Decimal
import ObConnector.LoadBalance.AddressList
import ObConnector.Tns.Tokens

namespace ObConnector.Tns

open Lib
open LoadBalance (ObClientLBOption)

/-! ## What is built -/

/-- A text in a field of fixed size, and its length in a field of its own. -/
structure Text where
  bytes : List UInt8
  len : Nat
  deriving DecidableEq, Repr

/-- A zeroed field. -/
def Text.empty (size : Nat) : Text := ⟨List.replicate size 0, 0⟩

/-- `ObClientAddress`. -/
structure Address where
  host : Text
  protocol : Text
  port : Nat
  weight : Nat
  deriving DecidableEq, Repr

/-- `ObClientAddressInit`. -/
def Address.init : Address := ⟨.empty 257, .empty 6, 0, 1⟩

/-- `ObClientAddressList`. -/
structure AddressList where
  address : List Address
  oblb : Bool
  oblbStrategy : ObClientLBOption
  deriving DecidableEq, Repr

/-- `ObClientAddressListInit`. -/
def AddressList.init : AddressList := ⟨[], false, .groupRotation⟩

/-- `ObClientConnectData`. -/
structure ConnectData where
  serviceName : Text
  userExtraInfo : Text
  sessionVariable : Text
  obMode : Nat
  useDefaultSid : Nat
  obEnableSsl : Nat
  deriving DecidableEq, Repr

/-- `ObClientConnectDataInit`. -/
def ConnectData.init : ConnectData := ⟨.empty 257, .empty 256, .empty 256, 0, 0, 0⟩

/-- `ObClientBlacklistConf`. -/
structure BlacklistConf where
  removeStrategy : ObClientLBOption
  removeTimeout : Nat
  appendStrategy : ObClientLBOption
  retryTimes : Nat
  duration : Nat
  deriving DecidableEq, Repr

/-- `ObClientBlacklistConfInit`. -/
def BlacklistConf.init : BlacklistConf := ⟨.timeout, 50, .normal, 1, 10⟩

/-- `ObClientDescription`. -/
structure Description where
  addressList : List AddressList
  connectData : Option ConnectData
  oblb : Bool
  retryAllDowns : Nat
  connectTimout : Nat
  readTimout : Nat
  writeTimout : Nat
  retryTimeout : Nat
  oblbStrategy : ObClientLBOption
  oblbGroupStrategy : ObClientLBOption
  blackListConf : BlacklistConf
  deriving DecidableEq, Repr

/-- `ObClientDescriptionInit`: the first address list takes the addresses that stand outside a list. -/
def Description.init : Description :=
  ⟨[.init], none, false, 120, 0, 0, 0, 10000, .groupRotation, .groupRotation, .init⟩

/-- `ObClientTnsService`. -/
structure Service where
  description : List Description
  sysVars : Text
  netServiceName : Text
  deriving DecidableEq, Repr

/-- `ObClientTnsServiceInit`. -/
def Service.init (name : List UInt8) (nameSize : Nat) : Service :=
  ⟨[], .empty 257, ⟨overwrite (List.replicate 1024 0) (strncpy name (min nameSize 1024)), nameSize⟩⟩

/-- `ObClientTns`. -/
structure ObClientTns where
  tnsService : Option Service
  tnsServiceCount : Nat
  deriving DecidableEq, Repr

/-! ## Keys -/

/-- `ObClientLBKeyType`. -/
inductive KeyType where
  | errorKey
  | description
  | oblb
  | connectTimeout
  | readTimeout
  | writeTimeout
  | oblbGroupStrategy
  | oblbRetryAllDowns
  | oblbRetryTimeout
  | oblbBlacklist
  | removeStrategy
  | name
  | timeout
  | appendStrategy
  | retryTimes
  | duration
  | addressList
  | oblbStrategy
  | address
  | protocol
  | host
  | port
  | weight
  | connectData
  | serviceName
  | sid
  | extraInfo
  | obMode
  | useDefaultSid
  | sessionVariable
  | obEnableSsl
  deriving DecidableEq, Repr

/-- `tns_key_array` and `tns_keytype_array`: the keys of each length. -/
def tnsKeyArray : Nat → List (String × KeyType)
  | 3 => [("SID", .sid)]
  | 4 => [("OBLB", .oblb), ("HOST", .host), ("PORT", .port), ("NAME", .name)]
  | 6 => [("WEIGHT", .weight)]
  | 7 => [("ADDRESS", .address), ("TIMEOUT", .timeout), ("OB_MODE", .obMode)]
  | 8 => [("PROTOCOL", .protocol), ("DURATION", .duration)]
  | 10 => [("RETRYTIMES", .retryTimes)]
  | 11 => [("DESCRIPTION", .description), ("RETRY_TIMES", .retryTimes)]
  | 12 => [("ADDRESS_LIST", .addressList), ("CONNECT_DATA", .connectData), ("SERVICE_NAME", .serviceName)]
  | 13 => [("OBLB_STRATEGY", .oblbStrategy), ("OB_ENABLE_SSL", .obEnableSsl)]
  | 14 => [("OBLB_BLACKLIST", .oblbBlacklist)]
  | 15 => [("REMOVE_STRATEGY", .removeStrategy), ("APPEND_STRATEGY", .appendStrategy),
      ("USE_DEFAULT_SID", .useDefaultSid)]
  | 16 => [("SESSION_VARIABLE", .sessionVariable)]
  | 17 => [("OBLB_READ_TIMEOUT", .readTimeout)]
  | 18 => [("OB_USER_EXTRA_INFO", .extraInfo), ("OBLB_RETRY_TIMEOUT", .oblbRetryTimeout),
      ("OBLB_WRITE_TIMEOUT", .writeTimeout)]
  | 19 => [("OBLB_GROUP_STRATEGY", .oblbGroupStrategy), ("OB_SESSION_VARIABLE", .sessionVariable)]
  | 20 => [("OBLB_RETRY_ALL_DOWNS", .oblbRetryAllDowns), ("OBLB_CONNECT_TIMEOUT", .connectTimeout)]
  | _ => []

/-- What a building function sees of `ObClientTnsParseParams`, and its `ret`. -/
structure Params where
  ret : Int
  isEof : Bool
  tnsKey : List UInt8
  tnsKeyLen : Nat
  tnsTokenType : TokenType
  keyType : KeyType

/-- The parameters, zeroed. -/
def Params.init : Params := ⟨0, false, List.replicate tnsKeySize 0, 0, .equalSign, .errorKey⟩

/-- `ObClientTnsGetKeyType`: the last entry that fits. -/
def getKeyType (p : Params) : KeyType :=
  (tnsKeyArray p.tnsKeyLen).foldl
    (fun found entry =>
      if strncasecmpSame p.tnsKey (ascii entry.1) p.tnsKeyLen then entry.2 else found) .errorKey

/-- `TNS_GET_KEY_TYPE`. -/
def tnsGetKeyType (p : Params) : Params :=
  if p.ret ≠ 0 then p
  else
    let p := { p with keyType := getKeyType p }
    if p.keyType = .errorKey then { p with ret := -1 } else p

/-! ## Tokens and values -/

/-- A program that talks to the tokenizer. -/
abbrev Parsing (α : Type) := Dialogue TnsCall TnsReply α

/-- What is known after an answer. -/
def Params.update (p : Params) (r : TnsReply) : Params :=
  ⟨r.ret, r.isEof, r.tnsKey, r.tnsKeyLen, r.tnsTokenType, p.keyType⟩

/-- A call of the tokenizer, unless something has failed. -/
def tnsCall (c : TnsCall) (p : Params) : Parsing Params :=
  if p.ret = 0 then .ask c fun r => .done (p.update r) else .done p

/-- `TNS_PARSE`. -/
def tnsParse (expectType : TokenType) (p : Params) : Parsing Params := tnsCall (.parse expectType) p

@[simp] theorem tnsParse_failed {expectType : TokenType} {p : Params} (h : p.ret ≠ 0) :
    tnsParse expectType p = .done p := if_neg h

@[simp] theorem tnsGetKeyType_failed {p : Params} (h : p.ret ≠ 0) : tnsGetKeyType p = p := if_pos h

/-- The key that was read is `word`, as far as it goes. -/
def Params.keyIs (p : Params) (word : String) : Bool := strncasecmpSame p.tnsKey (ascii word) p.tnsKeyLen

section Values

variable {β : Type}

/-- A value that is one of some words. -/
def parseWord (words : List (String × (β → β))) (p : Params) (b : β) : Parsing (Params × β) := do
  let p ← tnsParse .key p
  match words.find? fun word => p.keyIs word.1 with
  | some word => return (p, word.2 b)
  | none => return ({ p with ret := -1 }, b)

/-- `TNS_PARSE_INTRGER_VALUE`: the value is stored whatever was read. -/
def parseInteger (store : Nat → β → β) (p : Params) (b : β) : Parsing (Params × β) := do
  let p ← tnsParse .key p
  let (value, used) := strtoll (p.tnsKey.take p.tnsKeyLen)
  let b := store (value % 2 ^ 64).toNat b
  return (if p.tnsKeyLen ≠ used then { p with ret := -1 } else p, b)

/-- `TNS_PARSE_STRING_VALUE`: a value that is too long is passed over. -/
def parseString (limit : Nat) (store : (Text → Text) → β → β) (p : Params) (b : β) :
    Parsing (Params × β) := do
  let p ← tnsParse .key p
  if p.ret = 0 ∧ p.tnsKeyLen ≤ limit then
    return (p, store (fun t => ⟨overwrite t.bytes (strncpy p.tnsKey p.tnsKeyLen), p.tnsKeyLen⟩) b)
  else return (p, b)

/-- The key is not one of this node. -/
def unknownKey (p : Params) (b : β) : Parsing (Params × β) := return ({ p with ret := -1 }, b)

/-! ## Nodes -/

/-- A value is read only when everything before it was. -/
def valueOf (handle : Params → β → Parsing (Params × β)) (p : Params) (b : β) : Parsing (Params × β) :=
  if p.ret = 0 then handle p b else return (p, b)

@[simp] theorem valueOf_failed {handle : Params → β → Parsing (Params × β)} {p : Params} (h : p.ret ≠ 0)
    (b : β) : valueOf handle p b = return (p, b) := if_neg h

/-- The loop of the building functions, with the keys of the node in `handle`. -/
def buildPairs (fuel : Nat) (handle : Params → β → Parsing (Params × β)) (p : Params) (b : β) :
    Parsing (Params × β) :=
  Dialogue.loop (fun s => s.1.ret = 0)
    (fun s => do
      let p ← tnsParse .leftParentheses s.1
      let p ← tnsParse .key p
      let p ← tnsParse .equalSign (tnsGetKeyType p)
      let (p, b) ← valueOf handle p s.2
      let p ← tnsParse .rightParentheses p
      return (p, b))
    fuel ({ p with ret := 0 }, b)

/-- A node that ended behind a closing parenthesis is a good one, and `keep` makes it part of its parent. -/
def closeNode {γ : Type} (keep : β → γ → γ) (c : γ) (s : Params × β) : Params × γ :=
  if s.1.tnsTokenType = .rightParentheses then ({ s.1 with ret := 0 }, keep s.2 c)
  else ({ s.1 with ret := -1 }, c)

/-- A node that is built in place: what was stored stays, also after a failure. -/
def closeInPlace (s : Params × β) : Params × β :=
  ({ s.1 with ret := if s.1.tnsTokenType = .rightParentheses then 0 else -1 }, s.2)

end Values

/-- The words of a strategy. -/
def strategyWords {β : Type} (store : ObClientLBOption → β → β) : List (String × (β → β)) :=
  [("RANDOM", store .random), ("SERVERAFFINITY", store .serverAffinity), ("ROTATION", store .rotation)]

/-- The words of a switch. -/
def switchWords {β : Type} (store : Bool → β → β) : List (String × (β → β)) :=
  [("ON", store true), ("OFF", store false)]

/-- The keys of `ObClientRemoveStrategyBuild`. -/
def removeStrategyKey (p : Params) (black : BlacklistConf) : Parsing (Params × BlacklistConf) :=
  match p.keyType with
  | .name => parseWord [("TIMEOUT", fun black => { black with removeStrategy := .timeout })] p black
  | .timeout => parseInteger (fun v black => { black with removeTimeout := v }) p black
  | _ => unknownKey p black

/-- `ObClientRemoveStrategyBuild`. -/
def removeStrategyBuild (fuel : Nat) (p : Params) (black : BlacklistConf) : Parsing (Params × BlacklistConf) :=
  closeInPlace <$> buildPairs fuel removeStrategyKey p black

/-- The keys of `ObClientAppendStrategyBuild`. -/
def appendStrategyKey (p : Params) (black : BlacklistConf) : Parsing (Params × BlacklistConf) :=
  match p.keyType with
  | .name =>
    parseWord [("RETRYDURATION", fun black => { black with appendStrategy := .retryDuration }),
      ("NORMAL", fun black => { black with appendStrategy := .normal })] p black
  | .retryTimes => parseInteger (fun v black => { black with retryTimes := v }) p black
  | .duration => parseInteger (fun v black => { black with duration := v }) p black
  | _ => unknownKey p black

/-- `ObClientAppendStrategyBuild`. -/
def appendStrategyBuild (fuel : Nat) (p : Params) (black : BlacklistConf) : Parsing (Params × BlacklistConf) :=
  closeInPlace <$> buildPairs fuel appendStrategyKey p black

/-- The keys of `ObClientBlacklistConfBuild`. -/
def blacklistConfKey (fuel : Nat) (p : Params) (conf : BlacklistConf) : Parsing (Params × BlacklistConf) :=
  match p.keyType with
  | .removeStrategy => removeStrategyBuild fuel p conf
  | .appendStrategy => appendStrategyBuild fuel p conf
  | _ => unknownKey p conf

/-- `ObClientBlacklistConfBuild`. -/
def blacklistConfBuild (fuel : Nat) (p : Params) (conf : BlacklistConf) : Parsing (Params × BlacklistConf) :=
  closeInPlace <$> buildPairs fuel (blacklistConfKey fuel) p conf

/-- The protocol that is stored now is one of the two known ones. -/
def knownProtocol (a : Address) : Bool :=
  a.protocol.len = 3 ∧ strncasecmpSame a.protocol.bytes (ascii "TCP") a.protocol.len ∨
    a.protocol.len = 4 ∧ strncasecmpSame a.protocol.bytes (ascii "TCPS") a.protocol.len

/-- The protocol of an address. One that was too long to be stored is judged by the one stored before. -/
def protocolValue (p : Params) (a : Address) : Parsing (Params × Address) := do
  let (p, a) ← parseString 6 (fun f a => { a with protocol := f a.protocol }) p a
  return (if knownProtocol a then p else { p with ret := -1 }, a)

/-- The keys of `ObClientAddressBuild`. -/
def addressKey (p : Params) (a : Address) : Parsing (Params × Address) :=
  match p.keyType with
  | .protocol => protocolValue p a
  | .host => parseString 256 (fun f a => { a with host := f a.host }) p a
  | .port => parseInteger (fun v a => { a with port := v }) p a
  | .weight => parseInteger (fun v a => { a with weight := v }) p a
  | _ => unknownKey p a

/-- `ObClientAddressBuild`. -/
def addressBuild (fuel : Nat) (p : Params) (list : AddressList) : Parsing (Params × AddressList) :=
  closeNode (fun a list => { list with address := list.address ++ [a] }) list <$>
    buildPairs fuel addressKey p Address.init

/-- The keys of `ObClientAddressListBuild`. -/
def addressListKey (fuel : Nat) (p : Params) (list : AddressList) : Parsing (Params × AddressList) :=
  match p.keyType with
  | .address => addressBuild fuel p list
  | .oblbStrategy => parseWord (strategyWords fun o list => { list with oblbStrategy := o }) p list
  | .oblb => parseWord (switchWords fun on list => { list with oblb := on }) p list
  | _ => unknownKey p list

/-- `ObClientAddressListBuild`. -/
def addressListBuild (fuel : Nat) (p : Params) (des : Description) : Parsing (Params × Description) :=
  closeNode (fun list des => { des with addressList := des.addressList ++ [list] }) des <$>
    buildPairs fuel (addressListKey fuel) p AddressList.init

/-- The keys of `ObClientConnectDataBuild`. -/
def connectDataKey (p : Params) (data : ConnectData) : Parsing (Params × ConnectData) :=
  match p.keyType with
  | .serviceName => parseString 256 (fun f data => { data with serviceName := f data.serviceName }) p data
  | .sid => parseString 256 (fun f data => { data with serviceName := f data.serviceName }) p data
  | .extraInfo => parseString 256 (fun f data => { data with userExtraInfo := f data.userExtraInfo }) p data
  | .obMode => parseInteger (fun v data => { data with obMode := v }) p data
  | .useDefaultSid => parseInteger (fun v data => { data with useDefaultSid := v }) p data
  | .sessionVariable =>
    parseString 256 (fun f data => { data with sessionVariable := f data.sessionVariable }) p data
  | .obEnableSsl => parseInteger (fun v data => { data with obEnableSsl := v }) p data
  | _ => unknownKey p data

/-- `ObClientConnectDataBuild`. The result of the loop is in a second variable `ret`, declared inside it,
and the function returns the outer one, which is zero. -/
def connectDataBuild (fuel : Nat) (p : Params) (des : Description) : Parsing (Params × Description) := do
  let (p, data) ← buildPairs fuel connectDataKey p ConnectData.init
  let taken := p.tnsTokenType = .rightParentheses ∧ des.connectData = none
  return ({ p with ret := 0 }, if taken then { des with connectData := some data } else des)

/-- The branch of `ObClientDescriptionBuild` for an address outside a list. -/
def firstAddressBuild (fuel : Nat) (p : Params) (des : Description) : Parsing (Params × Description) := do
  let (p, list) ← addressBuild fuel p (des.addressList.headD .init)
  return (if p.ret ≠ 0 then { p with ret := -1 } else p, { des with addressList := des.addressList.set 0 list })

/-- The keys of `ObClientDescriptionBuild`. -/
def descriptionKey (fuel : Nat) (p : Params) (des : Description) : Parsing (Params × Description) :=
  match p.keyType with
  | .oblb => parseWord (switchWords fun on des => { des with oblb := on }) p des
  | .oblbRetryAllDowns => parseInteger (fun v des => { des with retryAllDowns := v }) p des
  | .oblbRetryTimeout => parseInteger (fun v des => { des with retryTimeout := v }) p des
  | .connectTimeout => parseInteger (fun v des => { des with connectTimout := v }) p des
  | .readTimeout => parseInteger (fun v des => { des with readTimout := v }) p des
  | .writeTimeout => parseInteger (fun v des => { des with writeTimout := v }) p des
  | .oblbStrategy => parseWord (strategyWords fun o des => { des with oblbStrategy := o }) p des
  | .oblbGroupStrategy =>
    parseWord [("ROTATION", fun des => { des with oblbGroupStrategy := .groupRotation })] p des
  | .oblbBlacklist => do
    let (p, conf) ← blacklistConfBuild fuel p des.blackListConf
    return (p, { des with blackListConf := conf })
  | .addressList => addressListBuild fuel p des
  | .connectData => connectDataBuild fuel p des
  | .address => firstAddressBuild fuel p des
  | _ => unknownKey p des

/-- `ObClientDescriptionBuild`. -/
def descriptionBuild (fuel : Nat) (p : Params) (service : Service) : Parsing (Params × Service) :=
  closeNode (fun des service => { service with description := service.description ++ [des] }) service <$>
    buildPairs fuel (descriptionKey fuel) p Description.init

/-! ## Services -/

/-- `ObClientSystemVariablesBuild`. -/
def systemVariablesBuild (p : Params) (service : Service) : Parsing (Params × Service) :=
  if p.keyType = .sessionVariable then
    parseString 256 (fun f service => { service with sysVars := f service.sysVars }) p service
  else do
    let p ← tnsParse .key p
    return ({ p with ret := 0 }, service)

/-- The value of a pair of `ObClientTnsServiceBuild`. -/
def serviceKey (fuel : Nat) (isSysVars : Bool) (p : Params) (service : Service) : Parsing (Params × Service) :=
  if isSysVars then systemVariablesBuild p service
  else if p.keyType = .description then descriptionBuild fuel p service
  else unknownKey p service

/-- A pair of `ObClientTnsServiceBuild`, with `parse_ok`. A wrong key among the system variables does not
count. -/
def servicePair (fuel : Nat) (isSysVars : Bool) (s : Params × Service × Bool) :
    Parsing (Params × Service × Bool) := do
  let p ← tnsParse .leftParentheses s.1
  if p.ret ≠ 0 then return (p, s.2)
  else
    let p ← tnsParse .key p
    let p := tnsGetKeyType p
    let p ← tnsParse .equalSign (if isSysVars then { p with ret := 0 } else p)
    let (p, service) ← valueOf (serviceKey fuel isSysVars) p s.2.1
    let p ← tnsParse .rightParentheses p
    return (p, service, s.2.2 || p.ret = 0)

/-- `ObClientTnsServiceBuild`. -/
def tnsServiceBuild (fuel : Nat) (p : Params) (tns : ObClientTns) : Parsing (Params × ObClientTns) := do
  let service := Service.init p.tnsKey p.tnsKeyLen
  let isSysVars := strncasecmpSame (ascii "OBCISYSTEMVARIABLES") p.tnsKey p.tnsKeyLen
  let (p, service, parseOk) ←
    Dialogue.loop (fun s => s.1.ret = 0) (servicePair fuel isSysVars) fuel ({ p with ret := 0 }, service, false)
  if parseOk ∧ p.tnsTokenType = .rightParentheses then
    return ({ p with ret := 0 },
      { tns with tnsService := some (tns.tnsService.getD service), tnsServiceCount := tns.tnsServiceCount + 1 })
  else return ({ p with ret := -1 }, tns)

/-- `ObClientTnsServiceSkip`. Behind the system variables no service is looked for. -/
def tnsServiceSkip (p : Params) : Parsing Params :=
  if strncmpSame (ascii "OBCISYSTEMVARIABLES") p.tnsKey p.tnsKeyLen then return { p with isEof := true }
  else do
    let p ← tnsParse .leftParentheses p
    tnsCall .skipParentheses p

/-- What a lookup gives: `ret`, `*find`, and the services. -/
structure Outcome where
  ret : Int
  find : Bool
  tns : ObClientTns
  deriving DecidableEq, Repr

/-- The end of both lookups: a failure finds nothing, and the end of the data is no failure. -/
def closeLookup (p : Params) (find : Bool) (tns : ObClientTns) : Outcome :=
  if p.ret = 0 then ⟨0, find, tns⟩ else ⟨if p.ret = tnsNoData then 0 else p.ret, false, tns⟩

/-- An entry of the file, in the loop of `ObClientTnsBuild`. -/
def tnsEntry (fuel : Nat) (dbname : List UInt8) (s : Params × Bool × ObClientTns) : Parsing (Params × Bool × ObClientTns) := do
  let p ← tnsParse .key s.1
  let p ← tnsParse .equalSign p
  if p.ret ≠ 0 then return (p, s.2)
  else if dbname.length ≠ p.tnsKeyLen ∨ strncmpSame dbname p.tnsKey dbname.length = false then
    let p ← tnsServiceSkip p
    return (p, s.2)
  else
    let (p, tns) ← tnsServiceBuild fuel p s.2.2
    return if p.ret = 0 then (p, true, tns) else ({ p with ret := -1 }, s.2.1, tns)

/-- `ObClientTnsBuild` on an open file. -/
def tnsBuildFile (fuel : Nat) (tns : ObClientTns) (dbname : List UInt8) : Parsing Outcome := do
  let (p, find, tns) ←
    Dialogue.loop (fun s => s.1.ret = 0 ∧ s.1.isEof = false ∧ s.2.1 = false) (tnsEntry fuel dbname) fuel
      (Params.init, false, tns)
  return closeLookup p find tns

/-- `ObClientTnsBuildDes`: the name is itself a description. Nothing but blanks may follow it. -/
def tnsBuildDes (fuel : Nat) (tns : ObClientTns) : Parsing Outcome := do
  let p ← tnsParse .leftParentheses Params.init
  let p ← tnsParse .key p
  let p ← tnsParse .equalSign (tnsGetKeyType p)
  if p.ret ≠ 0 then return closeLookup p false tns
  else if p.keyType ≠ .description then return closeLookup { p with ret := -1 } false tns
  else
    let (p, service) ← descriptionBuild fuel p (Service.init p.tnsKey p.tnsKeyLen)
    let p ← tnsParse .rightParentheses (if p.ret ≠ 0 then { p with ret := -1 } else p)
    let st ← tnsCall .parseBlank p
    let p := if p.ret = 0 ∧ st.ret ≠ tnsNoData then { p with ret := -1 } else p
    if p.ret = 0 ∧ p.tnsTokenType = .rightParentheses then
      return ⟨0, true, { tns with
        tnsService := some (tns.tnsService.getD service), tnsServiceCount := tns.tnsServiceCount + 1 }⟩
    else return closeLookup { p with ret := -1 } false tns

/-- `IsDescriptionTns`. -/
def isDescriptionTns (dbname : List UInt8) : Bool :=
  strncasecmpSame ((dbname.filter fun c => ¬IsBlank c).take 13) (ascii "(DESCRIPTION=") 13

end ObConnector.Tns
