/-
# ObConnector.LoadBalance.Connect -- the blacklist, and the loop that connects.

`connectByAddresslist` tries the addresses of a list until one of them answers. The servers that did
not answer are kept in a blacklist of the process, under the text `host:port`; a call copies what the
blacklist says into the states of its addresses when it starts, and from then on it looks at these
copies, giving an address back its WHITE state (and taking it off the blacklist) when its time is over.

The durations of the configuration are milliseconds in an `unsigned int`, and they are made
microseconds there too, so that the products wrap at `2 ^ 32`. `retry_all_downs` is an `unsigned int`
as well; the loop counts it down, and the call leaves it in the caller's configuration.
-/
import ObConnector.Lib.Decimal
import ObConnector.LoadBalance.AddressList

namespace ObConnector.LoadBalance

open Lib

/-! ## The blacklist -/

/-- `MAX_KEY_LEN`. -/
def maxKeyLen : Nat := 128

/-- The text of `%d`. -/
def decimalText : Int → List UInt8
  | .ofNat n => decimal n
  | .negSucc n => 45 :: decimal (n + 1)

/-- The key of an address: `snprintf(key, MAX_KEY_LEN, "%s:%d", host, port)`. -/
def addressKey (a : ObLbAddress) : List UInt8 := (a.host ++ 58 :: decimalText a.port).take (maxKeyLen - 1)

/-- A letter of ASCII as a small letter. -/
def toLower (b : UInt8) : UInt8 := if 65 ≤ b ∧ b ≤ 90 then b + 32 else b

/-- `strcasecmp` finds no difference. -/
def SameKey (key key' : List UInt8) : Prop := key.map toLower = key'.map toLower

instance (key key' : List UInt8) : Decidable (SameKey key key') := decEq (key.map toLower) _

/-- `append_blacklist`: a key that is there already keeps its time. -/
def appendBlacklist (a : ObLbAddress) (w : World) : World :=
  if ∃ b ∈ w.blacklist, SameKey (addressKey a) b.key then w
  else { w with blacklist := w.blacklist ++ [⟨addressKey a, a.blackTime⟩] }

/-- `remove_blacklist`. -/
def removeBlacklist (a : ObLbAddress) (w : World) : World :=
  { w with blacklist := w.blacklist.eraseP fun b => SameKey (addressKey a) b.key }

/-- `is_at_blacklist`, with the time of the entry. -/
def isAtBlacklist (a : ObLbAddress) (w : World) : Option Nat :=
  (w.blacklist.find? fun b => SameKey (addressKey a) b.key).map Black.blackTime

/-! ## States of addresses -/

/-- What `ObClientLbConfig` says about load balancing. -/
structure LbConfig where
  retryAllDowns : Nat
  retryTimeout : Nat
  blackRemoveTimeout : Nat
  blackAppendStrategy : ObClientLBOption
  blackAppendRetrytimes : Nat
  blackAppendDuration : Nat
  deriving DecidableEq, Repr

/-- Milliseconds as microseconds, in an `unsigned int`. -/
def microseconds (ms : Nat) : Nat := ms * 1000 % 2 ^ 32

/-- How many of the noted times are too old: the first loop of RETRY_DERUATION. -/
def tooOld (curtime duration : Nat) (connectList : Mem) : Nat → Nat → Nat
  | _, 0 => 0
  | idx, n + 1 =>
    if curtime ≤ leNat (loadAt connectList (8 * idx) 8) + duration then 0
    else tooOld curtime duration connectList (idx + 1) n + 1

/-- The old times are dropped. The `memmove` takes the number of times for a number of bytes. -/
def dropOld (curtime duration : Nat) (p : ConnectInfo) (connectList : Mem) : ConnectInfo :=
  let idx := tooOld curtime duration connectList 0 p.connectCnt
  let newsize := p.connectCnt - idx
  { p with
    connectCnt := newsize
    connectList := some (if idx ≠ 0 then memmove connectList 0 (8 * idx) newsize else connectList) }

/-- A WHITE address turns BLACK and goes on the blacklist. -/
def turnBlack (env : Env) (a : ObLbAddress) (w : World) : ObLbAddress × World :=
  let (t, w) := getCurrentTimeUs env w
  let a := { a with state := .black, blackTime := t }
  (a, appendBlacklist a w)

/-- `check_ob_address_black`. -/
def checkObAddressBlack (env : Env) (config : LbConfig) (a : ObLbAddress) (w : World) :
    ObLbAddress × World :=
  match a.connectInfo.bind fun p => p.connectList.map fun list => (p, list) with
  | none =>
    let (t, w) := getCurrentTimeUs env w
    ({ a with state := .black, blackTime := t }, w)
  | some (p, list) =>
    if a.state = .white then
      match config.blackAppendStrategy with
      | .normal => turnBlack env a w
      | .retryDuration =>
        let (curtime, w) := getCurrentTimeUs env w
        let p := dropOld curtime (microseconds config.blackAppendDuration) p list
        let a := { a with connectInfo := some p }
        if config.blackAppendRetrytimes ≤ p.connectCnt then turnBlack env a w else (a, w)
      | _ => (a, w)
    else (a, w)

/-- The loop of `check_ob_address_white`. -/
def whitenExpired (curtime timeout : Nat) : List ObLbAddress → World → List ObLbAddress × World
  | [], w => ([], w)
  | a :: rest, w =>
    if a.state = .black ∧ a.blackTime + timeout ≤ curtime then
      let a := { a with state := .white }
      let (rest, w) := whitenExpired curtime timeout rest (removeBlacklist a w)
      (a :: rest, w)
    else
      let (rest, w) := whitenExpired curtime timeout rest w
      (a :: rest, w)

/-- `check_ob_address_white`. -/
def checkObAddressWhite (env : Env) (config : LbConfig) (l : ObLbAddressList) (w : World) :
    ObLbAddressList × World :=
  let (curtime, w) := getCurrentTimeUs env w
  let timeout := microseconds config.blackRemoveTimeout
  if 0 < timeout then
    let (addArr, w) := whitenExpired curtime timeout l.addArr w
    ({ l with addArr := addArr }, w)
  else (l, w)

/-! ## The loop -/

/-- How a call ends. -/
inductive LbReport where
  | invalidHandle
  | connected
  | accessDenied
  | allInBlack
  | retryTimeout
  | retryAllDownsIsZero
  deriving DecidableEq, Repr

/-- What the loop works on. -/
structure LbState where
  list : ObLbAddressList
  retryAllDowns : Nat
  world : World

/-- `ER_ACCESS_DENIED_ERROR`. -/
def erAccessDenied : Nat := 1045

/-- `mysql_real_connect`, as far as the loop is concerned. -/
def attempt (env : Env) (a : ObLbAddress) (w : World) : ConnectResult × World :=
  (env.connect w.attempts.length, { w with
    attempts := w.attempts ++ [⟨addressKey a, env.clock (w.reads - 1), w.blacklist⟩] })

/-- What follows a failed attempt: the address may turn BLACK, and the call may give up. -/
def afterFailure (env : Env) (config : LbConfig) (lbEndtime : Nat) (i : Nat) (a : ObLbAddress)
    (s : LbState) : Option LbReport × LbState :=
  let (a, w) := checkObAddressBlack env config a s.world
  let l := { s.list with addArr := s.list.addArr.set i a }
  let (curtime, w) := if 0 < config.retryTimeout then getCurrentTimeUs env w else (0, w)
  if 0 < config.retryTimeout ∧ lbEndtime < curtime then
    let (_, w) := getCurrentTimeUs env w   -- for the text of the error
    (some .retryTimeout, { s with list := l, world := w })
  else
    (if udec s.retryAllDowns = 0 then some .retryAllDownsIsZero else none, ⟨l, udec s.retryAllDowns, w⟩)

/-- The call gives up because of the time, or it counts the attempt. -/
theorem afterFailure_spec (env : Env) (config : LbConfig) (lbEndtime i : Nat) (a : ObLbAddress)
    (s : LbState) : ∃ report s', afterFailure env config lbEndtime i a s = (report, s') ∧
      s'.list = { s.list with addArr := s.list.addArr.set i (checkObAddressBlack env config a s.world).1 } ∧
      s'.world.blacklist = (checkObAddressBlack env config a s.world).2.blacklist ∧
      s'.world.attempts = (checkObAddressBlack env config a s.world).2.attempts ∧
      (report = some .retryTimeout ∨ s'.retryAllDowns = udec s.retryAllDowns ∧
        report = if udec s.retryAllDowns = 0 then some .retryAllDownsIsZero else none) := by
  unfold afterFailure
  by_cases hretry : 0 < config.retryTimeout
  · simp only [hretry, if_true]
    split
    · exact ⟨_, _, rfl, rfl, rfl, rfl, .inl rfl⟩
    · exact ⟨_, _, rfl, rfl, rfl, rfl, .inr ⟨rfl, rfl⟩⟩
  simp only [hretry]
  exact ⟨_, _, rfl, rfl, rfl, rfl, .inr ⟨rfl, rfl⟩⟩

/-- The body of the loop behind the choice of an address. -/
def tryAddress (env : Env) (config : LbConfig) (lbEndtime : Nat) (i : Nat) (s : LbState) :
    Option LbReport × LbState :=
  match s.list.addArr[i]? with
  | none => (none, s)
  | some a =>
    if a.state = .white then
      let (result, w) := attempt env a s.world
      let s := { s with world := w }
      match result with
      | .connected => (some .connected, s)
      | .failed errno =>
        if errno = erAccessDenied then (some .accessDenied, s)
        else afterFailure env config lbEndtime i a s
    else (none, s)

/-- An address that is not WHITE is left alone. -/
theorem tryAddress_of_not_white {env : Env} {config : LbConfig} {lbEndtime i : Nat} {s : LbState}
    (h : ∀ a, s.list.addArr[i]? = some a → a.state ≠ .white) :
    tryAddress env config lbEndtime i s = (none, s) := by
  unfold tryAddress
  split
  · rfl
  rename_i a hget
  exact if_neg (h a hget)

/-- A WHITE address is connected to: the call is over, or the attempt fails. -/
theorem tryAddress_of_white (env : Env) (config : LbConfig) (lbEndtime : Nat) {i : Nat} {s : LbState}
    {a : ObLbAddress} (hget : s.list.addArr[i]? = some a) (hwhite : a.state = .white) :
    (∃ r, r ≠ .allInBlack ∧ tryAddress env config lbEndtime i s =
      (some r, { s with world := (attempt env a s.world).2 })) ∨
    tryAddress env config lbEndtime i s =
      afterFailure env config lbEndtime i a { s with world := (attempt env a s.world).2 } := by
  simp only [tryAddress, hget, if_pos hwhite]
  cases (attempt env a s.world).1 with
  | connected => exact .inl ⟨_, by decide, rfl⟩
  | failed errno =>
    by_cases herrno : errno = erAccessDenied
    · exact .inl ⟨.accessDenied, by decide, if_pos herrno⟩
    · exact .inr (if_neg herrno)

/-- One pass through the loop: a report when it is the last one. -/
def iterate (env : Env) (config : LbConfig) (lbEndtime : Nat) (s : LbState) :
    Except Fault (Option LbReport × LbState) := do
  let (l, w) := checkObAddressWhite env config s.list s.world
  let (rst, l, w) ← getObAddressByAddressList env l w
  let s := { s with list := l, world := w }
  match rst with
  | none => return (some .allInBlack, s)
  | some i => return tryAddress env config lbEndtime i s

/-- The `do … while` loop. -/
def connectLoop (env : Env) (config : LbConfig) (lbEndtime : Nat) :
    Nat → LbState → Except Fault (LbReport × LbState)
  | 0, _ => .error .outOfFuel
  | fuel + 1, s => do
    let (report, s) ← iterate env config lbEndtime s
    match report with
    | some r => return (r, s)
    | none => connectLoop env config lbEndtime fuel s

/-! ## A call -/

/-- What every address starts with. -/
def freshAddress (a : ObLbAddress) (i : Nat) : ObLbAddress :=
  { fixWeight a with
    no := i + 1
    state := .white
    connectInfo := some (initConnectInfo none) }

/-- What the blacklist says about an address. -/
def loadBlacklist (w : World) (a : ObLbAddress) : ObLbAddress :=
  match isAtBlacklist a w with
  | some t => { a with state := .black, blackTime := t }
  | none => a

/-- A strategy that is none counts as ROTATION. -/
def normalOption : ObClientLBOption → ObClientLBOption
  | .random => .random
  | .serverAffinity => .serverAffinity
  | _ => .rotation

/-- The list as a call takes it over. -/
def freshList (l : ObLbAddressList) : ObLbAddressList :=
  { l with
    option := normalOption l.option
    addArr := l.addArr.zipIdx.map fun x => freshAddress x.1 x.2 }

/-- The list and the process when the loop is reached. -/
def startCall (env : Env) (config : LbConfig) (l : ObLbAddressList) (w : World) :
    ObLbAddressList × World :=
  let (l, w) := checkObAddressWhite env config (freshList l) w
  ({ l with addArr := l.addArr.map (loadBlacklist w) }, w)

/-- `connect_by_addresslist`: the report, the list and the configuration as they are left behind. -/
def connectByAddresslist (env : Env) (fuel lbStarttime : Nat) (l : ObLbAddressList) (config : LbConfig)
    (w : World) : Except Fault (LbReport × ObLbAddressList × LbConfig × World) :=
  if l.addArr = [] then .ok (.invalidHandle, l, config, w)
  else do
    let (l, w) := startCall env config l w
    let (report, s) ← connectLoop env config (lbStarttime + microseconds config.retryTimeout) fuel
      ⟨l, config.retryAllDowns, w⟩
    -- release_connect_info
    let released := s.list.addArr.map fun a => { a with connectInfo := none }
    return (report, { s.list with addArr := released }, { config with retryAllDowns := s.retryAllDowns }, s.world)

end ObConnector.LoadBalance
