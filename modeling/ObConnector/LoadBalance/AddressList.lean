/-
# ObConnector.LoadBalance.AddressList -- the addresses of a connect call, and how one is picked.

A connect call works on an `ObLbAddressList`: the servers with their weights, each WHITE or BLACK,
a strategy, and a counter that the ROTATION strategy keeps between picks.
`getObAddressByAddressList` collects the WHITE entries and lets the strategy choose among them; the
pointer it returns is here the index of the entry.

The code asks the system for the time and for random numbers. `Env` holds the answers, one sequence
for each question, and `World` counts how many of them are used up. Allocations succeed; the one
exception is `realloc` to a size that has wrapped round to zero, which gives back no memory.
-/
import ObConnector.Lib.Buffer
import ObConnector.Lib.Mem

namespace ObConnector.LoadBalance

open Lib

/-! ## Addresses -/

/-- `ObClientLBOption`. -/
inductive ObClientLBOption where
  | groupRotation
  | random
  | serverAffinity
  | rotation
  | timeout
  | retryDuration
  | normal
  | max
  deriving DecidableEq, Repr

/-- `ObLbAddressState`. -/
inductive ObLbAddressState where
  | black
  | white
  | gray
  | maxState
  deriving DecidableEq, Repr

/-- `ConnectInfo`: when the address was picked, eight bytes for each time. -/
structure ConnectInfo where
  connectCnt : Nat
  connectMax : Nat
  connectList : Option Mem

/-- `ObLbAddress`. -/
structure ObLbAddress where
  no : Nat
  host : List UInt8
  port : Int
  weight : Int32
  state : ObLbAddressState
  useSsl : Bool
  blackTime : Nat
  lastTime : Nat
  connectInfo : Option ConnectInfo

/-- `ObLbAddressList`; `count` is the length of `addArr`. -/
structure ObLbAddressList where
  option : ObClientLBOption
  rotationFlag : Nat
  addArr : List ObLbAddress

/-- What `mysql_real_connect` comes to. -/
inductive ConnectResult where
  | connected
  | failed (errno : Nat)
  deriving DecidableEq, Repr

/-- What the outside answers: the successive readings of `get_current_time_us`, the successive
results of `rand`, and what comes of the successive connection attempts. -/
structure Env where
  clock : Nat → Nat
  clock_mono : Monotone clock
  rand : Nat → Nat
  rand_lt : ∀ n, rand n < 2 ^ 31
  connect : Nat → ConnectResult

/-- `Black`: an entry of the process-global blacklist. -/
structure Black where
  key : List UInt8
  blackTime : Nat
  deriving DecidableEq, Repr

/-- A connection attempt: the key of its address, the last time read before it, and the blacklist
as it is then. -/
structure Attempt where
  key : List UInt8
  time : Nat
  blacklist : List Black
  deriving DecidableEq, Repr

/-- The state of the process. -/
structure World where
  reads : Nat
  rands : Nat
  blacklist : List Black
  attempts : List Attempt
  deriving DecidableEq, Repr

/-- A process that has not connected yet. -/
def World.init : World := ⟨0, 0, [], []⟩

/-- `get_current_time_us`. -/
def getCurrentTimeUs (env : Env) (w : World) : Nat × World :=
  (env.clock w.reads, { w with reads := w.reads + 1 })

/-- One less, in an `unsigned int`. -/
@[irreducible] def udec (n : Nat) : Nat := (n + 2 ^ 32 - 1) % 2 ^ 32

theorem udec_of_pos {n : Nat} (hpos : 0 < n) (hlt : n < 2 ^ 32) : udec n = n - 1 := by
  unfold udec
  omega

/-- `CONNECT_CNT_INIT`. -/
def connectCntInit : Nat := 32

/-- `init_connect_info`: memory for the next time. A `connect_max` of zero is what doubling comes to
in the end, and `realloc` to that size frees the list. -/
def initConnectInfo : Option ConnectInfo → ConnectInfo
  | none => ⟨0, connectCntInit, some fun _ => 0⟩
  | some p =>
    if udec p.connectMax ≤ p.connectCnt then
      let connectMax := p.connectMax * 2 % 2 ^ 32
      { p with
        connectMax := connectMax
        connectList := if connectMax = 0 then none else some (p.connectList.getD fun _ => 0) }
    else p

/-- `check_connect_info`. -/
def checkConnectInfo (a : ObLbAddress) : Bool :=
  match a.connectInfo with
  | some p => p.connectList.isSome
  | none => false

/-- `append_ob_address_connect_info`. -/
def appendObAddressConnectInfo (env : Env) (a : ObLbAddress) (w : World) : ObLbAddress × World :=
  let p := initConnectInfo a.connectInfo
  match p.connectList with
  | some list =>
    let (t, w) := getCurrentTimeUs env w
    let (last, w) := getCurrentTimeUs env w
    ({ a with
      connectInfo := some { p with
        connectList := some (storeAt list (8 * p.connectCnt) (leBytes 8 t))
        connectCnt := p.connectCnt + 1 }
      lastTime := last }, w)
  | none =>
    let (t, w) := getCurrentTimeUs env w
    ({ a with connectInfo := some p, state := .black, blackTime := t }, w)

/-! ## Picking an address -/

/-- A weight that is not positive counts as one. -/
def fixWeight (a : ObLbAddress) : ObLbAddress :=
  if a.weight ≤ 0 then { a with weight := 1 } else a

/-- `idxarr`: the WHITE entries, each with its index. -/
def whites (addArr : List ObLbAddress) : List (ObLbAddress × Nat) :=
  addArr.zipIdx.filter fun x => x.1.state = .white

/-- The `unsigned int` sum of the weights. -/
def weightSum (idxarr : List (ObLbAddress × Nat)) : Nat :=
  (idxarr.map fun x => x.1.weight.toInt.toNat).sum % 2 ^ 32

/-- The loop of SERVERAFFINITY: the entry that takes the random number down to zero, or the last. -/
def pickByWeight : Int → List (ObLbAddress × Nat) → Except Fault (Option Nat)
  | _, [] => .ok none
  | randNumber, (a, i) :: rest =>
    if randNumber - a.weight.toInt < -2 ^ 31 then .error .intOverflow
    else if rest = [] ∨ randNumber - a.weight.toInt ≤ 0 then .ok (some i)
    else pickByWeight (randNumber - a.weight.toInt) rest

/-- `(int)rand() % weight + 1`, an `unsigned int` kept in an `int`. -/
def serverAffinityNumber (rand weight : Nat) : Except Fault Int :=
  if weight = 0 then .error .divideByZero
  else .ok (Int.bmod ((rand % weight + 1 : Nat) : Int) (2 ^ 32))

/-- The loop of ROTATION over the entries from the start index on. `rotation_flag` counts those that
are looked at. -/
def rotate : Nat → List (ObLbAddress × Nat) → Option Nat × Nat
  | rotationFlag, [] => (none, rotationFlag)
  | rotationFlag, (a, i) :: rest =>
    if a.state = .white then (some i, (rotationFlag + 1) % 2 ^ 32)
    else rotate ((rotationFlag + 1) % 2 ^ 32) rest

/-- The choice among two or more WHITE entries. -/
def pickByOption (env : Env) (l : ObLbAddressList) (w : World) :
    Except Fault (Option Nat × ObLbAddressList × World) :=
  let idxarr := whites l.addArr
  match l.option with
  | .random =>
    .ok ((idxarr[env.rand w.rands % idxarr.length]?).map Prod.snd, l, { w with rands := w.rands + 1 })
  | .serverAffinity => do
    let randNumber ← serverAffinityNumber (env.rand w.rands) (weightSum idxarr)
    let rst ← pickByWeight randNumber idxarr
    return (rst, l, { w with rands := w.rands + 1 })
  | .rotation =>
    match rotate l.rotationFlag (l.addArr.zipIdx.drop (l.rotationFlag % l.addArr.length)) with
    | (none, flag) => .ok (none, { l with rotationFlag := flag }, w)
    | (some i, flag) =>
      let (t, w) := getCurrentTimeUs env w
      .ok (some i, { l with
        rotationFlag := flag
        addArr := l.addArr.modify i fun a => { a with lastTime := t } }, w)
  | _ => .ok (none, l, w)

/-- The choice among all entries. -/
def pickAddress (env : Env) (l : ObLbAddressList) (w : World) :
    Except Fault (Option Nat × ObLbAddressList × World) :=
  match whites l.addArr with
  | [] => .ok (none, l, w)
  | [(_, i)] => .ok (some i, l, w)
  | _ => pickByOption env l w

/-- The picked address notes the time. -/
def noteConnect (env : Env) (i : Nat) (l : ObLbAddressList) (w : World) : ObLbAddressList × World :=
  match l.addArr[i]? with
  | some a =>
    let (a, w) := appendObAddressConnectInfo env a w
    ({ l with addArr := l.addArr.set i a }, w)
  | none => (l, w)

/-- `get_ob_address_by_address_list`: the index of the picked address, if there is one. -/
def getObAddressByAddressList (env : Env) (l : ObLbAddressList) (w : World) :
    Except Fault (Option Nat × ObLbAddressList × World) := do
  let (rst, l, w) ← pickAddress env { l with addArr := l.addArr.map fixWeight } w
  match rst with
  | none => return (none, l, w)
  | some i =>
    let (l, w) := noteConnect env i l w
    return (some i, l, w)

end ObConnector.LoadBalance
