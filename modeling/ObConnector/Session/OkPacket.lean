/-
# ObConnector.Session.OkPacket -- reading an OK packet.

An OK packet carries counters, a message, and a list of what has changed in the session. `maReadOkPacket`
walks it with the position `pos`, up to the end of the packet and then up to the end of the list. A length
that runs over that end makes the packet corrupted; a load outside the packet, and a store outside one of
the fixed buffers, is a `Fault`. A length of 251 reads as the largest number, and adding it to a pointer is
no position inside any object; that is a fault too.

Among the system variables there are five that the driver keeps for itself: the three NLS formats, the
capability flag and the character set. They are recognised with `strncmp` over the length of the reported
name.
-/
import Mathlib.Logic.Function.Basic
import ObConnector.Lib.CString
import ObConnector.Lib.Decimal
import ObConnector.Lib.LenEnc

namespace ObConnector.Session

open Lib

/-! ## The session -/

/-- `enum_session_state_type`. -/
inductive SessionType where
  | systemVariables
  | schema
  | stateChange
  | gtids
  | transactionCharacteristics
  | transactionState
  deriving DecidableEq, Repr

/-- The number of a type on the wire. -/
def SessionType.code : SessionType → Nat
  | .systemVariables => 0
  | .schema => 1
  | .stateChange => 2
  | .gtids => 3
  | .transactionCharacteristics => 4
  | .transactionState => 5

/-- The type of a number on the wire, if it is a known one. -/
def SessionType.ofCode : Nat → Option SessionType
  | 0 => some .systemVariables
  | 1 => some .schema
  | 2 => some .stateChange
  | 3 => some .gtids
  | 4 => some .transactionCharacteristics
  | 5 => some .transactionState
  | _ => none

@[simp] theorem SessionType.ofCode_code (t : SessionType) : SessionType.ofCode t.code = some t := by
  cases t <;> rfl

/-- A compiled character set. -/
structure Charset where
  nr : Nat
  csname : List UInt8
  deriving DecidableEq, Repr

/-- `OBCLIENT_MAX_NLS_FORMAT_STR_LEN`. -/
def maxNlsFormatStrLen : Nat := 256

/-- A buffer for an NLS format. -/
def NlsBuffer : Type := { bytes : List UInt8 // bytes.length = maxNlsFormatStrLen }

/-- The format in the buffer is `value`. -/
def NlsBuffer.Is (b : NlsBuffer) (value : List UInt8) : Prop := b.val.take (value.length + 1) = value ++ [0]

/-- `memcpy` of the value into the buffer, and the zero behind it. -/
def NlsBuffer.store (b : NlsBuffer) (value : List UInt8) : Except Fault NlsBuffer :=
  if h : value.length + 1 ≤ maxNlsFormatStrLen then
    .ok ⟨overwrite b.val (value ++ [0]), by
      rw [overwrite, List.length_append, List.length_drop, List.length_append, b.property]
      simp only [List.length_singleton]
      omega⟩
  else .error .writeOutside

/-- `MYSQL`, as far as an OK packet sets it. -/
structure Mysql where
  affectedRows : Nat
  insertId : Nat
  serverStatus : Nat
  warningCount : Nat
  oracleMode : Bool
  info : Option (List UInt8)
  db : Option (List UInt8)
  charset : Charset
  capability : Nat
  nlsDateFormat : NlsBuffer
  nlsTimestampFormat : NlsBuffer
  nlsTimestampTzFormat : NlsBuffer
  sessionState : SessionType → List (List UInt8)

/-- What the session cannot change. -/
structure Server where
  /-- `CLIENT_SESSION_TRACKING` is among the capabilities of the server -/
  sessionTracking : Bool
  /-- `mysql_find_charset_name` -/
  findCharsetName : List UInt8 → Option Charset

/-- `ma_clear_session_state`. -/
def Mysql.clearState (s : Mysql) : Mysql := { s with sessionState := fun _ => [] }

/-- A text goes to the front of the list of its type. -/
def Mysql.addState (s : Mysql) (t : SessionType) (text : List UInt8) : Mysql :=
  { s with sessionState := Function.update s.sessionState t (text :: s.sessionState t) }

/-- The text of an item; a schema is also the present database. -/
def Mysql.keep (s : Mysql) (t : SessionType) (text : List UInt8) : Mysql :=
  if t = .schema then { s.addState t text with db := some text } else s.addState t text

/-- The lists are turned round at the end. -/
def Mysql.reverseState (s : Mysql) : Mysql := { s with sessionState := fun t => (s.sessionState t).reverse }

/-! ## System variables -/

/-- `CHARSET_NAME_LEN`. -/
def charsetNameLen : Nat := 64

/-- `MAX_INT64_STORE_LEN`. -/
def maxInt64StoreLen : Nat := 31

/-- The comparison of a reported name with a known one. -/
def nameMatches (name : List UInt8) (known : String) : Bool := strncmpSame name (ascii known) name.length

/-- A new character set. It is looked for unless the old one starts with its name. -/
def Mysql.setCharset (server : Server) (value : List UInt8) (s : Mysql) : Mysql :=
  if value.length < charsetNameLen ∧ strncmpSame s.charset.csname value value.length = false then
    match server.findCharsetName (value.takeWhile (· ≠ 0)) with
    | some cs => { s with charset := cs }
    | none => s
  else s

/-- A new capability flag; the answer says whether it was one. The zero is stored at `plen + 1`. -/
def Mysql.setCapability (value : List UInt8) (s : Mysql) : Except Fault (Mysql × Bool) :=
  if maxInt64StoreLen < value.length then .ok (s, false)
  else if maxInt64StoreLen < value.length + 1 then .error .writeOutside
  else
    let text := value.takeWhile (· ≠ 0)
    .ok ({ s with capability := (strtoull text).1 }, text ≠ [] ∧ (strtoull text).2 = text.length)

/-- The capability flag, if that is the name. -/
def Mysql.setCapabilityOf (name value : List UInt8) (s : Mysql) : Except Fault (Mysql × Bool) :=
  if nameMatches name "ob_capability_flag" then s.setCapability value else .ok (s, true)

/-- A new NLS format, by the first name that fits. -/
def Mysql.setNls (name value : List UInt8) (s : Mysql) : Except Fault Mysql :=
  if nameMatches name "nls_date_format" then do
    return { s with nlsDateFormat := ← s.nlsDateFormat.store value }
  else if nameMatches name "nls_timestamp_format" then do
    return { s with nlsTimestampFormat := ← s.nlsTimestampFormat.store value }
  else if nameMatches name "nls_timestamp_tz_format" then do
    return { s with nlsTimestampTzFormat := ← s.nlsTimestampTzFormat.store value }
  else .ok s

/-- The settings that follow a system variable; `false` when the packet is corrupted. -/
def Mysql.setVariable (server : Server) (name value : List UInt8) (s : Mysql) :
    Except Fault (Mysql × Bool) := do
  let s := if nameMatches name "character_set_client" then s.setCharset server value else s
  let (s, good) ← s.setCapabilityOf name value
  if good then return (← s.setNls name value, true) else return (s, false)

/-! ## The packet -/

/-- A text with its length in front, up to `stop`. -/
def readText (pkt : List UInt8) (pos stop : Nat) : Except Fault (Option (List UInt8 × Nat)) := do
  let (plen, pos) ← readLength pkt pos
  if plen = nullLength then .error .readOutside
  else if stop < pos + plen then return none
  else return some (← readAt pkt pos plen, pos + plen)

/-- The value of a system variable whose name has been read. -/
def readVariable (server : Server) (pkt name : List UInt8) (pos stop : Nat) (s : Mysql) :
    Except Fault (Mysql × Option Nat) := do
  match ← readText pkt pos stop with
  | none => return (s, none)
  | some (value, pos) =>
    let (s, good) ← (s.addState .systemVariables value).setVariable server name value
    return (s, if good then some pos else none)

/-- A length that is there but not looked at. -/
def skipLength (there : Bool) (pkt : List UInt8) (pos : Nat) : Except Fault Nat :=
  if there then (readLength pkt pos).map Prod.snd else .ok pos

/-- An item of a known type, behind its type. -/
def readKnown (server : Server) (pkt : List UInt8) (t : SessionType) (pos stop : Nat) (s : Mysql) :
    Except Fault (Mysql × Option Nat) := do
  -- the total length is not looked at, nor is the encoding of GTIDs
  let pos ← skipLength (t ≠ .stateChange) pkt pos
  let pos ← skipLength (t = .gtids) pkt pos
  match ← readText pkt pos stop with
  | none => return (s, none)
  | some (text, pos) =>
    if t = .systemVariables then readVariable server pkt text pos stop (s.keep t text)
    else return (s.keep t text, some pos)

/-- An item; no position is a corrupted packet. -/
def readItem (server : Server) (pkt : List UInt8) (pos stop : Nat) (s : Mysql) :
    Except Fault (Mysql × Option Nat) := do
  let (code, pos) ← readLength pkt pos
  match SessionType.ofCode code with
  | some t => readKnown server pkt t pos stop s
  | none =>
    match ← readText pkt pos stop with
    | none => return (s, none)
    | some (_, pos) => return (s, some pos)

/-- The items up to `stop`. -/
def readItems (server : Server) (pkt : List UInt8) (stop : Nat) :
    Nat → Nat → Mysql → Except Fault (Mysql × Bool)
  | 0, _, _ => .error .outOfFuel
  | fuel + 1, pos, s =>
    if pos < stop then do
      match ← readItem server pkt pos stop s with
      | (s, some pos) => readItems server pkt stop fuel pos s
      | (s, none) => return (s, false)
    else .ok (s, true)

/-- `SERVER_ORACLE_MODE`. -/
def serverOracleMode : Nat := 4

/-- `SERVER_SESSION_STATE_CHANGED`. -/
def serverSessionStateChanged : Nat := 16384

/-- The end of a packet that is corrupted. -/
def corrupted (s : Mysql) : Mysql × Int := (s.clearState, -1)

/-- The list of changes, behind the message. -/
def readChanges (server : Server) (pkt : List UInt8) (pos : Nat) (s : Mysql) : Except Fault (Mysql × Int) := do
  if s.serverStatus &&& serverSessionStateChanged = 0 then return (s, 0)
  else if pkt.length ≤ pos then return (s.reverseState, 0)
  else
    let (total, pos) ← readLength pkt pos
    if total = nullLength then .error .readOutside
    else if pkt.length < pos + total then return corrupted s
    else
      match ← readItems server pkt (pos + total) (pkt.length + 1) pos s with
      | (s, true) => return (s.reverseState, 0)
      | (s, false) => return corrupted s

/-- A message of some length; an empty one leaves the old one. -/
def Mysql.setInfo (s : Mysql) (len : Nat) (text : List UInt8) : Mysql :=
  if len = 0 then s else { s with info := some text }

/-- The message, and what is behind it. -/
def readInfo (server : Server) (pkt : List UInt8) (pos : Nat) (s : Mysql) : Except Fault (Mysql × Int) := do
  let (len, pos) ← readLength pkt pos
  if len = nullLength then .error .readOutside
  else
    let s := s.setInfo len (sliceAt pkt pos len)
    if pkt.length < pos + len then return corrupted s
    else if server.sessionTracking then readChanges server pkt (pos + len) s.clearState
    else return (s, 0)

/-- `ma_read_ok_packet`. -/
def maReadOkPacket (server : Server) (pkt : List UInt8) (s : Mysql) : Except Fault (Mysql × Int) := do
  let (affectedRows, pos) ← readLengthLL pkt 1
  let (insertId, pos) ← readLengthLL pkt pos
  let serverStatus ← loadNat pkt pos 2
  let warningCount ← loadNat pkt (pos + 2) 2
  let s := { s with
    affectedRows := affectedRows, insertId := insertId, serverStatus := serverStatus,
    warningCount := warningCount, oracleMode := s.oracleMode || serverStatus &&& serverOracleMode ≠ 0 }
  if pos + 4 < pkt.length then readInfo server pkt (pos + 4) s
  else return (if server.sessionTracking then s.clearState else s, 0)

end ObConnector.Session
