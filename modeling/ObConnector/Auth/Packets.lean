/-
# ObConnector.Auth.Packets -- the two authentication packets and their buffers.

`send_client_reply_packet` and `send_change_user_packet` allocate a buffer that has room for a name of full
length wherever they write one, and for the connection attributes as long as they are at that time. Then
they write, and at the end `ma_send_connect_attr` first lets the driver add its own attributes and writes
them all.

So the packet fits exactly when what the names leave of their room is enough for what was added
(`replyFits_iff`, `changeUserFits_iff`). With names of full length nothing is left, and the proxy user,
which has no limit of its own, can always be too long.
-/
import ObConnector.Auth.Attributes
import ObConnector.Lib.Filling

namespace ObConnector.Auth

open Lib List

/-! ## What the packets are made from -/

def clientMysql : UInt64 := 1
def clientLongFlag : UInt64 := 4
def clientConnectWithDb : UInt64 := 8
def clientCompress : UInt64 := 32
def clientProtocol41 : UInt64 := 512
def clientSsl : UInt64 := 2048
def clientTransactions : UInt64 := 8192
def clientSecureConnection : UInt64 := 32768
def clientMultiStatements : UInt64 := 0x10000
def clientMultiResults : UInt64 := 0x20000
def clientPsMultiResults : UInt64 := 0x40000
def clientPluginAuth : UInt64 := 0x80000
def clientConnectAttrs : UInt64 := 0x100000
def clientPluginAuthLenencClientData : UInt64 := 0x200000
def clientSessionTracking : UInt64 := 0x800000
def clientSslVerifyServerCert : UInt64 := 0x40000000

/-- `CLIENT_CAPABILITIES`. -/
def clientCapabilities : UInt64 :=
  clientMysql ||| clientLongFlag ||| clientTransactions ||| clientSecureConnection ||| clientMultiResults |||
    clientPsMultiResults ||| clientProtocol41 ||| clientPluginAuth ||| clientPluginAuthLenencClientData |||
    clientSessionTracking ||| clientConnectAttrs

/-- `MARIADB_CLIENT_SUPPORTED_FLAGS >> 32`. -/
def mariadbClientFlag : Nat := 13

/-- A flag is set. -/
def hasFlag (flags flag : UInt64) : Bool := flags &&& flag ≠ 0

/-- `USERNAME_LENGTH`. -/
def usernameLength : Nat := 512

/-- `NAME_LEN`. -/
def nameLen : Nat := 256

/-- Authentication data. Its length is an `int`, and stays one when the fixed sizes are added. -/
def AuthData : Type := { data : List UInt8 // data.length + 1066 < 2 ^ 31 }

/-- The connection, as far as the packets depend on it. -/
structure Connection where
  user : CStr
  /-- what `read_user_name` finds when no user is given -/
  systemUser : CStr
  clientFlag : UInt64
  optionsClientFlag : UInt64
  serverCapabilities : UInt64
  /-- one of the options that ask for TLS is set -/
  useSsl : Bool
  /-- a certificate fingerprint is required -/
  tlsFp : Bool
  /-- sending the first 32 bytes and the TLS handshake work -/
  startsSsl : Bool
  charsetNr : Nat
  maxPacketSize : Nat
  client : Client
  attrs : ConnectAttrs
  db : Option CStr
  plugin : CStr

/-- What becomes of a packet. -/
inductive Sent where
  | packet (bytes : List UInt8)
  | refused
  deriving DecidableEq, Repr

section Packets

variable (table : HashTable) (conn : Connection) (data : AuthData)

/-- The server speaks of a capability. -/
def Connection.server (flag : UInt64) : Bool := hasFlag conn.serverCapabilities flag

/-! ## The parts of a packet -/

/-- The attributes, where the server wants them. -/
def attrParts : List (List UInt8) :=
  if conn.server clientConnectAttrs then
    maSendConnectAttr table (maSetConnectAttrsExtend table conn.client conn.attrs)
  else []

/-- The name of the plugin, where the server wants it. -/
def pluginParts : List (List UInt8) :=
  if conn.server clientPluginAuth then [strmake conn.plugin nameLen] else []

/-! ## `send_client_reply_packet` -/

/-- TLS is asked for, directly or because the certificate is to be verified. -/
def Connection.wantsSsl : Bool := conn.useSsl || hasFlag conn.optionsClientFlag clientSslVerifyServerCert

/-- `mysql->client_flag` when the packet is sent. -/
def Connection.replyFlags : UInt64 :=
  let flags := conn.clientFlag ||| conn.optionsClientFlag ||| clientCapabilities
  let flags := if hasFlag flags clientMultiStatements then flags ||| clientMultiResults else flags
  let flags := if conn.wantsSsl then flags ||| clientSsl else flags
  let flags := if conn.db.isSome then flags ||| clientConnectWithDb else flags
  let flags := flags &&&
    (~~~(clientCompress ||| clientSsl ||| clientProtocol41) ||| conn.serverCapabilities)
  if conn.client.canUseProtocolOb20 then flags else flags &&& ~~~clientCompress

/-- TLS is required and the server does not have it. -/
def Connection.sslMissing : Bool :=
  conn.wantsSsl && !conn.server clientSsl &&
    (hasFlag (conn.clientFlag ||| conn.optionsClientFlag) clientSslVerifyServerCert || conn.tlsFp)

/-- TLS is agreed on and does not start. -/
def Connection.sslFails : Bool := conn.wantsSsl && hasFlag conn.replyFlags clientSsl && !conn.startsSsl

/-- The fixed part. -/
def replyHeader : List (List UInt8) :=
  if hasFlag conn.replyFlags clientProtocol41 then
    let flags := if conn.server clientMysql then conn.replyFlags else conn.replyFlags &&& ~~~clientMysql
    [leBytes 4 flags.toNat, leBytes 4 conn.maxPacketSize, leBytes 1 conn.charsetNr, List.replicate 19 0,
      if conn.server clientMysql then List.replicate 4 0 else leBytes 4 mariadbClientFlag]
  else [leBytes 2 conn.replyFlags.toNat, leBytes 3 conn.maxPacketSize]

/-- The user, or who the system says it is. -/
def Connection.replyUser : CStr := if conn.user.strlen = 0 then conn.systemUser else conn.user

/-- The authentication data; without a length-encoded length they have at most 255 bytes. -/
def replyData : Option (List (List UInt8)) :=
  if data.val.length = 0 then some [[0]]
  else if conn.server clientSecureConnection then
    if conn.server clientPluginAuthLenencClientData then some [storeLength data.val.length, data.val]
    else if 0xFF < data.val.length then none
    else some [leBytes 1 data.val.length, data.val]
  else some [data.val]

/-- The database, where the server wants it. -/
def replyDb : List (List UInt8) :=
  match conn.db with
  | some db => if conn.server clientConnectWithDb then [strmake db nameLen] else []
  | none => []

/-- The size that is allocated. -/
def replySize : Nat := 33 + usernameLength + data.val.length + nameLen + nameLen + conn.attrs.len + 9

/-- `send_client_reply_packet`. -/
def sendClientReplyPacket : Except Fault Sent :=
  if conn.sslMissing then .ok .refused
  else if conn.sslFails then (putAll (replySize conn data) [] (replyHeader conn)).map fun _ => .refused
  else
    match replyData conn data with
    | none =>
      (putAll (replySize conn data) [] (replyHeader conn ++ [strmake conn.replyUser usernameLength])).map
        fun _ => .refused
    | some dataParts =>
      (putAll (replySize conn data) []
        (replyHeader conn ++ [strmake conn.replyUser usernameLength] ++ dataParts ++ replyDb conn ++
          pluginParts conn ++ attrParts table conn)).map .packet

/-! ## `send_change_user_packet` -/

/-- The size that is allocated. -/
def changeUserSize : Nat :=
  usernameLength + 1 + data.val.length + 1 + nameLen + 1 + 2 + nameLen + 1 + 9 + conn.attrs.len

/-- The authentication data, with their length when the connection is a secure one. -/
def changeUserData : Option (List (List UInt8)) :=
  if data.val.length = 0 then some [[0]]
  else if hasFlag conn.clientFlag clientSecureConnection then
    if 255 < data.val.length then none else some [leBytes 1 data.val.length, data.val]
  else some [data.val]

/-- `send_change_user_packet`. -/
def sendChangeUserPacket : Except Fault Sent :=
  match changeUserData conn data with
  | none =>
    (putAll (changeUserSize conn data) [] [strmake conn.user usernameLength]).map fun _ => .refused
  | some dataParts =>
    (putAll (changeUserSize conn data) []
      ([strmake conn.user usernameLength] ++ dataParts ++ [strmake (conn.db.getD (.ofText "")) nameLen] ++
        (if conn.server clientProtocol41 then [leBytes 2 conn.charsetNr] else []) ++
        pluginParts conn ++ attrParts table conn)).map .packet

/-! ## Which packets fit -/

/-- What the attributes will take: the ones that are there, without an earlier address and port, and the
pairs of the driver. -/
def attrLength : Nat :=
  if conn.server clientConnectAttrs then
    let len := grow (conn.attrs.len - oldAddressSize table conn.attrs) conn.client.pairSizes
    storeLengthSize len + len
  else 0

/-- What the name of the plugin takes. -/
def pluginLength : Nat := if conn.server clientPluginAuth then min nameLen conn.plugin.strlen + 1 else 0

/-- What the authentication data take in a reply. -/
def replyDataLength : Nat :=
  if data.val.length = 0 then 1
  else if conn.server clientSecureConnection then
    if conn.server clientPluginAuthLenencClientData then storeLengthSize data.val.length + data.val.length
    else 1 + data.val.length
  else data.val.length

/-- What the database takes in a reply. -/
def replyDbLength : Nat :=
  match conn.db with
  | some db => if conn.server clientConnectWithDb then min nameLen db.strlen + 1 else 0
  | none => 0

/-- The length of a reply. -/
def replyLength : Nat :=
  (if hasFlag conn.replyFlags clientProtocol41 then 32 else 5) + (min usernameLength conn.replyUser.strlen + 1) +
    replyDataLength conn data + replyDbLength conn + pluginLength conn + attrLength table conn

/-- What the authentication data take in a change of user. -/
def changeUserDataLength : Nat :=
  if data.val.length = 0 then 1
  else if hasFlag conn.clientFlag clientSecureConnection then 1 + data.val.length
  else data.val.length

/-- The length of a change of user. -/
def changeUserLength : Nat :=
  (min usernameLength conn.user.strlen + 1) + changeUserDataLength conn data +
    (min nameLen (conn.db.getD (.ofText "")).strlen + 1) + (if conn.server clientProtocol41 then 2 else 0) +
    pluginLength conn + attrLength table conn

theorem length_attrParts : (attrParts table conn).flatten.length = attrLength table conn := by
  unfold attrParts attrLength
  split
  · rw [length_maSendConnectAttr, len_maSetConnectAttrsExtend]
  · rfl

theorem length_pluginParts : (pluginParts conn).flatten.length = pluginLength conn := by
  unfold pluginParts pluginLength
  split
  · simp
  · rfl

theorem length_replyHeader : (replyHeader conn).flatten.length =
    if hasFlag conn.replyFlags clientProtocol41 then 32 else 5 := by
  unfold replyHeader
  split
  · split <;> simp
  · simp

theorem length_replyDb : (replyDb conn).flatten.length = replyDbLength conn := by
  unfold replyDb replyDbLength
  split
  · split
    · simp
    · rfl
  · rfl

variable {parts : List (List UInt8)}

theorem length_replyData (h : replyData conn data = some parts) :
    parts.flatten.length = replyDataLength conn data := by
  unfold replyData at h
  unfold replyDataLength
  split at h
  · rename_i hzero
    cases h
    rw [if_pos hzero]
    rfl
  rename_i hzero
  rw [if_neg hzero]
  split at h
  · rename_i hsecure
    rw [if_pos hsecure]
    split at h
    · rename_i hlenenc
      cases h
      simp [if_pos hlenenc]
    rename_i hlenenc
    split at h
    · cases h
    cases h
    simp [if_neg hlenenc]
  · rename_i hsecure
    cases h
    simp [if_neg hsecure]

theorem length_changeUserData (h : changeUserData conn data = some parts) :
    parts.flatten.length = changeUserDataLength conn data := by
  unfold changeUserData at h
  unfold changeUserDataLength
  split at h
  · rename_i hzero
    cases h
    rw [if_pos hzero]
    rfl
  rename_i hzero
  rw [if_neg hzero]
  split at h
  · rename_i hsecure
    split at h
    · cases h
    cases h
    simp [if_pos hsecure]
  rename_i hsecure
  cases h
  simp [if_neg hsecure]

/-- The function has a result: every byte it stored is inside the buffer. -/
def Fits (r : Except Fault Sent) : Prop := ∃ sent, r = .ok sent

theorem fits_map_putAll {size : Nat} (f : List UInt8 → Sent) :
    Fits ((putAll size [] parts).map f) ↔ parts.flatten.length ≤ size := by
  rw [← putAll_isOk_iff]
  cases h : putAll size [] parts with
  | error e => exact ⟨fun ⟨_, hs⟩ => (by cases hs), fun ⟨_, hs⟩ => (by cases hs)⟩
  | ok out => exact ⟨fun _ => ⟨out, rfl⟩, fun _ => ⟨f out, rfl⟩⟩

/-- A reply fits exactly when it is refused before the data, or is no longer than the buffer. -/
theorem replyFits_iff : Fits (sendClientReplyPacket table conn data) ↔
    conn.sslMissing = true ∨ conn.sslFails = true ∨ replyData conn data = none ∨
      replyLength table conn data ≤ replySize conn data := by
  have hheader : (replyHeader conn).flatten.length ≤ 32 := by
    rw [length_replyHeader]
    split <;> omega
  unfold sendClientReplyPacket
  by_cases hmissing : conn.sslMissing = true
  · rw [if_pos hmissing]
    exact ⟨fun _ => .inl hmissing, fun _ => ⟨_, rfl⟩⟩
  rw [if_neg hmissing]
  by_cases hfails : conn.sslFails = true
  · rw [if_pos hfails, fits_map_putAll]
    refine ⟨fun _ => .inr (.inl hfails), fun _ => ?_⟩
    unfold replySize
    omega
  rw [if_neg hfails]
  cases hdata : replyData conn data with
  | none =>
    simp only [fits_map_putAll]
    refine ⟨fun _ => .inr (.inr (.inl trivial)), fun _ => ?_⟩
    simp only [flatten_append, length_append, flatten_cons, flatten_nil, append_nil, length_strmake]
    unfold replySize
    omega
  | some parts =>
    simp only [fits_map_putAll, flatten_append, length_append, length_replyHeader, length_replyData conn data hdata, length_replyDb,
      length_pluginParts, length_attrParts]
    simp [hmissing, hfails, replyLength]

/-- A change of user fits exactly when its data are refused, or it is no longer than the buffer. -/
theorem changeUserFits_iff : Fits (sendChangeUserPacket table conn data) ↔
    changeUserData conn data = none ∨ changeUserLength table conn data ≤ changeUserSize conn data := by
  unfold sendChangeUserPacket
  cases hdata : changeUserData conn data with
  | none =>
    simp only [fits_map_putAll]
    refine ⟨fun _ => .inl trivial, fun _ => ?_⟩
    simp only [flatten_cons, flatten_nil, append_nil, length_strmake]
    unfold changeUserSize
    omega
  | some parts =>
    have hcharset : (if conn.server clientProtocol41 then [leBytes 2 conn.charsetNr] else []).flatten.length =
        if conn.server clientProtocol41 then 2 else 0 := by
      split <;> simp
    simp only [fits_map_putAll, flatten_append, length_append, length_changeUserData conn data hdata, hcharset,
      length_pluginParts, length_attrParts]
    simp [changeUserLength]

/-! ## Names that leave enough room -/

/-- What the names take without their NULs, and the pairs of the driver. -/
def namesAndPairs (user : CStr) : Nat :=
  min usernameLength user.strlen + min nameLen (conn.db.getD (.ofText "")).strlen + min nameLen conn.plugin.strlen +
    conn.client.pairSizes.sum

theorem storeLengthSize_le (n : Nat) : storeLengthSize n ≤ 9 := by
  unfold storeLengthSize
  split_ifs <;> omega

/-- The attributes take at most what they took, the pairs of the driver, and three bytes of length. -/
theorem attrLength_le : attrLength table conn ≤ conn.attrs.len + conn.client.pairSizes.sum + 3 := by
  have hgrow := grow_le (conn.attrs.len - oldAddressSize table conn.attrs) conn.client.pairSizes
  have hsmall : grow (conn.attrs.len - oldAddressSize table conn.attrs) conn.client.pairSizes ≤ 0xFFFF := by
    rw [← len_maSetConnectAttrsExtend]
    exact (maSetConnectAttrsExtend table conn.client conn.attrs).len_le
  unfold attrLength
  split
  · dsimp only
    have hsize : storeLengthSize (grow (conn.attrs.len - oldAddressSize table conn.attrs) conn.client.pairSizes) ≤ 3 := by
      unfold storeLengthSize
      split_ifs <;> omega
    omega
  · omega

theorem pluginLength_le : pluginLength conn ≤ min nameLen conn.plugin.strlen + 1 := by
  unfold pluginLength
  split <;> omega

theorem replyFits_of_short (h : namesAndPairs conn conn.replyUser ≤ 1019) :
    Fits (sendClientReplyPacket table conn data) := by
  refine (replyFits_iff table conn data).2 (.inr (.inr (.inr ?_)))
  have hattrs := attrLength_le table conn
  have hplugin := pluginLength_le conn
  have hdata : replyDataLength conn data ≤ data.val.length + 9 := by
    have hsize := storeLengthSize_le data.val.length
    unfold replyDataLength
    split_ifs <;> omega
  have hdb : replyDbLength conn ≤ min nameLen (conn.db.getD (.ofText "")).strlen + 1 := by
    unfold replyDbLength
    cases conn.db with
    | none => exact Nat.zero_le _
    | some db =>
      dsimp only [Option.getD_some]
      split <;> omega
  unfold namesAndPairs at h
  unfold replyLength replySize
  have hfixed : (if hasFlag conn.replyFlags clientProtocol41 then 32 else 5) ≤ 32 := by split <;> omega
  unfold usernameLength nameLen at *
  omega

theorem changeUserFits_of_short (h : namesAndPairs conn conn.user ≤ 1019) :
    Fits (sendChangeUserPacket table conn data) := by
  refine (changeUserFits_iff table conn data).2 (.inr ?_)
  have hattrs := attrLength_le table conn
  have hplugin := pluginLength_le conn
  have hdata : changeUserDataLength conn data ≤ data.val.length + 1 := by
    unfold changeUserDataLength
    split_ifs <;> omega
  unfold namesAndPairs at h
  unfold changeUserLength changeUserSize
  have hcharset : (if conn.server clientProtocol41 then 2 else 0) ≤ 2 := by split <;> omega
  unfold usernameLength nameLen at *
  omega

/-- **Which authentication packets fit their buffer**: those for which the names leave enough of their room
for the attributes that are added while the packet is built. Names and added pairs of at most 1019 bytes
together always do. -/
theorem authPacketsFit_iff : (Fits (sendClientReplyPacket table conn data) ↔
      conn.sslMissing = true ∨ conn.sslFails = true ∨ replyData conn data = none ∨
        replyLength table conn data ≤ replySize conn data) ∧
    (Fits (sendChangeUserPacket table conn data) ↔
      changeUserData conn data = none ∨ changeUserLength table conn data ≤ changeUserSize conn data) ∧
    (namesAndPairs conn conn.replyUser ≤ 1019 → Fits (sendClientReplyPacket table conn data)) ∧
    (namesAndPairs conn conn.user ≤ 1019 → Fits (sendChangeUserPacket table conn data)) :=
  ⟨replyFits_iff table conn data, changeUserFits_iff table conn data, replyFits_of_short table conn data,
    changeUserFits_of_short table conn data⟩

end Packets

/-- A first connection with short names, and a proxy user. -/
def proxyConnection (proxyUser : CStr) : Connection where
  user := .ofText "root"
  systemUser := .ofText "root"
  clientFlag := 0
  optionsClientFlag := 0
  serverCapabilities := clientCapabilities ||| clientConnectWithDb
  useSsl := false
  tlsFp := false
  startsSsl := true
  charsetNr := 45
  maxPacketSize := 0x1000000
  client := ⟨true, true, true, false, false, false, false, some proxyUser, .ofText "2.2.4", some ((127, 0, 0, 1), 40000)⟩
  attrs := .empty
  db := none
  plugin := .ofText "mysql_native_password"

/-- A proxy user of a thousand bytes does not fit, whatever the other names are. -/
theorem long_proxy_user_overflows : ∃ proxyUser : CStr, proxyUser.strlen = 1000 ∧
    sendClientReplyPacket .inOrder (proxyConnection proxyUser) ⟨List.replicate 20 1, by decide⟩ =
      .error .writeOutside ∧
    sendChangeUserPacket .inOrder (proxyConnection proxyUser) ⟨List.replicate 20 1, by decide⟩ =
      .error .writeOutside :=
  ⟨⟨List.replicate 1000 112, by decide +kernel⟩, by decide +kernel⟩

end ObConnector.Auth
