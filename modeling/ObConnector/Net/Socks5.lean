/-
# ObConnector.Net.Socks5 -- the negotiation with a SOCKS5 proxy.

Before the first packet of the database server the driver may have to talk to a proxy
(`socket5_auth` in `pvio_socket.c`): it offers one method of authentication, sends user and password if
that is the method, asks for a connection and reads the address the proxy has bound. The next byte on
the socket is then the database server's.

Of the three kinds of address a proxy may have bound, the code reads two. An IPv6 address is read as a
name (`recvbuf[3] = ATYPE_DOMAIN` assigns where it should compare), and the length of a name is a signed
`char`, which makes lengths from 128 on a negative size. The messages it sends are put together in a buffer of 512 bytes without looking at the lengths
of their fields. `negotiated_iff` says for which inputs all of that does no harm.
-/
import ObConnector.Lib.Filling
import ObConnector.Lib.CString

namespace ObConnector.Net

open Lib List

/-! ## the socket and the messages -/

/-- `SOCKET5_VERSION`. -/
def socket5Version : UInt8 := 5

/-- `ATYPE_IPV4`. -/
def atypeIpv4 : UInt8 := 1

/-- `ATYPE_DOMAIN`. -/
def atypeDomain : UInt8 := 3

/-- `ATYPE_IPV6`. -/
def atypeIpv6 : UInt8 := 4

/-- `SOCKET_ERROR`. -/
def socketError : Int := -1

/-- `SOCKET5_ERROR`. -/
def socket5Error : Int := -2

/-- The sizes of `sendbuf` and of `recvbuf`. -/
def socket5BufSize : Nat := 512

/-- The address of the server that the proxy is asked for. -/
inductive Socks5Address where
  | ipv4 (addr : List UInt8)
  | domain (len : UInt8) (host : List UInt8)
  | ipv6 (addr : List UInt8)
  deriving DecidableEq, Repr

/-- What the driver sends. -/
inductive Socks5Message where
  | shakehands (method : UInt8)
  | auth (userLen : UInt8) (user : List UInt8) (pwdLen : UInt8) (pwd : List UInt8)
  | request (address : Socks5Address) (port : List UInt8)
  deriving DecidableEq, Repr

/-- The stores that put an address into `sendbuf`. -/
def Socks5Address.parts : Socks5Address → List (List UInt8)
  | .ipv4 addr => [[atypeIpv4], addr]
  | .domain len host => [[atypeDomain], [len], host]
  | .ipv6 addr => [[atypeIpv6], addr]

/-- The stores that put a message into `sendbuf`. -/
def Socks5Message.parts : Socks5Message → List (List UInt8)
  | .shakehands method => [[socket5Version], [1], [method]]
  | .auth userLen user pwdLen pwd => [[socket5Version], [userLen], user, [pwdLen], pwd]
  | .request address port => [[socket5Version], [1], [0]] ++ address.parts ++ [port]

/-- Every field with a length in front of it has that length. -/
def Socks5Message.Prefixed : Socks5Message → Prop
  | .shakehands _ => True
  | .auth userLen user pwdLen pwd => userLen.toNat = user.length ∧ pwdLen.toNat = pwd.length
  | .request (.domain len host) _ => len.toNat = host.length
  | .request _ _ => True

/-- The messages sent so far and the bytes that are still to be received. -/
structure Socks5Socket where
  sent : List Socks5Message
  input : List UInt8
  deriving DecidableEq, Repr

/-- The conversions of the C library, and whether a message goes out whole. -/
structure Socks5Env where
  inetAddr : CStr → { addr : List UInt8 // addr.length = 4 }
  inetPton : CStr → Option { addr : List UInt8 // addr.length = 16 }
  goesOut : List UInt8 → Bool

/-- Put a message together and send it. -/
def sendMessage (env : Socks5Env) (m : Socks5Message) (sock : Socks5Socket) : Except Fault (Bool × Socks5Socket) := do
  let bytes ← putAll socket5BufSize [] m.parts
  if env.goesOut bytes then return (true, { sock with sent := sock.sent ++ [m] })
  else return (false, sock)

/-- `recv` of `n` bytes into `recvbuf`, and nothing when the count that it returns is not `n`. A negative
`n` is converted to a size that has no end: all that has come is stored, and no count is negative. -/
def recvInto (sock : Socks5Socket) (n : Int) : Except Fault (Option (List UInt8) × Socks5Socket) :=
  let count := if n < 0 then sock.input.length else min n.toNat sock.input.length
  if socket5BufSize < count then .error .writeOutside
  else if (count : Int) = n then
    .ok (some (sock.input.take count), { sock with input := sock.input.drop count })
  else .ok (none, { sock with input := sock.input.drop count })

/-- A `char` as a number. -/
def charValue (b : UInt8) : Int := if b.toNat < 128 then b.toNat else b.toNat - 256

/-! ## `socket5_auth` -/

/-- The method that is offered. -/
def offeredMethod (user pwd : Option CStr) : UInt8 :=
  match user, pwd with
  | some user, some pwd => if user.strlen = 0 ∨ pwd.strlen = 0 then 0 else 2
  | _, _ => 0

/-- The bytes of a string that may be missing. -/
def bytesOr (s : Option CStr) : List UInt8 :=
  match s with
  | some s => s.bytes
  | none => []

/-- The host is a name: something else than digits and dots. -/
def isDomain (host : CStr) : Bool := host.bytes.any fun c => !((48 ≤ c && c ≤ 57) || c == 46)

/-- The kind of address that the host is taken for; nothing when it is not an IPv6 address after all. -/
def requestAddress (env : Socks5Env) (host : CStr) : Option Socks5Address :=
  if 58 ∈ host.bytes then (env.inetPton host).map fun addr => .ipv6 addr.val
  else if isDomain host then some (.domain (UInt8.ofNat host.strlen) host.bytes)
  else some (.ipv4 (env.inetAddr host).val)

/-- `htons`. -/
def portBytes (port : UInt16) : List UInt8 := [UInt8.ofNat (port.toNat / 256), UInt8.ofNat port.toNat]

/-- The end of the request: read the address the proxy has bound. -/
def readBound (recvbuf3 : UInt8) (sock : Socks5Socket) : Except Fault (Bool × Socks5Socket) := do
  if recvbuf3 = atypeIpv4 then
    let (reply, sock) ← recvInto sock (2 + 4)
    return (reply.isSome, sock)
  else
    -- the assignment in the condition makes every other type a name
    let (reply, sock) ← recvInto sock 1
    match reply with
    | none => return (false, sock)
    | some length =>
      let (reply, sock) ← recvInto sock (2 + charValue (length.headD 0))
      return (reply.isSome, sock)

/-- The request for a connection. -/
def socket5Request (env : Socks5Env) (host : CStr) (port : UInt16) (sock : Socks5Socket) :
    Except Fault (Int × Socks5Socket) := do
  match requestAddress env host with
  | none => return (socket5Error, sock)
  | some address =>
    let (whole, sock) ← sendMessage env (.request address (portBytes port)) sock
    if !whole then return (socketError, sock)
    let (reply, sock) ← recvInto sock 4
    match reply with
    | none => return (socketError, sock)
    | some reply =>
      let (whole, sock) ← readBound (reply.getD 3 0) sock
      if !whole then return (socketError, sock)
      return (charValue (reply.getD 1 0), sock)

/-- User and password, and whether the proxy takes them; the number is what the call returns if not. -/
def socket5User (env : Socks5Env) (user pwd : Option CStr) (sock : Socks5Socket) :
    Except Fault (Option Int × Socks5Socket) := do
  let user := bytesOr user
  let pwd := bytesOr pwd
  let (whole, sock) ←
    sendMessage env (.auth (UInt8.ofNat user.length) user (UInt8.ofNat pwd.length) pwd) sock
  if !whole then return (some socketError, sock)
  let (reply, sock) ← recvInto sock 2
  match reply with
  | none => return (some socketError, sock)
  | some reply =>
    if reply.getD 0 0 ≠ socket5Version ∨ reply.getD 1 0 ≠ 0 then return (some socket5Error, sock)
    return (none, sock)

/-- `socket5_auth`. -/
def socket5Auth (env : Socks5Env) (user pwd : Option CStr) (host : CStr) (port : UInt16) (sock : Socks5Socket) :
    Except Fault (Int × Socks5Socket) := do
  let (whole, sock) ← sendMessage env (.shakehands (offeredMethod user pwd)) sock
  if !whole then return (socketError, sock)
  let (reply, sock) ← recvInto sock 2
  match reply with
  | none => return (socketError, sock)
  | some reply =>
    if reply.getD 0 0 ≠ socket5Version ∨ (reply.getD 1 0 ≠ 0 ∧ reply.getD 1 0 ≠ 2) then return (socket5Error, sock)
    if reply.getD 1 0 = 2 then
      let (failed, sock) ← socket5User env user pwd sock
      match failed with
      | some ret => return (ret, sock)
      | none => socket5Request env host port sock
    else socket5Request env host port sock

/-! ## the proxy -/

/-- The address a proxy has bound. -/
inductive BoundAddress where
  | ipv4 (addr : List UInt8) (h : addr.length = 4)
  | domain (name : List UInt8) (h : name.length < 256)
  | ipv6 (lead : UInt8) (addr : List UInt8) (h : addr.length = 15)

/-- Its bytes in a reply. -/
def BoundAddress.bytes : BoundAddress → List UInt8
  | .ipv4 addr _ => atypeIpv4 :: addr
  | .domain name _ => atypeDomain :: UInt8.ofNat name.length :: name
  | .ipv6 lead addr _ => atypeIpv6 :: lead :: addr

/-- What a proxy answers: whether it accepts the method that is offered, the version and the status in
its answer to user and password, its reply to the request, and what it has bound. -/
structure Socks5Proxy where
  accepts : Bool
  authVersion : UInt8
  authStatus : UInt8
  rep : UInt8
  bound : BoundAddress
  port : List UInt8
  length_port : port.length = 2

/-- Everything the proxy sends, and behind it the database server. -/
def Socks5Proxy.stream (proxy : Socks5Proxy) (method : UInt8) (server : List UInt8) : List UInt8 :=
  [socket5Version, if proxy.accepts then method else 255] ++
    ((if method = 2 then [proxy.authVersion, proxy.authStatus] else []) ++
      ([socket5Version, proxy.rep, 0] ++ (proxy.bound.bytes ++ (proxy.port ++ server))))

/-- It stays in its buffers, and if it succeeds, then only the server's bytes are left and every field that
was sent has its length in front of it. -/
def ServerKept (server : List UInt8) (result : Except Fault (Int × Socks5Socket)) : Prop :=
  ∃ ret sock, result = .ok (ret, sock) ∧ (ret = 0 → sock.input = server ∧ ∀ m ∈ sock.sent, m.Prefixed)

/-- **What a negotiation has to do.** -/
def Negotiated (env : Socks5Env) (user pwd : Option CStr) (host : CStr) (port : UInt16) (proxy : Socks5Proxy)
    (server : List UInt8) : Prop :=
  ServerKept server (socket5Auth env user pwd host port ⟨[], proxy.stream (offeredMethod user pwd) server⟩)

/-! ## when it does -/

/-- The length that the code takes for the length of a name is not one that makes a negative size, or the
buffer has room for all that has come. -/
def BoundAddress.Readable (server : List UInt8) : BoundAddress → Prop
  | .ipv4 _ _ => True
  | .domain name _ => name.length < 128 ∨ 254 ≤ name.length ∨ name.length + 2 + server.length ≤ socket5BufSize
  | .ipv6 lead _ _ => lead.toNat < 128 ∨ 254 ≤ lead.toNat ∨ 15 + 2 + server.length ≤ socket5BufSize

/-- As many bytes have come as the code asks for. -/
def BoundAddress.Whole (server : List UInt8) : BoundAddress → Prop
  | .ipv4 _ _ => True
  | .domain name _ => name.length < 128 ∨ 254 ≤ name.length
  | .ipv6 lead _ _ => (lead.toNat < 128 ∧ lead.toNat ≤ 15 + server.length) ∨ 254 ≤ lead.toNat

/-- The code reads the address and nothing else. -/
def BoundAddress.Aligned : BoundAddress → Prop
  | .ipv4 _ _ => True
  | .domain name _ => name.length < 128
  | .ipv6 lead _ _ => lead.toNat = 15

/-- The request is reached: without a method, or with user and password accepted. -/
def Socks5Proxy.Reached (proxy : Socks5Proxy) (method : UInt8) : Prop :=
  proxy.accepts = true ∧ (method = 2 → proxy.authVersion = socket5Version ∧ proxy.authStatus = 0)

/-- The host is sent as a name. -/
def SentAsName (host : CStr) : Prop := 58 ∉ host.bytes ∧ isDomain host = true

/-- The lengths of the fields fit one byte each. -/
def FieldsFit (user pwd : Option CStr) (host : CStr) : Prop :=
  (offeredMethod user pwd = 2 → (bytesOr user).length < 256 ∧ (bytesOr pwd).length < 256) ∧
    (SentAsName host → host.strlen < 256)

/-- The inputs for which the negotiation does what it has to do. -/
structure Socks5Fits (env : Socks5Env) (user pwd : Option CStr) (host : CStr) (proxy : Socks5Proxy)
    (server : List UInt8) : Prop where
  auth : proxy.accepts = true → offeredMethod user pwd = 2 →
    3 + (bytesOr user).length + (bytesOr pwd).length ≤ socket5BufSize
  request : proxy.Reached (offeredMethod user pwd) → (requestAddress env host).isSome = true →
    (SentAsName host → 7 + host.strlen ≤ socket5BufSize) ∧ proxy.bound.Readable server ∧
      (proxy.rep = 0 → proxy.bound.Whole server → FieldsFit user pwd host ∧ proxy.bound.Aligned)

/-! ## the pieces of a run -/

theorem sendMessage_eq (env : Socks5Env) (m : Socks5Message) (sock : Socks5Socket) : sendMessage env m sock =
      if m.parts.flatten.length ≤ socket5BufSize then
        if env.goesOut m.parts.flatten then .ok (true, { sock with sent := sock.sent ++ [m] }) else .ok (false, sock)
      else .error .writeOutside := by
  rw [sendMessage, putAll_eq (Nat.zero_le _), length_nil, Nat.zero_add]
  by_cases hroom : m.parts.flatten.length ≤ socket5BufSize
  · rw [if_pos hroom, if_pos hroom]
    rfl
  rw [if_neg hroom, if_neg hroom]
  rfl

/-- Bytes that have come are received. -/
theorem recvInto_front {sent : List Socks5Message} {n : Int} {bs rest : List UInt8} (hn : n = bs.length)
    (hroom : bs.length ≤ socket5BufSize) :
    recvInto ⟨sent, bs ++ rest⟩ n = .ok (some bs, ⟨sent, rest⟩) := by
  subst hn
  have hcount : min bs.length (bs ++ rest).length = bs.length := by rw [length_append]; omega
  simp only [recvInto]
  rw [if_neg (show ¬(bs.length : Int) < 0 by omega), Int.toNat_natCast, hcount, if_neg (by omega), if_pos rfl,
    take_left, drop_left]

theorem charValue_eq_zero_iff (b : UInt8) : charValue b = 0 ↔ b = 0 := by
  have hlt := b.toNat_lt
  rw [← UInt8.toNat_inj, UInt8.toNat_zero, charValue]
  split <;> omega

/-- A size that the buffer has. -/
theorem recvInto_size {sent : List Socks5Message} {input : List UInt8} {n : Int} (m : Nat) (hn : n = m)
    (hroom : m ≤ socket5BufSize) :
    recvInto ⟨sent, input⟩ n =
      if m ≤ input.length then .ok (some (input.take m), ⟨sent, input.drop m⟩) else .ok (none, ⟨sent, []⟩) := by
  subst hn
  simp only [recvInto]
  rw [if_neg (show ¬(m : Int) < 0 by omega), Int.toNat_natCast, if_neg (by omega)]
  by_cases hin : m ≤ input.length
  · rw [if_pos hin, min_eq_left hin, if_pos rfl]
  · rw [if_neg hin, min_eq_right (by omega), if_neg (by omega), drop_length]

/-- The number of bytes asked for behind the byte that is taken for a length. -/
theorem recvInto_name {sent : List Socks5Message} {lead : UInt8} {input : List UInt8} :
    recvInto ⟨sent, input⟩ (2 + charValue lead) = if lead.toNat < 128 then if 2 + lead.toNat ≤ input.length then
          .ok (some (input.take (2 + lead.toNat)), ⟨sent, input.drop (2 + lead.toNat)⟩)
        else .ok (none, ⟨sent, []⟩)
      else if 254 ≤ lead.toNat then if lead.toNat - 254 ≤ input.length then
          .ok (some (input.take (lead.toNat - 254)), ⟨sent, input.drop (lead.toNat - 254)⟩)
        else .ok (none, ⟨sent, []⟩)
      else if socket5BufSize < input.length then .error .writeOutside else .ok (none, ⟨sent, []⟩) := by
  have hlt := lead.toNat_lt
  by_cases hsmall : lead.toNat < 128
  · rw [if_pos hsmall, charValue, if_pos hsmall]
    exact recvInto_size _ (by omega) (by unfold socket5BufSize; omega)
  rw [if_neg hsmall, charValue, if_neg hsmall]
  by_cases hlarge : 254 ≤ lead.toNat
  · rw [if_pos hlarge]
    exact recvInto_size _ (by omega) (by unfold socket5BufSize; omega)
  · simp only [recvInto]
    rw [if_neg hlarge, if_pos (show (2 : Int) + (lead.toNat - 256) < 0 by omega),
      if_neg (show ¬(input.length : Int) = 2 + (lead.toNat - 256) by omega), drop_length]

/-- What can become of an address of which a name is read. -/
theorem recvInto_name_cases {sent : List Socks5Message} (lead : UInt8) {body server : List UInt8} :
    ((¬(lead.toNat < 128 ∨ 254 ≤ lead.toNat) ∧ socket5BufSize < body.length + server.length) ∧
        recvInto ⟨sent, body ++ server⟩ (2 + charValue lead) = .error .writeOutside) ∨
      ((lead.toNat < 128 ∧ body.length + server.length < 2 + lead.toNat ∨
          ¬(lead.toNat < 128 ∨ 254 ≤ lead.toNat) ∧ body.length + server.length ≤ socket5BufSize) ∧
        recvInto ⟨sent, body ++ server⟩ (2 + charValue lead) = .ok (none, ⟨sent, []⟩)) ∨
      ((lead.toNat < 128 ∨ 254 ≤ lead.toNat) ∧ (lead.toNat < 128 → 2 + lead.toNat ≤ body.length + server.length) ∧
        (2 ≤ body.length → ∃ bs rest, recvInto ⟨sent, body ++ server⟩ (2 + charValue lead) = .ok (some bs, ⟨sent, rest⟩) ∧
          (rest = server ↔ lead.toNat < 128 ∧ 2 + lead.toNat = body.length))) := by
  have hlt := lead.toNat_lt
  -- what is left is the server's exactly when the bytes in front of it are taken
  have hrest n (hn : n ≤ body.length + server.length) :
      (body ++ server).drop n = server ↔ n = body.length := by
    constructor
    · intro heq
      have hlen := congrArg List.length heq
      rw [length_drop, length_append] at hlen
      omega
    · rintro rfl
      exact drop_left
  rw [recvInto_name, length_append]
  by_cases hsmall : lead.toNat < 128
  · rw [if_pos hsmall]
    by_cases hin : 2 + lead.toNat ≤ body.length + server.length
    · rw [if_pos hin]
      refine .inr (.inr ⟨.inl hsmall, fun _ => hin, fun _ => ⟨_, _, rfl, ?_⟩⟩)
      rw [hrest _ hin]
      exact ⟨fun h => ⟨hsmall, h⟩, fun h => h.2⟩
    rw [if_neg hin]
    exact .inr (.inl ⟨.inl ⟨hsmall, by omega⟩, rfl⟩)
  rw [if_neg hsmall]
  by_cases hlarge : 254 ≤ lead.toNat
  · rw [if_pos hlarge]
    refine .inr (.inr ⟨.inr hlarge, fun h => absurd h hsmall, fun hbody => ?_⟩)
    rw [if_pos (by omega)]
    refine ⟨_, _, rfl, ?_⟩
    rw [hrest _ (by omega)]
    exact ⟨fun h => by omega, fun h => absurd h.1 hsmall⟩
  rw [if_neg hlarge]
  by_cases hroom : socket5BufSize < body.length + server.length
  · rw [if_pos hroom]
    exact .inl ⟨⟨by omega, hroom⟩, rfl⟩
  · rw [if_neg hroom]
    exact .inr (.inl ⟨.inr ⟨by omega, by omega⟩, rfl⟩)

/-- **What becomes of the address that the proxy has bound.** -/
theorem readBound_cases (bound : BoundAddress) {port : List UInt8} (hport : port.length = 2) (server : List UInt8)
    (sent : List Socks5Message) :
    (¬bound.Readable server ∧ readBound (bound.bytes.headD 0) ⟨sent, bound.bytes.tail ++ (port ++ server)⟩ =
        .error .writeOutside) ∨
      (bound.Readable server ∧ ¬bound.Whole server ∧
        ∃ sock, readBound (bound.bytes.headD 0) ⟨sent, bound.bytes.tail ++ (port ++ server)⟩ = .ok (false, sock)) ∨
      (bound.Readable server ∧ bound.Whole server ∧
        ∃ rest, readBound (bound.bytes.headD 0) ⟨sent, bound.bytes.tail ++ (port ++ server)⟩ = .ok (true, ⟨sent, rest⟩) ∧
          (rest = server ↔ bound.Aligned)) := by
  -- the byte behind the type of the other two is read as a length
  have hname (type lead) body (htype : type ≠ atypeIpv4) :
      readBound type ⟨sent, lead :: body ++ (port ++ server)⟩ = (do
        let (reply, sock) ← recvInto ⟨sent, (body ++ port) ++ server⟩ (2 + charValue lead)
        return (reply.isSome, sock)) := by
    have hlead : recvInto ⟨sent, [lead] ++ ((body ++ port) ++ server)⟩ 1 =
        .ok (some [lead], ⟨sent, (body ++ port) ++ server⟩) := recvInto_front rfl (by simp [socket5BufSize])
    rw [readBound, if_neg htype, cons_append, ← append_assoc body]
    rfl
  cases bound with
  | ipv4 addr haddr =>
    refine .inr (.inr ⟨trivial, trivial, server, ?_, iff_of_true rfl trivial⟩)
    have hread : recvInto ⟨sent, (addr ++ port) ++ server⟩ (2 + 4) = .ok (some (addr ++ port), ⟨sent, server⟩) := by
      apply recvInto_front
      · rw [length_append]; omega
      · rw [length_append, haddr, hport]; decide
    show readBound atypeIpv4 ⟨sent, addr ++ (port ++ server)⟩ = _
    rw [readBound, ← append_assoc, hread]
    rfl
  | domain name hlt =>
    have hlead : (UInt8.ofNat name.length).toNat = name.length := by
      rw [UInt8.toNat_ofNat', Nat.mod_eq_of_lt hlt]
    have hrun := hname atypeDomain (UInt8.ofNat name.length) name (by decide)
    rcases @recvInto_name_cases sent (UInt8.ofNat name.length) (name ++ port) server with
      ⟨hbad, herr⟩ | ⟨hshort, hnone⟩ | ⟨hgood, _, hok⟩
    · rw [herr] at hrun
      rw [hlead, length_append] at hbad
      refine .inl ⟨?_, hrun⟩
      show ¬(name.length < 128 ∨ 254 ≤ name.length ∨ name.length + 2 + server.length ≤ socket5BufSize)
      omega
    · rw [hnone] at hrun
      rw [hlead, length_append] at hshort
      refine .inr (.inl ⟨.inr (.inr ?_), ?_, _, hrun⟩)
      · omega
      · show ¬(name.length < 128 ∨ 254 ≤ name.length)
        omega
    obtain ⟨bs, rest, hrecv, hrest⟩ := hok (by rw [length_append]; omega)
    rw [hrecv] at hrun
    rw [hlead, length_append] at hrest
    rw [hlead] at hgood
    refine .inr (.inr ⟨?_, hgood, rest, hrun, hrest.trans ⟨fun h => h.1, fun h => ⟨h, by omega⟩⟩⟩)
    exact hgood.imp_right .inl
  | ipv6 lead addr haddr =>
    have hrun := hname atypeIpv6 lead addr (by decide)
    rcases @recvInto_name_cases sent lead (addr ++ port) server with ⟨hbad, herr⟩ | ⟨hshort, hnone⟩ | ⟨hgood, hwhole, hok⟩
    · rw [herr] at hrun
      rw [length_append] at hbad
      refine .inl ⟨?_, hrun⟩
      show ¬(lead.toNat < 128 ∨ 254 ≤ lead.toNat ∨ 15 + 2 + server.length ≤ socket5BufSize)
      omega
    · rw [hnone] at hrun
      rw [length_append] at hshort
      refine .inr (.inl ⟨?_, ?_, _, hrun⟩)
      · show lead.toNat < 128 ∨ 254 ≤ lead.toNat ∨ 15 + 2 + server.length ≤ socket5BufSize
        omega
      · show ¬((lead.toNat < 128 ∧ lead.toNat ≤ 15 + server.length) ∨ 254 ≤ lead.toNat)
        omega
    obtain ⟨bs, rest, hrecv, hrest⟩ := hok (by rw [length_append]; omega)
    rw [hrecv] at hrun
    rw [length_append] at hrest hwhole
    refine .inr (.inr ⟨hgood.imp_right .inl, ?_, rest, hrun, hrest.trans ?_⟩)
    · show (lead.toNat < 128 ∧ lead.toNat ≤ 15 + server.length) ∨ 254 ≤ lead.toNat
      omega
    · show _ ↔ lead.toNat = 15
      omega

/-! ## the whole run -/

variable {server : List UInt8}

/-- A run that fails keeps everything. -/
theorem kept_of_failed {ret : Int} {sock : Socks5Socket} (h : ret ≠ 0) : ServerKept server (.ok (ret, sock)) :=
  ⟨ret, sock, rfl, fun hzero => absurd hzero h⟩

theorem not_serverKept_error {e : Fault} : ¬ServerKept server (.error e) := by
  rintro ⟨ret, sock, h, _⟩
  cases h

theorem address_fits {env : Socks5Env} {host : CStr} {address : Socks5Address} (port : UInt16)
    (h : requestAddress env host = some address) :
    ((Socks5Message.request address (portBytes port)).parts.flatten.length ≤ socket5BufSize ↔
        (SentAsName host → 7 + host.strlen ≤ socket5BufSize)) ∧
      ((Socks5Message.request address (portBytes port)).Prefixed ↔ (SentAsName host → host.strlen < 256)) := by
  unfold requestAddress at h
  split at h
  · rename_i hcolon
    have hname : ¬SentAsName host := fun hname => hname.1 hcolon
    cases hpton : env.inetPton host with
    | none =>
      rw [hpton] at h
      cases h
    | some addr =>
      rw [hpton] at h
      cases h
      have hlen := addr.property
      refine ⟨iff_of_true ?_ fun hn => absurd hn hname, iff_of_true trivial fun hn => absurd hn hname⟩
      simp [Socks5Message.parts, Socks5Address.parts, portBytes, hlen, socket5BufSize]
  rename_i hcolon
  split at h
  · rename_i hdomain
    cases h
    have hname : SentAsName host := ⟨hcolon, hdomain⟩
    have hsize : (UInt8.ofNat host.strlen).toNat = host.strlen ↔ host.strlen < 256 := by
      rw [UInt8.toNat_ofNat']
      omega
    refine ⟨?_, ?_⟩
    · have hlen : host.bytes.length = host.strlen := rfl
      simp only [Socks5Message.parts, Socks5Address.parts, portBytes, flatten_append, length_append,
        flatten_cons, flatten_nil, length_cons, length_nil, hname, true_imp_iff]
      omega
    · show (UInt8.ofNat host.strlen).toNat = host.strlen ↔ _
      rw [hsize]
      exact ⟨fun h _ => h, fun h => h hname⟩
  rename_i hdomain
  cases h
  have hname : ¬SentAsName host := fun hname => hdomain hname.2
  have hlen := (env.inetAddr host).property
  refine ⟨iff_of_true ?_ fun hn => absurd hn hname, iff_of_true trivial fun hn => absurd hn hname⟩
  simp [Socks5Message.parts, Socks5Address.parts, portBytes, hlen, socket5BufSize]

/-- The inputs for which the request keeps everything, when `sent` has been sent before. -/
def RequestFits (env : Socks5Env) (host : CStr) (proxy : Socks5Proxy) (server : List UInt8)
    (sent : List Socks5Message) : Prop :=
  (requestAddress env host).isSome = true →
    (SentAsName host → 7 + host.strlen ≤ socket5BufSize) ∧ proxy.bound.Readable server ∧
      (proxy.rep = 0 → proxy.bound.Whole server →
        (∀ m ∈ sent, m.Prefixed) ∧ (SentAsName host → host.strlen < 256) ∧ proxy.bound.Aligned)

/-- What the proxy sends in answer to the request. -/
def Socks5Proxy.answer (proxy : Socks5Proxy) (server : List UInt8) : List UInt8 :=
  [socket5Version, proxy.rep, 0] ++ (proxy.bound.bytes ++ (proxy.port ++ server))

/-- The request after its message has gone out. -/
theorem socket5Request_answered (proxy : Socks5Proxy) (server : List UInt8) (sent : List Socks5Message) :
    recvInto ⟨sent, proxy.answer server⟩ 4 = .ok (some [socket5Version, proxy.rep, 0, proxy.bound.bytes.headD 0],
        ⟨sent, proxy.bound.bytes.tail ++ (proxy.port ++ server)⟩) := by
  have hbytes : proxy.bound.bytes = [proxy.bound.bytes.headD 0] ++ proxy.bound.bytes.tail := by
    cases proxy.bound <;> rfl
  have hinput : proxy.answer server = [socket5Version, proxy.rep, 0, proxy.bound.bytes.headD 0] ++
      (proxy.bound.bytes.tail ++ (proxy.port ++ server)) := by
    rw [Socks5Proxy.answer]
    nth_rewrite 1 [hbytes]
    simp
  rw [hinput]
  exact recvInto_front rfl (by simp [socket5BufSize])

/-- **The request keeps everything for the inputs that fit**, and, when what is sent goes out, for no
others. -/
theorem request_kept (env : Socks5Env) (host : CStr) (port : UInt16) (proxy : Socks5Proxy) (server : List UInt8)
    (sent : List Socks5Message) :
    (RequestFits env host proxy server sent →
        ServerKept server (socket5Request env host port ⟨sent, proxy.answer server⟩)) ∧
      ((∀ bytes, env.goesOut bytes = true) →
        ServerKept server (socket5Request env host port ⟨sent, proxy.answer server⟩) →
        RequestFits env host proxy server sent) := by
  unfold socket5Request RequestFits
  cases haddress : requestAddress env host with
  | none => exact ⟨fun _ => kept_of_failed (by decide), fun _ _ h => absurd h (by decide)⟩
  | some address =>
    obtain ⟨hfits, hprefixed⟩ := address_fits port haddress
    simp only [Option.isSome_some, true_imp_iff]
    rw [sendMessage_eq, ← hfits]
    by_cases hroom : (Socks5Message.request address (portBytes port)).parts.flatten.length ≤ socket5BufSize
    swap
    · rw [if_neg hroom]
      exact ⟨fun h => absurd h.1 hroom, fun _ h => absurd h not_serverKept_error⟩
    rw [if_pos hroom]
    cases hout : env.goesOut (Socks5Message.request address (portBytes port)).parts.flatten with
    | false =>
      refine ⟨fun _ => kept_of_failed (by decide), fun hall => ?_⟩
      rw [hall] at hout
      cases hout
    | true =>
      simp only [if_true, ok_bind, socket5Request_answered]
      have hmessages : (∀ m ∈ sent ++ [Socks5Message.request address (portBytes port)], m.Prefixed) ↔
          (∀ m ∈ sent, m.Prefixed) ∧ (SentAsName host → host.strlen < 256) := by
        rw [← hprefixed, forall_mem_append, forall_mem_singleton]
      rcases readBound_cases proxy.bound proxy.length_port server (sent ++ [.request address (portBytes port)]) with
        ⟨hbad, herr⟩ | ⟨hreadable, hshort, sock, hrun⟩ | ⟨hreadable, hwhole, rest, hrun, haligned⟩
      · simp only [getD_cons_succ, getD_cons_zero, herr]
        exact ⟨fun h => absurd h.2.1 hbad, fun _ h => absurd h not_serverKept_error⟩
      · simp only [getD_cons_succ, getD_cons_zero, hrun]
        exact ⟨fun _ => kept_of_failed (by decide), fun _ _ => ⟨hroom, hreadable, fun _ h => absurd h hshort⟩⟩
      simp only [getD_cons_succ, getD_cons_zero, hrun]
      constructor
      · intro h
        refine ⟨_, _, rfl, fun hzero => ?_⟩
        obtain ⟨hsent, hhost, halign⟩ := h.2.2 ((charValue_eq_zero_iff _).mp hzero) hwhole
        exact ⟨haligned.mpr halign, hmessages.mpr ⟨hsent, hhost⟩⟩
      · rintro _ ⟨ret, sock, hret, hkept⟩
        cases hret
        refine ⟨hroom, hreadable, fun hrep _ => ?_⟩
        obtain ⟨hinput, hsent⟩ := hkept ((charValue_eq_zero_iff _).mpr hrep)
        obtain ⟨hbefore, hhost⟩ := hmessages.mp hsent
        exact ⟨hbefore, hhost, haligned.mp hinput⟩

/-- The message with user and password. -/
def authMessage (user pwd : Option CStr) : Socks5Message :=
  .auth (UInt8.ofNat (bytesOr user).length) (bytesOr user) (UInt8.ofNat (bytesOr pwd).length) (bytesOr pwd)

theorem authMessage_fits (user pwd : Option CStr) :
    (authMessage user pwd).parts.flatten.length = 3 + (bytesOr user).length + (bytesOr pwd).length := by
  simp [authMessage, Socks5Message.parts]
  omega

theorem authMessage_prefixed (user pwd : Option CStr) :
    (authMessage user pwd).Prefixed ↔ (bytesOr user).length < 256 ∧ (bytesOr pwd).length < 256 := by
  show (UInt8.ofNat _).toNat = _ ∧ (UInt8.ofNat _).toNat = _ ↔ _
  rw [UInt8.toNat_ofNat', UInt8.toNat_ofNat']
  omega

theorem offeredMethod_cases (user pwd : Option CStr) : offeredMethod user pwd = 0 ∨ offeredMethod user pwd = 2 := by
  unfold offeredMethod
  split
  · split
    · exact .inl rfl
    · exact .inr rfl
  · exact .inl rfl

/-- What becomes of user and password. -/
theorem socket5User_eq (env : Socks5Env) (user pwd : Option CStr) (sent : List Socks5Message) (version status : UInt8)
    (rest : List UInt8) :
    socket5User env user pwd ⟨sent, [version, status] ++ rest⟩ =
      if 3 + (bytesOr user).length + (bytesOr pwd).length ≤ socket5BufSize then
        if env.goesOut (authMessage user pwd).parts.flatten then
          if version ≠ socket5Version ∨ status ≠ 0 then .ok (some socket5Error, ⟨sent ++ [authMessage user pwd], rest⟩)
          else .ok (none, ⟨sent ++ [authMessage user pwd], rest⟩)
        else .ok (some socketError, ⟨sent, [version, status] ++ rest⟩)
      else .error .writeOutside := by
  have hsend := sendMessage_eq env (authMessage user pwd) ⟨sent, [version, status] ++ rest⟩
  have hrecv : recvInto ⟨sent ++ [authMessage user pwd], [version, status] ++ rest⟩ 2 =
      .ok (some [version, status], ⟨sent ++ [authMessage user pwd], rest⟩) :=
    recvInto_front rfl (by simp [socket5BufSize])
  rw [authMessage_fits] at hsend
  show (sendMessage env (authMessage user pwd) ⟨sent, [version, status] ++ rest⟩ >>= _) = _
  rw [hsend]
  by_cases hroom : 3 + (bytesOr user).length + (bytesOr pwd).length ≤ socket5BufSize
  · rw [if_pos hroom, if_pos hroom]
    cases env.goesOut (authMessage user pwd).parts.flatten with
    | false => rfl
    | true =>
      rfl
  · rw [if_neg hroom, if_neg hroom]
    rfl

theorem requestFits_iff {env : Socks5Env} {user pwd : Option CStr} {host : CStr} {proxy : Socks5Proxy}
    {server : List UInt8} {sent : List Socks5Message} (hreached : proxy.Reached (offeredMethod user pwd))
    (hroom : offeredMethod user pwd = 2 → 3 + (bytesOr user).length + (bytesOr pwd).length ≤ socket5BufSize)
    (hsent : (∀ m ∈ sent, m.Prefixed) ↔
      (offeredMethod user pwd = 2 → (bytesOr user).length < 256 ∧ (bytesOr pwd).length < 256)) :
    RequestFits env host proxy server sent ↔ Socks5Fits env user pwd host proxy server := by
  unfold RequestFits
  rw [hsent]
  constructor
  · intro h
    refine ⟨fun _ => hroom, fun _ hsome => ?_⟩
    obtain ⟨hname, hreadable, hrest⟩ := h hsome
    refine ⟨hname, hreadable, fun hrep hwhole => ?_⟩
    obtain ⟨hfields, hhost, haligned⟩ := hrest hrep hwhole
    exact ⟨⟨hfields, hhost⟩, haligned⟩
  · intro h hsome
    obtain ⟨hname, hreadable, hrest⟩ := h.request hreached hsome
    refine ⟨hname, hreadable, fun hrep hwhole => ?_⟩
    obtain ⟨⟨hfields, hhost⟩, haligned⟩ := hrest hrep hwhole
    exact ⟨hfields, hhost, haligned⟩

/-- A proxy that does not let the driver get to the request leaves only the room for user and password. -/
theorem fits_of_not_reached {env : Socks5Env} {user pwd : Option CStr} {host : CStr} {proxy : Socks5Proxy}
    (hreached : ¬proxy.Reached (offeredMethod user pwd))
    (hroom : proxy.accepts = true → offeredMethod user pwd = 2 → 3 + (bytesOr user).length + (bytesOr pwd).length ≤ socket5BufSize) :
    Socks5Fits env user pwd host proxy server :=
  ⟨hroom, fun h => absurd h hreached⟩

/-- **The negotiation keeps what it has to for the inputs that fit**, and, when what is sent goes out, for
no others. -/
theorem negotiated_iff (env : Socks5Env) (user pwd : Option CStr) (host : CStr) (port : UInt16) (proxy : Socks5Proxy)
    (server : List UInt8) :
    (Socks5Fits env user pwd host proxy server → Negotiated env user pwd host port proxy server) ∧
      ((∀ bytes, env.goesOut bytes = true) → Negotiated env user pwd host port proxy server →
        Socks5Fits env user pwd host proxy server) := by
  unfold Negotiated socket5Auth
  rw [sendMessage_eq, if_pos (by simp [Socks5Message.parts, socket5BufSize])]
  cases hout : env.goesOut (Socks5Message.shakehands (offeredMethod user pwd)).parts.flatten with
  | false =>
    refine ⟨fun _ => kept_of_failed (by decide), fun hall => ?_⟩
    rw [hall] at hout
    cases hout
  | true =>
    have hreply : recvInto ⟨[.shakehands (offeredMethod user pwd)], proxy.stream (offeredMethod user pwd) server⟩ 2 =
        .ok (some [socket5Version, if proxy.accepts then offeredMethod user pwd else 255],
          ⟨[.shakehands (offeredMethod user pwd)],
            (if offeredMethod user pwd = 2 then [proxy.authVersion, proxy.authStatus] else []) ++ proxy.answer server⟩) :=
      recvInto_front rfl (by simp [socket5BufSize])
    simp only [if_true, ok_bind, nil_append, hreply]
    cases haccepts : proxy.accepts with
    | false =>
      have hnot : ¬proxy.Reached (offeredMethod user pwd) := by
        intro h
        rw [h.1] at haccepts
        cases haccepts
      refine ⟨fun _ => kept_of_failed (by decide), fun _ _ => fits_of_not_reached hnot fun h => ?_⟩
      rw [haccepts] at h
      cases h
    | true =>
      rcases offeredMethod_cases user pwd with hmethod | hmethod
      · -- no authentication: the request follows at
        have hreached : proxy.Reached (offeredMethod user pwd) := by
          refine ⟨haccepts, fun h => ?_⟩
          rw [hmethod] at h
          cases h
        have hiff := @requestFits_iff env user pwd host proxy server [.shakehands (offeredMethod user pwd)] hreached
          (fun h => by rw [hmethod] at h; cases h)
          (iff_of_true (by simp [Socks5Message.Prefixed]) fun h => by rw [hmethod] at h; cases h)
        have hrequest := request_kept env host port proxy server [.shakehands (offeredMethod user pwd)]
        rw [hiff] at hrequest
        rw [hmethod] at hrequest ⊢
        exact hrequest
      rw [hmethod]
      simp only [if_true, socket5User_eq]
      by_cases hroom : 3 + (bytesOr user).length + (bytesOr pwd).length ≤ socket5BufSize
      swap
      · rw [if_neg hroom]
        exact ⟨fun h => absurd (h.auth haccepts hmethod) hroom, fun _ h => absurd h not_serverKept_error⟩
      rw [if_pos hroom]
      cases hauth : env.goesOut (authMessage user pwd).parts.flatten with
      | false =>
        refine ⟨fun _ => kept_of_failed (by decide), fun hall => ?_⟩
        rw [hall] at hauth
        cases hauth
      | true =>
        by_cases hrefused : proxy.authVersion ≠ socket5Version ∨ proxy.authStatus ≠ 0
        · have hnot : ¬proxy.Reached (offeredMethod user pwd) := by
            intro h
            have hboth := h.2 hmethod
            exact hrefused.elim (fun hv => hv hboth.1) fun hs => hs hboth.2
          rw [if_pos hrefused]
          exact ⟨fun _ => kept_of_failed (by decide), fun _ _ => fits_of_not_reached hnot fun _ _ => hroom⟩
        have hreached : proxy.Reached (offeredMethod user pwd) := by
          rw [not_or, not_not, not_not] at hrefused
          exact ⟨haccepts, fun _ => hrefused⟩
        have hiff := @requestFits_iff env user pwd host proxy server
          [.shakehands (offeredMethod user pwd), authMessage user pwd] hreached (fun _ => hroom) (by
            rw [← authMessage_prefixed]
            simp [Socks5Message.Prefixed, hmethod])
        have hrequest := request_kept env host port proxy server
          [.shakehands (offeredMethod user pwd), authMessage user pwd]
        rw [hiff, hmethod] at hrequest
        rw [if_neg hrefused]
        exact hrequest

/-- A library that knows no address, on a socket that sends everything. -/
def sampleEnv : Socks5Env := ⟨fun _ => ⟨[255, 255, 255, 255], rfl⟩, fun _ => none, fun _ => true⟩

/-- The host `h`. -/
def sampleHost : CStr := ⟨[104], by decide⟩

/-- A proxy without authentication that has connected and bound this address. -/
def sampleProxy (bound : BoundAddress) : Socks5Proxy := ⟨true, 1, 0, 0, bound, [12, 234], rfl⟩

/-- With an IPv4 address everything is kept. -/
theorem negotiated_ipv4 :
    Negotiated sampleEnv none none sampleHost 2883 (sampleProxy (.ipv4 [10, 0, 0, 1] rfl)) [10] := by
  refine (negotiated_iff _ _ _ _ _ _ _).1 ⟨fun _ h => absurd h (by decide), fun _ _ => ⟨fun _ => by decide, trivial, ?_⟩⟩
  intro _ _
  exact ⟨⟨fun h => absurd h (by decide), fun _ => by decide⟩, trivial⟩

/-- The IPv6 address `::` leaves fifteen bytes of the reply in front of the server's; a name of 254 bytes
leaves itself and the port; and a host of 300 bytes is sent with the length 44. All three calls return zero. -/
theorem socks5_misread : (∃ sent, socket5Auth sampleEnv none none sampleHost 2883
        ⟨[], (sampleProxy (.ipv6 0 (List.replicate 15 0) rfl)).stream 0 [10]⟩ =
      .ok (0, ⟨sent, List.replicate 13 0 ++ [12, 234, 10]⟩)) ∧
    (∃ sent, socket5Auth sampleEnv none none sampleHost 2883
        ⟨[], (sampleProxy (.domain (List.replicate 254 97) (by decide +kernel))).stream 0 [10]⟩ =
      .ok (0, ⟨sent, List.replicate 254 97 ++ [12, 234, 10]⟩)) ∧
    socket5Auth sampleEnv none none ⟨List.replicate 300 97, by decide +kernel⟩ 2883
        ⟨[], (sampleProxy (.ipv4 [10, 0, 0, 1] rfl)).stream 0 [10]⟩ =
      .ok (0, ⟨[.shakehands 0, .request (.domain 44 (List.replicate 300 97)) [11, 67]], [10]⟩) := by
  refine ⟨⟨[.shakehands 0, .request (.domain 1 [104]) [11, 67]], ?_⟩,
    ⟨[.shakehands 0, .request (.domain 1 [104]) [11, 67]], ?_⟩, ?_⟩
  · decide +kernel
  · decide +kernel
  · decide +kernel

end ObConnector.Net
