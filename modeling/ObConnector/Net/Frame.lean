/-
# ObConnector.Net.Frame -- receiving one OB2.0 frame.

The part of `ma_net_read` that brings one frame into the buffer (`ma_net.c`): `ma_real_read` loads
the outer header and as many bytes as it says, `decode_protocol20_header` looks at the OB2.0 header,
the payload checksum is compared unless the frame carries 0, the extra info is decoded, and the
basic info is moved to where the frame began. `ob_crc32` is chosen at run time by what the processor
offers, so it is a variable here and every result holds for every function in its place.

Three lengths meet in a frame: the outer length `P`, the payload length `L` of the OB2.0 header and
the extra-info length `E`. Nothing compares them.
-/
import ObConnector.Protocol20.Header

namespace ObConnector.Net

open Lib Protocol20

/-! ## The connection -/

/-- `NET`, for a connection in OB2.0 mode. `buff` is the packet buffer, `readPos` and `writePos` are
offsets in it, `pvio` is what the peer will still send, in the pieces in which the socket gives it,
`sent` is what has been handed to the socket, frame by frame, and `multiStatus` belongs to
`net->extension`. -/
structure NET where
  buff : Mem
  maxPacket : Nat
  maxPacketSize : Nat
  whereB : Nat
  bufLength : Nat
  remainInBuf : Nat
  readPos : Nat
  writePos : Nat
  pktNr : Nat
  compressPktNr : Nat
  saveChar : UInt8
  error : Nat
  lastErrno : Nat
  pvio : List (List UInt8)
  sent : List (List UInt8)
  multiStatus : Nat
  ob20 : Ob20Protocol

/-- `ER_NET_PACKET_TOO_LARGE`. -/
def erNetPacketTooLarge : Nat := 1153

/-- `ER_NET_READ_ERROR`. -/
def erNetReadError : Nat := 1158

/-- `IO_SIZE`. -/
def ioSize : Nat := 4096

/-- `net_realloc`: the new size is rounded up, unless `max_packet_size` forbids it. -/
def netRealloc (net : NET) (length : Nat) : Option NET :=
  if net.maxPacketSize ≤ length then none
  else some { net with maxPacket := (length + ioSize - 1) / ioSize * ioSize, writePos := 0 }

/-- The inner loop of `ma_real_read`: `remain` bytes go to `pos`, each `ma_pvio_cache_read` giving
at most what is asked for from the first piece. Nothing is left when the peer has closed. -/
def readFully (m : Mem) (pos remain : Nat) : List (List UInt8) → Option (Mem × List (List UInt8))
  | [] => if remain = 0 then some (m, []) else none
  | c :: cs =>
    if remain = 0 then some (m, c :: cs)
    else if c = [] then none
    else if remain < c.length then some (storeAt m pos (c.take remain), c.drop remain :: cs)
    else readFully (storeAt m pos c) (pos + c.length) (remain - c.length) cs

/-- `ma_real_read` with `net->compress` set: the outer length and the `complen` field, or nothing for
`packet_error`. -/
def maRealRead (net : NET) : Option (Nat × Nat) × NET :=
  match readFully net.buff net.whereB outerHeaderSize net.pvio with
  | none => (none, { net with error := 2 })
  | some (m, pvio) =>
    let nr := (m (net.whereB + 3)).toNat + 1
    let net := { net with buff := m, pvio := pvio, pktNr := nr, compressPktNr := nr }
    let complen := leNat (loadAt m (net.whereB + 4) 3)
    let len := leNat (loadAt m net.whereB 3)
    if len = 0 then (some (len, complen), net)
    else
      let helping := max len complen + net.whereB
      match if net.maxPacket ≤ helping then netRealloc net helping else some net with
      | none => (none, { net with error := 1, lastErrno := erNetPacketTooLarge })
      | some net =>
        match readFully net.buff net.whereB len net.pvio with
        | none => (none, { net with error := 2 })
        | some (m, pvio) => (some (len, complen), { net with buff := m, pvio := pvio })

/-- Subtraction of `size_t`. -/
@[irreducible] def usub (a b : Nat) : Nat := (a + 2 ^ 64 - b % 2 ^ 64) % 2 ^ 64

theorem usub_eq {a b : Nat} (hb : b ≤ a) (ha : a < 2 ^ 64) : usub a b = a - b := by
  unfold usub
  omega

/-- The connection after a rejected frame; the caller closes the socket. -/
def readError (net : NET) : NET := { net with error := 2, lastErrno := erNetReadError }

/-! ## One frame -/

section Receive

variable (obCrc32 : List UInt8 → UInt32)

/-- The payload checksum comparison of `ma_net_read`: a frame that carries 0 is not checked. -/
def crcMismatch (net : NET) (payload len : Nat) : Bool :=
  let packetCrc32 := leNat (loadAt net.buff (payload + len) 4)
  packetCrc32 ≠ 0 ∧ (obCrc32 (loadAt net.buff payload len)).toNat ≠ packetCrc32

/-- The extra info at `payload`: its size with the four length bytes, and the trace records after
it. The return code of the decode is not looked at. -/
def readExtraInfo (fuel : Nat) (net : NET) (payload : Nat) : Except Fault (Nat × FLTInfo) :=
  let flags := net.ob20.header.flags
  if extraInfoExist flags then
    let extraLen := leNat (loadAt net.buff payload 4)
    if isNewExtraInfo flags then do
      let (_, d) ← decodeProtocol20ExtraInfo fuel (loadAt net.buff (payload + 4) extraLen) net.ob20.flt
      return (extraLen + ob20ExtrainfoLengthSize, d.flt)
    else .ok (extraLen + ob20ExtrainfoLengthSize, net.ob20.flt)
  else .ok (0, net.ob20.flt)

/-- The OB2.0 branch of the loop of `ma_net_read`, from `ma_real_read` to the move of the basic
info: the length of the basic info, or nothing for `packet_error`. -/
def recvFrame (fuel : Nat) (net : NET) : Except Fault (Option Nat × NET) :=
  match maRealRead net with
  | (none, net) => .ok (none, net)
  | (some (packetLength, _), net) =>
    let start := net.whereB
    let payload := start + ob20HeaderSize
    match decodeProtocol20Header net.ob20 (loadAt net.buff start ob20HeaderSize) packetLength
        (net.pktNr - 1) 0 with
    | (true, p) => .ok (none, readError { net with ob20 := p })
    | (false, p) =>
      let net := { net with ob20 := p }
      let payloadLen := p.header.payloadLen
      if crcMismatch obCrc32 net payload payloadLen then .ok (none, readError net)
      else do
        let net := { net with ob20 := { p with extraInfoList := [] } }
        let (extraSize, flt) ← readExtraInfo fuel net payload
        let complen := usub payloadLen extraSize
        return (some complen, { net with
          buff := memmove net.buff start (payload + extraSize) complen
          ob20 := { net.ob20 with flt := flt } })

/-! ## What is checked and what is not -/

/-- The OB2.0 header of the frame that `ma_real_read` has brought in. -/
def frameHeader (net : NET) : Ob20ProtocolHeader :=
  readHeader (loadAt net.buff net.whereB ob20HeaderSize)

/-- What the code asks of the frame: the header is the one expected, and the payload checksum is
right or absent. -/
structure PassesChecks (net : NET) (P : Nat) : Prop where
  header : HeaderAccepted net.ob20 (loadAt net.buff net.whereB ob20HeaderSize) P (net.pktNr - 1) 0
  crc : crcMismatch obCrc32 net (net.whereB + ob20HeaderSize) (frameHeader net).payloadLen = false

variable {obCrc32} {net net1 : NET} {P complen : Nat}

/-- A frame whose header is not the one expected is an error. -/
theorem recvFrame_bad_header (hread : maRealRead net = (some (P, complen), net1))
    (hbad : ¬HeaderAccepted net1.ob20 (loadAt net1.buff net1.whereB ob20HeaderSize) P
      (net1.pktNr - 1) 0) (fuel : Nat) :
    ∃ net', recvFrame obCrc32 fuel net = .ok (none, net') := by
  have hfails := decodeHeader_fails_iff.2 hbad
  generalize hdec : decodeProtocol20Header net1.ob20 (loadAt net1.buff net1.whereB ob20HeaderSize) P
    (net1.pktNr - 1) 0 = dec at hfails
  obtain ⟨fails, p⟩ := dec
  subst hfails
  refine ⟨readError { net1 with ob20 := p }, ?_⟩
  simp only [recvFrame, hread, hdec]

/-- The connection behind the checks, its pending extra info cleared. -/
def acceptFrame (net : NET) : NET :=
  { net with ob20 := { acceptHeader net.ob20 (frameHeader net) with extraInfoList := [] } }

/-- The connection with the basic info moved to where the frame began. -/
def takeBasic (net : NET) (extraSize : Nat) (flt : FLTInfo) : NET :=
  { acceptFrame net with
    buff := memmove net.buff net.whereB (net.whereB + ob20HeaderSize + extraSize)
      (usub (frameHeader net).payloadLen extraSize)
    ob20 := { (acceptFrame net).ob20 with flt := flt } }

/-- Behind an accepted header, the frame is what the checksum and the extra info make of it. -/
theorem recvFrame_header (hread : maRealRead net = (some (P, complen), net1))
    (hacc : HeaderAccepted net1.ob20 (loadAt net1.buff net1.whereB ob20HeaderSize) P
      (net1.pktNr - 1) 0) (fuel : Nat) :
    recvFrame obCrc32 fuel net =
      if crcMismatch obCrc32 net1 (net1.whereB + ob20HeaderSize) (frameHeader net1).payloadLen then
        .ok (none, readError { net1 with ob20 := acceptHeader net1.ob20 (frameHeader net1) })
      else do
        let r ← readExtraInfo fuel (acceptFrame net1) (net1.whereB + ob20HeaderSize)
        return (some (usub (frameHeader net1).payloadLen r.1), takeBasic net1 r.1 r.2) := by
  have hdec := decodeHeader_ok_iff.2 ⟨hacc, rfl⟩
  simp only [recvFrame, hread, hdec]
  rfl

/-- **An accepted frame**: it passes the checks and its extra info has been got through. -/
theorem recvFrame_accepted (hread : maRealRead net = (some (P, complen), net1))
    (hpass : PassesChecks obCrc32 net1 P) {fuel extraSize : Nat} {flt : FLTInfo}
    (hextra : readExtraInfo fuel (acceptFrame net1) (net1.whereB + ob20HeaderSize) = .ok (extraSize, flt)) :
    recvFrame obCrc32 fuel net =
      .ok (some (usub (frameHeader net1).payloadLen extraSize), takeBasic net1 extraSize flt) := by
  rw [recvFrame_header hread hpass.header, hpass.crc, hextra]
  rfl

end Receive

/-- A fresh connection to a peer that will send these bytes. -/
def freshNet (pvio : List (List UInt8)) : NET where
  buff := fun _ => 0
  maxPacket := 8192
  maxPacketSize := 2 ^ 30
  whereB := 0
  bufLength := 0
  remainInBuf := 0
  readPos := 0
  writePos := 0
  pktNr := 0
  compressPktNr := 0
  saveChar := 0
  error := 0
  lastErrno := 0
  pvio := pvio
  sent := []
  multiStatus := 0
  ob20 := ⟨⟨0x20AB, 20, 7, 9, 0, 0, 0, 0, 0⟩, [], zeroFlt, true, fun _ => 0, 0⟩

end ObConnector.Net
