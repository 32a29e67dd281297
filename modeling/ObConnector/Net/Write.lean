/-
# ObConnector.Net.Write -- the send path in OB2.0 mode.

`ma_net_write` and `ma_net_write_command` cut a payload into packets and hand their bytes to
`ma_net_write_buff`, which collects them in the packet buffer and sends a frame whenever
`MAX_PACKET_LENGTH_WITH_OB20` bytes have come together; `ma_net_flush` sends what is left. The frame
itself, with the pending extra info in front of the basic info, is built by `ma_net_real_write` in a
buffer of its own (`ma_net.c`, `ob_protocol20.c`).

Allocations are taken to succeed. Two things outside the driver are parameters: `obCrc32`, and
`pvioWrite`, which says whether the socket takes all of a frame.
-/
import ObConnector.Net.Frame

namespace ObConnector.Net

open Lib Protocol20

/-! ## One frame -/

/-- `MAX_PACKET_LENGTH_WITH_OB20`. -/
def maxPacketLengthWithOb20 : Nat :=
  maxPacketLength - ob20HeaderSize - ob20TailerSize - ob20ExtrainfoLengthSize

/-- `ER_NET_ERROR_ON_WRITE`. -/
def erNetErrorOnWrite : Nat := 1160

/-- An assignment to bit `k` of the flags. -/
def setFlag (flags k : Nat) (v : Bool) : Nat :=
  flags - flags / 2 ^ k % 2 * 2 ^ k + if v then 2 ^ k else 0

/-- A store into the write buffer. -/
def storeInside (p : Ob20Protocol) (off : Nat) (bs : List UInt8) : Except Fault Ob20Protocol :=
  if off + bs.length ≤ p.realWriteBufferLength then
    .ok { p with realWriteBuffer := storeAt p.realWriteBuffer off bs }
  else .error .writeOutside

/-- The write buffer is made larger when it is smaller than `len`. -/
def growWriteBuffer (p : Ob20Protocol) (len : Nat) : Ob20Protocol :=
  { p with realWriteBufferLength := max p.realWriteBufferLength len }

/-- Where the payload starts: `header_length + OB20_HEADER_SIZE`. -/
def ob20HeaderLength : Nat := outerHeaderSize + ob20HeaderSize

/-- `ob20_packet_len`, an `uint32_t`. -/
def ob20PacketLen (len extraInfoLength : Nat) : Nat :=
  (len + extraInfoLength + ob20HeaderSize + ob20TailerSize +
    if extraInfoLength ≠ 0 then ob20ExtrainfoLengthSize else 0) % 2 ^ 32

/-- `clear_extra_info`. Its `list_free` frees the whole rest of the list and not only the item at
`current`, so that with a second item the next round reads and frees what is free already. -/
def clearExtraInfo : List Tlv → Except Fault (List Tlv)
  | [] | [_] => .ok []
  | _ => .error .useAfterFree

/-- The extra info goes into the write buffer, and the flags say so. The list is cleared, unless the
end of what was filled is not where it should be; then the call fails. -/
def storeExtraInfo (p : Ob20Protocol) (extraInfoLength : Nat) : Except Fault (Bool × Ob20Protocol) := do
  let p ← storeInside p ob20HeaderLength (leBytes 4 extraInfoLength)
  let at_ := ob20HeaderLength + ob20ExtrainfoLengthSize
  let (pos, mem) ← fillProtocol20ExtraInfo p.extraInfoList
    (loadAt p.realWriteBuffer at_ (p.realWriteBufferLength - at_)) extraInfoLength
  let flags := setFlag (setFlag (setFlag p.header.flags 3 true) 0 true) 1 false
  let p := { p with
    realWriteBuffer := storeAt p.realWriteBuffer at_ mem
    header := { p.header with flags := flags } }
  if pos ≠ extraInfoLength then return (true, p)
  let list ← clearExtraInfo p.extraInfoList
  return (false, { p with extraInfoList := list })

/-- What `ma_net_real_write` does about the extra info. -/
def putExtraInfo (p : Ob20Protocol) (extraInfoLength : Nat) : Except Fault (Bool × Ob20Protocol) :=
  if extraInfoLength ≠ 0 then storeExtraInfo p extraInfoLength
  else .ok (false, { p with
    header := { p.header with flags := setFlag (setFlag p.header.flags 0 false) 3 false } })

/-- The header goes to the front of the write buffer. -/
def storeHeader (p : Ob20Protocol) (packetLen pktNr : Nat) : Except Fault Ob20Protocol :=
  let filled := fillProtocol20Header p packetLen pktNr 0
  storeInside filled.2 0 filled.1

section Writer

variable (obCrc32 : List UInt8 → UInt32) (pvioWrite : List (List UInt8) → List UInt8 → Bool)

/-- The basic info, the checksum and the header go into the write buffer. -/
def putBasicInfo (p : Ob20Protocol) (packet : List UInt8) (extraInfoLength packetLen pktNr : Nat) :
    Except Fault Ob20Protocol := do
  let p ← storeInside p (ob20HeaderLength + extraInfoLength) packet
  let crc32 := obCrc32 (loadAt p.realWriteBuffer ob20HeaderLength (packet.length + extraInfoLength))
  let p ← storeInside p (ob20HeaderLength + extraInfoLength + packet.length) (leBytes 4 crc32.toNat)
  storeHeader { p with
    header := { p.header with payloadLen := (packet.length + extraInfoLength) % 2 ^ 32 } } packetLen pktNr

/-- The loop of `ma_pvio_write` calls: whether it fails. -/
def sendFrame (net : NET) (frame : List UInt8) : Bool × NET :=
  let net' := { net with sent := net.sent ++ [frame] }
  if pvioWrite net.sent frame then (false, net')
  else (true, { net' with error := 2, lastErrno := erNetErrorOnWrite })

/-- `ma_net_real_write`: whether it fails. -/
def maNetRealWrite (net : NET) (packet : List UInt8) : Except Fault (Bool × NET) :=
  if net.error = 2 then .ok (true, net)
  else do
    let size ← getProtocol20ExtraInfoLength net.ob20.extraInfoList
    let extraInfoLength := size % 2 ^ 32
    let packetLen := ob20PacketLen packet.length extraInfoLength
    let p := growWriteBuffer net.ob20 ((packetLen + outerHeaderSize + 1) % 2 ^ 32)
    let (failed, p) ← putExtraInfo p extraInfoLength
    if failed then return (true, { net with ob20 := p })
    let extraInfoLength :=
      if extraInfoLength ≠ 0 then (extraInfoLength + ob20ExtrainfoLengthSize) % 2 ^ 32 else 0
    let p ← putBasicInfo obCrc32 p packet extraInfoLength packetLen net.compressPktNr
    return sendFrame pvioWrite { net with ob20 := p, compressPktNr := net.compressPktNr + 1 }
      (loadAt p.realWriteBuffer 0 (packetLen + outerHeaderSize))

/-! ## The packet buffer -/

/-- The `memcpy` to `write_pos`. -/
def appendBuff (net : NET) (packet : List UInt8) : NET :=
  { net with
    buff := storeAt net.buff net.writePos packet
    writePos := net.writePos + packet.length }

/-- The buffer grows for `len` more bytes, up to what a frame can take; nothing when `net_realloc`
refuses. -/
def growBuff (net : NET) (len : Nat) : Option NET :=
  if usub net.maxPacket net.writePos < len ∧ net.maxPacket ≤ maxPacketLengthWithOb20 then
    (netRealloc net (min (len + net.writePos) maxPacketLengthWithOb20)).map fun net' =>
      { net' with writePos := net'.writePos + net.writePos }
  else some net

/-- `left_length`. The branch for `MAX_PACKET_LENGTH` is never taken in OB2.0 mode. -/
def leftLength (net : NET) : Nat :=
  if maxPacketLengthWithOb20 < net.maxPacket then usub maxPacketLengthWithOb20 net.writePos
  else usub net.maxPacket net.writePos

/-- The loop over full frames that go out straight from the packet. -/
def writeChunks (net : NET) (packet : List UInt8) : Except Fault (Bool × NET × List UInt8) :=
  if maxPacketLengthWithOb20 < packet.length then do
    let (failed, net) ← maNetRealWrite obCrc32 pvioWrite net (packet.take maxPacketLengthWithOb20)
    if failed then return (true, net, packet)
    writeChunks net (packet.drop maxPacketLengthWithOb20)
  else .ok (false, net, packet)
termination_by packet.length
decreasing_by
  rw [List.length_drop]
  exact Nat.sub_lt (by omega) (by decide)

/-- The buffer is filled up and sent when it holds something. -/
def topUp (net : NET) (packet : List UInt8) : Except Fault (Bool × NET × List UInt8) :=
  if net.writePos ≠ 0 then do
    let left := leftLength net
    let net := { net with buff := storeAt net.buff net.writePos (packet.take left) }
    let (failed, net') ← maNetRealWrite obCrc32 pvioWrite net (loadAt net.buff 0 (net.writePos + left))
    if failed then return (true, net', packet)
    return (false, { net' with writePos := 0 }, packet.drop left)
  else .ok (false, net, packet)

/-- A packet that does not fit the buffer. -/
def writeLarge (net : NET) (packet : List UInt8) : Except Fault (Bool × NET) := do
  let (failed, net, packet) ← topUp obCrc32 pvioWrite net packet
  if failed then return (true, net)
  let (failed, net, packet) ← writeChunks obCrc32 pvioWrite net packet
  if failed then return (true, net)
  if net.maxPacket < packet.length then maNetRealWrite obCrc32 pvioWrite net packet
  else return (false, appendBuff net packet)

/-- The packet goes behind what is buffered, once the buffer has grown. -/
def placePacket (net : NET) (packet : List UInt8) : Option NET → Except Fault (Bool × NET)
  | none => .ok (true, { net with error := 1, lastErrno := erNetPacketTooLarge })
  | some net =>
    if leftLength net < packet.length then writeLarge obCrc32 pvioWrite net packet
    else .ok (false, appendBuff net packet)

/-- Extra info that does not fit behind what is buffered goes out alone. -/
def sendExtraInfoAlone (net : NET) (extraInfoLength : Nat) : Except Fault (Bool × NET) :=
  if maxPacketLengthWithOb20 < extraInfoLength + net.writePos then maNetRealWrite obCrc32 pvioWrite net []
  else .ok (false, net)

/-- `ma_net_write_buff`: whether it fails. -/
def maNetWriteBuff (net : NET) (packet : List UInt8) : Except Fault (Bool × NET) :=
  if packet.length = 0 then .ok (false, net)
  else do
    let extraInfoLength ← getProtocol20ExtraInfoLength net.ob20.extraInfoList
    if maxPacketLengthWithOb20 < extraInfoLength then return (true, net)
    let (failed, net) ← sendExtraInfoAlone obCrc32 pvioWrite net extraInfoLength
    if failed then return (true, net)
    placePacket obCrc32 pvioWrite net packet (growBuff net packet.length)

/-! ## Payloads -/

/-- One packet: its header, with `lead` behind it, and then the rest. -/
def writePacket (net : NET) (lead packet : List UInt8) : Except Fault (Bool × NET) := do
  let header := leBytes 3 (lead.length + packet.length) ++ UInt8.ofNat net.pktNr :: lead
  let (failed, net) ← maNetWriteBuff obCrc32 pvioWrite { net with pktNr := net.pktNr + 1 } header
  if failed then return (true, net)
  maNetWriteBuff obCrc32 pvioWrite net packet

/-- The packets of a payload. The first bytes of it, `lead`, share a buffer with the first header. -/
def writePackets (net : NET) (lead packet : List UInt8) : Except Fault (Bool × NET) :=
  if maxPacketLength ≤ lead.length + packet.length ∧ lead.length < maxPacketLength then do
    let room := maxPacketLength - lead.length
    let (failed, net) ← writePacket obCrc32 pvioWrite net lead (packet.take room)
    if failed then return (true, net)
    writePackets net [] (packet.drop room)   -- the command is not sent again
  else writePacket obCrc32 pvioWrite net lead packet
termination_by packet.length
decreasing_by
  rw [List.length_drop]
  omega

/-- `update_request_id`. -/
def updateRequestId (net : NET) : NET :=
  let requestId := if net.ob20.header.requestId + 1 > 0xffffff then 0 else net.ob20.header.requestId + 1
  { net with ob20 := { net.ob20 with header := { net.ob20.header with requestId := requestId } } }

/-- `ma_net_write`. -/
def maNetWrite (net : NET) (packet : List UInt8) : Except Fault (Bool × NET) :=
  let net := if net.ob20.updateRequestId then updateRequestId net else net
  writePackets obCrc32 pvioWrite net [] packet

/-- `ma_net_flush`. -/
def maNetFlush (net : NET) : Except Fault (Bool × NET) :=
  if 0 < net.multiStatus then .ok (false, net)
  else do
    let (failed, net) ← (if net.writePos ≠ 0 then do
      let (failed, net) ← maNetRealWrite obCrc32 pvioWrite net (loadAt net.buff 0 net.writePos)
      return (failed, { net with writePos := 0 })
    else .ok (false, net))
    return (failed, { net with pktNr := net.compressPktNr })

/-- `ma_net_write_command`. -/
def maNetWriteCommand (net : NET) (command : UInt8) (packet : List UInt8) (disableFlush : Bool) :
    Except Fault (Bool × NET) := do
  let (failed, net) ← writePackets obCrc32 pvioWrite (updateRequestId net) [command] packet
  if failed ∨ disableFlush then return (failed, net)
  maNetFlush obCrc32 pvioWrite net

/-- What a caller can do with the connection. -/
inductive NetCall where
  | write (packet : List UInt8)
  | writeCommand (command : UInt8) (packet : List UInt8) (disableFlush : Bool)
  | flush
  | setExtraInfo (key : Nat) (value : List UInt8)

/-- One call, with its return code. -/
def NetCall.run (net : NET) : NetCall → Except Fault (Bool × NET)
  | .write packet => maNetWrite obCrc32 pvioWrite net packet
  | .writeCommand command packet disableFlush =>
    maNetWriteCommand obCrc32 pvioWrite net command packet disableFlush
  | .flush => maNetFlush obCrc32 pvioWrite net
  | .setExtraInfo key value => .ok (false, { net with ob20 := { net.ob20 with
      extraInfoList := ob20SetExtraInfo net.ob20.extraInfoList key value } })

/-- Successive calls, whatever codes they return. -/
def runCalls (net : NET) : List NetCall → Except Fault NET
  | [] => .ok net
  | c :: cs => do
    let (_, net) ← c.run obCrc32 pvioWrite net
    runCalls net cs

end Writer

end ObConnector.Net
