/-
# ObConnector.Net.WriteModes -- the send path with compression or OB2.0.

With compression or OB2.0 switched on, the bytes of `ma_net_write` and `ma_net_write_command` are
collected in the packet buffer and leave it in blocks, each handed to `ma_net_real_write`: when the
buffer is full, straight from the packet when that is larger, or at a flush. `ma_net_write_buff`
chooses the blocks by the room left, by the mode and, in OB2.0 mode, by the extra info that is waiting
to be sent along (`ma_net.c`).

`ObConnector.Net.Write` models the OB2.0 mode. Here the two modes stand side by side, with the copies
into the buffer checked against its size and with a log of what `ma_net_real_write` was handed and
what it sent.
-/
import ObConnector.Net.Write

namespace ObConnector.Net.Stream

open Lib Protocol20

/-- What a run leaves in the log. -/
inductive WriteEvent where
  /-- an item set by `ob20_set_extra_info` -/
  | extraInfo (item : Tlv)
  /-- a block handed to `ma_net_real_write`, and the frames it sent -/
  | passed (basic : List UInt8) (frames : List (List UInt8))

/-- A connection with `net->compress` set, and its log. -/
structure Writer where
  net : NET
  useOb20protocol : Bool
  log : List WriteEvent

/-- The largest block: `MAX_PACKET_LENGTH_WITH_OB20` or `MAX_PACKET_LENGTH`. -/
def blockLength (w : Writer) : Nat :=
  if w.useOb20protocol then maxPacketLengthWithOb20 else maxPacketLength

/-- `left_length`, once the buffer has grown. -/
def leftLength (w : Writer) : Nat :=
  if maxPacketLengthWithOb20 < w.net.maxPacket ∧ w.useOb20protocol = true then
    usub maxPacketLengthWithOb20 w.net.writePos
  else if maxPacketLength < w.net.maxPacket then usub maxPacketLength w.net.writePos
  else usub w.net.maxPacket w.net.writePos

/-- The bytes at `write_pos`. -/
def storeBuff (w : Writer) (bytes : List UInt8) : Writer :=
  { w with net := { w.net with buff := storeAt w.net.buff w.net.writePos bytes } }

/-- The `memcpy` to `write_pos`. The buffer has `max_packet` bytes. -/
def copyBuff (w : Writer) (bytes : List UInt8) : Except Fault Writer :=
  if w.net.writePos + bytes.length ≤ w.net.maxPacket then .ok (storeBuff w bytes)
  else .error .writeOutside

/-- `write_pos` is set. -/
def setPos (w : Writer) (pos : Nat) : Writer := { w with net := { w.net with writePos := pos } }

/-- The copy at the end of `ma_net_write_buff`. -/
def appendBuff (w : Writer) (bytes : List UInt8) : Except Fault (Bool × Writer) := do
  let w ← copyBuff w bytes
  return (false, setPos w (w.net.writePos + bytes.length))

section Modes

variable (obCrc32 : List UInt8 → UInt32) (mariadbCompress : List UInt8 → List UInt8 × Nat)
  (pvioWrite : List (List UInt8) → List UInt8 → Bool)

/-- `ma_net_real_write` without OB2.0. `_mariadb_compress` gives the body and the `complen` field. -/
def realWriteCompressed (net : NET) (packet : List UInt8) : Bool × NET :=
  if net.error = 2 then (true, net)
  else
    let (body, complen) := mariadbCompress packet
    sendFrame pvioWrite { net with compressPktNr := net.compressPktNr + 1 }
      (outerHeader body.length net.compressPktNr complen ++ body)

/-- `ma_net_real_write`. -/
def maNetRealWrite (w : Writer) (packet : List UInt8) : Except Fault (Bool × Writer) := do
  let (failed, net) ← if w.useOb20protocol then Net.maNetRealWrite obCrc32 pvioWrite w.net packet
    else pure (realWriteCompressed mariadbCompress pvioWrite w.net packet)
  return (failed, { w with
    net := net
    log := w.log ++ [.passed packet (net.sent.drop w.net.sent.length)] })

/-- The buffer is filled up and sent when it holds something. -/
def topUp (w : Writer) (packet : List UInt8) : Except Fault (Bool × Writer × List UInt8) :=
  if w.net.writePos ≠ 0 then do
    let left := leftLength w
    let w ← copyBuff w (packet.take left)
    let (failed, w) ← maNetRealWrite obCrc32 mariadbCompress pvioWrite w
      (loadAt w.net.buff 0 (w.net.writePos + left))
    if failed then return (true, w, packet)
    return (false, setPos w 0, packet.drop left)
  else .ok (false, w, packet)

/-- The loop over full blocks that go out straight from the packet. -/
def writeChunks (w : Writer) (packet : List UInt8) : Except Fault (Bool × Writer × List UInt8) :=
  if blockLength w < packet.length then do
    let (failed, w') ← maNetRealWrite obCrc32 mariadbCompress pvioWrite w (packet.take (blockLength w))
    if failed then return (true, w', packet)
    writeChunks w' (packet.drop (blockLength w))
  else .ok (false, w, packet)
termination_by packet.length
decreasing_by
  rw [List.length_drop]
  refine Nat.sub_lt (by omega) ?_
  unfold blockLength
  split <;> decide

/-- A packet that does not fit the buffer. -/
def writeLarge (w : Writer) (packet : List UInt8) : Except Fault (Bool × Writer) := do
  let (failed, w, packet) ← topUp obCrc32 mariadbCompress pvioWrite w packet
  if failed then return (true, w)
  let (failed, w, packet) ← writeChunks obCrc32 mariadbCompress pvioWrite w packet
  if failed then return (true, w)
  if w.net.maxPacket < packet.length then maNetRealWrite obCrc32 mariadbCompress pvioWrite w packet
  else appendBuff w packet

/-- The part of `ma_net_write_buff` that both modes share. -/
def placePacket (w : Writer) (packet : List UInt8) : Except Fault (Bool × Writer) :=
  if leftLength w < packet.length then writeLarge obCrc32 mariadbCompress pvioWrite w packet
  else appendBuff w packet

/-- Extra info that does not fit behind what is buffered goes out alone. -/
def sendExtraInfoAlone (w : Writer) (extraInfoLength : Nat) : Except Fault (Bool × Writer) :=
  if maxPacketLengthWithOb20 < extraInfoLength + w.net.writePos then
    maNetRealWrite obCrc32 mariadbCompress pvioWrite w []
  else .ok (false, w)

/-- The packet goes behind what is buffered, once the buffer has grown. -/
def placeGrown (w : Writer) (packet : List UInt8) : Option NET → Except Fault (Bool × Writer)
  | none => .ok (true, { w with
      net := { w.net with error := 1, lastErrno := erNetPacketTooLarge } })
  | some net => placePacket obCrc32 mariadbCompress pvioWrite { w with net := net } packet

/-- `ma_net_write_buff`: whether it fails. -/
def maNetWriteBuff (w : Writer) (packet : List UInt8) : Except Fault (Bool × Writer) :=
  if packet.length = 0 then .ok (false, w)
  else if w.useOb20protocol then do
    let extraInfoLength ← getProtocol20ExtraInfoLength w.net.ob20.extraInfoList
    if maxPacketLengthWithOb20 < extraInfoLength then return (true, w)
    let (failed, w) ← sendExtraInfoAlone obCrc32 mariadbCompress pvioWrite w extraInfoLength
    if failed then return (true, w)
    placeGrown obCrc32 mariadbCompress pvioWrite w packet (growBuff w.net packet.length)
  else placePacket obCrc32 mariadbCompress pvioWrite w packet

/-- The header of a packet, with the bytes that share its buffer. -/
def packetHeader (nr : Nat) (lead : List UInt8) (len : Nat) : List UInt8 :=
  leBytes 3 (lead.length + len) ++ UInt8.ofNat nr :: lead

/-- The next packet number: `pkt_nr++`, or 0 for a command that is only compressed. -/
def nextNumber (w : Writer) (numbered : Bool) : Nat × Writer :=
  if numbered then (w.net.pktNr, { w with net := { w.net with pktNr := w.net.pktNr + 1 } })
  else (0, w)

/-- One packet: its header, with `lead` behind it, and then the rest. -/
def writePacket (w : Writer) (numbered : Bool) (lead packet : List UInt8) :
    Except Fault (Bool × Writer) := do
  let (nr, w) := nextNumber w numbered
  let (failed, w) ← maNetWriteBuff obCrc32 mariadbCompress pvioWrite w
    (packetHeader nr lead packet.length)
  if failed then return (true, w)
  maNetWriteBuff obCrc32 mariadbCompress pvioWrite w packet

/-- The packets of a payload. The first bytes of it, `lead`, share a buffer with the first header. -/
def writePackets (w : Writer) (numbered : Bool) (lead packet : List UInt8) :
    Except Fault (Bool × Writer) :=
  if maxPacketLength ≤ lead.length + packet.length ∧ lead.length < maxPacketLength then do
    let room := maxPacketLength - lead.length
    let (failed, w) ← writePacket obCrc32 mariadbCompress pvioWrite w numbered lead (packet.take room)
    if failed then return (true, w)
    writePackets w numbered [] (packet.drop room)   -- the command is not sent again
  else writePacket obCrc32 mariadbCompress pvioWrite w numbered lead packet
termination_by packet.length
decreasing_by
  rw [List.length_drop]
  omega

/-- `ma_net_write`. -/
def maNetWrite (w : Writer) (packet : List UInt8) : Except Fault (Bool × Writer) :=
  let w := if w.useOb20protocol ∧ w.net.ob20.updateRequestId then
    { w with net := updateRequestId w.net } else w
  writePackets obCrc32 mariadbCompress pvioWrite w true [] packet

/-- `ma_net_flush`. -/
def maNetFlush (w : Writer) : Except Fault (Bool × Writer) :=
  if 0 < w.net.multiStatus then .ok (false, w)
  else do
    let (failed, w) ← (if w.net.writePos ≠ 0 then do
      let (failed, w) ← maNetRealWrite obCrc32 mariadbCompress pvioWrite w
        (loadAt w.net.buff 0 w.net.writePos)
      return (failed, setPos w 0)
    else .ok (false, w))
    return (failed, { w with net := { w.net with pktNr := w.net.compressPktNr } })

/-- `ma_net_write_command`. -/
def maNetWriteCommand (w : Writer) (command : UInt8) (packet : List UInt8) (disableFlush : Bool) :
    Except Fault (Bool × Writer) := do
  let w := if w.useOb20protocol then { w with net := updateRequestId w.net } else w
  let (failed, w) ← writePackets obCrc32 mariadbCompress pvioWrite w w.useOb20protocol [command] packet
  if failed ∨ disableFlush then return (failed, w)
  maNetFlush obCrc32 mariadbCompress pvioWrite w

/-- One call, with its return code. -/
def runCall (w : Writer) : NetCall → Except Fault (Bool × Writer)
  | .write packet => maNetWrite obCrc32 mariadbCompress pvioWrite w packet
  | .writeCommand command packet disableFlush =>
    maNetWriteCommand obCrc32 mariadbCompress pvioWrite w command packet disableFlush
  | .flush => maNetFlush obCrc32 mariadbCompress pvioWrite w
  | .setExtraInfo key value => .ok (false, { w with
      net := { w.net with ob20 := { w.net.ob20 with
        extraInfoList := ob20SetExtraInfo w.net.ob20.extraInfoList key value } }
      log := w.log ++ [.extraInfo ⟨key, value⟩] })

/-- Successive calls, up to the first that fails. -/
def runCalls (w : Writer) : List NetCall → Except Fault (Bool × Writer)
  | [] => .ok (false, w)
  | c :: cs => do
    let (failed, w) ← runCall obCrc32 mariadbCompress pvioWrite w c
    if failed then return (true, w)
    runCalls w cs

end Modes

end ObConnector.Net.Stream
