/-
# ObConnector.Net.Plain -- packets without compression.

The same functions as in `Net.Write` and `Net.Read`, on a connection that is neither compressed nor in
OB2.0 mode (`ma_net.c`). A payload is cut into packets of `2 ^ 24 - 1` bytes and a shorter last one, and
the bytes of a packet go through the packet buffer or, when they do not fit into it, straight to the socket.
The reader puts the packets of a payload one behind the other: the header of the next packet is read to
where its payload will stand, over which the payload then goes.

The socket takes and gives bytes in pieces of its own choice. `pvioWrite` says how many of the bytes that
are offered it takes, after all it has taken before; `pvio` is what the peer sent, in the pieces in which it
arrives. `plain_roundTrip` is the identity that comes out, for every choice.
-/
import ObConnector.Net.Read
import ObConnector.Net.Write

namespace ObConnector.Net.Plain

open Lib Protocol20 List

/-! ## Sending -/

section Sending

variable (pvioWrite : List (List UInt8) → List UInt8 → Nat)

/-- The loop of `ma_pvio_write` calls: whether it fails. Each round takes at least one byte, so that the
length is enough fuel. -/
def sendLoop : Nat → NET → List UInt8 → Except Fault (Bool × NET)
  | _, net, [] => .ok (false, net)
  | 0, _, _ :: _ => .error .outOfFuel
  | fuel + 1, net, b :: bs =>
    let length := pvioWrite net.sent (b :: bs)
    if length = 0 then .ok (true, { net with error := 2, lastErrno := erNetErrorOnWrite })
    else if (b :: bs).length < length then .error .readOutside
    else sendLoop fuel { net with sent := net.sent ++ [(b :: bs).take length] } ((b :: bs).drop length)

/-- `ma_net_real_write`: whether it fails. -/
def maNetRealWrite (net : NET) (packet : List UInt8) : Except Fault (Bool × NET) :=
  if net.error = 2 then .ok (true, net) else sendLoop pvioWrite packet.length net packet

/-- The buffer is filled up and sent when it holds something. -/
def topUp (net : NET) (packet : List UInt8) : Except Fault (Bool × NET × List UInt8) :=
  if net.writePos ≠ 0 then do
    let left := usub net.maxPacket net.writePos
    let net := { net with buff := storeAt net.buff net.writePos (packet.take left) }
    let (failed, net') ← maNetRealWrite pvioWrite net (loadAt net.buff 0 (net.writePos + left))
    if failed then return (true, net', packet)
    return (false, { net' with writePos := 0 }, packet.drop left)
  else .ok (false, net, packet)

/-- `ma_net_write_buff`: whether it fails. -/
def maNetWriteBuff (net : NET) (packet : List UInt8) : Except Fault (Bool × NET) :=
  if packet.length = 0 then .ok (false, net)
  else if usub net.maxPacket net.writePos < packet.length then do
    let (failed, net, packet) ← topUp pvioWrite net packet
    if failed then return (true, net)
    if net.maxPacket < packet.length then maNetRealWrite pvioWrite net packet
    else return (false, appendBuff net packet)
  else .ok (false, appendBuff net packet)

/-- One packet: its header, with `lead` behind it, and then the rest. -/
def writePacket (net : NET) (lead packet : List UInt8) : Except Fault (Bool × NET) := do
  let header := packetHeader (lead.length + packet.length) (UInt8.ofNat net.pktNr) ++ lead
  let (failed, net) ← maNetWriteBuff pvioWrite { net with pktNr := net.pktNr + 1 } header
  if failed then return (true, net)
  maNetWriteBuff pvioWrite net packet

/-- The packets of a payload. The first bytes of it, `lead`, share a buffer with the first header. -/
def writePackets (net : NET) (lead packet : List UInt8) : Except Fault (Bool × NET) :=
  if maxPacketLength ≤ lead.length + packet.length ∧ lead.length < maxPacketLength then do
    let room := maxPacketLength - lead.length
    let (failed, net) ← writePacket pvioWrite net lead (packet.take room)
    if failed then return (true, net)
    writePackets net [] (packet.drop room)   -- the command is not sent again
  else writePacket pvioWrite net lead packet
termination_by packet.length
decreasing_by
  rw [length_drop]
  omega

/-- `ma_net_write`. -/
def maNetWrite (net : NET) (packet : List UInt8) : Except Fault (Bool × NET) :=
  writePackets pvioWrite net [] packet

/-- `ma_net_flush`. -/
def maNetFlush (net : NET) : Except Fault (Bool × NET) :=
  if 0 < net.multiStatus then .ok (false, net)
  else if net.writePos ≠ 0 then do
    let (failed, net) ← maNetRealWrite pvioWrite net (loadAt net.buff 0 net.writePos)
    return (failed, { net with writePos := 0 })
  else .ok (false, net)

/-- `ma_net_write_command`. -/
def maNetWriteCommand (net : NET) (command : UInt8) (packet : List UInt8) (disableFlush : Bool) :
    Except Fault (Bool × NET) := do
  let (failed, net) ← writePackets pvioWrite net [command] packet
  if failed ∨ disableFlush then return (failed, net)
  maNetFlush pvioWrite net

/-- What a caller can do with the connection. -/
inductive Call where
  | write (packet : List UInt8)
  | writeCommand (command : UInt8) (packet : List UInt8) (disableFlush : Bool)
  | flush

/-- One call, with its return code. -/
def Call.run (net : NET) : Call → Except Fault (Bool × NET)
  | .write packet => maNetWrite pvioWrite net packet
  | .writeCommand command packet disableFlush => maNetWriteCommand pvioWrite net command packet disableFlush
  | .flush => maNetFlush pvioWrite net

/-- Successive calls, up to the first that fails. -/
def runCalls (net : NET) : List Call → Except Fault (Bool × NET)
  | [] => .ok (false, net)
  | c :: cs => do
    let (failed, net) ← c.run pvioWrite net
    if failed then return (true, net)
    runCalls net cs

end Sending

/-- The payload of a call. -/
def Call.payload : Call → Option (List UInt8)
  | .write packet => some packet
  | .writeCommand command packet _ => some (command :: packet)
  | .flush => none

/-! ## Receiving -/

/-- `ma_real_read`: the length of the packet, or nothing for `packet_error`. -/
def maRealRead (net : NET) : Option Nat × NET :=
  match readFully net.buff net.whereB 4 net.pvio with
  | none => (none, { net with error := 2 })
  | some (m, pvio) =>
    let nr := (m (net.whereB + 3)).toNat + 1
    let net := { net with buff := m, pvio := pvio, pktNr := nr, compressPktNr := nr }
    let len := leNat (loadAt m net.whereB 3)
    if len = 0 then (some len, net)
    else
      let helping := len + net.whereB
      match if net.maxPacket ≤ helping then netRealloc net helping else some net with
      | none => (none, { net with error := 1, lastErrno := erNetPacketTooLarge })
      | some net =>
        match readFully net.buff net.whereB len net.pvio with
        | none => (none, { net with error := 2 })
        | some (m, pvio) => (some len, { net with buff := m, pvio := pvio })

/-- The packets behind a full one, `length` bytes of the payload having been read. -/
def readMore : Nat → Nat → NET → Except Fault (Option Nat × NET)
  | 0, _, _ => .error .outOfFuel
  | fuel + 1, length, net =>
    match maRealRead { net with whereB := net.whereB + maxPacketLength } with
    | (none, net) => .ok (none, net)
    | (some len, net) =>
      if len = maxPacketLength then readMore fuel (length + maxPacketLength) net
      else .ok (some (length + maxPacketLength + len), net)

/-- The payload of a call stands at `read_pos`, with a zero behind it. -/
def finishRead : Option Nat × NET → Option Nat × NET
  | (none, net) => (none, { net with readPos := net.whereB })
  | (some len, net) =>
    (some len, { net with readPos := net.whereB, buff := storeAt net.buff (net.whereB + len) [0] })

/-- `ma_net_read`: the length of the payload, or nothing for `packet_error`. Each packet has a header, so
that the bytes of the peer are enough fuel. -/
def maNetRead (net : NET) : Except Fault (Option Nat × NET) := do
  match maRealRead net with
  | (some len, net') =>
    if len = maxPacketLength then do
      let (len, net') ← readMore (net.pvio.flatten.length + 1) 0 net'
      return finishRead (len, { net' with whereB := net.whereB })
    else return finishRead (some len, net')
  | (none, net') => return finishRead (none, net')

/-- `count` successive calls, and the payloads they return. -/
def readCalls : Nat → NET → Except Fault (Option (List (List UInt8)))
  | 0, _ => .ok (some [])
  | count + 1, net => do
    match ← maNetRead net with
    | (none, _) => return none
    | (some len, net) =>
      match ← readCalls count net with
      | none => return none
      | some ps => return some (returned len net :: ps)

/-! ## What is sent -/

/-- A socket that takes something of what it is offered, and no more than that. -/
def Takes (pvioWrite : List (List UInt8) → List UInt8 → Nat) : Prop :=
  ∀ sent packet, packet ≠ [] → 0 < pvioWrite sent packet ∧ pvioWrite sent packet ≤ packet.length

/-- The bytes that have been sent, and those that wait in the buffer. -/
def stream (net : NET) : List UInt8 := net.sent.flatten ++ loadAt net.buff 0 net.writePos

/-- A connection that can be written to. -/
structure Writable (net : NET) : Prop where
  noError : net.error ≠ 2
  inside : net.writePos ≤ net.maxPacket
  size : net.maxPacket < 2 ^ 64
  single : net.multiStatus = 0

/-- A step that adds bytes to the stream. -/
structure Adds (bs : List UInt8) (net net' : NET) : Prop where
  writable : Writable net'
  stream : stream net' = stream net ++ bs

section Sent

variable {pvioWrite : List (List UInt8) → List UInt8 → Nat} {net : NET}

variable {packet : List UInt8}

theorem sendLoop_all (htakes : Takes pvioWrite) (net : NET) {fuel : Nat} (hfuel : packet.length ≤ fuel) :
    ∃ pieces, sendLoop pvioWrite fuel net packet = .ok (false, { net with sent := net.sent ++ pieces }) ∧
      pieces.flatten = packet := by
  induction fuel generalizing net packet with
  | zero =>
    obtain rfl : packet = [] := eq_nil_of_length_eq_zero (Nat.le_zero.mp hfuel)
    exact ⟨[], by rw [sendLoop, append_nil], rfl⟩
  | succ fuel ih =>
    cases packet with
    | nil => exact ⟨[], by rw [sendLoop, append_nil], rfl⟩
    | cons b bs =>
      obtain ⟨hpos, hle⟩ := htakes net.sent (b :: bs) (cons_ne_nil _ _)
      have hrest : ((b :: bs).drop (pvioWrite net.sent (b :: bs))).length ≤ fuel := by
        rw [length_drop]
        omega
      obtain ⟨pieces, hsend, hflat⟩ :=
        ih { net with sent := net.sent ++ [(b :: bs).take (pvioWrite net.sent (b :: bs))] } hrest
      refine ⟨(b :: bs).take (pvioWrite net.sent (b :: bs)) :: pieces, ?_, ?_⟩
      · rw [sendLoop, if_neg (ne_of_gt hpos), if_neg (Nat.not_lt.mpr hle), hsend, append_assoc]
        rfl
      · rw [flatten_cons, hflat, take_append_drop]

theorem maNetRealWrite_all (htakes : Takes pvioWrite) (herror : net.error ≠ 2) (packet : List UInt8) :
    ∃ pieces, maNetRealWrite pvioWrite net packet = .ok (false, { net with sent := net.sent ++ pieces }) ∧
      pieces.flatten = packet := by
  rw [maNetRealWrite, if_neg herror]
  exact sendLoop_all htakes net le_rfl

theorem loadAt_storeAt_end (m : Mem) (pos : Nat) (bs : List UInt8) :
    loadAt (storeAt m pos bs) 0 (pos + bs.length) = loadAt m 0 pos ++ bs := by
  rw [loadAt_add, zero_add]
  congr 1
  · apply loadAt_congr
    intro i hi
    rw [zero_add, storeAt_below hi]
  · exact holds_storeAt m pos bs

theorem adds_appendBuff (h : Writable net) (hfits : net.writePos + packet.length ≤ net.maxPacket) :
    Adds packet net (appendBuff net packet) := by
  refine ⟨⟨h.noError, hfits, h.size, h.single⟩, ?_⟩
  show net.sent.flatten ++ loadAt (storeAt net.buff net.writePos packet) 0 (net.writePos + packet.length) =
    (net.sent.flatten ++ loadAt net.buff 0 net.writePos) ++ packet
  rw [loadAt_storeAt_end, append_assoc]

/-- The buffer goes out, with the first bytes of the packet behind it. -/
theorem topUp_adds (htakes : Takes pvioWrite) (h : Writable net)
    (hlong : net.maxPacket - net.writePos < packet.length) :
    ∃ net' rest, topUp pvioWrite net packet = .ok (false, net', rest) ∧ Writable net' ∧
      net'.writePos = 0 ∧ net'.pktNr = net.pktNr ∧ stream net' ++ rest = stream net ++ packet := by
  by_cases hzero : net.writePos = 0
  · rw [topUp, if_neg (not_not.mpr hzero)]
    exact ⟨net, packet, rfl, h, hzero, rfl, rfl⟩
  have hleft := usub_eq h.inside h.size
  have htake : (packet.take (net.maxPacket - net.writePos)).length = net.maxPacket - net.writePos := by
    rw [length_take]
    omega
  have herror : ({ net with
      buff := storeAt net.buff net.writePos (packet.take (net.maxPacket - net.writePos)) } : NET).error ≠ 2 :=
    h.noError
  obtain ⟨pieces, hsend, hflat⟩ := maNetRealWrite_all htakes herror
    (loadAt (storeAt net.buff net.writePos (packet.take (net.maxPacket - net.writePos))) 0
      (net.writePos + (net.maxPacket - net.writePos)))
  have hbytes := loadAt_storeAt_end net.buff net.writePos (packet.take (net.maxPacket - net.writePos))
  rw [htake] at hbytes
  refine ⟨{ net with
      buff := storeAt net.buff net.writePos (packet.take (net.maxPacket - net.writePos))
      sent := net.sent ++ pieces, writePos := 0 }, packet.drop (net.maxPacket - net.writePos), ?_,
    ⟨h.noError, Nat.zero_le _, h.size, h.single⟩, rfl, rfl, ?_⟩
  · rw [topUp, if_pos hzero, hleft]
    dsimp only
    rw [hsend]
    rfl
  · show ((net.sent ++ pieces).flatten ++ []) ++ _ = (net.sent.flatten ++ loadAt net.buff 0 net.writePos) ++ packet
    rw [append_nil, flatten_append, hflat, hbytes, append_assoc, append_assoc, append_assoc, take_append_drop]

/-- **The buffer is transparent**: whatever its size, the bytes of a packet are added to the stream. -/
theorem maNetWriteBuff_adds (htakes : Takes pvioWrite) (h : Writable net) (packet : List UInt8) :
    ∃ net', maNetWriteBuff pvioWrite net packet = .ok (false, net') ∧ Adds packet net net' ∧
      net'.pktNr = net.pktNr := by
  by_cases hzero : packet.length = 0
  · obtain rfl : packet = [] := eq_nil_of_length_eq_zero hzero
    exact ⟨net, by rw [maNetWriteBuff, if_pos hzero], ⟨h, (append_nil _).symm⟩, rfl⟩
  have hleft := usub_eq h.inside h.size
  rw [maNetWriteBuff, if_neg hzero, hleft]
  by_cases hlong : net.maxPacket - net.writePos < packet.length
  · obtain ⟨net1, rest, htop, h1, hpos, hnr, hstream⟩ := topUp_adds htakes h hlong
    rw [if_pos hlong, htop, ok_bind]
    dsimp only
    rw [if_neg Bool.false_ne_true]
    by_cases hlarge : net1.maxPacket < rest.length
    · obtain ⟨pieces, hsend, hflat⟩ := maNetRealWrite_all htakes h1.noError rest
      refine ⟨{ net1 with sent := net1.sent ++ pieces }, by rw [if_pos hlarge, hsend], ⟨⟨h1.noError, h1.inside, h1.size, h1.single⟩, ?_⟩, hnr⟩
      rw [← hstream]
      show (net1.sent ++ pieces).flatten ++ loadAt net1.buff 0 net1.writePos = stream net1 ++ rest
      rw [stream, hpos, flatten_append, hflat]
      show _ ++ [] = (_ ++ []) ++ _
      rw [append_nil, append_nil]
    · have hadds : Adds rest net1 (appendBuff net1 rest) := adds_appendBuff h1 (by rw [hpos]; omega)
      exact ⟨_, by rw [if_neg hlarge]; rfl, ⟨hadds.writable, hadds.stream.trans hstream⟩, hnr⟩
  · rw [if_neg hlong]
    exact ⟨_, rfl, adds_appendBuff h (by have := h.inside; omega), rfl⟩

theorem Adds.trans {as bs : List UInt8} {net' net'' : NET} (h : Adds as net net') (h' : Adds bs net' net'') :
    Adds (as ++ bs) net net'' :=
  ⟨h'.writable, by rw [h'.stream, h.stream, append_assoc]⟩

section

variable (htakes : Takes pvioWrite) (h : Writable net)
include htakes h

/-- A packet is its header and its bytes. -/
theorem writePacket_adds (lead packet : List UInt8) :
    ∃ net', writePacket pvioWrite net lead packet = .ok (false, net') ∧
      Adds (packetHeader (lead ++ packet).length (UInt8.ofNat net.pktNr) ++ (lead ++ packet)) net net' ∧
      net'.pktNr = net.pktNr + 1 := by
  have hnext : Writable { net with pktNr := net.pktNr + 1 } := ⟨h.noError, h.inside, h.size, h.single⟩
  obtain ⟨net1, hfirst, hadds1, hnr1⟩ := maNetWriteBuff_adds htakes hnext
    (packetHeader (lead.length + packet.length) (UInt8.ofNat net.pktNr) ++ lead)
  obtain ⟨net2, hsecond, hadds2, hnr2⟩ := maNetWriteBuff_adds htakes hadds1.writable packet
  refine ⟨net2, ?_, ?_, hnr2.trans hnr1⟩
  · rw [writePacket, hfirst, ok_bind]
    dsimp only
    rw [if_neg Bool.false_ne_true, hsecond]
  · have hboth := hadds1.trans hadds2
    rw [length_append]
    exact ⟨hboth.writable, hboth.stream⟩

/-- **A payload is its packets**, whatever part of it comes with the first header. -/
theorem writePackets_adds (lead packet : List UInt8) (hlead : lead.length < maxPacketLength) :
    ∃ net', writePackets pvioWrite net lead packet = .ok (false, net') ∧
      Adds (packets (UInt8.ofNat net.pktNr) (lead ++ packet)) net net' := by
  induction hn : packet.length using Nat.strong_induction_on generalizing net lead packet with
  | _ n ih =>
    subst hn
    by_cases hlong : maxPacketLength ≤ (lead ++ packet).length
    · -- a full packet, and the rest without the lead
      rw [length_append] at hlong
      have hfull : (lead ++ packet.take (maxPacketLength - lead.length)).length = maxPacketLength := by
        rw [length_append, length_take]
        omega
      obtain ⟨net1, hfirst, hadds1, hnr⟩ := writePacket_adds htakes h lead (packet.take (maxPacketLength - lead.length))
      rw [hfull] at hadds1
      have hshorter : (packet.drop (maxPacketLength - lead.length)).length < packet.length := by
        rw [length_drop]
        omega
      obtain ⟨net2, hrest, hadds2⟩ := ih _ hshorter hadds1.writable [] _ (by decide) rfl
      have hsplit : packets (UInt8.ofNat net.pktNr) (lead ++ packet) =
          (packetHeader maxPacketLength (UInt8.ofNat net.pktNr) ++
            (lead ++ packet.take (maxPacketLength - lead.length))) ++
          packets (UInt8.ofNat net1.pktNr) ([] ++ packet.drop (maxPacketLength - lead.length)) := by
        rw [packets, if_neg (by rw [length_append]; omega), hnr, UInt8.ofNat_add, append_assoc]
        congr 2
        · rw [take_append, take_of_length_le hlead.le]
        · rw [drop_append, drop_eq_nil_of_le hlead.le]
          rfl
      refine ⟨net2, ?_, ?_⟩
      · rw [writePackets, if_pos ⟨hlong, hlead⟩]
        dsimp only
        rw [hfirst, ok_bind]
        rw [if_neg Bool.false_ne_true, hrest]
      · rw [hsplit]
        exact hadds1.trans hadds2
    · obtain ⟨net1, hfirst, hadds1, -⟩ := writePacket_adds htakes h lead packet
      refine ⟨net1, ?_, ?_⟩
      · rw [writePackets, if_neg (fun hboth => hlong (by rw [length_append]; exact hboth.1)), hfirst]
      · rw [packets, if_pos (Nat.lt_of_not_le hlong)]
        exact hadds1

theorem maNetFlush_adds :
    ∃ net', maNetFlush pvioWrite net = .ok (false, net') ∧ Adds [] net net' ∧ net'.writePos = 0 := by
  rw [maNetFlush, if_neg (by rw [h.single]; exact Nat.lt_irrefl 0)]
  by_cases hzero : net.writePos = 0
  · exact ⟨net, by rw [if_neg (not_not.mpr hzero)], ⟨h, (append_nil _).symm⟩, hzero⟩
  obtain ⟨pieces, hsend, hflat⟩ := maNetRealWrite_all htakes h.noError (loadAt net.buff 0 net.writePos)
  rw [if_pos hzero, hsend]
  refine ⟨{ net with sent := net.sent ++ pieces, writePos := 0 }, rfl,
    ⟨⟨h.noError, Nat.zero_le _, h.size, h.single⟩, ?_⟩, rfl⟩
  show (net.sent ++ pieces).flatten ++ [] = (net.sent.flatten ++ loadAt net.buff 0 net.writePos) ++ []
  rw [flatten_append, hflat]

end

/-- Bytes that are the packets of payloads, with any sequence numbers. -/
inductive Framed : List (List UInt8) → List UInt8 → Prop
  | nil : Framed [] []
  | cons (seq : UInt8) (payload : List UInt8) {payloads : List (List UInt8)} {bytes : List UInt8}
      (rest : Framed payloads bytes) : Framed (payload :: payloads) (packets seq payload ++ bytes)

/-- A call adds the packets of its payload. -/
theorem call_adds (htakes : Takes pvioWrite) (h : Writable net) (c : Call) :
    ∃ net' bytes, c.run pvioWrite net = .ok (false, net') ∧ Adds bytes net net' ∧
      ∀ {payloads later}, Framed payloads later → Framed (c.payload.toList ++ payloads) (bytes ++ later) := by
  cases c with
  | write packet =>
    obtain ⟨net', hrun, hadds⟩ := writePackets_adds htakes h [] packet (by decide)
    exact ⟨net', _, hrun, hadds, fun hlater => .cons _ packet hlater⟩
  | writeCommand command packet disableFlush =>
    obtain ⟨net1, hrun, hadds⟩ := writePackets_adds htakes h [command] packet (show 1 < maxPacketLength by decide)
    show ∃ net' bytes, maNetWriteCommand pvioWrite net command packet disableFlush = _ ∧ _ ∧ _
    rw [maNetWriteCommand, hrun]
    cases disableFlush with
    | true => exact ⟨net1, _, rfl, hadds, fun hlater => .cons _ (command :: packet) hlater⟩
    | false =>
      obtain ⟨net2, hflush, hadds2, -⟩ := maNetFlush_adds htakes hadds.writable
      have hboth := hadds.trans hadds2
      rw [append_nil] at hboth
      exact ⟨net2, _, hflush, hboth, fun hlater => .cons _ (command :: packet) hlater⟩
  | flush =>
    obtain ⟨net', hrun, hadds, -⟩ := maNetFlush_adds htakes h
    exact ⟨net', [], hrun, hadds, fun hlater => hlater⟩

theorem runCalls_append {net' : NET} {calls : List Call} (h : runCalls pvioWrite net calls = .ok (false, net'))
    (later : List Call) : runCalls pvioWrite net (calls ++ later) = runCalls pvioWrite net' later := by
  induction calls generalizing net with
  | nil =>
    cases h
    rfl
  | cons c cs ih =>
    obtain ⟨⟨failed, net1⟩, hrun, h⟩ := bind_eq_ok.mp h
    cases failed with
    | true => cases h
    | false =>
      rw [cons_append, runCalls, hrun]
      exact ih h

/-- The calls add the packets of their payloads. -/
theorem runCalls_adds (htakes : Takes pvioWrite) (h : Writable net) (calls : List Call) :
    ∃ net' bytes, runCalls pvioWrite net calls = .ok (false, net') ∧ Adds bytes net net' ∧
      Framed (calls.filterMap Call.payload) bytes := by
  induction calls generalizing net with
  | nil => exact ⟨net, [], rfl, ⟨h, (append_nil _).symm⟩, .nil⟩
  | cons c cs ih =>
    obtain ⟨net1, bytes1, hrun, hadds1, hframed⟩ := call_adds htakes h c
    obtain ⟨net2, bytes2, hrest, hadds2, hlater⟩ := ih hadds1.writable
    refine ⟨net2, bytes1 ++ bytes2, ?_, hadds1.trans hadds2, ?_⟩
    · rw [runCalls, hrun, ok_bind]
      dsimp only
      rw [if_neg Bool.false_ne_true, hrest]
    · have hall := hframed hlater
      cases hpayload : c.payload with
      | none =>
        rw [filterMap_cons_none hpayload]
        rw [hpayload] at hall
        exact hall
      | some p =>
        rw [filterMap_cons_some hpayload]
        rw [hpayload] at hall
        exact hall

end Sent

/-! ## What is received -/

/-- A connection that waits for these bytes. -/
structure Awaits (bytes : List UInt8) (net : NET) : Prop where
  pieces : Pieces net.pvio
  bytes : net.pvio.flatten = bytes

section Received

variable {net : NET} {seq : UInt8} {rest : List UInt8}

/-- One packet goes to `where_b`, and what is below stays. -/
structure Took (b rest : List UInt8) (net net' : NET) : Prop where
  awaits : Awaits rest net'
  holds : Holds net'.buff net.whereB b
  below : ∀ i < net.whereB, net'.buff i = net.buff i
  whereB : net'.whereB = net.whereB
  size : net'.maxPacketSize = net.maxPacketSize

theorem maRealRead_packet {b : List UInt8} (h : Awaits (packetHeader b.length seq ++ (b ++ rest)) net)
    (hb : b.length ≤ maxPacketLength) (hsize : net.whereB + b.length < net.maxPacketSize) :
    ∃ net', maRealRead net = (some b.length, net') ∧ Took b rest net net' := by
  obtain ⟨m1, pvio1, hread1, hholds1, hbelow1, hp1, hflat1⟩ := readFully_eq h.pieces h.bytes net.buff net.whereB
  rw [length_packetHeader] at hread1
  have hlen : leNat (loadAt m1 net.whereB 3) = b.length := by
    rw [packetHeader, holds_append] at hholds1
    have hload := load_of_holds hholds1.1 (n := 3) (by simp)
    rw [hload, leNat_leBytes_of_lt (by unfold maxPacketLength at hb; omega)]
  rw [maRealRead, hread1]
  dsimp only
  rw [hlen]
  by_cases hzero : b.length = 0
  · obtain rfl : b = [] := eq_nil_of_length_eq_zero hzero
    exact ⟨_, rfl, ⟨hp1, hflat1⟩, holds_nil _ _, hbelow1, rfl, rfl⟩
  obtain ⟨m2, pvio2, hread2, hholds2, hbelow2, hp2, hflat2⟩ := readFully_eq hp1 hflat1 m1 net.whereB
  have hbelow : ∀ i < net.whereB, m2 i = net.buff i := fun i hi => (hbelow2 i hi).trans (hbelow1 i hi)
  rw [if_neg hzero]
  -- the buffer is large enough, or made large enough
  by_cases hgrow : net.maxPacket ≤ b.length + net.whereB
  · rw [if_pos hgrow, netRealloc, if_neg (Nat.not_le.mpr (show _ < net.maxPacketSize by omega))]
    dsimp only
    rw [hread2]
    exact ⟨_, rfl, ⟨hp2, hflat2⟩, hholds2, hbelow, rfl, rfl⟩
  rw [if_neg hgrow]
  dsimp only
  rw [hread2]
  exact ⟨_, rfl, ⟨hp2, hflat2⟩, hholds2, hbelow, rfl, rfl⟩

theorem length_le_packets (seq : UInt8) (p : List UInt8) : p.length ≤ (packets seq p).length := by
  induction seq, p using packets.induct with
  | case1 seq p hshort =>
    rw [packets_short hshort, length_append]
    omega
  | case2 seq p hfull ih =>
    rw [length_drop] at ih
    rw [packets, if_neg hfull]
    simp only [length_append, length_take]
    omega

/-- The packets behind a full one. By induction on the fuel, `q` being what is left of the payload. -/
theorem readMore_packets (length : Nat) {fuel : Nat} {q : List UInt8} (h : Awaits (packets seq q ++ rest) net)
    (hfuel : q.length < fuel) (hsize : net.whereB + maxPacketLength + q.length < net.maxPacketSize) :
    ∃ net', readMore fuel length net = .ok (some (length + maxPacketLength + q.length), net') ∧
      Awaits rest net' ∧ Holds net'.buff (net.whereB + maxPacketLength) q ∧
      (∀ i < net.whereB + maxPacketLength, net'.buff i = net.buff i) ∧
      net'.maxPacketSize = net.maxPacketSize := by
  induction fuel generalizing length q seq net with
  | zero => exact absurd hfuel (Nat.not_lt_zero _)
  | succ fuel ih =>
    by_cases hshort : q.length < maxPacketLength
    · rw [packets_short hshort] at h
      have hstart : Awaits (packetHeader q.length seq ++ (q ++ rest))
          { net with whereB := net.whereB + maxPacketLength } := ⟨h.pieces, h.bytes⟩
      obtain ⟨net1, hread, htook⟩ := maRealRead_packet hstart hshort.le hsize
      refine ⟨net1, ?_, htook.awaits, htook.holds, htook.below, htook.size⟩
      rw [readMore, hread]
      dsimp only
      rw [if_neg (ne_of_lt hshort)]
    have hfull : (q.take maxPacketLength).length = maxPacketLength := by
      rw [length_take]
      omega
    have hdrop : (q.drop maxPacketLength).length = q.length - maxPacketLength := length_drop
    rw [packets, if_neg hshort, append_assoc, append_assoc] at h
    have hstart : Awaits (packetHeader (q.take maxPacketLength).length seq ++ (q.take maxPacketLength ++
        (packets (seq + 1) (q.drop maxPacketLength) ++ rest)))
        { net with whereB := net.whereB + maxPacketLength } := by
      rw [hfull]
      exact ⟨h.pieces, h.bytes⟩
    have hpos : 0 < maxPacketLength := by decide
    obtain ⟨net1, hread, htook⟩ := maRealRead_packet hstart hfull.le
      (show net.whereB + maxPacketLength + _ < net.maxPacketSize by omega)
    have hwhere : net1.whereB = net.whereB + maxPacketLength := htook.whereB
    obtain ⟨net2, hmore, hawaits, hholds, hbelow, hsize2⟩ := ih (length + maxPacketLength) htook.awaits
      (by omega) (by rw [htook.size]; show _ < net.maxPacketSize; omega)
    rw [hwhere] at hholds hbelow
    refine ⟨net2, ?_, hawaits, ?_, ?_, hsize2.trans htook.size⟩
    · rw [readMore, hread]
      dsimp only
      have hsum : length + maxPacketLength + maxPacketLength + (q.length - maxPacketLength) =
          length + maxPacketLength + q.length := by omega
      rw [if_pos hfull, hmore, hdrop, hsum]
    · -- the full packet stays below what follows it
      have hfirst : Holds net2.buff (net.whereB + maxPacketLength) (q.take maxPacketLength) := by
        apply holds_congr htook.holds
        intro i hi
        rw [hfull] at hi
        exact hbelow (net.whereB + maxPacketLength + i) (Nat.add_lt_add_left hi _)
      rw [← take_append_drop maxPacketLength q, holds_append, hfull]
      exact ⟨hfirst, hholds⟩
    · intro i hi
      exact (hbelow i (by omega)).trans (htook.below i hi)

/-- **A payload is read back from its packets.** -/
theorem maNetRead_payload {p : List UInt8} (h : Awaits (packets seq p ++ rest) net)
    (hsize : net.whereB + p.length < net.maxPacketSize) :
    ∃ net', maNetRead net = .ok (some p.length, net') ∧ returned p.length net' = p ∧ Awaits rest net' ∧
      net'.whereB = net.whereB ∧ net'.maxPacketSize = net.maxPacketSize := by
  -- the zero goes behind the payload
  have hfinish : ∀ net1, net1.whereB = net.whereB → Holds net1.buff net.whereB p →
      returned p.length (finishRead (some p.length, net1)).2 = p := by
    intro net1 hwhere hholds
    show loadAt (storeAt net1.buff (net1.whereB + p.length) [0]) net1.whereB p.length = p
    rw [hwhere]
    exact holds_storeAt_of_disjoint hholds (.inl le_rfl)
  by_cases hshort : p.length < maxPacketLength
  · rw [packets_short hshort] at h
    obtain ⟨net1, hread, htook⟩ := maRealRead_packet h hshort.le hsize
    refine ⟨(finishRead (some p.length, net1)).2, ?_, hfinish net1 htook.whereB htook.holds,
      ⟨htook.awaits.pieces, htook.awaits.bytes⟩, htook.whereB, htook.size⟩
    rw [maNetRead, hread]
    dsimp only
    rw [if_neg (ne_of_lt hshort)]
    rfl
  have hfull : (p.take maxPacketLength).length = maxPacketLength := by
    rw [length_take]
    omega
  have hdrop : (p.drop maxPacketLength).length = p.length - maxPacketLength := length_drop
  rw [packets, if_neg hshort, append_assoc, append_assoc] at h
  have hstart : Awaits (packetHeader (p.take maxPacketLength).length seq ++ (p.take maxPacketLength ++
      (packets (seq + 1) (p.drop maxPacketLength) ++ rest))) net := by
    rw [hfull]
    exact h
  obtain ⟨net1, hread, htook⟩ := maRealRead_packet hstart hfull.le (by omega)
  have hfuel : (p.drop maxPacketLength).length < net.pvio.flatten.length + 1 := by
    have hpackets := length_le_packets (seq + 1) (p.drop maxPacketLength)
    rw [h.bytes]
    simp only [length_append]
    omega
  obtain ⟨net2, hmore, hawaits, hholds, hbelow, hsize2⟩ := readMore_packets 0 htook.awaits hfuel
    (by rw [htook.whereB, htook.size]; omega)
  rw [htook.whereB] at hholds hbelow
  have hall : Holds net2.buff net.whereB p := by
    rw [← take_append_drop maxPacketLength p, holds_append, hfull]
    refine ⟨?_, hholds⟩
    apply holds_congr htook.holds
    intro i hi
    exact hbelow _ (by omega)
  have hlength : 0 + maxPacketLength + (p.drop maxPacketLength).length = p.length := by omega
  rw [hlength] at hmore
  refine ⟨(finishRead (some p.length, { net2 with whereB := net.whereB })).2, ?_, hfinish _ rfl hall,
    ⟨hawaits.pieces, hawaits.bytes⟩, rfl, hsize2.trans htook.size⟩
  rw [maNetRead, hread]
  dsimp only
  rw [if_pos hfull, hmore]
  rfl

end Received

/-! ## The round trip -/

/-- The payloads come back one by one. -/
theorem readCalls_framed {payloads : List (List UInt8)} {bytes : List UInt8} (hframed : Framed payloads bytes) :
    ∀ {net : NET}, Awaits bytes net → (∀ p ∈ payloads, net.whereB + p.length < net.maxPacketSize) →
      readCalls payloads.length net = .ok (some payloads) := by
  induction hframed with
  | nil =>
    intro net _ _
    rfl
  | cons seq payload rest ih =>
    intro net hawaits hsize
    obtain ⟨net1, hread, hreturned, hawaits1, hwhere, hsize1⟩ :=
      maNetRead_payload hawaits (hsize payload (mem_cons_self ..))
    have hlater := ih hawaits1 fun p hp => by
      rw [hwhere, hsize1]
      exact hsize p (mem_cons_of_mem _ hp)
    rw [length_cons, readCalls, hread, ok_bind]
    dsimp only
    rw [hlater]
    rw [hreturned]
    rfl

/-- **Plain packets are read back as they were written**: whatever the sizes of the payloads and of the
buffer of the sender, and however the socket takes the bytes and gives them, the calls of `ma_net_read`
return the payloads that were written and flushed, in order. -/
theorem plain_roundTrip {pvioWrite : List (List UInt8) → List UInt8 → Nat} {sender : NET}
    (htakes : Takes pvioWrite) (hsender : Writable sender) (calls : List Call) :
    ∃ net bytes, runCalls pvioWrite sender (calls ++ [.flush]) = .ok (false, net) ∧
      net.sent.flatten = stream sender ++ bytes ∧
      ∀ receiver : NET, Awaits bytes receiver → receiver.whereB = 0 →
        (∀ p ∈ calls.filterMap Call.payload, p.length < receiver.maxPacketSize) →
        readCalls (calls.filterMap Call.payload).length receiver = .ok (some (calls.filterMap Call.payload)) := by
  obtain ⟨net1, bytes, hcalls, hadds, hframed⟩ := runCalls_adds htakes hsender calls
  obtain ⟨net2, hflush, hadds2, hempty⟩ := maNetFlush_adds htakes hadds.writable
  refine ⟨net2, bytes, ?_, ?_, ?_⟩
  · rw [runCalls_append hcalls, runCalls, Call.run, hflush]
    rfl
  · have hstream := (hadds.trans hadds2).stream
    rw [stream, hempty, append_nil] at hstream
    exact (append_nil _).symm.trans hstream
  · intro receiver hawaits hwhere hsize
    refine readCalls_framed hframed hawaits fun p hp => ?_
    rw [hwhere, zero_add]
    exact hsize p hp

/-- A socket that takes one byte at a time. -/
def slowSocket : List (List UInt8) → List UInt8 → Nat := fun _ _ => 1

/-- A connection with a buffer of three bytes. -/
def smallNet : NET := { freshNet [] with maxPacket := 3 }

/-- A command and an empty payload go out byte by byte, and come in so. -/
theorem slow_roundTrip :
    ∃ net bytes, runCalls slowSocket smallNet ([.writeCommand 3 [83, 84] true, .write []] ++ [.flush]) =
        .ok (false, net) ∧ net.sent.flatten = bytes ∧
      readCalls 2 (freshNet (bytes.map fun b => [b])) = .ok (some [[3, 83, 84], []]) := by
  have htakes : Takes slowSocket := fun _ packet hne => ⟨Nat.one_pos, length_pos_of_ne_nil hne⟩
  have hsmall : Writable smallNet := ⟨by decide, by decide, by decide, by decide⟩
  obtain ⟨net, bytes, hrun, hsent, hread⟩ :=
    plain_roundTrip htakes hsmall [.writeCommand 3 [83, 84] true, .write []]
  have hawaits : Awaits bytes (freshNet (bytes.map fun b => [b])) := by
    refine ⟨?_, ?_⟩
    · intro c hc
      obtain ⟨b, -, rfl⟩ := mem_map.mp hc
      exact cons_ne_nil _ _
    · show (bytes.map fun b => [b]).flatten = bytes
      exact flatMap_singleton' bytes
  refine ⟨net, bytes, hrun, hsent, hread _ hawaits rfl ?_⟩
  intro p hp
  show p.length < 2 ^ 30
  rcases mem_pair.mp hp with rfl | rfl <;> decide

end ObConnector.Net.Plain
