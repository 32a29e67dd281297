/-
# ObConnector.Net.Read -- `ma_net_read` in OB2.0 mode.

The reader keeps one buffer over all calls. A call starts at what the last call left over, whose
first byte it restores from `save_char`; its loop takes the packets of one logical payload off the
buffer, removing the headers of the second and later ones, and fetches a frame whenever the next
packet is not complete; at the end it notes what is left and puts a zero behind the payload, saving
the byte that stood there (`ma_net.c`).

`readStep` is one round of the `for (;;)` loop. Its lemmas say what a round does in each of the
situations a well-behaved peer can bring about, and which invariant it keeps. The payload is cut
into packets as every MySQL peer does it: full packets of `2 ^ 24 - 1` bytes and a shorter, possibly
empty, last one (`packets`).
-/
import ObConnector.Net.PeerFrame

namespace ObConnector.Net

open Lib Protocol20 List

/-! ## The reader -/

/-- The variables of the loop. -/
structure ReadState where
  net : NET
  bufferLength : Nat
  current : Nat
  start : Nat
  isMultiPacket : Bool

/-- What a round of the loop comes to. -/
inductive ReadStep where
  | again (s : ReadState)
  | done (len : Nat) (net : NET)
  | packetError (net : NET)

/-- The length that is returned: `is_multi_packet` is still set when an empty packet ended the
payload. -/
def readLen (s : ReadState) : Nat :=
  let len := usub (usub s.current s.start) 4
  if s.isMultiPacket then usub len 4 else len

/-- What the call leaves in `net`: a zero behind the payload, and the byte that stood there saved. -/
def finishNet (s : ReadState) (len : Nat) : NET :=
  { s.net with
    bufLength := s.bufferLength
    remainInBuf := usub s.bufferLength s.current
    readPos := s.start + 4
    saveChar := s.net.buff (s.start + 4 + len)
    buff := storeAt s.net.buff (s.start + 4 + len) [0] }

/-- The statements behind the loop. -/
def finishRead (s : ReadState) : ReadStep := .done (readLen s) (finishNet s (readLen s))

/-- The `if (start)` block in front of a fetch: what is left moves to the front of the buffer. -/
def dropStart (s : ReadState) : ReadState :=
  if s.start ≠ 0 then { s with
    net := { s.net with buff := memmove s.net.buff 0 s.start (usub s.bufferLength s.start) }
    current := usub s.current s.start
    bufferLength := usub s.bufferLength s.start
    start := 0 }
  else s

/-- The buffer and the cursor behind a complete packet of `len` bytes: the header of a second or
later packet is removed. -/
def takePacket (s : ReadState) (len : Nat) : ReadState :=
  if s.isMultiPacket then { s with
    net := { s.net with
      buff := memmove s.net.buff s.current (s.current + 4) (usub s.bufferLength s.current) }
    bufferLength := usub s.bufferLength 4
    current := s.current + len }
  else { s with current := s.current + len + 4 }

/-- What follows a full packet. Here `start` is dropped without `current` being moved. -/
def continueMulti (s : ReadState) : ReadState :=
  if s.start ≠ 0 then { s with
    net := { s.net with buff := memmove s.net.buff 0 s.start (usub s.bufferLength s.start) }
    bufferLength := usub s.bufferLength s.start
    start := 0
    isMultiPacket := true }
  else { s with isMultiPacket := true }

section Reader

variable (obCrc32 : List UInt8 → UInt32)

/-- Fetch a frame behind what is in the buffer. -/
def fetchFrame (fuel : Nat) (s : ReadState) : Except Fault ReadStep := do
  let s := dropStart s
  match ← recvFrame obCrc32 fuel { s.net with whereB := s.bufferLength } with
  | (none, net) => return .packetError net
  | (some complen, net) =>
    return .again { s with net := net, bufferLength := s.bufferLength + complen }

/-- One round of the `for (;;)` loop of `ma_net_read`. -/
def readStep (fuel : Nat) (s : ReadState) : Except Fault ReadStep :=
  let avail := usub s.bufferLength s.current
  let packetLength := leNat (loadAt s.net.buff s.current 3)
  if 4 ≤ avail then
    if packetLength = 0 then .ok (finishRead { s with current := s.current + 4 })
    else if packetLength + 4 ≤ avail then
      let s := takePacket s packetLength
      if packetLength ≠ maxPacketLength then .ok (finishRead { s with isMultiPacket := false })
      else .ok (.again (continueMulti s))
    else fetchFrame obCrc32 fuel s
  else fetchFrame obCrc32 fuel s

/-- The loop: the length returned, or nothing for `packet_error`. -/
def readLoop : Nat → ReadState → Except Fault (Option Nat × NET)
  | 0, _ => .error .outOfFuel
  | fuel + 1, s => do
    match ← readStep obCrc32 fuel s with
    | .again s => readLoop fuel s
    | .done len net => return (some len, net)
    | .packetError net => return (none, net)

/-- The statements in front of the loop. -/
def startRead (net : NET) : ReadState :=
  if net.remainInBuf = 0 then ⟨net, 0, 0, 0, false⟩
  else
    let current := usub net.bufLength net.remainInBuf
    ⟨{ net with buff := storeAt net.buff current [net.saveChar] }, net.bufLength, current, current, false⟩

/-- `ma_net_read` with `net->compress` and `net->use_ob20protocol` set. -/
def maNetRead (fuel : Nat) (net : NET) : Except Fault (Option Nat × NET) :=
  readLoop obCrc32 fuel (startRead net)

/-- The payload that a call has returned: `len` bytes at `net->read_pos`. -/
def returned (len : Nat) (net : NET) : List UInt8 := loadAt net.buff net.readPos len

/-- `count` successive calls, and the payloads they return. -/
def readCalls (fuel : Nat) : Nat → NET → Except Fault (Option (List (List UInt8)))
  | 0, _ => .ok (some [])
  | count + 1, net => do
    match ← maNetRead obCrc32 fuel net with
    | (none, _) => return none
    | (some len, net) =>
      match ← readCalls fuel count net with
      | none => return none
      | some ps => return some (returned len net :: ps)

end Reader

/-! ## The packets of a payload -/

/-- A packet header: three bytes of length and a sequence number. -/
def packetHeader (len : Nat) (seq : UInt8) : List UInt8 := leBytes 3 len ++ [seq]

@[simp] theorem length_packetHeader (len : Nat) (seq : UInt8) : (packetHeader len seq).length = 4 := by
  simp [packetHeader]

/-- The packets of a payload: full ones, then a shorter one, possibly empty. -/
def packets (seq : UInt8) (p : List UInt8) : List UInt8 :=
  if p.length < maxPacketLength then packetHeader p.length seq ++ p
  else packetHeader maxPacketLength seq ++ (p.take maxPacketLength ++
    packets (seq + 1) (p.drop maxPacketLength))
termination_by p.length
decreasing_by
  rw [length_drop]
  unfold maxPacketLength at *
  omega

variable {p : List UInt8}

theorem packets_short {seq : UInt8} (h : p.length < maxPacketLength) :
    packets seq p = packetHeader p.length seq ++ p := by
  rw [packets, if_pos h]

/-- What follows the first packet of a payload. -/
def laterPackets (seq : UInt8) (p : List UInt8) : List UInt8 :=
  if p.length < maxPacketLength then [] else packets (seq + 1) (p.drop maxPacketLength)

/-- The first packet of a payload, and the others. -/
theorem packets_eq (seq : UInt8) (p : List UInt8) :
    packets seq p = packetHeader (min p.length maxPacketLength) seq ++
      (p.take maxPacketLength ++ laterPackets seq p) := by
  rw [packets, laterPackets]
  split
  · rename_i hshort
    rw [min_eq_left hshort.le, take_of_length_le hshort.le, append_nil]
  rename_i hfull
  rw [min_eq_right (not_lt.1 hfull)]

/-- How many bytes the first packet of `u` takes, as far as `u` can tell. -/
def packetEnd (u : List UInt8) : Nat := if u.length < 4 then 4 else 4 + leNat (u.take 3)

theorem four_le_packetEnd (u : List UInt8) : 4 ≤ packetEnd u := by
  unfold packetEnd
  split <;> omega

variable {u : List UInt8}

/-- An incomplete packet ends in what arrives behind it. -/
theorem lt_packetEnd_append (h : u.length < packetEnd u) (w : List UInt8) : u.length < packetEnd (u ++ w) := by
  by_cases hu : u.length < 4
  · have := four_le_packetEnd (u ++ w)
    omega
  have htake : (u ++ w).take 3 = u.take 3 := take_append_of_le_length (by omega)
  rw [packetEnd, if_neg hu] at h
  rw [packetEnd, if_neg (by rw [length_append]; omega), htake]
  omega

section Prefix

variable {u w r b : List UInt8} {len : Nat} {seq : UInt8}

/-- What a reader that has `u` of a packet so far knows of its end. -/
theorem packetEnd_of_front (h : u ++ w = packetHeader len seq ++ r) (hlen : len < 2 ^ 24) :
    packetEnd u = if u.length < 4 then 4 else 4 + len := by
  unfold packetEnd
  split
  · rfl
  have htake : u.take 3 = leBytes 3 len := by
    have hsame : (u ++ w).take 3 = u.take 3 := take_append_of_le_length (by omega)
    rw [← hsame, h, packetHeader, append_assoc, take_left' (by simp)]
  rw [htake, leNat_leBytes_of_lt (by omega)]

/-- The packet is complete in `u` as soon as `u` reaches its end. -/
theorem complete_of_front (h : u ++ w = packetHeader len seq ++ (b ++ r)) (hb : b.length = len)
    (hlen : len < 2 ^ 24) (hend : packetEnd u ≤ u.length) :
    ∃ u', u = packetHeader len seq ++ (b ++ u') ∧ u' ++ w = r := by
  have hfour : ¬u.length < 4 := not_lt.2 ((four_le_packetEnd u).trans hend)
  rw [packetEnd_of_front h hlen, if_neg hfour] at hend
  rw [← append_assoc] at h
  rcases append_eq_append_iff.1 h with ⟨as, has, hw⟩ | ⟨u', hu', hr⟩
  · have hlenEq := congrArg List.length has
    simp only [length_append, length_packetHeader] at hlenEq
    obtain rfl : as = [] := eq_nil_of_length_eq_zero (by omega)
    refine ⟨[], ?_, ?_⟩
    · simpa using has.symm
    · simpa using hw
  · exact ⟨u', by rw [hu', append_assoc], hr.symm⟩

end Prefix

/-! ## What a round does -/

/-- Where the loop stands: `got` is what the packets so far have brought, `u` what is in the buffer
behind the cursor. -/
structure At (s : ReadState) (got u : List UInt8) : Prop where
  unread : Holds s.net.buff s.current u
  length : s.bufferLength = s.current + u.length
  bound : s.bufferLength < 2 ^ 64
  got : (s.isMultiPacket = false ∧ got = [] ∧ s.current = s.start) ∨
    (s.isMultiPacket = true ∧ got ≠ [] ∧ s.start = 0 ∧ s.current = 4 + got.length ∧
      Holds s.net.buff 4 got)

/-- The payload `p` stands behind its header, and the cursor behind it. -/
structure Ready (s : ReadState) (p u : List UInt8) : Prop where
  payload : Holds s.net.buff (s.start + 4) p
  current : s.current = s.start + 4 + p.length
  unread : Holds s.net.buff s.current u
  length : s.bufferLength = s.current + u.length
  bound : s.bufferLength < 2 ^ 64

/-- Between two calls: the next one starts with `u` in the buffer. -/
def Waiting (net : NET) (u : List UInt8) : Prop := At (startRead net) [] u

/-- The peer's side of the connection: the frames still to come. -/
structure Peer (obCrc32 : List UInt8 → UInt32) (net : NET) (fs : List Frame) : Prop where
  fits : (identity net.ob20.header).Fits
  pieces : Pieces net.pvio
  valid : ∀ f ∈ fs, f.Valid
  stream : net.pvio.flatten =
    Frame.wires obCrc32 (identity net.ob20.header) net.ob20.header.pktSeq fs

variable {fs : List Frame} {net : NET}

/-- The peer does not notice what happens to the buffer. -/
theorem Peer.of_eq {obCrc32 : List UInt8 → UInt32} {net' : NET} (h : Peer obCrc32 net fs)
    (hpvio : net'.pvio = net.pvio) (hob20 : net'.ob20 = net.ob20) : Peer obCrc32 net' fs := by
  refine ⟨?_, ?_, h.valid, ?_⟩
  · rw [hob20]
    exact h.fits
  · rw [hpvio]
    exact h.pieces
  · rw [hpvio, hob20]
    exact h.stream

theorem startRead_empty (h : net.remainInBuf = 0) : startRead net = ⟨net, 0, 0, 0, false⟩ := if_pos h

theorem startRead_left (h : net.remainInBuf ≠ 0) : startRead net =
      ⟨{ net with buff := storeAt net.buff (usub net.bufLength net.remainInBuf) [net.saveChar] },
        net.bufLength, usub net.bufLength net.remainInBuf, usub net.bufLength net.remainInBuf,
        false⟩ := if_neg h

theorem startRead_net (net : NET) : (startRead net).net.pvio = net.pvio ∧ (startRead net).net.ob20 = net.ob20 ∧
      (startRead net).net.maxPacketSize = net.maxPacketSize := by
  by_cases hempty : net.remainInBuf = 0
  · simp only [startRead_empty hempty, and_self]
  · simp only [startRead_left hempty, and_self]

variable {r b : List UInt8}

section Round

variable {obCrc32 : List UInt8 → UInt32} {s : ReadState} {got u : List UInt8} {seq : UInt8}

theorem At.avail (h : At s got u) : usub s.bufferLength s.current = u.length := by
  rw [usub_eq (by rw [h.length]; exact Nat.le_add_right _ _) h.bound, h.length, Nat.add_sub_cancel_left]

/-- The length field of a header that stands in the buffer. -/
theorem At.packetLength {len : Nat} (h : At s got (packetHeader len seq ++ r)) (hlen : len < 2 ^ 24) :
    leNat (loadAt s.net.buff s.current 3) = len := by
  have hheld := h.unread
  rw [packetHeader, append_assoc, holds_append] at hheld
  rw [load_of_holds hheld.1 (by simp), leNat_leBytes_of_lt (by omega)]

/-- A packet that is not complete makes the loop fetch a frame. -/
theorem readStep_incomplete (h : At s got u) (hinc : u.length < packetEnd u) (fuel : Nat) :
    readStep obCrc32 fuel s = fetchFrame obCrc32 fuel s := by
  have havail := h.avail
  unfold packetEnd at hinc
  split at hinc
  · rw [readStep, if_neg (by omega)]
  have hlen : leNat (loadAt s.net.buff s.current 3) = leNat (u.take 3) := by
    have hheld := h.unread
    rw [← take_append_drop 3 u, holds_append] at hheld
    rw [load_of_holds hheld.1 (by rw [length_take]; omega)]
  rw [readStep, if_pos (by omega), if_neg (by omega), if_neg (by omega)]

theorem readStep_empty (h : At s got (packetHeader 0 seq ++ r)) (fuel : Nat) :
    readStep obCrc32 fuel s = .ok (finishRead { s with current := s.current + 4 }) := by
  rw [readStep, h.avail, length_append, length_packetHeader, if_pos (Nat.le_add_right 4 _),
    h.packetLength (by decide), if_pos rfl]

theorem readStep_packet (h : At s got (packetHeader b.length seq ++ (b ++ r))) (hb : b ≠ [])
    (hlen : b.length ≤ maxPacketLength) (fuel : Nat) : readStep obCrc32 fuel s = if b.length ≠ maxPacketLength then
        .ok (finishRead { takePacket s b.length with isMultiPacket := false })
      else .ok (.again (continueMulti (takePacket s b.length))) := by
  have hpos : b.length ≠ 0 := by
    intro hzero
    exact hb (eq_nil_of_length_eq_zero hzero)
  unfold maxPacketLength at hlen
  rw [readStep, h.avail, length_append, length_packetHeader, if_pos (Nat.le_add_right 4 _),
    h.packetLength (by omega), if_neg hpos, if_pos (by rw [length_append]; omega)]

theorem takePacket_first (h : s.isMultiPacket = false) (len : Nat) :
    takePacket s len = { s with current := s.current + len + 4 } := by
  rw [takePacket, h]
  rfl

theorem takePacket_later (h : s.isMultiPacket = true) (len : Nat) : takePacket s len = { s with
      net := { s.net with
        buff := memmove s.net.buff s.current (s.current + 4) (usub s.bufferLength s.current) }
      bufferLength := usub s.bufferLength 4
      current := s.current + len } := if_pos h

theorem takePacket_net (s : ReadState) (len : Nat) :
    (takePacket s len).net.pvio = s.net.pvio ∧ (takePacket s len).net.ob20 = s.net.ob20 ∧
      (takePacket s len).net.maxPacketSize = s.net.maxPacketSize := by
  by_cases hmulti : s.isMultiPacket = true
  · simp only [takePacket_later hmulti, and_self]
  · simp only [takePacket_first (Bool.not_eq_true _ ▸ hmulti), and_self]

theorem takePacket_start (s : ReadState) (len : Nat) : (takePacket s len).start = s.start := by
  unfold takePacket
  split <;> rfl

/-- **A packet's payload joins what came before**, and the cursor stands behind it. -/
theorem takePacket_ready (h : At s got (packetHeader b.length seq ++ (b ++ r))) :
    Ready { takePacket s b.length with isMultiPacket := false } (got ++ b) r := by
  have hheld := h.unread
  have hlength := h.length
  have hbound := h.bound
  rw [holds_append] at hheld
  simp only [length_append, length_packetHeader] at hlength
  obtain ⟨-, hbody⟩ := hheld
  rcases h.got with ⟨hmulti, rfl, hcur⟩ | ⟨hmulti, -, hstart, hcur, hgot⟩
  · -- the first packet stays where it is
    have hparts := hbody
    rw [holds_append] at hparts
    rw [takePacket_first hmulti]
    refine ⟨?_, ?_, ?_, ?_, hbound⟩
    · rw [← hcur]
      exact hparts.1
    · show s.current + b.length + 4 = s.start + 4 + ([] ++ b).length
      rw [nil_append]
      omega
    · show Holds s.net.buff (s.current + b.length + 4) r
      rw [Nat.add_right_comm]
      exact hparts.2
    · show s.bufferLength = s.current + b.length + 4 + r.length
      omega
  -- a later one moves over its own header
  have hn : usub s.bufferLength s.current = 4 + (b.length + r.length) := by
    rw [h.avail, length_append, length_append, length_packetHeader]
  have hmove : Holds (memmove s.net.buff s.current (s.current + 4)
      (usub s.bufferLength s.current)) s.current (b ++ r) :=
    holds_memmove hbody (by rw [length_append]; omega)
  have hkeep : Holds (memmove s.net.buff s.current (s.current + 4)
      (usub s.bufferLength s.current)) 4 got :=
    holds_memmove_of_disjoint hgot (Or.inl hcur.ge)
  rw [holds_append] at hmove
  have hbl : usub s.bufferLength 4 = s.bufferLength - 4 := usub_eq (by omega) hbound
  rw [takePacket_later hmulti]
  refine ⟨?_, ?_, ?_, ?_, ?_⟩
  · show Holds _ (s.start + 4) (got ++ b)
    rw [hstart, holds_append, ← hcur]
    exact ⟨hkeep, hmove.1⟩
  · show s.current + b.length = s.start + 4 + (got ++ b).length
    rw [length_append]
    omega
  · exact hmove.2
  · show usub s.bufferLength 4 = s.current + b.length + r.length
    omega
  · show usub s.bufferLength 4 < 2 ^ 64
    omega

theorem continueMulti_front (h : s.start = 0) :
    continueMulti s = { s with isMultiPacket := true } := if_neg (not_not.2 h)

/-- A full packet starts, or continues, a payload of several packets. -/
theorem continueMulti_at (h : At s got (packetHeader b.length seq ++ (b ++ r))) (hb : b ≠ [])
    (hstart : s.start = 0) : At (continueMulti (takePacket s b.length)) (got ++ b) r := by
  have hready := takePacket_ready h
  have hstart' : (takePacket s b.length).start = 0 := (takePacket_start s _).trans hstart
  rw [continueMulti_front hstart']
  refine ⟨hready.unread, hready.length, hready.bound, .inr ⟨rfl, ?_, hstart', ?_, ?_⟩⟩
  · simp [hb]
  · have hcur := hready.current
    simpa [hstart'] using hcur
  · have hpayload := hready.payload
    simpa [hstart'] using hpayload

/-! ### The end of a call -/

/-- What stands in the buffer when the byte at its front is put back. -/
def withFirst (b : UInt8) : List UInt8 → List UInt8
  | [] => []
  | _ :: t => b :: t

/-- **The next call starts with what is left**, its first byte replaced by the byte that stood behind
the payload. -/
theorem waiting_finish {len : Nat} (hheld : Holds s.net.buff s.current u)
    (hlength : s.bufferLength = s.current + u.length) (hbound : s.bufferLength < 2 ^ 64)
    (hle : s.start + 4 + len ≤ s.current) :
    Waiting (finishNet s len) (withFirst (s.net.buff (s.start + 4 + len)) u) := by
  have hremain : (finishNet s len).remainInBuf = u.length := by
    show usub s.bufferLength s.current = u.length
    rw [usub_eq (by omega) hbound, hlength, Nat.add_sub_cancel_left]
  unfold Waiting
  cases u with
  | nil =>
    rw [startRead_empty hremain]
    exact ⟨holds_nil _ _, rfl, Nat.two_pow_pos 64, .inl ⟨rfl, rfl, rfl⟩⟩
  | cons x t =>
    have hcur : usub (finishNet s len).bufLength (finishNet s len).remainInBuf = s.current := by
      rw [hremain]
      show usub s.bufferLength (x :: t).length = s.current
      rw [usub_eq (by omega) hbound, hlength, Nat.add_sub_cancel]
    rw [startRead_left (by rw [hremain]; exact Nat.succ_ne_zero _), hcur]
    refine ⟨?_, hlength, hbound, .inl ⟨rfl, rfl, rfl⟩⟩
    rw [withFirst, holds_cons]
    refine ⟨?_, ?_⟩
    · exact (holds_cons.1 (holds_storeAt _ s.current [(finishNet s len).saveChar])).1
    · -- the tail is behind both stores
      apply holds_storeAt_of_disjoint _ (.inr le_rfl)
      apply holds_storeAt_of_disjoint (holds_cons.1 hheld).2
      right
      show s.start + 4 + len + 1 ≤ s.current + 1
      omega

/-- The usual end of a call: what is left is as it was. -/
theorem finishRead_ready (h : Ready s p u) (hmulti : s.isMultiPacket = false) :
    finishRead s = .done p.length (finishNet s p.length) ∧
      returned p.length (finishNet s p.length) = p ∧ Waiting (finishNet s p.length) u := by
  have hcur := h.current
  have hlength := h.length
  have hbound := h.bound
  have hlen : readLen s = p.length := by
    have hpast : usub s.current s.start = 4 + p.length := by
      rw [usub_eq (by omega) (by omega)]
      omega
    have hfirst : usub (4 + p.length) 4 = p.length := by
      rw [usub_eq (by omega) (by omega), Nat.add_sub_cancel_left]
    rw [readLen, hmulti, hpast, hfirst, if_neg Bool.false_ne_true]
  refine ⟨by rw [finishRead, hlen], ?_, ?_⟩
  · exact load_of_holds (holds_storeAt_of_disjoint h.payload (.inl le_rfl)) rfl
  · have hwait := waiting_finish h.unread hlength hbound hcur.ge
    rw [← hcur] at hwait
    cases u with
    | nil => exact hwait
    | cons x t =>
      rw [(holds_cons.1 h.unread).1] at hwait
      exact hwait

/-- **A payload that an empty packet ends leaves a zero in the next header.** The byte behind the
payload is the first of the empty packet's header; it is put back four bytes further on. -/
theorem finishRead_empty_multi (h : At s got (packetHeader 0 seq ++ u))
    (hmulti : s.isMultiPacket = true) (s' : ReadState)
    (hs' : s' = { s with current := s.current + 4 }) :
    finishRead s' = .done got.length (finishNet s' got.length) ∧
      returned got.length (finishNet s' got.length) = got ∧
      Waiting (finishNet s' got.length) (withFirst 0 u) := by
  have hlength := h.length
  have hbound := h.bound
  have hheld := h.unread
  rw [holds_append] at hheld
  simp only [length_append, length_packetHeader] at hlength
  rcases h.got with ⟨hfalse, -⟩ | ⟨-, -, hstart, hcur, hgot⟩
  · rw [hmulti] at hfalse
    cases hfalse
  have hstart' : s'.start = 0 := by rw [hs']; exact hstart
  have hcur' : s'.current = 4 + got.length + 4 := by rw [hs', ← hcur]
  have hbuff : s'.net.buff = s.net.buff := by rw [hs']
  have hbl : s'.bufferLength = s.bufferLength := by rw [hs']
  have hmulti' : s'.isMultiPacket = true := by rw [hs']; exact hmulti
  have hlen : readLen s' = got.length := by
    have hpast : usub s'.current s'.start = 4 + (4 + got.length) := by
      rw [usub_eq (by omega) (by omega)]
      omega
    have hfirst : usub (4 + (4 + got.length)) 4 = 4 + got.length := by
      rw [usub_eq (by omega) (by omega), Nat.add_sub_cancel_left]
    rw [readLen, hmulti', hpast, hfirst, if_pos rfl, usub_eq (by omega) (by omega), Nat.add_sub_cancel_left]
  have hzero : s'.net.buff (s'.start + 4 + got.length) = 0 := by
    rw [hstart', hbuff, ← hcur]
    exact (holds_cons.1 hheld.1).1
  refine ⟨by rw [finishRead, hlen], ?_, ?_⟩
  · show loadAt (storeAt s'.net.buff (s'.start + 4 + got.length) [0]) (s'.start + 4) _ = got
    rw [hstart', hbuff]
    exact load_of_holds (holds_storeAt_of_disjoint hgot (.inl le_rfl)) rfl
  · rw [← hzero]
    apply waiting_finish
    · rw [hbuff, hcur', ← hcur]
      exact hheld.2
    · omega
    · omega
    · omega

/-! ### A fetch -/

/-- Moving what is left to the front changes nothing else. -/
theorem dropStart_at (h : At s got u) : At (dropStart s) got u ∧ (dropStart s).start = 0 ∧
      (dropStart s).bufferLength ≤ 4 + got.length + u.length ∧
      (dropStart s).net.pvio = s.net.pvio ∧ (dropStart s).net.ob20 = s.net.ob20 ∧
      (dropStart s).net.maxPacketSize = s.net.maxPacketSize := by
  have hlength := h.length
  by_cases hstart : s.start = 0
  · have hsame : dropStart s = s := if_neg (not_not.2 hstart)
    rw [hsame]
    refine ⟨h, hstart, ?_, rfl, rfl, rfl⟩
    rcases h.got with ⟨-, -, hcur⟩ | ⟨-, -, -, hcur, -⟩ <;> omega
  rcases h.got with ⟨hmulti, rfl, hcur⟩ | ⟨-, -, hzero, -⟩
  · have havail := h.avail
    rw [hcur] at havail
    have hdrop : dropStart s = { s with
        net := { s.net with buff := memmove s.net.buff 0 s.start u.length }
        current := 0
        bufferLength := u.length
        start := 0 } := by
      have hzero : usub s.start s.start = 0 := by
        rw [usub_eq le_rfl (by have := h.bound; omega), Nat.sub_self]
      rw [dropStart, if_pos hstart, havail, hcur, hzero]
    have hheld := h.unread
    rw [hcur] at hheld
    have hbound := h.bound
    have hfront : Holds (memmove s.net.buff 0 s.start u.length) 0 u := holds_memmove hheld le_rfl
    have hlt : u.length < 2 ^ 64 := by omega
    rw [hdrop]
    refine ⟨⟨hfront, (Nat.zero_add _).symm, hlt, .inl ⟨hmulti, rfl, rfl⟩⟩, rfl, ?_, rfl, rfl, rfl⟩
    exact Nat.le_add_left _ _
  · exact absurd hzero hstart

/-- **A fetch appends a frame's basic info** to what is in the buffer. -/
theorem fetchFrame_peer {f : Frame} (h : At s got u) (hpeer : Peer obCrc32 s.net (f :: fs))
    (hroom : f.outerLen + (4 + got.length + u.length) < s.net.maxPacketSize) (hmax : s.net.maxPacketSize ≤ 2 ^ 64) :
    ∃ n s', (∀ fuel, n ≤ fuel → fetchFrame obCrc32 fuel s = .ok (.again s')) ∧
      At s' got (u ++ f.basic) ∧ s'.start = 0 ∧ Peer obCrc32 s'.net fs ∧
      s'.net.maxPacketSize = s.net.maxPacketSize := by
  obtain ⟨hat, hstart, hbl, hpvio, hob20, hsize⟩ := dropStart_at h
  have hpeer' : Peer obCrc32
      { (dropStart s).net with whereB := (dropStart s).bufferLength } (f :: fs) :=
    hpeer.of_eq hpvio hob20
  have hf : f.Valid := hpeer.valid f mem_cons_self
  obtain ⟨n, net', hrun, hbasic, hbelow, hpieces, hflat, hident, hseq, hsize'⟩ :=
    recvFrame_peer hf hpeer'.fits hpeer'.pieces hpeer'.stream
      (show f.outerLen + (dropStart s).bufferLength < (dropStart s).net.maxPacketSize by omega)
  have hlength := hat.length
  have hshorter : f.basic.length ≤ f.outerLen := by
    rw [Frame.outerLen, Frame.payload, length_append]
    omega
  have hkeep : ∀ {off : Nat} {bs : List UInt8}, Holds (dropStart s).net.buff off bs →
      off + bs.length ≤ (dropStart s).bufferLength → Holds net'.buff off bs := by
    intro off bs hheld hle
    apply holds_congr hheld
    intro i hi
    exact hbelow (off + i) (show off + i < (dropStart s).bufferLength by omega)
  refine ⟨n, { dropStart s with net := net', bufferLength := (dropStart s).bufferLength + f.basic.length },
    ?_, ⟨?_, ?_, ?_, ?_⟩, hstart, ⟨?_, hpieces, ?_, ?_⟩, ?_⟩
  · intro fuel hfuel
    rw [fetchFrame, hrun fuel hfuel]
    rfl
  · rw [holds_append]
    refine ⟨hkeep hat.unread hlength.ge, ?_⟩
    rw [← hlength]
    exact hbasic
  · show (dropStart s).bufferLength + f.basic.length = (dropStart s).current + (u ++ f.basic).length
    rw [hlength, length_append, add_assoc]
  · show (dropStart s).bufferLength + f.basic.length < 2 ^ 64
    omega
  · rcases hat.got with hfirst | ⟨hmulti, hne, hzero, hcur, hgot⟩
    · exact .inl hfirst
    · exact .inr ⟨hmulti, hne, hzero, hcur, hkeep hgot (by omega)⟩
  · show (identity net'.ob20.header).Fits
    rw [hident]
    exact hpeer'.fits
  · intro f' hf'
    exact hpeer.valid f' (mem_cons_of_mem f hf')
  · show net'.pvio.flatten = _
    rw [hflat]
    rw [hident, hseq]
  · exact hsize'.trans hsize

end Round

/-! ## A whole call -/

/-- The basic infos of frames, one behind the other. -/
def basics (fs : List Frame) : List UInt8 := (fs.map Frame.basic).flatten

@[simp] theorem basics_cons (f : Frame) (fs : List Frame) : basics (f :: fs) = f.basic ++ basics fs :=
  rfl

/-- Of the frames `all`, those in `fs` are still to come; the last one fetched brought `size` bytes. -/
def Fetched (all fs : List Frame) (size : Nat) : Prop :=
  (fs = all ∧ size = 0) ∨ ∃ f, (f :: fs) <:+ all ∧ size = f.basic.length

variable {all : List Frame} {size : Nat}

theorem Fetched.suffix (h : Fetched all fs size) : fs <:+ all := by
  rcases h with ⟨rfl, -⟩ | ⟨f, hsuffix, -⟩
  · exact suffix_rfl
  · exact (suffix_cons f fs).trans hsuffix

theorem Fetched.next {f : Frame} (h : Fetched all (f :: fs) size) : Fetched all fs f.basic.length :=
  Or.inr ⟨f, h.suffix, rfl⟩

/-- Between two calls: `u` is in the buffer, and is less than what the last frame brought. -/
structure Between (obCrc32 : List UInt8 → UInt32) (all : List Frame) (net : NET) (u : List UInt8)
    (fs : List Frame) : Prop where
  waiting : Waiting net u
  peer : Peer obCrc32 net fs
  fetched : ∃ size, Fetched all fs size ∧ size < maxPacketLength ∧ (u = [] ∨ u.length < size)

theorem Frame.Valid.basic_lt {f : Frame} (h : f.Valid) : f.basic.length < maxPacketLength := by
  have hlen := h.length
  rw [Frame.outerLen, Frame.payload, length_append] at hlen
  unfold ob20HeaderSize at hlen
  omega

section Call

variable {obCrc32 : List UInt8 → UInt32} {s s' : ReadState} {fuel : Nat}

theorem readLoop_again (h : readStep obCrc32 fuel s = .ok (.again s')) :
    readLoop obCrc32 (fuel + 1) s = readLoop obCrc32 fuel s' := by
  rw [readLoop, h]
  rfl

theorem readLoop_done {len : Nat} (h : readStep obCrc32 fuel s = .ok (.done len net)) :
    readLoop obCrc32 (fuel + 1) s = .ok (some len, net) := by
  rw [readLoop, h]
  rfl

/-- A last round, which finishes the call. -/
theorem readLoop_finish (hstep : ∀ fuel, readStep obCrc32 fuel s = .ok (.done p.length net))
    (hwait : Waiting net u) (hpeer : Peer obCrc32 net fs) (hfetched : Fetched all fs size)
    (hsize : size < maxPacketLength) (hu : u.length < size) :
    (∀ fuel, 1 ≤ fuel → readLoop obCrc32 fuel s = .ok (some p.length, net)) ∧ Between obCrc32 all net u fs := by
  refine ⟨?_, hwait, hpeer, size, hfetched, hsize, .inr hu⟩
  intro fuel hfuel
  obtain ⟨fuel, rfl⟩ := Nat.exists_eq_add_of_le' hfuel
  exact readLoop_done (hstep fuel)

/-- An empty packet ends the payload. -/
def EndsEmpty (p : List UInt8) : Prop := p ≠ [] ∧ maxPacketLength ∣ p.length

instance (p : List UInt8) : Decidable (EndsEmpty p) :=
  inferInstanceAs (Decidable (_ ∧ _))

/-- A call that starts its loop at `s` returns `p`; the bytes `rest` are still to be read, but when
an empty packet ended `p` the first of those already in the buffer is zero now. -/
def Returns (obCrc32 : List UInt8 → UInt32) (all : List Frame) (s : ReadState)
    (p rest : List UInt8) : Prop :=
  ∃ n net u fs, (∀ fuel, n ≤ fuel → readLoop obCrc32 fuel s = .ok (some p.length, net)) ∧
    returned p.length net = p ∧ u ++ basics fs = rest ∧
    Between obCrc32 all net (if EndsEmpty p then withFirst 0 u else u) fs ∧
    net.maxPacketSize = s.net.maxPacketSize

theorem length_withFirst (b : UInt8) (u : List UInt8) : (withFirst b u).length = u.length := by
  cases u <;> rfl

/-- The case of an empty packet. -/
theorem returns_empty {got : List UInt8} {seq : UInt8} (hat : At s got (packetHeader 0 seq ++ u))
    (hpeer : Peer obCrc32 s.net fs) (hgot : maxPacketLength ∣ got.length) (hfetched : Fetched all fs size)
    (hsize : size < maxPacketLength) (hu : u.length < size) : Returns obCrc32 all s got (u ++ basics fs) := by
  have hstep : ∀ fuel, readStep obCrc32 fuel s = .ok (finishRead { s with current := s.current + 4 }) :=
    readStep_empty hat
  rcases hat.got with ⟨hmulti, rfl, hcur⟩ | ⟨hmulti, hne, -⟩
  · -- the payload is empty; nothing is wrong with the byte behind it
    have hheld := hat.unread
    have hlength := hat.length
    rw [holds_append] at hheld
    rw [length_append, ← add_assoc] at hlength
    have hready : Ready { s with current := s.current + 4 } [] u :=
      ⟨holds_nil _ _, congrArg (· + 4) hcur, hheld.2, hlength, hat.bound⟩
    obtain ⟨hdone, hret, hwait⟩ := finishRead_ready hready hmulti
    rw [hdone] at hstep
    obtain ⟨hrun, hbetween⟩ :=
      readLoop_finish hstep hwait (hpeer.of_eq rfl rfl) hfetched hsize hu
    refine ⟨1, _, u, fs, hrun, hret, rfl, ?_, rfl⟩
    exact hbetween
  obtain ⟨hdone, hret, hwait⟩ := finishRead_empty_multi hat hmulti _ rfl
  rw [hdone] at hstep
  obtain ⟨hrun, hbetween⟩ := readLoop_finish hstep hwait (hpeer.of_eq rfl rfl) hfetched hsize
    (by rwa [length_withFirst])
  refine ⟨1, _, u, fs, hrun, hret, rfl, ?_, rfl⟩
  rw [if_pos ⟨hne, hgot⟩]
  exact hbetween

/-- The case of a packet that is neither empty nor full. -/
theorem returns_short {got : List UInt8} {seq : UInt8} (hat : At s got (packetHeader b.length seq ++ (b ++ u)))
    (hpeer : Peer obCrc32 s.net fs) (hgot : maxPacketLength ∣ got.length) (hb : b ≠ [])
    (hshort : b.length < maxPacketLength) (hfetched : Fetched all fs size) (hsize : size < maxPacketLength)
    (hu : u.length < size) : Returns obCrc32 all s (got ++ b) (u ++ basics fs) := by
  have hstep : ∀ fuel, readStep obCrc32 fuel s =
      .ok (finishRead { takePacket s b.length with isMultiPacket := false }) := by
    intro fuel
    rw [readStep_packet hat hb hshort.le, if_pos hshort.ne]
  have hnet := takePacket_net s b.length
  have hready := takePacket_ready hat
  obtain ⟨hdone, hret, hwait⟩ := finishRead_ready hready rfl
  rw [hdone] at hstep
  obtain ⟨hrun, hbetween⟩ := readLoop_finish hstep hwait
    (hpeer.of_eq hnet.1 hnet.2.1) hfetched hsize hu
  refine ⟨1, _, u, fs, hrun, hret, rfl, ?_, hnet.2.2⟩
  rw [if_neg]
  · exact hbetween
  · rintro ⟨-, hdvd⟩
    rw [length_append, Nat.dvd_add_right hgot] at hdvd
    have hpos := length_pos_iff.2 hb
    exact absurd (Nat.le_of_dvd hpos hdvd) (Nat.not_le.2 hshort)

/-- A round that goes on. -/
theorem Returns.of_again {rest : List UInt8} {n : Nat} (h : Returns obCrc32 all s' p rest)
    (hstep : ∀ fuel, n ≤ fuel → readStep obCrc32 fuel s = .ok (.again s'))
    (hsize : s'.net.maxPacketSize = s.net.maxPacketSize) : Returns obCrc32 all s p rest := by
  obtain ⟨m, net, u, fs, hrun, hret, hrest, hbetween, hmax⟩ := h
  refine ⟨max m n + 1, net, u, fs, ?_, hret, hrest, hbetween, hmax.trans hsize⟩
  intro fuel hfuel
  obtain ⟨fuel, rfl⟩ := Nat.exists_eq_add_of_le' (Nat.le_of_add_left_le hfuel)
  have hle : max m n ≤ fuel := Nat.le_of_add_le_add_right hfuel
  rw [readLoop_again (hstep fuel ((le_max_right m n).trans hle)), hrun fuel ((le_max_left m n).trans hle)]

/-- A frame is still to come when the packet in hand is not complete. -/
theorem exists_frame {len : Nat} {seq : UInt8} (h : u ++ basics fs = packetHeader len seq ++ r)
    (hlen : len < 2 ^ 24) (hr : len ≤ r.length) (hinc : u.length < packetEnd u) : ∃ f fs', fs = f :: fs' := by
  cases fs with
  | cons f fs' => exact ⟨f, fs', rfl⟩
  | nil =>
    have hall := congrArg List.length h
    rw [packetEnd_of_front h hlen] at hinc
    simp only [basics, map_nil, flatten_nil, append_nil, length_append, length_packetHeader] at hall
    split at hinc <;> omega

/-- The invariant of the loop: `got` has been brought, `p` is still to come, and `rest` belongs to
later calls. What is in the buffer behind the packet in hand came with the last frame, so a packet
that does not start at the front of the buffer is never a full one. -/
structure Underway (obCrc32 : List UInt8 → UInt32) (all : List Frame) (rest : List UInt8)
    (s : ReadState) (got p : List UInt8) (seq : UInt8) (u : List UInt8) (fs : List Frame)
    (size : Nat) : Prop where
  at_ : At s got u
  peer : Peer obCrc32 s.net fs
  dvd : maxPacketLength ∣ got.length
  stream : u ++ basics fs = packets seq p ++ rest
  tight : u.length < packetEnd u + size
  fetched : Fetched all fs size
  size_lt : size < maxPacketLength
  start : s.start = 0 ∨ u.length < maxPacketLength
  room : got.length + p.length + 2 ^ 24 + 8 ≤ s.net.maxPacketSize
  maxPacketSize : s.net.maxPacketSize ≤ 2 ^ 64

section Rounds

variable {all : List Frame} {rest got p u : List UInt8} {seq : UInt8} {fs : List Frame} {size : Nat}

theorem length_take_cap (p : List UInt8) : (p.take maxPacketLength).length = min p.length maxPacketLength := by
  rw [length_take, min_comm]

/-- The stream, with its first packet written out. -/
theorem Underway.packet (h : Underway obCrc32 all rest s got p seq u fs size) :
    u ++ basics fs = packetHeader (p.take maxPacketLength).length seq ++
        (p.take maxPacketLength ++ (laterPackets seq p ++ rest)) ∧
      (p.take maxPacketLength).length < 2 ^ 24 := by
  refine ⟨?_, ?_⟩
  · rw [h.stream, packets_eq, length_take_cap]
    simp only [append_assoc]
  · rw [length_take_cap]
    unfold maxPacketLength
    omega

/-- A fetch keeps the invariant. -/
theorem Underway.fetch {f : Frame} (h : Underway obCrc32 all rest s got p seq u (f :: fs) size)
    (hinc : u.length < packetEnd u) :
    ∃ n s', (∀ fuel, n ≤ fuel → readStep obCrc32 fuel s = .ok (.again s')) ∧
      s'.net.maxPacketSize = s.net.maxPacketSize ∧
      Underway obCrc32 all rest s' got p seq (u ++ f.basic) fs f.basic.length := by
  have hf : f.Valid := h.peer.valid f mem_cons_self
  obtain ⟨hstream, hlen⟩ := h.packet
  have hroom : f.outerLen + (4 + got.length + u.length) < s.net.maxPacketSize := by
    have hend := packetEnd_of_front hstream hlen
    have hcap := length_take_cap p
    have hframe := hf.length
    have hlimit := h.room
    unfold maxPacketLength at hframe hcap hend
    split at hend <;> omega
  obtain ⟨n, s', hrun, hat, hstart, hpeer, hsize⟩ := fetchFrame_peer h.at_ h.peer hroom h.maxPacketSize
  refine ⟨n, s', ?_, hsize, ⟨hat, hpeer, h.dvd, ?_, ?_, h.fetched.next, hf.basic_lt, .inl hstart, ?_, ?_⟩⟩
  · intro fuel hfuel
    rw [readStep_incomplete h.at_ hinc, hrun fuel hfuel]
  · rw [← h.stream, basics_cons, append_assoc]
  · rw [length_append]
    exact Nat.add_lt_add_right (lt_packetEnd_append hinc f.basic) _
  · rw [hsize]
    exact h.room
  · rw [hsize]
    exact h.maxPacketSize

section

variable (h : Underway obCrc32 all rest s got p seq u fs size) (hend : packetEnd u ≤ u.length)
include h hend

/-- The packet in hand is complete: what follows it came with the last frame. -/
theorem Underway.complete :
    ∃ u', u = packetHeader (p.take maxPacketLength).length seq ++ (p.take maxPacketLength ++ u') ∧
      u' ++ basics fs = laterPackets seq p ++ rest ∧ u'.length < size := by
  obtain ⟨hstream, hlen⟩ := h.packet
  obtain ⟨u', hu, hrest⟩ := complete_of_front hstream rfl hlen hend
  refine ⟨u', hu, hrest, ?_⟩
  have htight := h.tight
  have hfour : ¬u.length < 4 := not_lt.2 ((four_le_packetEnd u).trans hend)
  have hsplit := congrArg List.length hu
  rw [packetEnd_of_front hstream hlen, if_neg hfour] at htight
  simp only [length_append, length_packetHeader] at hsplit
  omega

/-- A last packet ends the call. -/
theorem Underway.last (hshort : p.length < maxPacketLength) : Returns obCrc32 all s (got ++ p) rest := by
  obtain ⟨u', hu, hrest, hlt⟩ := h.complete hend
  have hat := h.at_
  rw [hu, take_of_length_le hshort.le] at hat
  rw [laterPackets, if_pos hshort, nil_append] at hrest
  rw [← hrest]
  by_cases hp : p = []
  · subst hp
    rw [append_nil]
    exact returns_empty hat h.peer h.dvd h.fetched h.size_lt hlt
  · exact returns_short hat h.peer h.dvd hp hshort h.fetched h.size_lt hlt

/-- A full packet keeps the invariant. -/
theorem Underway.full (hfull : maxPacketLength ≤ p.length) :
    ∃ s' u', (∀ fuel, readStep obCrc32 fuel s = .ok (.again s')) ∧ s'.net.maxPacketSize = s.net.maxPacketSize ∧
      Underway obCrc32 all rest s' (got ++ p.take maxPacketLength) (p.drop maxPacketLength) (seq + 1)
        u' fs size := by
  obtain ⟨u', hu, hrest, hlt⟩ := h.complete hend
  have hlen : (p.take maxPacketLength).length = maxPacketLength := by
    rw [length_take_cap, Nat.min_eq_right hfull]
  have hb : p.take maxPacketLength ≠ [] := by
    intro hnil
    rw [hnil] at hlen
    exact absurd hlen (by decide)
  -- a full packet is longer than what can stand behind another payload
  have hstart : s.start = 0 := by
    rcases h.start with hzero | hless
    · exact hzero
    rw [hu, length_append, length_append] at hless
    omega
  have hat := h.at_
  rw [hu] at hat
  have hnet := takePacket_net s (p.take maxPacketLength).length
  have hfront := continueMulti_front ((takePacket_start s (p.take maxPacketLength).length).trans hstart)
  refine ⟨continueMulti (takePacket s (p.take maxPacketLength).length), u', ?_, ?_,
    ⟨continueMulti_at hat hb hstart, ?_, ?_, ?_, ?_, h.fetched, h.size_lt, ?_, ?_, ?_⟩⟩
  · intro fuel
    rw [readStep_packet hat hb hlen.le, if_neg (not_not.2 hlen)]
  · rw [hfront]
    exact hnet.2.2
  · rw [hfront]
    exact h.peer.of_eq hnet.1 hnet.2.1
  · rw [length_append, hlen]
    exact (Nat.dvd_add_self_right).2 h.dvd
  · rw [hrest, laterPackets, if_neg (not_lt.2 hfull)]
  · exact hlt.trans_le (Nat.le_add_left _ _)
  · exact .inr (hlt.trans h.size_lt)
  · have hlength : (got ++ p.take maxPacketLength).length + (p.drop maxPacketLength).length =
        got.length + p.length := by
      rw [← length_append, append_assoc, take_append_drop, length_append]
    rw [hlength, hfront]
    exact h.room.trans hnet.2.2.ge
  · rw [hfront]
    exact hnet.2.2.trans_le h.maxPacketSize

end

/-- **A call returns the payload whose packets are on their way**, however the frames cut them. The
induction is on what is still to be consumed, payload bytes and frames: a round takes a full packet
off the buffer, fetches a frame, or is the last. -/
theorem Underway.returns (h : Underway obCrc32 all rest s got p seq u fs size) :
    Returns obCrc32 all s (got ++ p) rest := by
  induction hk : p.length + fs.length using Nat.strong_induction_on
    generalizing s got p seq u fs size with
  | h k ih =>
    by_cases hinc : u.length < packetEnd u
    · obtain ⟨hstream, hlen⟩ := h.packet
      obtain ⟨f, fs, rfl⟩ := exists_frame hstream hlen (by rw [length_append]; omega) hinc
      obtain ⟨n, s', hstep, hsize, h'⟩ := h.fetch hinc
      rw [length_cons] at hk
      exact (ih (p.length + fs.length) (by omega) h' rfl).of_again hstep hsize
    have hend := not_lt.1 hinc
    by_cases hshort : p.length < maxPacketLength
    · exact h.last hend hshort
    have hfull := not_lt.1 hshort
    obtain ⟨s', u', hstep, hsize, h'⟩ := h.full hend hfull
    have hless : (p.drop maxPacketLength).length + fs.length < k := by
      rw [length_drop]
      unfold maxPacketLength at hfull ⊢
      omega
    have hreturns := ih _ hless h' rfl
    rw [append_assoc, take_append_drop] at hreturns
    exact hreturns.of_again (n := 0) (fun fuel _ => hstep fuel) hsize

end Rounds

end Call

end ObConnector.Net
