/-
# ObConnector.Net.PeerFrame -- the frames of a well-behaved peer.

What a server that keeps to the protocol puts on the wire, and what the driver makes of it. A
`Frame` has an optional extra info and a basic info that is not empty; its header carries the
identifying fields the connection expects and the next sequence number, and each checksum is either
right or switched off. `recvFrame_peer` is the one fact the reader above needs: such a frame is
accepted, its basic info stands where the frame began, and nothing below that place has changed.
-/
import ObConnector.Net.Frame

namespace ObConnector.Net

open Lib Protocol20 List

/-! ## Reading from the socket -/

/-- The socket never gives an empty piece before the peer closes. -/
def Pieces (pvio : List (List UInt8)) : Prop := ∀ c ∈ pvio, c ≠ []

/-- **The pieces do not matter**: what is read is what the peer sent next. -/
theorem readFully_eq {pvio : List (List UInt8)} {bs rest : List UInt8} (hp : Pieces pvio)
    (hflat : pvio.flatten = bs ++ rest) (m : Mem) (pos : Nat) :
    ∃ m' pvio', readFully m pos bs.length pvio = some (m', pvio') ∧ Holds m' pos bs ∧
      (∀ i < pos, m' i = m i) ∧ Pieces pvio' ∧ pvio'.flatten = rest := by
  induction pvio generalizing bs m pos with
  | nil =>
    obtain ⟨rfl, rfl⟩ : bs = [] ∧ rest = [] := by
      simpa using hflat.symm
    exact ⟨m, [], rfl, holds_nil m pos, fun _ _ => rfl, hp, rfl⟩
  | cons c cs ih =>
    have hc : c ≠ [] := hp c (by simp)
    have hcs : Pieces cs := fun c' h' => hp c' (by simp [h'])
    rw [flatten_cons] at hflat
    by_cases hzero : bs.length = 0
    · obtain rfl : bs = [] := eq_nil_of_length_eq_zero hzero
      exact ⟨m, c :: cs, by simp [readFully], holds_nil m pos, fun _ _ => rfl, hp, by simpa using hflat⟩
    by_cases hshort : bs.length < c.length
    · -- the piece holds more than is asked for
      have hsplit : c = bs ++ c.drop bs.length ∧ rest = c.drop bs.length ++ cs.flatten := by
        have htake := congrArg (List.take bs.length) hflat
        rw [take_append_of_le_length (by omega), take_left] at htake
        have hdrop := congrArg (List.drop bs.length) hflat
        rw [drop_append_of_le_length (by omega), drop_left] at hdrop
        exact ⟨by conv_lhs => rw [← take_append_drop bs.length c, htake], hdrop.symm⟩
      have htake : c.take bs.length = bs := by
        rw [hsplit.1, take_left]
      refine ⟨storeAt m pos bs, c.drop bs.length :: cs, ?_, holds_storeAt m pos bs,
        fun i hi => storeAt_below hi, ?_, ?_⟩
      · rw [readFully, if_neg hzero, if_neg hc, if_pos hshort, htake]
      · intro c' hc'
        rcases mem_cons.1 hc' with rfl | hc'
        · intro hnil
          have := congrArg List.length hnil
          simp only [length_drop, length_nil] at this
          omega
        · exact hcs c' hc'
      · exact hsplit.2.symm
    -- the piece is used up
    obtain ⟨bs', rfl⟩ : ∃ bs', bs = c ++ bs' := by
      refine ⟨bs.drop c.length, ?_⟩
      have htake := congrArg (List.take c.length) hflat
      rw [take_left, take_append_of_le_length (by omega)] at htake
      conv_lhs => rw [← take_append_drop c.length bs, ← htake]
    rw [append_assoc] at hflat
    obtain ⟨m', pvio', hrun, hholds, hbelow, hp', hrest⟩ :=
      ih hcs (append_cancel_left hflat) (storeAt m pos c) (pos + c.length)
    refine ⟨m', pvio', ?_, ?_, ?_, hp', hrest⟩
    · rw [readFully, if_neg hzero, if_neg hc, if_neg hshort, ← hrun, length_append, Nat.add_sub_cancel_left]
    · rw [holds_append]
      refine ⟨?_, hholds⟩
      apply holds_congr (holds_storeAt m pos c)
      intro i hi
      exact hbelow (pos + i) (Nat.add_lt_add_left hi pos)
    · intro i hi
      rw [hbelow i (by omega), storeAt_below hi]

/-! ## Frames -/

/-- What a peer chooses for one frame. -/
structure Frame where
  pktNr : Nat
  flags : Nat
  reserved : Nat
  extra : Option (List UInt8)
  basic : List UInt8
  headerChecked : Bool
  payloadChecked : Bool

/-- The identifying fields of a header, which both sides keep. -/
structure Identity where
  magicNum : Nat
  version : Nat
  connectionId : Nat
  requestId : Nat
  deriving DecidableEq

/-- The identity a header carries. -/
def identity (h : Ob20ProtocolHeader) : Identity :=
  ⟨h.magicNum, h.version, h.connectionId, h.requestId⟩

/-- The identity fits the header's fields. -/
structure Identity.Fits (id : Identity) : Prop where
  magicNum : id.magicNum < 256 ^ 2
  version : id.version < 256 ^ 2
  connectionId : id.connectionId < 256 ^ 4
  requestId : id.requestId < 256 ^ 3

namespace Frame

/-- The extra-info part of the payload, with its four length bytes. -/
def extraBytes (f : Frame) : List UInt8 :=
  match f.extra with
  | none => []
  | some e => leBytes 4 e.length ++ e

/-- The payload. -/
def payload (f : Frame) : List UInt8 := f.extraBytes ++ f.basic

/-- The outer length. -/
def outerLen (f : Frame) : Nat := ob20HeaderSize + f.payload.length + ob20TailerSize

/-- A frame a peer may send: its flag says whether it has an extra info, the decode of a new extra
info comes to an end, its basic info is not empty, and it is short enough for the outer length. -/
structure Valid (f : Frame) : Prop where
  pktNr : f.pktNr < 256
  flags : f.flags < 256 ^ 4
  reserved : f.reserved < 256 ^ 2
  exist : extraInfoExist f.flags = f.extra.isSome
  ends : ∀ e, f.extra = some e → isNewExtraInfo f.flags → ∀ flt, ∃ fuel out,
    decodeProtocol20ExtraInfo fuel e flt = .ok out
  basic : f.basic ≠ []
  length : f.outerLen ≤ maxPacketLength

/-- The header fields of the frame, its checksum left at zero. -/
def bareHeader (f : Frame) (id : Identity) (seq : Nat) : Ob20ProtocolHeader :=
  ⟨id.magicNum, id.version, id.connectionId, id.requestId, seq, f.payload.length, f.flags, f.reserved, 0⟩

/-- The header checksum the frame carries. -/
def headerChecksum (f : Frame) (id : Identity) (seq : Nat) : Nat :=
  if f.headerChecked then
    (obCrc16 0 (outerHeader f.outerLen f.pktNr 0 ++ headerFields (f.bareHeader id seq))).toNat
  else 0

/-- The header of the frame. -/
def header (f : Frame) (id : Identity) (seq : Nat) : Ob20ProtocolHeader :=
  { f.bareHeader id seq with headerChecksum := f.headerChecksum id seq }

theorem header_fits {f : Frame} (hf : f.Valid) {id : Identity} (hid : id.Fits) {seq : Nat}
    (hseq : seq < 256) : HeaderFits (f.header id seq) := by
  have hlen := hf.length
  unfold outerLen ob20HeaderSize ob20TailerSize maxPacketLength at hlen
  refine ⟨hid.magicNum, hid.version, hid.connectionId, hid.requestId, hseq, ?_, hf.flags, hf.reserved, ?_⟩
  · show f.payload.length < 256 ^ 4
    omega
  · show f.headerChecksum id seq < 256 ^ 2
    unfold headerChecksum
    split
    · exact (obCrc16 0 _).toNat_lt
    · decide

section Bytes

variable (obCrc32 : List UInt8 → UInt32)

/-- The payload checksum the frame carries. -/
def payloadChecksum (f : Frame) : Nat := if f.payloadChecked then (obCrc32 f.payload).toNat else 0

/-- What stands behind the outer header. -/
def body (f : Frame) (id : Identity) (seq : Nat) : List UInt8 :=
  (headerFields (f.header id seq) ++ leBytes 2 (f.headerChecksum id seq)) ++
    (f.payload ++ leBytes 4 (f.payloadChecksum obCrc32))

/-- The frame on the wire. -/
def wire (f : Frame) (id : Identity) (seq : Nat) : List UInt8 :=
  outerHeader f.outerLen f.pktNr 0 ++ f.body obCrc32 id seq

theorem length_body (f : Frame) (id : Identity) (seq : Nat) : (f.body obCrc32 id seq).length = f.outerLen := by
  simp [body, outerLen, ob20HeaderSize, ob20TailerSize]
  omega

/-- The frames on the wire, with consecutive sequence numbers behind `seq`. -/
def wires (id : Identity) : Nat → List Frame → List UInt8
  | _, [] => []
  | seq, f :: fs => f.wire obCrc32 id ((seq + 1) % 256) ++ wires id ((seq + 1) % 256) fs

end Bytes

end Frame

/-! ## The driver's side -/

section Receive

variable {obCrc32 : List UInt8 → UInt32} {net : NET} {f : Frame}

/-- `ma_real_read` brings the body of a frame to `where_b`, and nothing below changes. -/
theorem maRealRead_peer {id : Identity} {seq : Nat} {rest : List UInt8} (hf : f.Valid)
    (hp : Pieces net.pvio) (hflat : net.pvio.flatten = f.wire obCrc32 id seq ++ rest)
    (hroom : f.outerLen + net.whereB < net.maxPacketSize) :
    ∃ m pvio maxPacket writePos, maRealRead net = (some (f.outerLen, 0), { net with
        buff := m, pvio := pvio, maxPacket := maxPacket, writePos := writePos
        pktNr := f.pktNr + 1, compressPktNr := f.pktNr + 1 }) ∧
      Holds m net.whereB (f.body obCrc32 id seq) ∧ (∀ i < net.whereB, m i = net.buff i) ∧
      Pieces pvio ∧ pvio.flatten = rest := by
  rw [Frame.wire, append_assoc] at hflat
  obtain ⟨m1, pvio1, hhead, hholds1, hbelow1, hp1, hflat1⟩ :=
    readFully_eq hp hflat net.buff net.whereB
  obtain ⟨m2, pvio2, hbody, hholds2, hbelow2, hp2, hflat2⟩ :=
    readFully_eq hp1 hflat1 m1 net.whereB
  rw [length_outerHeader] at hhead
  rw [Frame.length_body] at hbody
  -- the three fields of the outer header
  have hlt := hf.length
  unfold maxPacketLength at hlt
  have hparts := hholds1
  rw [outerHeader, holds_append, holds_cons] at hparts
  simp only [length_leBytes] at hparts
  obtain ⟨hlen, hnr, hcomp⟩ := hparts
  have hlen' : leNat (loadAt m1 net.whereB 3) = f.outerLen := by
    rw [load_of_holds hlen (by simp), leNat_leBytes_of_lt (by omega)]
  have hcomp' : leNat (loadAt m1 (net.whereB + 4) 3) = 0 := by
    rw [load_of_holds hcomp (by simp)]
    rfl
  have hnr' : (m1 (net.whereB + 3)).toNat = f.pktNr := by
    rw [hnr]
    simpa using hf.pktNr
  have hpos : f.outerLen ≠ 0 := by
    unfold Frame.outerLen ob20HeaderSize
    omega
  have hbelow : ∀ i < net.whereB, m2 i = net.buff i := by
    intro i hi
    rw [hbelow2 i hi, hbelow1 i hi]
  -- the buffer is large enough, or made large enough
  by_cases hgrow : net.maxPacket ≤ f.outerLen + net.whereB
  · refine ⟨m2, pvio2, (f.outerLen + net.whereB + ioSize - 1) / ioSize * ioSize, 0, ?_, hholds2,
      hbelow, hp2, hflat2⟩
    simp only [maRealRead, outerHeaderSize, hhead, hlen', hcomp', hnr', if_neg hpos, max_zero,
      if_pos hgrow, netRealloc, if_neg (Nat.not_le.2 hroom), hbody]
  refine ⟨m2, pvio2, net.maxPacket, net.writePos, ?_, hholds2, hbelow, hp2, hflat2⟩
  simp only [maRealRead, outerHeaderSize, hhead, hlen', hcomp', hnr', if_neg hpos, max_zero, if_neg hgrow, hbody]

/-- The header checksum of a frame is the one the driver computes, or none. -/
theorem headerCrc_peer (hf : f.Valid) {id : Identity} (hid : id.Fits) {seq : Nat} (hseq : seq < 256) :
    headerCrc (headerFields (f.header id seq) ++ leBytes 2 (f.headerChecksum id seq)) f.outerLen
      f.pktNr 0 = f.headerChecksum id seq := by
  have hread := readHeader_headerFields (f.header_fits hf hid hseq)
  have hcks : (f.header id seq).headerChecksum = f.headerChecksum id seq := rfl
  rw [hcks] at hread
  rw [headerCrc, hread, hcks]
  unfold Frame.headerChecksum
  by_cases hchecked : f.headerChecked = true
  · simp only [hchecked, if_true, ite_not]
    split
    · rename_i hzero
      exact hzero.symm
    · rfl
  · simp [hchecked]

/-- The identifying fields and the sequence number are the ones the driver expects. -/
theorem headerAccepted_peer (hf : f.Valid) {p : Ob20Protocol} (hid : (identity p.header).Fits) : HeaderAccepted p
      (headerFields (f.header (identity p.header) ((p.header.pktSeq + 1) % 256)) ++
        leBytes 2 (f.headerChecksum (identity p.header) ((p.header.pktSeq + 1) % 256)))
      f.outerLen f.pktNr 0 := by
  have hseq : (p.header.pktSeq + 1) % 256 < 256 := Nat.mod_lt _ (by omega)
  have hread : readHeader (headerFields (f.header (identity p.header) ((p.header.pktSeq + 1) % 256)) ++
      leBytes 2 (f.headerChecksum (identity p.header) ((p.header.pktSeq + 1) % 256))) = _ :=
    readHeader_headerFields (f.header_fits hf hid hseq)
  refine ⟨?_, ?_, ?_, ?_, ?_, ?_⟩
  · rw [headerCrc_peer hf hid hseq, hread]
    rfl
  all_goals
    rw [hread]
    rfl

/-- The payload checksum of a frame is right, or none. -/
theorem crcMismatch_peer {net1 : NET} {payload : Nat}
    (hholds : Holds net1.buff payload (f.payload ++ leBytes 4 (f.payloadChecksum obCrc32))) :
    crcMismatch obCrc32 net1 payload f.payload.length = false := by
  rw [holds_append] at hholds
  have hcrc : leNat (loadAt net1.buff (payload + f.payload.length) 4) = f.payloadChecksum obCrc32 := by
    rw [load_of_holds hholds.2 (by simp), leNat_leBytes_of_lt]
    unfold Frame.payloadChecksum
    split
    · exact (obCrc32 f.payload).toNat_lt
    · decide
  rw [crcMismatch, hcrc, load_of_holds hholds.1 rfl]
  unfold Frame.payloadChecksum
  split <;> simp

/-- The extra info of a frame is got through, and its size is that of the extra-info part. -/
theorem readExtraInfo_peer (net1 : NET) {payload : Nat} (hf : f.Valid)
    (hflags : net1.ob20.header.flags = f.flags) (hholds : Holds net1.buff payload f.extraBytes) :
    ∃ n flt, ∀ fuel, n ≤ fuel → readExtraInfo fuel net1 payload = .ok (f.extraBytes.length, flt) := by
  have hexist := hf.exist
  unfold readExtraInfo
  simp only [hflags, hexist]
  cases hextra : f.extra with
  | none =>
    refine ⟨0, net1.ob20.flt, fun fuel _ => ?_⟩
    simp [Frame.extraBytes, hextra]
  | some e =>
    simp only [Frame.extraBytes, hextra] at hholds ⊢
    rw [holds_append] at hholds
    have hlen : leNat (loadAt net1.buff payload 4) = e.length := by
      rw [load_of_holds hholds.1 (by simp), leNat_leBytes_of_lt]
      have := hf.length
      simp [Frame.outerLen, Frame.payload, Frame.extraBytes, hextra, maxPacketLength] at this
      omega
    have hrow : loadAt net1.buff (payload + 4) e.length = e := load_of_holds hholds.2 rfl
    simp only [hlen, hrow, length_append, length_leBytes]
    rw [add_comm 4 e.length]
    by_cases hnew : isNewExtraInfo f.flags = true
    · obtain ⟨n, out, hdec⟩ := hf.ends e hextra hnew net1.ob20.flt
      refine ⟨n, out.2.flt, fun fuel hfuel => ?_⟩
      rw [if_pos hnew, decode_fuel_mono hdec hfuel]
      rfl
    refine ⟨0, net1.ob20.flt, fun fuel _ => ?_⟩
    rw [if_neg hnew]
    rfl

/-- **A frame of a well-behaved peer is accepted.** Its basic info stands where the frame began,
nothing below has changed, and the connection expects the next frame. -/
theorem recvFrame_peer {rest : List UInt8} (hf : f.Valid)
    (hid : (identity net.ob20.header).Fits) (hp : Pieces net.pvio)
    (hflat : net.pvio.flatten =
      f.wire obCrc32 (identity net.ob20.header) ((net.ob20.header.pktSeq + 1) % 256) ++ rest)
    (hroom : f.outerLen + net.whereB < net.maxPacketSize) :
    ∃ n net', (∀ fuel, n ≤ fuel → recvFrame obCrc32 fuel net = .ok (some f.basic.length, net')) ∧
      Holds net'.buff net.whereB f.basic ∧ (∀ i < net.whereB, net'.buff i = net.buff i) ∧
      Pieces net'.pvio ∧ net'.pvio.flatten = rest ∧
      identity net'.ob20.header = identity net.ob20.header ∧
      net'.ob20.header.pktSeq = (net.ob20.header.pktSeq + 1) % 256 ∧
      net'.maxPacketSize = net.maxPacketSize := by
  obtain ⟨m, pvio, maxPacket, writePos, hread, hbody, hbelow, hp', hflat'⟩ :=
    maRealRead_peer hf hp hflat hroom
  generalize hnet1 : ({ net with
    buff := m, pvio := pvio, maxPacket := maxPacket, writePos := writePos
    pktNr := f.pktNr + 1, compressPktNr := f.pktNr + 1 } : NET) = net1 at hread
  generalize hseq : (net.ob20.header.pktSeq + 1) % 256 = seq at hbody
  have hseqlt : seq < 256 := by omega
  rw [Frame.body, holds_append] at hbody
  obtain ⟨hhead, hpayload⟩ := hbody
  have hload : loadAt net1.buff net1.whereB ob20HeaderSize =
      headerFields (f.header (identity net.ob20.header) seq) ++
        leBytes 2 (f.headerChecksum (identity net.ob20.header) seq) := by
    rw [← hnet1]
    exact load_of_holds hhead (by simp [ob20HeaderSize])
  have hheader : frameHeader net1 = f.header (identity net.ob20.header) seq := by
    rw [frameHeader, hload]
    exact readHeader_headerFields (f.header_fits hf hid hseqlt)
  have hpass : PassesChecks obCrc32 net1 f.outerLen := by
    refine ⟨?_, ?_⟩
    · have hacc := headerAccepted_peer hf hid
      rw [hseq] at hacc
      rw [hload, ← hnet1]
      exact hacc
    · rw [hheader, ← hnet1]
      exact crcMismatch_peer hpayload
  rw [Frame.payload, append_assoc, holds_append, holds_append] at hpayload
  obtain ⟨hextra, hbasic, -⟩ := hpayload
  obtain ⟨n, flt, hext⟩ := readExtraInfo_peer (acceptFrame net1) hf
    (show (frameHeader net1).flags = f.flags by rw [hheader]; rfl)
    (show Holds (acceptFrame net1).buff (net1.whereB + ob20HeaderSize) f.extraBytes by
      rw [← hnet1]; exact hextra)
  have hlen : usub (frameHeader net1).payloadLen f.extraBytes.length = f.basic.length := by
    have hlt := hf.length
    unfold Frame.outerLen maxPacketLength at hlt
    have hsum : f.payload.length = f.extraBytes.length + f.basic.length := length_append
    rw [hheader]
    show usub f.payload.length f.extraBytes.length = _
    rw [usub_eq (by omega) (by omega)]
    omega
  refine ⟨n, takeBasic net1 f.extraBytes.length flt, fun fuel hfuel => ?_, ?_, ?_, ?_, ?_, ?_, ?_, ?_⟩
  · rw [recvFrame_accepted hread hpass (hext fuel hfuel), hlen]
  · rw [takeBasic, hlen, ← hnet1]
    exact holds_memmove hbasic le_rfl
  · intro i hi
    rw [← hbelow i hi, ← hnet1]
    exact storeAt_below hi
  · rw [← hnet1]
    exact hp'
  · rw [← hnet1]
    exact hflat'
  · rw [← hnet1]
    rfl
  · show (frameHeader net1).pktSeq = seq
    rw [hheader]
    rfl
  · rw [takeBasic, acceptFrame, ← hnet1]

end Receive

end ObConnector.Net
