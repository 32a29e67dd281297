/-
# ObConnector.Net.WriteFrame -- the frame of one block.

`ma_net_real_write` builds an OB2.0 frame in the write buffer: the extra info behind the place of the
headers, the basic info behind it, the checksum, and the headers last. With nothing pending, or a single
trace, the frame that is sent carries what was pending and the block (`realWrite_frame`).
-/
import ObConnector.Net.Write

namespace ObConnector.Net.Stream

open Lib Protocol20 List

/-- The flags of a frame. -/
def frameFlags (frame : List UInt8) : Nat := fieldAt frame (outerHeaderSize + 16) 4

/-- What stands between the headers and the checksum. -/
def framePayload (frame : List UInt8) : List UInt8 :=
  (frame.drop ob20HeaderLength).take (frame.length - ob20HeaderLength - ob20TailerSize)

/-- The extra info in front of the basic info: its length, then the items. -/
def extraInfoBytes (pending : List Tlv) : List UInt8 :=
  if pending = [] then [] else leBytes 4 (tlvBytes pending).length ++ tlvBytes pending

/-- The frame says whether it has extra info, and carries what was pending and the block. -/
structure Carries (pending : List Tlv) (basic frame : List UInt8) : Prop where
  flag : extraInfoExist (frameFlags frame) = !pending.isEmpty
  payload : framePayload frame = extraInfoBytes pending ++ basic

/-- Nothing is pending, or a single trace of sensible length. -/
def Single (pending : List Tlv) : Prop :=
  pending = [] ∨ ∃ v, pending = [⟨fullTrc, v⟩] ∧ v.length < 2 ^ 31

theorem extraInfoExist_setFlag (flags : Nat) (v : Bool) : extraInfoExist (setFlag flags 0 v) = v := by
  unfold extraInfoExist setFlag
  cases v with
  | false =>
    simp
    omega
  | true =>
    simp
    omega

theorem extraInfoExist_mod (flags : Nat) : extraInfoExist (flags % 256 ^ 4) = extraInfoExist flags := by
  unfold extraInfoExist
  congr 2
  omega

theorem extraInfoExist_setFlag_other {k : Nat} (hk : 1 ≤ k) (flags : Nat) (v : Bool) :
    extraInfoExist (setFlag flags k v) = extraInfoExist flags := by
  obtain ⟨j, rfl⟩ := Nat.exists_eq_add_of_le' hk
  have hpow : 2 ^ (j + 1) = 2 * 2 ^ j := by rw [pow_succ, mul_comm]
  have hle : flags / 2 ^ (j + 1) % 2 * 2 ^ (j + 1) ≤ flags :=
    (Nat.mul_le_mul_right _ (Nat.mod_le _ _)).trans (Nat.div_mul_le_self _ _)
  have hparity : ∃ a, flags / 2 ^ (j + 1) % 2 * 2 ^ (j + 1) = 2 * a :=
    ⟨flags / 2 ^ (j + 1) % 2 * 2 ^ j, by rw [hpow, Nat.mul_left_comm]⟩
  unfold extraInfoExist setFlag
  congr 2
  split
  · omega
  · omega

theorem storeInside_ok {p : Ob20Protocol} {off : Nat} {bs : List UInt8}
    (h : off + bs.length ≤ p.realWriteBufferLength) :
    storeInside p off bs = .ok { p with realWriteBuffer := storeAt p.realWriteBuffer off bs } :=
  if_pos h

/-- **The extra info in the write buffer**: what is pending stands behind the headers, the flag says
whether it does, and nothing is pending any more. -/
theorem putExtraInfo_holds {p : Ob20Protocol} (hsingle : Single p.extraInfoList)
    (hcap : 31 + (extraInfoBytes p.extraInfoList).length ≤ p.realWriteBufferLength) :
    ∃ p', putExtraInfo p (tlvBytes p.extraInfoList).length = .ok (false, p') ∧
      p'.realWriteBufferLength = p.realWriteBufferLength ∧ p'.extraInfoList = [] ∧
      Holds p'.realWriteBuffer ob20HeaderLength (extraInfoBytes p.extraInfoList) ∧
      extraInfoExist p'.header.flags = !p.extraInfoList.isEmpty := by
  rcases hsingle with hnone | ⟨v, hone, hv⟩
  · refine ⟨{ p with header := { p.header with
      flags := setFlag (setFlag p.header.flags 0 false) 3 false } }, ?_, rfl, hnone, ?_, ?_⟩
    · exact if_neg (by rw [hnone]; simp)
    · rw [hnone]
      exact holds_nil _ _
    · rw [hnone]
      dsimp only
      rw [extraInfoExist_setFlag_other (by decide), extraInfoExist_setFlag]
      rfl
  have hbytes : tlvBytes [⟨fullTrc, v⟩] = Tlv.bytes ⟨fullTrc, v⟩ := by simp
  have hlength : (Tlv.bytes ⟨fullTrc, v⟩).length = 6 + v.length := by
    simp [Tlv.bytes]
    omega
  have hextra : extraInfoBytes [⟨fullTrc, v⟩] =
      leBytes 4 (6 + v.length) ++ Tlv.bytes ⟨fullTrc, v⟩ := by
    rw [extraInfoBytes, if_neg (cons_ne_nil _ _), hbytes, hlength]
  have hhead : ob20HeaderLength = 31 := rfl
  have hfour : ob20ExtrainfoLengthSize = 4 := rfl
  rw [hone, hextra, length_append, length_leBytes] at hcap
  rw [hone, hextra, hbytes, hlength]
  -- what the fill is given: the rest of the write buffer
  generalize hmem : loadAt (storeAt p.realWriteBuffer ob20HeaderLength (leBytes 4 (6 + v.length)))
    (ob20HeaderLength + ob20ExtrainfoLengthSize)
    (p.realWriteBufferLength - (ob20HeaderLength + ob20ExtrainfoLengthSize)) = mem
  have hroom : 6 + v.length ≤ mem.length := by
    rw [← hmem, length_loadAt]
    omega
  have hserialize := serializeFlt_append [] mem v (show _ ≤ 6 + v.length by simp) hroom
  simp only [nil_append, length_nil] at hserialize
  have hfill : fillProtocol20ExtraInfo [⟨fullTrc, v⟩] mem (6 + v.length) =
      .ok (6 + v.length, Tlv.bytes ⟨fullTrc, v⟩ ++ mem.drop (6 + v.length)) := by
    simp [fillProtocol20ExtraInfo, fillLoop, extraSerializeFuncs_fullTrc, hserialize]
  have hstore := storeInside_ok (p := p)
    (show ob20HeaderLength + (leBytes 4 (6 + v.length)).length ≤ _ by rw [length_leBytes]; omega)
  rw [putExtraInfo, if_pos (by omega), storeExtraInfo, hstore]
  simp only [ok_bind, hone, hmem, hfill, ne_eq]
  refine ⟨_, rfl, rfl, rfl, ?_, ?_⟩
  · rw [holds_append]
    refine ⟨holds_storeAt_of_disjoint (holds_storeAt _ _ _) ?_, ?_⟩
    · left
      rw [length_leBytes]
      omega
    · exact (holds_append.1 (holds_storeAt _ _ _)).1
  · dsimp only
    rw [extraInfoExist_setFlag_other (by decide), extraInfoExist_setFlag]
    rfl

/-- **The rest of the frame**: the block stands behind what was there, and the header says which flags
were set. -/
theorem putBasicInfo_holds (obCrc32 : List UInt8 → UInt32) {p : Ob20Protocol} {extra : List UInt8}
    (hheld : Holds p.realWriteBuffer ob20HeaderLength extra) (packet : List UInt8)
    (packetLen pktNr : Nat)
    (hcap : 35 + extra.length + packet.length ≤ p.realWriteBufferLength) :
    ∃ p' h, putBasicInfo obCrc32 p packet extra.length packetLen pktNr = .ok p' ∧
      p'.extraInfoList = p.extraInfoList ∧ h.flags = p.header.flags ∧
      Holds p'.realWriteBuffer 0 (outerHeader packetLen pktNr 0 ++ headerFields h) ∧
      Holds p'.realWriteBuffer ob20HeaderLength (extra ++ packet) := by
  have hhead : ob20HeaderLength = 31 := rfl
  have h1 := storeInside_ok (p := p)
    (show ob20HeaderLength + extra.length + packet.length ≤ _ by omega)
  have hpacket : Holds (storeAt p.realWriteBuffer (ob20HeaderLength + extra.length) packet)
      ob20HeaderLength (extra ++ packet) :=
    holds_append.2 ⟨holds_storeAt_of_disjoint hheld (.inl le_rfl), holds_storeAt _ _ _⟩
  unfold putBasicInfo
  rw [h1]
  simp only [ok_bind]
  rw [storeInside_ok (by rw [length_leBytes]; show _ ≤ p.realWriteBufferLength; omega)]
  simp only [ok_bind, storeHeader, fillProtocol20Header]
  rw [storeInside_ok (by
    simp only [length_append, length_outerHeader, length_headerFields, length_leBytes]
    omega)]
  refine ⟨_, { p.header with
    payloadLen := (packet.length + extra.length) % 2 ^ 32, pktSeq := pktNr % 256 }, rfl, rfl, rfl, ?_, ?_⟩
  · dsimp only
    exact (holds_append.1 (holds_storeAt _ _ _)).1
  · -- the checksum goes behind the payload and the headers in front of it
    dsimp only
    apply holds_storeAt_of_disjoint
    · exact holds_storeAt_of_disjoint hpacket (.inl (by rw [length_append]; omega))
    · right
      simp only [length_append, length_outerHeader, length_headerFields, length_leBytes]
      omega

variable {pending : List Tlv}

/-- The size functions give the length of the items' wire form. -/
theorem extraInfoLength_single (h : Single pending) :
    getProtocol20ExtraInfoLength pending = .ok (tlvBytes pending).length := by
  rcases h with rfl | ⟨v, rfl, -⟩
  · rfl
  have hlength : (tlvBytes [⟨fullTrc, v⟩]).length = 2 + 4 + v.length := by
    simp [Tlv.bytes]
    omega
  simp [getProtocol20ExtraInfoLength, extraSerializeFuncs_fullTrc, extrainfoGetSerializeSizeFlt]

theorem length_tlvBytes_single (h : Single pending) : (tlvBytes pending).length < 2 ^ 31 + 6 := by
  rcases h with rfl | ⟨v, rfl, hv⟩
  · decide
  simp [Tlv.bytes]
  omega

/-- `OB20_EXTRAINFO_LENGTH_SIZE` is counted when there is extra info. -/
theorem length_extraInfoBytes (h : Single pending) :
    (extraInfoBytes pending).length = if (tlvBytes pending).length ≠ 0 then
      (tlvBytes pending).length + ob20ExtrainfoLengthSize else 0 := by
  rcases h with rfl | ⟨v, rfl, -⟩
  · rfl
  · rfl

/-- A frame that was loaded from a write buffer with the headers and the payload in place. -/
theorem carries_loadAt {m : Mem} {packet : List UInt8} {packetLen pktNr : Nat} {h : Ob20ProtocolHeader}
    (hflag : extraInfoExist h.flags = !pending.isEmpty)
    (hheaders : Holds m 0 (outerHeader packetLen pktNr 0 ++ headerFields h))
    (hpayload : Holds m ob20HeaderLength (extraInfoBytes pending ++ packet)) {n : Nat}
    (hn : n = 35 + (extraInfoBytes pending ++ packet).length) : Carries pending packet (loadAt m 0 n) := by
  have hhead : ob20HeaderLength = 31 := rfl
  have htail : ob20TailerSize = 4 := rfl
  constructor
  · -- the flags are the sixteenth to the nineteenth byte of the OB2.0 header
    rw [holds_append] at hheaders
    obtain ⟨-, hfields⟩ := hheaders
    simp only [headerFields, holds_append] at hfields
    obtain ⟨-, -, -, -, -, -, hflags, -⟩ := hfields
    have hload : frameFlags (loadAt m 0 n) = h.flags % 256 ^ 4 := by
      rw [frameFlags, fieldAt, drop_loadAt _ _ (by unfold outerHeaderSize; omega),
        take_loadAt _ _ (by unfold outerHeaderSize; omega)]
      have hat : Holds m (0 + (outerHeaderSize + 16)) (leBytes 4 h.flags) := hflags
      rw [load_of_holds hat (by rw [length_leBytes]), leNat_leBytes]
    rw [hload, extraInfoExist_mod]
    exact hflag
  · rw [framePayload, length_loadAt, drop_loadAt _ _ (by omega), take_loadAt _ _ (by omega)]
    exact load_of_holds hpayload (by omega)

/-- **`ma_net_real_write` in OB2.0 mode sends one frame**, which carries what was pending. -/
theorem realWrite_frame (obCrc32 : List UInt8 → UInt32) (pvioWrite : List (List UInt8) → List UInt8 → Bool)
    {net : NET} (herror : net.error ≠ 2) (hsingle : Single net.ob20.extraInfoList)
    {packet : List UInt8} (hlen : packet.length < 2 ^ 24) :
    ∃ p frame, Net.maNetRealWrite obCrc32 pvioWrite net packet =
        .ok (sendFrame pvioWrite { net with ob20 := p, compressPktNr := net.compressPktNr + 1 } frame) ∧
      p.extraInfoList = [] ∧ Carries net.ob20.extraInfoList packet frame := by
  have hsize := extraInfoLength_single hsingle
  have hbound := length_tlvBytes_single hsingle
  have hextra := length_extraInfoBytes hsingle
  have hmod : (tlvBytes net.ob20.extraInfoList).length % 2 ^ 32 =
      (tlvBytes net.ob20.extraInfoList).length := Nat.mod_eq_of_lt (by omega)
  have hfour : ob20ExtrainfoLengthSize = 4 := rfl
  -- the lengths do not wrap around
  have hpacket : ob20PacketLen packet.length (tlvBytes net.ob20.extraInfoList).length =
      28 + ((extraInfoBytes net.ob20.extraInfoList).length + packet.length) := by
    unfold ob20PacketLen ob20HeaderSize ob20TailerSize
    rw [hextra]
    split <;> omega
  have hmore : (if (tlvBytes net.ob20.extraInfoList).length ≠ 0 then
      ((tlvBytes net.ob20.extraInfoList).length + ob20ExtrainfoLengthSize) % 2 ^ 32 else 0) =
      (extraInfoBytes net.ob20.extraInfoList).length := by
    rw [hextra]
    split
    · omega
    · rfl
  have hsmall : (extraInfoBytes net.ob20.extraInfoList).length ≤ 2 ^ 31 + 10 := by
    rw [hextra]
    split <;> omega
  have hbuffer : (28 + ((extraInfoBytes net.ob20.extraInfoList).length + packet.length) +
      outerHeaderSize + 1) % 2 ^ 32 =
      36 + ((extraInfoBytes net.ob20.extraInfoList).length + packet.length) := by
    unfold outerHeaderSize
    omega
  have hgrown : 36 + ((extraInfoBytes net.ob20.extraInfoList).length + packet.length) ≤
      (growWriteBuffer net.ob20 (36 + ((extraInfoBytes net.ob20.extraInfoList).length +
        packet.length))).realWriteBufferLength := le_max_right _ _
  obtain ⟨p1, hput, hcap, hnil, hheld, hflag⟩ := putExtraInfo_holds
    (p := growWriteBuffer net.ob20 (36 + ((extraInfoBytes net.ob20.extraInfoList).length +
      packet.length))) hsingle
    (show 31 + (extraInfoBytes net.ob20.extraInfoList).length ≤ _ by omega)
  change putExtraInfo _ (tlvBytes net.ob20.extraInfoList).length = _ at hput
  change Holds _ _ (extraInfoBytes net.ob20.extraInfoList) at hheld
  obtain ⟨p2, h, hbasic, hlist, hflags, hheaders, hpayload⟩ := putBasicInfo_holds obCrc32 hheld packet
    (28 + ((extraInfoBytes net.ob20.extraInfoList).length + packet.length)) net.compressPktNr
    (by omega)
  refine ⟨p2, loadAt p2.realWriteBuffer 0
    (28 + ((extraInfoBytes net.ob20.extraInfoList).length + packet.length) + outerHeaderSize), ?_,
    hlist.trans hnil, ?_⟩
  · rw [Net.maNetRealWrite, if_neg herror, hsize]
    simp only [ok_bind, hmod, hpacket, hbuffer, hput, Bool.false_eq_true, if_false, hmore, hbasic, pure_eq_ok]
  · apply carries_loadAt (hflags ▸ hflag) hheaders hpayload
    rw [length_append]
    unfold outerHeaderSize
    omega

end ObConnector.Net.Stream
