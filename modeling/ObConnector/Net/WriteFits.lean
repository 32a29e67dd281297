/-
# ObConnector.Net.WriteFits -- which frames the driver sends.

A frame is well formed when its body has at most `MAX_PACKET_LENGTH` bytes, so that the three length
bytes in front say how many follow. `ma_net_write_buff` keeps what it collects, and what it sends
straight from a packet, below `MAX_PACKET_LENGTH_WITH_OB20` bytes, which leaves room for the headers
but not for extra info; the extra info is accounted for only when it no longer fits behind what was
buffered *before* the call. `runCalls_wellFormed` says when every frame of a run is well formed.
-/
import ObConnector.Net.WriteFrame

namespace ObConnector.Net

open Lib Protocol20 List

/-! ## What one frame is -/

/-- The body has at most `MAX_PACKET_LENGTH` bytes, and the three bytes in front say how many. -/
structure FrameOk (frame : List UInt8) : Prop where
  body : (frame.drop outerHeaderSize).length ≤ maxPacketLength
  length : leNat (frame.take 3) = (frame.drop outerHeaderSize).length

/-- Every frame sent so far is well formed. -/
def WellFormed (net : NET) : Prop := ∀ f ∈ net.sent, FrameOk f

/-- The serialized length of the pending extra info. -/
def extraLen (net : NET) : Except Fault Nat := getProtocol20ExtraInfoLength net.ob20.extraInfoList

theorem WellFormed.of_sent {net net' : NET} (h : WellFormed net) (hsent : net'.sent = net.sent) :
    WellFormed net' := by
  intro f hf
  rw [hsent] at hf
  exact h f hf

theorem extraLen_of_ob20 {net net' : NET} (h : net'.ob20 = net.ob20) : extraLen net' = extraLen net := by
  rw [extraLen, h, extraLen]

/-- An item with a size function has its key and its length. -/
theorem extraLen_cases {list : List Tlv} {size : Nat}
    (h : getProtocol20ExtraInfoLength list = .ok size) : size = 0 ∨ 6 ≤ size := by
  induction list generalizing size with
  | nil =>
    left
    exact (Except.ok.inj h).symm
  | cons item rest ih =>
    simp only [getProtocol20ExtraInfoLength, bind_eq_ok, pure_eq_ok, Except.ok.injEq] at h
    obtain ⟨funcs, -, more, hmore, rfl⟩ := h
    rcases funcs with _ | ⟨⟨⟩⟩
    · rw [Nat.zero_add]
      exact ih hmore
    right
    exact Nat.le_add_right_of_le (Nat.le_add_right 6 item.value.length)

variable {p' p : Ob20Protocol}

theorem storeInside_eq {off : Nat} {bs : List UInt8} (h : storeInside p off bs = .ok p') :
    p' = { p with realWriteBuffer := storeAt p.realWriteBuffer off bs } := by
  unfold storeInside at h
  split at h
  · exact (Except.ok.inj h).symm
  · cases h

theorem clearExtraInfo_nil {list list' : List Tlv} (h : clearExtraInfo list = .ok list') : list' = [] := by
  unfold clearExtraInfo at h
  split at h <;> cases h <;> rfl

/-- Extra info that was put into the frame is no longer pending. -/
theorem putExtraInfo_list {n : Nat} (h : putExtraInfo p n = .ok (false, p')) :
    p'.extraInfoList = if n ≠ 0 then [] else p.extraInfoList := by
  by_cases hn : n ≠ 0
  · rw [putExtraInfo, if_pos hn] at h
    simp only [storeExtraInfo, bind_eq_ok] at h
    obtain ⟨p1, -, ⟨pos, mem⟩, -, h⟩ := h
    rw [if_pos hn]
    split at h
    · cases h
    simp only [bind_eq_ok] at h
    obtain ⟨list, hclear, h⟩ := h
    cases h
    exact clearExtraInfo_nil hclear
  · rw [putExtraInfo, if_neg hn] at h
    cases h
    rw [if_neg hn]

/-- A header starts with the outer length. -/
theorem storeHeader_spec {packetLen pktNr : Nat} (h : storeHeader p packetLen pktNr = .ok p') :
    p'.extraInfoList = p.extraInfoList ∧ Holds p'.realWriteBuffer 0 (leBytes 3 packetLen) := by
  rw [storeInside_eq h]
  refine ⟨rfl, ?_⟩
  have hheld := holds_storeAt p.realWriteBuffer 0 (fillProtocol20Header p packetLen pktNr 0).1
  have hbytes : ∃ rest, (fillProtocol20Header p packetLen pktNr 0).1 = leBytes 3 packetLen ++ rest := by
    exact ⟨_, rfl⟩
  obtain ⟨rest, hbytes⟩ := hbytes
  have hparts := hheld
  nth_rewrite 2 [hbytes] at hparts
  rw [holds_append] at hparts
  exact hparts.1

/-- The packet buffer is as it was. -/
structure SameBuffer (net net' : NET) : Prop where
  writePos : net'.writePos = net.writePos
  maxPacket : net'.maxPacket = net.maxPacket
  multiStatus : net'.multiStatus = net.multiStatus

section Frames

variable {obCrc32 : List UInt8 → UInt32} {pvioWrite : List (List UInt8) → List UInt8 → Bool}
  {net net' : NET} {packet : List UInt8} {failed : Bool}

/-- The length bytes come last, over whatever stands in the write buffer. -/
theorem putBasicInfo_spec {extra packetLen pktNr : Nat}
    (h : putBasicInfo obCrc32 p packet extra packetLen pktNr = .ok p') :
    p'.extraInfoList = p.extraInfoList ∧ Holds p'.realWriteBuffer 0 (leBytes 3 packetLen) := by
  simp only [putBasicInfo, bind_eq_ok] at h
  obtain ⟨p1, h1, p2, h2, h⟩ := h
  obtain ⟨hlist, hheld⟩ := storeHeader_spec h
  refine ⟨?_, hheld⟩
  rw [hlist, storeInside_eq h2, storeInside_eq h1]

theorem sendFrame_spec {frame : List UInt8} (h : sendFrame pvioWrite net frame = (failed, net')) :
    SameBuffer net net' ∧ net'.ob20 = net.ob20 ∧ net'.sent = net.sent ++ [frame] := by
  unfold sendFrame at h
  split at h <;> (cases h; exact ⟨⟨rfl, rfl, rfl⟩, rfl, rfl⟩)

/-- **What `ma_net_real_write` does**, when it comes to an end: it sends nothing, or one frame that
starts with its length. -/
theorem maNetRealWrite_spec (h : maNetRealWrite obCrc32 pvioWrite net packet = .ok (failed, net')) :
    SameBuffer net net' ∧
    (failed = false → ∀ size, extraLen net = .ok size → size < 2 ^ 32 → extraLen net' = .ok 0) ∧
    (net'.sent = net.sent ∨ ∃ size f, extraLen net = .ok size ∧ net'.sent = net.sent ++ [f] ∧
      f.length = ob20PacketLen packet.length (size % 2 ^ 32) + outerHeaderSize ∧
      f.take 3 = leBytes 3 (ob20PacketLen packet.length (size % 2 ^ 32))) := by
  unfold maNetRealWrite at h
  split at h
  · cases h
    refine ⟨⟨rfl, rfl, rfl⟩, ?_, .inl rfl⟩
    nofun
  simp only [bind_eq_ok] at h
  obtain ⟨size, hsize, ⟨failed1, p1⟩, hextra, h⟩ := h
  cases failed1 with
  | true =>
    cases h
    refine ⟨⟨rfl, rfl, rfl⟩, ?_, .inl rfl⟩
    nofun
  | false =>
    simp only [Bool.false_eq_true, if_false, bind_eq_ok, pure_eq_ok, Except.ok.injEq] at h
    obtain ⟨p2, hbasic, h⟩ := h
    obtain ⟨hlist, hheld⟩ := putBasicInfo_spec hbasic
    obtain ⟨hsame, hob20, hsent⟩ := sendFrame_spec h
    refine ⟨⟨hsame.1, hsame.2, hsame.3⟩, ?_, .inr ⟨size, _, hsize, hsent, length_loadAt _ _ _, ?_⟩⟩
    · intro _ size' hsize' hlt
      obtain rfl : size = size' := Except.ok.inj (hsize.symm.trans hsize')
      rw [extraLen, hob20]
      rw [hlist, putExtraInfo_list hextra]
      by_cases hzero : size % 2 ^ 32 ≠ 0
      · rw [if_pos hzero]
        rfl
      rw [if_neg hzero]
      rw [not_not, Nat.mod_eq_of_lt hlt] at hzero
      rw [← hzero]
      exact hsize
    · rw [take_loadAt _ _ (Nat.le_add_left_of_le (by decide))]
      exact load_of_holds hheld (by rw [length_leBytes])

/-- A frame that leaves room for the pending extra info is well formed. -/
theorem frameOk_of_fits {f : List UInt8} {size len : Nat}
    (hlen : f.length = ob20PacketLen len (size % 2 ^ 32) + outerHeaderSize)
    (htake : f.take 3 = leBytes 3 (ob20PacketLen len (size % 2 ^ 32)))
    (hfits : size = 0 ∧ len ≤ maxPacketLengthWithOb20 ∨ size + len ≤ maxPacketLengthWithOb20) :
    FrameOk f := by
  have hmax : maxPacketLengthWithOb20 = 16777183 := rfl
  have hsmall : ob20PacketLen len (size % 2 ^ 32) ≤ maxPacketLength := by
    unfold ob20PacketLen ob20HeaderSize ob20TailerSize ob20ExtrainfoLengthSize maxPacketLength
    split <;> omega
  have hbody : (f.drop outerHeaderSize).length = ob20PacketLen len (size % 2 ^ 32) := by
    rw [length_drop, hlen, Nat.add_sub_cancel]
  refine ⟨hbody.trans_le hsmall, ?_⟩
  rw [htake, hbody]
  apply leNat_leBytes_of_lt
  unfold maxPacketLength at hsmall
  omega

/-- **A real write keeps the frames well formed** when its packet fits with the extra info. -/
theorem maNetRealWrite_wellFormed
    (h : maNetRealWrite obCrc32 pvioWrite net packet = .ok (failed, net')) (hok : WellFormed net)
    (hfits : ∀ size, extraLen net = .ok size → size = 0 ∧ packet.length ≤ maxPacketLengthWithOb20 ∨
        size + packet.length ≤ maxPacketLengthWithOb20) : WellFormed net' := by
  obtain ⟨-, -, hsent | ⟨size, f, hsize, hsent, hlen, htake⟩⟩ := maNetRealWrite_spec h
  · exact hok.of_sent hsent
  intro g hg
  rw [hsent, mem_append, mem_singleton] at hg
  rcases hg with hg | rfl
  · exact hok g hg
  · exact frameOk_of_fits hlen htake (hfits size hsize)

/-! ## What collects in the packet buffer -/

/-- The buffer holds no more than it can, and no more than goes into a frame. -/
structure Writable (net : NET) : Prop where
  buffered : net.writePos ≤ maxPacketLengthWithOb20
  inside : net.writePos ≤ net.maxPacket
  bound : net.maxPacket < 2 ^ 64

theorem Writable.of_same (h : Writable net) (hsame : SameBuffer net net') : Writable net' := by
  obtain ⟨hpos, hmax, -⟩ := hsame
  refine ⟨?_, ?_, ?_⟩
  · rw [hpos]
    exact h.buffered
  · rw [hpos, hmax]
    exact h.inside
  · rw [hmax]
    exact h.bound

theorem leftLength_eq (h : Writable net) :
    leftLength net = min net.maxPacket maxPacketLengthWithOb20 - net.writePos := by
  have hbuffered := h.buffered
  have hmax : maxPacketLengthWithOb20 < 2 ^ 64 := by decide
  unfold leftLength
  split
  · rename_i hlarge
    rw [usub_eq hbuffered hmax, min_eq_right hlarge.le]
  rename_i hsmall
  rw [usub_eq h.inside h.bound, min_eq_left (not_lt.1 hsmall)]

/-- **The buffer takes a packet just when both fit a frame.** -/
theorem growBuff_spec {len : Nat} (hw : Writable net) (h : growBuff net len = some net') :
    Writable net' ∧ net'.writePos = net.writePos ∧ net'.multiStatus = net.multiStatus ∧
      net'.ob20 = net.ob20 ∧ net'.sent = net.sent ∧
      (leftLength net' < len → maxPacketLengthWithOb20 < net'.maxPacket) ∧
      (leftLength net' < len ↔ maxPacketLengthWithOb20 < net.writePos + len) := by
  have hbuffered := hw.buffered
  have hinside := hw.inside
  have hcap : maxPacketLengthWithOb20 = 16777183 := rfl
  have hleft : usub net.maxPacket net.writePos = net.maxPacket - net.writePos :=
    usub_eq hinside hw.bound
  by_cases hgrow : net.maxPacket - net.writePos < len ∧ net.maxPacket ≤ maxPacketLengthWithOb20
  · -- the buffer grows to what is needed, rounded up
    rw [growBuff, hleft, if_pos hgrow, netRealloc] at h
    split at h
    · cases h
    have hnet := Option.some.inj h
    have hpos : net'.writePos = net.writePos := by
      rw [← hnet]
      exact zero_add _
    have hmax : net'.maxPacket =
        (min (len + net.writePos) maxPacketLengthWithOb20 + ioSize - 1) / ioSize * ioSize := by
      rw [← hnet]
    unfold ioSize at hmax
    have hw' : Writable net' := ⟨by omega, by omega, by omega⟩
    have hlength := leftLength_eq hw'
    refine ⟨hw', hpos, ?_, ?_, ?_, ?_, ?_⟩
    · rw [← hnet]
    · rw [← hnet]
    · rw [← hnet]
    · omega
    · omega
  · rw [growBuff, hleft, if_neg hgrow] at h
    obtain rfl := Option.some.inj h
    have hlength := leftLength_eq hw
    refine ⟨hw, rfl, rfl, rfl, rfl, ?_, ?_⟩ <;> omega

/-- What every function of the send path keeps. -/
structure Kept (net net' : NET) : Prop where
  wellFormed : WellFormed net'
  writable : Writable net'
  multiStatus : net'.multiStatus = net.multiStatus

theorem Kept.trans {net'' : NET} (h : Kept net net') (h' : Kept net' net'') : Kept net net'' :=
  ⟨h'.wellFormed, h'.writable, h'.multiStatus.trans h.multiStatus⟩

section

variable (hw : Writable net) (hok : WellFormed net)
include hw hok

section

variable (hextra : extraLen net = .ok 0)
include hextra

/-- No extra info pending: a real write of what goes into a frame. -/
theorem maNetRealWrite_plain (hlen : packet.length ≤ maxPacketLengthWithOb20)
    (h : maNetRealWrite obCrc32 pvioWrite net packet = .ok (failed, net')) :
    Kept net net' ∧ SameBuffer net net' ∧ (failed = false → extraLen net' = .ok 0) := by
  obtain ⟨hsame, hzero, -⟩ := maNetRealWrite_spec h
  refine ⟨⟨?_, hw.of_same hsame, hsame.multiStatus⟩, hsame, ?_⟩
  · apply maNetRealWrite_wellFormed h hok
    intro size hsize
    rw [hextra] at hsize
    cases hsize
    exact .inl ⟨rfl, hlen⟩
  · intro hsuccess
    exact hzero hsuccess 0 hextra (by decide)

/-- The loop over full frames: one round, and by induction on the packet all of them. -/
theorem writeChunks_spec {rest : List UInt8}
    (h : writeChunks obCrc32 pvioWrite net packet = .ok (failed, net', rest)) :
    Kept net net' ∧ SameBuffer net net' ∧
      (failed = false → extraLen net' = .ok 0 ∧ rest.length ≤ maxPacketLengthWithOb20) := by
  induction hk : packet.length using Nat.strong_induction_on generalizing net packet with
  | h k ih =>
    rw [writeChunks] at h
    split at h
    · simp only [bind_eq_ok] at h
      obtain ⟨⟨failed1, net1⟩, hwrite, h⟩ := h
      have htake : (packet.take maxPacketLengthWithOb20).length ≤ maxPacketLengthWithOb20 :=
        length_take_le _ _
      obtain ⟨hkept, hsame, hzero⟩ := maNetRealWrite_plain hw hok hextra htake hwrite
      cases failed1 with
      | true =>
        cases h
        refine ⟨hkept, hsame, ?_⟩
        nofun
      | false =>
        have hless : (packet.drop maxPacketLengthWithOb20).length < k := by
          rw [length_drop, ← hk]
          exact Nat.sub_lt (by omega) (by decide)
        obtain ⟨hkept', hsame', hzero'⟩ :=
          ih _ hless hkept.writable hkept.wellFormed (hzero rfl) h rfl
        refine ⟨hkept.trans hkept', ⟨?_, ?_, ?_⟩, hzero'⟩
        · exact hsame'.writePos.trans hsame.writePos
        · exact hsame'.maxPacket.trans hsame.maxPacket
        · exact hsame'.multiStatus.trans hsame.multiStatus
    · rename_i hshort
      cases h
      exact ⟨⟨hok, hw, rfl⟩, ⟨rfl, rfl, rfl⟩, fun _ => ⟨hextra, not_lt.1 hshort⟩⟩

/-- Filling up the buffer and sending it. -/
theorem topUp_spec {rest : List UInt8} (hlarge : maxPacketLengthWithOb20 < net.maxPacket)
    (h : topUp obCrc32 pvioWrite net packet = .ok (failed, net', rest)) :
    Kept net net' ∧ net'.maxPacket = net.maxPacket ∧
      (failed = false → extraLen net' = .ok 0 ∧ net'.writePos = 0) := by
  by_cases hpos : net.writePos ≠ 0
  · rw [topUp, if_pos hpos] at h
    simp only [bind_eq_ok] at h
    obtain ⟨⟨failed1, net1⟩, hwrite, h⟩ := h
    have hlen : (loadAt (storeAt net.buff net.writePos (packet.take (leftLength net))) 0
        (net.writePos + leftLength net)).length ≤ maxPacketLengthWithOb20 := by
      have hbuffered := hw.buffered
      rw [length_loadAt, leftLength_eq hw]
      omega
    have hw1 : Writable
        { net with buff := storeAt net.buff net.writePos (packet.take (leftLength net)) } :=
      ⟨hw.buffered, hw.inside, hw.bound⟩
    obtain ⟨hkept, hsame, hzero⟩ := maNetRealWrite_plain hw1 (hok.of_sent rfl)
      ((extraLen_of_ob20 rfl).trans hextra) hlen hwrite
    cases failed1 with
    | true =>
      cases h
      refine ⟨⟨hkept.wellFormed, hkept.writable, hkept.multiStatus⟩, hsame.maxPacket, ?_⟩
      nofun
    | false =>
      cases h
      refine ⟨⟨hkept.wellFormed.of_sent rfl, ⟨Nat.zero_le _, Nat.zero_le _, ?_⟩, hkept.multiStatus⟩,
        hsame.maxPacket, fun _ => ⟨(extraLen_of_ob20 rfl).trans (hzero rfl), rfl⟩⟩
      exact hkept.writable.bound
  · rw [topUp, if_neg hpos] at h
    cases h
    exact ⟨⟨hok, hw, rfl⟩, rfl, fun _ => ⟨hextra, not_not.1 hpos⟩⟩

/-- A packet that does not fit goes out in full frames; the rest of it is buffered. -/
theorem writeLarge_spec (hlarge : maxPacketLengthWithOb20 < net.maxPacket)
    (h : writeLarge obCrc32 pvioWrite net packet = .ok (failed, net')) :
    Kept net net' ∧ (failed = false → extraLen net' = .ok 0) := by
  simp only [writeLarge, bind_eq_ok] at h
  obtain ⟨⟨failed1, net1, packet1⟩, htop, h⟩ := h
  obtain ⟨hkept1, hmax1, hzero1⟩ := topUp_spec hw hok hextra hlarge htop
  cases failed1 with
  | true =>
    cases h
    exact ⟨hkept1, nofun⟩
  | false =>
    obtain ⟨hextra1, hpos1⟩ := hzero1 rfl
    simp only [Bool.false_eq_true, if_false, bind_eq_ok] at h
    obtain ⟨⟨failed2, net2, packet2⟩, hchunks, h⟩ := h
    obtain ⟨hkept2, hsame2, hzero2⟩ :=
      writeChunks_spec hkept1.writable hkept1.wellFormed hextra1 hchunks
    cases failed2 with
    | true =>
      cases h
      exact ⟨hkept1.trans hkept2, nofun⟩
    | false =>
      obtain ⟨hextra2, hshort⟩ := hzero2 rfl
      have hmax2 : maxPacketLengthWithOb20 < net2.maxPacket := by
        rw [hsame2.maxPacket, hmax1]
        exact hlarge
      have hpos2 : net2.writePos = 0 := hsame2.writePos.trans hpos1
      simp only [Bool.false_eq_true, if_false] at h
      rw [if_neg (by omega)] at h
      cases h
      refine ⟨⟨hkept2.wellFormed.of_sent rfl, ⟨?_, ?_, hkept2.writable.bound⟩,
        hkept2.multiStatus.trans hkept1.multiStatus⟩, fun _ => (extraLen_of_ob20 rfl).trans hextra2⟩
      · show net2.writePos + packet2.length ≤ maxPacketLengthWithOb20
        omega
      · show net2.writePos + packet2.length ≤ net2.maxPacket
        omega

end

/-- A packet that is buffered, or sent when no extra info is pending. -/
theorem placePacket_spec (hroom : extraLen net = .ok 0 ∨ net.writePos + packet.length ≤ maxPacketLengthWithOb20)
    (h : placePacket obCrc32 pvioWrite net packet (growBuff net packet.length) = .ok (failed, net')) :
    Kept net net' ∧ (failed = false → extraLen net' = .ok 0 ∨
      (extraLen net' = extraLen net ∧ net'.writePos = net.writePos + packet.length)) := by
  rcases Option.eq_none_or_eq_some (growBuff net packet.length) with hnone | ⟨net1, hgrow⟩
  · rw [hnone] at h
    obtain ⟨rfl, rfl⟩ := Prod.mk.inj (Except.ok.inj h)
    refine ⟨⟨hok.of_sent rfl, ⟨hw.buffered, hw.inside, hw.bound⟩, rfl⟩, ?_⟩
    nofun
  rw [hgrow, placePacket] at h
  obtain ⟨hw1, hpos1, hmulti1, hob1, hsent1, hlarge1, hleft1⟩ := growBuff_spec hw hgrow
  have hok1 : WellFormed net1 := hok.of_sent hsent1
  have hextra1 : extraLen net1 = extraLen net := extraLen_of_ob20 hob1
  by_cases hlarge : leftLength net1 < packet.length
  · rw [if_pos hlarge] at h
    rcases hroom with hzero | hfits
    · obtain ⟨hkept, hzero'⟩ :=
        writeLarge_spec hw1 hok1 (hextra1.trans hzero) (hlarge1 hlarge) h
      exact ⟨⟨hkept.wellFormed, hkept.writable, hkept.multiStatus.trans hmulti1⟩,
        fun hsuccess => .inl (hzero' hsuccess)⟩
    · exact absurd (hleft1.1 hlarge) (not_lt.2 hfits)
  rw [if_neg hlarge] at h
  have hlength := leftLength_eq hw1
  have hinside := hw1.inside
  cases h
  refine ⟨⟨hok1.of_sent rfl, ⟨?_, ?_, hw1.bound⟩, hmulti1⟩,
    fun _ => .inr ⟨(extraLen_of_ob20 rfl).trans hextra1, ?_⟩⟩
  · show net1.writePos + packet.length ≤ maxPacketLengthWithOb20
    omega
  · show net1.writePos + packet.length ≤ net1.maxPacket
    omega
  · show net1.writePos + packet.length = _
    rw [hpos1]

/-- Extra info that goes out alone has the whole frame for itself. -/
theorem sendExtraInfoAlone_spec {size : Nat} (hsize : extraLen net = .ok size)
    (hadmitted : size ≤ maxPacketLengthWithOb20)
    (h : sendExtraInfoAlone obCrc32 pvioWrite net size = .ok (failed, net')) :
    Kept net net' ∧ (failed = false → extraLen net' = .ok 0 ∨
      (size + net.writePos ≤ maxPacketLengthWithOb20 ∧ net' = net)) := by
  unfold sendExtraInfoAlone at h
  split at h
  · obtain ⟨hsame, hzero, -⟩ := maNetRealWrite_spec h
    refine ⟨⟨?_, hw.of_same hsame, hsame.multiStatus⟩, ?_⟩
    · apply maNetRealWrite_wellFormed h hok
      intro size' hsize'
      obtain rfl : size = size' := Except.ok.inj (hsize.symm.trans hsize')
      exact .inr hadmitted
    · intro hsuccess
      have hlt : size < 2 ^ 32 := hadmitted.trans_lt (by decide)
      exact .inl (hzero hsuccess size hsize hlt)
  · rename_i hfits
    cases h
    exact ⟨⟨hok, hw, rfl⟩, fun _ => .inr ⟨not_lt.1 hfits, rfl⟩⟩

/-- **`ma_net_write_buff`**: the frames stay well formed when no extra info is pending, when the
pending one no longer fits behind what is buffered, or when nothing has to be sent. Afterwards the
extra info has been sent, or the packet is buffered behind the rest. -/
theorem maNetWriteBuff_spec
    (hadmits : ∀ size, extraLen net = .ok size → size = 0 ∨ maxPacketLengthWithOb20 < size + net.writePos ∨ net.writePos + packet.length ≤ maxPacketLengthWithOb20)
    (h : maNetWriteBuff obCrc32 pvioWrite net packet = .ok (failed, net')) :
    Kept net net' ∧ (failed = false → extraLen net' = .ok 0 ∨
      (extraLen net' = extraLen net ∧ net'.writePos = net.writePos + packet.length ∧
        ∀ size, extraLen net = .ok size → packet.length = 0 ∨ size + net.writePos ≤ maxPacketLengthWithOb20)) := by
  by_cases hempty : packet.length = 0
  · rw [maNetWriteBuff, if_pos hempty] at h
    cases h
    refine ⟨⟨hok, hw, rfl⟩, fun _ => .inr ⟨rfl, ?_, fun _ _ => .inl hempty⟩⟩
    rw [hempty, add_zero]
  rw [maNetWriteBuff, if_neg hempty] at h
  simp only [bind_eq_ok] at h
  obtain ⟨size, hsize, h⟩ := h
  by_cases hadmitted : maxPacketLengthWithOb20 < size
  · rw [if_pos hadmitted] at h
    cases h
    exact ⟨⟨hok, hw, rfl⟩, nofun⟩
  rw [if_neg hadmitted] at h
  simp only [bind_eq_ok] at h
  obtain ⟨⟨failed1, net1⟩, halone, h⟩ := h
  obtain ⟨hkept1, hextra1⟩ :=
    sendExtraInfoAlone_spec hw hok hsize (not_lt.1 hadmitted) halone
  cases failed1 with
  | true =>
    cases h
    exact ⟨hkept1, nofun⟩
  | false =>
    simp only [Bool.false_eq_true, if_false] at h
    rcases hextra1 rfl with hzero | ⟨hfits, rfl⟩
    · obtain ⟨hkept, hafter⟩ :=
        placePacket_spec hkept1.writable hkept1.wellFormed (.inl hzero) h
      refine ⟨hkept1.trans hkept, fun hsuccess => .inl ?_⟩
      rcases hafter hsuccess with hzero' | ⟨hsame, -⟩
      · exact hzero'
      · exact hsame.trans hzero
    obtain ⟨hkept, hafter⟩ := placePacket_spec hw hok (by
      rcases hadmits size hsize with rfl | hmany | hroom
      · exact .inl hsize
      · exact absurd hmany (not_lt.2 hfits)
      · exact .inr hroom) h
    refine ⟨hkept, fun hsuccess => ?_⟩
    rcases hafter hsuccess with hzero | ⟨hsame, hpos⟩
    · exact .inl hzero
    refine .inr ⟨hsame, hpos, fun size' hsize' => .inr ?_⟩
    obtain rfl : size = size' := Except.ok.inj (hsize.symm.trans hsize')
    exact hfits

end

/-! ## Payloads -/

/-- There is no extra info pending, or it goes out alone before more than `head` bytes are buffered,
or `head` and `len` more bytes can be buffered without anything being sent. -/
def Admits (net : NET) (head len : Nat) : Prop :=
  ∀ size, extraLen net = .ok size → size = 0 ∨
    maxPacketLengthWithOb20 < size + net.writePos + head ∨
    net.writePos + head + len ≤ maxPacketLengthWithOb20

theorem admits_zero (h : extraLen net = .ok 0) (head len : Nat) : Admits net head len := by
  intro size hsize
  left
  exact Except.ok.inj (hsize.symm.trans h)

/-- After a header of `head` bytes and `len` more: both are buffered, and the extra info was never in
the way. -/
structure StillPending (net net' : NET) (head len : Nat) : Prop where
  extra : extraLen net' = extraLen net
  writePos : net'.writePos = net.writePos + head + len
  room : ∀ size, extraLen net = .ok size → size + net.writePos ≤ maxPacketLengthWithOb20 ∧
    (len = 0 ∨ size + net.writePos + head ≤ maxPacketLengthWithOb20)

/-- One packet: a header of at most five bytes, which extra info of at least six leaves room for. -/
theorem writePacket_spec {lead : List UInt8} (hw : Writable net) (hok : WellFormed net)
    (hlead : lead.length ≤ 1) (hadmits : Admits net (4 + lead.length) packet.length)
    (h : writePacket obCrc32 pvioWrite net lead packet = .ok (failed, net')) :
    Kept net net' ∧ (failed = false → extraLen net' = .ok 0 ∨
      StillPending net net' (4 + lead.length) packet.length) := by
  simp only [writePacket, bind_eq_ok] at h
  obtain ⟨⟨failed1, net1⟩, hheader, h⟩ := h
  have hlen : (leBytes 3 (lead.length + packet.length) ++ UInt8.ofNat net.pktNr :: lead).length =
      4 + lead.length := by
    rw [length_append, length_leBytes, length_cons]
    omega
  have hw0 : Writable { net with pktNr := net.pktNr + 1 } := ⟨hw.buffered, hw.inside, hw.bound⟩
  obtain ⟨hkept1, hafter1⟩ := maNetWriteBuff_spec hw0 (hok.of_sent rfl) (by
    intro size hsize
    rw [hlen]
    rcases hadmits size hsize with hzero | hmany | hroom
    · exact .inl hzero
    · rcases extraLen_cases hsize with hzero | hsix
      · exact .inl hzero
      right
      omega
    right
    right
    exact (Nat.le_add_right _ _).trans hroom) hheader
  have hkept1' : Kept net net1 := ⟨hkept1.wellFormed, hkept1.writable, hkept1.multiStatus⟩
  cases failed1 with
  | true =>
    cases h
    exact ⟨hkept1', nofun⟩
  | false =>
    rcases hafter1 rfl with hzero | ⟨hsame, hpos, hbefore⟩
    · obtain ⟨hkept2, hafter2⟩ := maNetWriteBuff_spec hkept1.writable hkept1.wellFormed
        (fun size hsize => .inl (Except.ok.inj (hsize.symm.trans hzero))) h
      refine ⟨hkept1'.trans hkept2, fun hsuccess => .inl ?_⟩
      rcases hafter2 hsuccess with hzero' | ⟨hsame', -, -⟩
      · exact hzero'
      · exact hsame'.trans hzero
    have hextra1 : extraLen net1 = extraLen net := hsame.trans (extraLen_of_ob20 rfl)
    have hpos1 : net1.writePos = net.writePos + (4 + lead.length) := by
      rw [hpos, hlen]
    obtain ⟨hkept2, hafter2⟩ := maNetWriteBuff_spec hkept1.writable hkept1.wellFormed (by
      intro size hsize
      rw [hextra1] at hsize
      rw [hpos1, ← Nat.add_assoc]
      exact hadmits size hsize) h
    refine ⟨hkept1'.trans hkept2, fun hsuccess => ?_⟩
    rcases hafter2 hsuccess with hzero | ⟨hsame', hpos', hbehind⟩
    · exact .inl hzero
    refine .inr ⟨hsame'.trans hextra1, by rw [hpos', hpos1], fun size hsize => ⟨?_, ?_⟩⟩
    · rcases hbefore size hsize with hnil | hroom
      · omega
      · exact hroom
    · rw [Nat.add_assoc, ← hpos1]
      exact hbehind size (hextra1.trans hsize)

/-- A payload. One that needs several packets cannot be buffered, so its extra info goes out alone
or there is none. -/
theorem writePackets_spec {lead : List UInt8} (hw : Writable net) (hok : WellFormed net)
    (hlead : lead.length ≤ 1) (hadmits : Admits net (4 + lead.length) packet.length)
    (h : writePackets obCrc32 pvioWrite net lead packet = .ok (failed, net')) :
    Kept net net' ∧ (failed = false → extraLen net' = .ok 0 ∨
      StillPending net net' (4 + lead.length) packet.length) := by
  have hcap : maxPacketLengthWithOb20 = 16777183 := rfl
  have hmax : maxPacketLength = 16777215 := rfl
  induction hk : packet.length using Nat.strong_induction_on generalizing net lead packet with
  | h k ih =>
    rw [writePackets] at h
    split at h
    · simp only [bind_eq_ok] at h
      obtain ⟨⟨failed1, net1⟩, hfirst, h⟩ := h
      have htake : (packet.take (maxPacketLength - lead.length)).length =
          maxPacketLength - lead.length := by
        rw [length_take]
        omega
      obtain ⟨hkept1, hafter1⟩ := writePacket_spec hw hok hlead (by
        intro size hsize
        rcases hadmits size hsize with hzero | hmany | hroom
        · exact .inl hzero
        · exact .inr (.inl hmany)
        · omega) hfirst
      cases failed1 with
      | true =>
        cases h
        exact ⟨hkept1, nofun⟩
      | false =>
        have hzero1 : extraLen net1 = .ok 0 := by
          rcases hafter1 rfl with hzero | ⟨-, hpos, -⟩
          · exact hzero
          -- the packet is too long to be in the buffer
          have hbuffered := hkept1.writable.buffered
          omega
        have hless : (packet.drop (maxPacketLength - lead.length)).length < k := by
          rw [length_drop]
          omega
        obtain ⟨hkept2, hafter2⟩ := ih _ hless hkept1.writable hkept1.wellFormed
          (show [].length ≤ 1 from Nat.zero_le 1) (admits_zero hzero1 _ _) h rfl
        refine ⟨hkept1.trans hkept2, fun hsuccess => .inl ?_⟩
        rcases hafter2 hsuccess with hzero | hpending
        · exact hzero
        · exact hpending.extra.trans hzero1
    · rw [← hk]
      exact writePacket_spec hw hok hlead hadmits h

/-- What is flushed fits a frame together with the extra info. -/
def FlushFits (net : NET) : Prop :=
  0 < net.multiStatus ∨ net.writePos = 0 ∨
    ∀ size, extraLen net = .ok size → size = 0 ∨ size + net.writePos ≤ maxPacketLengthWithOb20

theorem maNetFlush_spec (hw : Writable net) (hok : WellFormed net) (hfits : FlushFits net)
    (h : maNetFlush obCrc32 pvioWrite net = .ok (failed, net')) : Kept net net' := by
  by_cases hmulti : 0 < net.multiStatus
  · rw [maNetFlush, if_pos hmulti] at h
    cases h
    exact ⟨hok, hw, rfl⟩
  rw [maNetFlush, if_neg hmulti] at h
  by_cases hpos : net.writePos ≠ 0
  · simp only [if_pos hpos, bind_eq_ok] at h
    obtain ⟨⟨failed1, net1⟩, ⟨⟨failed2, net2⟩, hwrite, hpair⟩, -, rfl⟩ := h
    obtain ⟨-, rfl⟩ := hpair
    obtain ⟨hsame, -, -⟩ := maNetRealWrite_spec hwrite
    have hok2 : WellFormed net2 := by
      apply maNetRealWrite_wellFormed hwrite hok
      intro size hsize
      rw [length_loadAt]
      rcases hfits with hon | hnone | hroom
      · exact absurd hon hmulti
      · exact absurd hnone hpos
      rcases hroom size hsize with hzero | hroom
      · exact .inl ⟨hzero, hw.buffered⟩
      · exact .inr hroom
    exact ⟨hok2.of_sent rfl, ⟨Nat.zero_le _, Nat.zero_le _, (hw.of_same hsame).bound⟩, hsame.multiStatus⟩
  · simp only [if_neg hpos] at h
    obtain ⟨-, rfl⟩ := h
    exact ⟨hok.of_sent rfl, ⟨hw.buffered, hw.inside, hw.bound⟩, rfl⟩

/-! ## Calls -/

/-- What a call needs of the state before it. With extra info pending, nothing that has to be sent
may be larger than what leaves room for it. -/
def RoomyCall (net : NET) : NetCall → Prop
  | .write packet => Admits net 4 packet.length
  | .writeCommand _ packet disableFlush => Admits net 5 packet.length ∧
    (disableFlush = true ∨ 0 < net.multiStatus ∨ ∀ size, extraLen net = .ok size → size = 0 ∨
      maxPacketLengthWithOb20 < size + net.writePos ∨
      (packet.length ≠ 0 ∧ maxPacketLengthWithOb20 < size + net.writePos + 5) ∨
      size + (net.writePos + 5 + packet.length) ≤ maxPacketLengthWithOb20)
  | .flush => FlushFits net
  | .setExtraInfo _ _ => True

/-- Every call of the run finds what it needs. -/
def Roomy (obCrc32 : List UInt8 → UInt32) (pvioWrite : List (List UInt8) → List UInt8 → Bool) :
    NET → List NetCall → Prop
  | _, [] => True
  | net, c :: cs => RoomyCall net c ∧
    ∀ failed net', c.run obCrc32 pvioWrite net = .ok (failed, net') → Roomy obCrc32 pvioWrite net' cs

/-- Every frame of a run that comes to an end is well formed. -/
def SendsWellFormed (obCrc32 : List UInt8 → UInt32)
    (pvioWrite : List (List UInt8) → List UInt8 → Bool) (net : NET) (calls : List NetCall) : Prop :=
  ∀ net', runCalls obCrc32 pvioWrite net calls = .ok net' → WellFormed net'

theorem updateRequestId_kept (hw : Writable net) (hok : WellFormed net) :
    Kept net (updateRequestId net) ∧ extraLen (updateRequestId net) = extraLen net ∧
      (updateRequestId net).writePos = net.writePos :=
  ⟨⟨hok.of_sent rfl, ⟨hw.buffered, hw.inside, hw.bound⟩, rfl⟩, rfl, rfl⟩

/-- The request id has no part in what is admitted. -/
theorem admits_of_eq {head len : Nat} (h : Admits net head len) (hextra : extraLen net' = extraLen net)
    (hpos : net'.writePos = net.writePos) : Admits net' head len := by
  intro size hsize
  rw [hextra] at hsize
  rw [hpos]
  exact h size hsize

/-- **One call keeps the frames well formed.** -/
theorem run_kept {c : NetCall} (hw : Writable net) (hok : WellFormed net) (hroomy : RoomyCall net c)
    (h : c.run obCrc32 pvioWrite net = .ok (failed, net')) : Kept net net' := by
  obtain ⟨hkept0, hextra0, hpos0⟩ := updateRequestId_kept hw hok
  cases c with
  | write packet =>
    simp only [NetCall.run, maNetWrite] at h
    split at h
    · have hspec := writePackets_spec hkept0.writable hkept0.wellFormed
        (show [].length ≤ 1 from Nat.zero_le 1) (admits_of_eq hroomy hextra0 hpos0) h
      exact hkept0.trans hspec.1
    · exact (writePackets_spec hw hok (show [].length ≤ 1 from Nat.zero_le 1) hroomy h).1
  | writeCommand command packet disableFlush =>
    obtain ⟨hadmits, hflush⟩ := hroomy
    simp only [NetCall.run, maNetWriteCommand, bind_eq_ok] at h
    obtain ⟨⟨failed1, net1⟩, hpackets, h⟩ := h
    obtain ⟨hkept1, hafter1⟩ := writePackets_spec hkept0.writable hkept0.wellFormed
      le_rfl (admits_of_eq hadmits hextra0 hpos0) hpackets
    by_cases hstop : failed1 = true ∨ disableFlush = true
    · rw [if_pos hstop] at h
      cases h
      exact hkept0.trans hkept1
    rw [if_neg hstop] at h
    rw [not_or, Bool.not_eq_true] at hstop
    have hmulti1 : net1.multiStatus = net.multiStatus := (hkept0.trans hkept1).multiStatus
    refine (hkept0.trans hkept1).trans (maNetFlush_spec hkept1.writable hkept1.wellFormed ?_ h)
    rcases hflush with hdisable | hon | hfits
    · exact absurd hdisable hstop.2
    · exact .inl (hmulti1 ▸ hon)
    right
    right
    intro size hsize
    rcases hafter1 hstop.1 with hzero | ⟨hsame, hpos, hroom⟩
    · exact .inl (Except.ok.inj (hsize.symm.trans hzero))
    -- the command is buffered behind the rest, and the extra info is still pending
    rw [hsame] at hsize
    obtain ⟨hbefore, hbehind⟩ := hroom size hsize
    rw [hextra0] at hsize
    rw [hpos0] at hpos
    rcases hfits size hsize with hzero | hmany | ⟨hne, hmany⟩ | hfits
    · exact .inl hzero
    · exact absurd hmany (not_lt.2 hbefore)
    · rcases hbehind with hnil | hbehind
      · exact absurd hnil hne
      · exact absurd hmany (not_lt.2 hbehind)
    · right
      rw [hpos]
      exact hfits
  | flush => exact maNetFlush_spec hw hok hroomy h
  | setExtraInfo key value =>
    cases h
    exact ⟨hok.of_sent rfl, ⟨hw.buffered, hw.inside, hw.bound⟩, rfl⟩

/-- A run keeps the frames well formed when each of its calls finds what it needs. -/
theorem runCalls_wellFormed {calls : List NetCall} (hw : Writable net) (hok : WellFormed net)
    (hroomy : Roomy obCrc32 pvioWrite net calls) : SendsWellFormed obCrc32 pvioWrite net calls := by
  induction calls generalizing net with
  | nil =>
    intro net' h
    cases h
    exact hok
  | cons c cs ih =>
    intro net' h
    simp only [runCalls, bind_eq_ok] at h
    obtain ⟨⟨failed, net1⟩, hcall, h⟩ := h
    have hkept := run_kept hw hok hroomy.1 hcall
    exact ih hkept.writable hkept.wellFormed (hroomy.2 failed net1 hcall) net' h

/-- **Every frame that is sent is well formed**, whatever payloads are written and however the socket
behaves, when each call finds room for the pending extra info beside what it has to send. -/
theorem sendsWellFormed_of_roomy {calls : List NetCall} (hw : Writable net) (hsent : net.sent = [])
    (hroomy : Roomy obCrc32 pvioWrite net calls) : SendsWellFormed obCrc32 pvioWrite net calls := by
  apply runCalls_wellFormed hw _ hroomy
  intro f hf
  rw [hsent] at hf
  exact absurd hf not_mem_nil

end Frames

/-- A command with a trace of two bytes in front of it. -/
def tracedCommand : List NetCall :=
  [.setExtraInfo fullTrc [1, 2], .writeCommand 3 [83, 69, 76] false]

theorem tracedCommand_wellFormed : SendsWellFormed (fun _ => 0) (fun _ _ => true) (freshNet []) tracedCommand := by
  apply sendsWellFormed_of_roomy
  · exact ⟨Nat.zero_le _, Nat.zero_le _, by decide⟩
  · rfl
  · refine ⟨trivial, fun failed net' hset => ⟨⟨?_, .inr (.inr ?_)⟩, fun _ _ _ => trivial⟩⟩
    · cases hset
      intro size hsize
      right
      right
      decide
    · cases hset
      intro size hsize
      obtain rfl : 8 = size := Except.ok.inj hsize
      decide

/-! ## A trace behind a full buffer -/

variable {net : NET} {v : List UInt8}

variable {packet : List UInt8}

/-- With a single trace pending, a block is sent. -/
theorem maNetRealWrite_sends (obCrc32 : List UInt8 → UInt32) (pvioWrite : List (List UInt8) → List UInt8 → Bool)
    (herror : net.error ≠ 2) (hlist : net.ob20.extraInfoList = [⟨fullTrc, v⟩]) (hv : v.length < 2 ^ 31)
    (hlen : packet.length < 2 ^ 24) :
    ∃ failed net', maNetRealWrite obCrc32 pvioWrite net packet = .ok (failed, net') ∧ net'.sent ≠ net.sent := by
  obtain ⟨p, frame, hrun, -⟩ :=
    Stream.realWrite_frame obCrc32 pvioWrite herror (.inr ⟨v, hlist, hv⟩) hlen
  refine ⟨_, _, hrun, ?_⟩
  rw [(sendFrame_spec rfl).2.2]
  simp

/-- Nothing is sent yet, `pos` bytes are buffered, and a trace is pending. -/
structure TracePending (net : NET) (v : List UInt8) (pos : Nat) : Prop where
  writable : Writable net
  noError : net.error ≠ 2
  multiStatus : net.multiStatus = 0
  pending : net.ob20.extraInfoList = [⟨fullTrc, v⟩]
  buffered : net.writePos = pos
  unsent : net.sent = []
  limit : 2 ^ 24 ≤ net.maxPacketSize

variable {pos : Nat}

section

variable (h : TracePending net v pos)
include h

theorem TracePending.extraLen_eq : extraLen net = .ok (6 + v.length) := by
  rw [extraLen, h.pending]
  simp [getProtocol20ExtraInfoLength, extraSerializeFuncs_fullTrc, extrainfoGetSerializeSizeFlt]

/-- The buffer can always grow to what a frame takes. -/
theorem TracePending.growBuff_some (len : Nat) :
    ∃ net', growBuff net len = some net' ∧ TracePending net' v pos := by
  have hlimit := h.limit
  have hcap : maxPacketLengthWithOb20 = 16777183 := rfl
  by_cases hgrow : usub net.maxPacket net.writePos < len ∧ net.maxPacket ≤ maxPacketLengthWithOb20
  · have hsize : ¬net.maxPacketSize ≤ min (len + net.writePos) maxPacketLengthWithOb20 := by omega
    have heq : growBuff net len = some { net with
        maxPacket := (min (len + net.writePos) maxPacketLengthWithOb20 + ioSize - 1) / ioSize * ioSize
        writePos := 0 + net.writePos } := by
      rw [growBuff, if_pos hgrow, netRealloc, if_neg hsize]
      rfl
    obtain ⟨hw, hpos, -⟩ := growBuff_spec h.writable heq
    exact ⟨_, heq, hw, h.noError, h.multiStatus, h.pending, hpos.trans h.buffered, h.unsent, h.limit⟩
  · exact ⟨net, if_neg hgrow, h⟩

/-- What fits the buffer is only copied there, whatever is pending. -/
theorem TracePending.maNetWriteBuff_ok (obCrc32 : List UInt8 → UInt32)
    (pvioWrite : List (List UInt8) → List UInt8 → Bool) (hne : packet.length ≠ 0)
    (hextra : 6 + v.length + pos ≤ maxPacketLengthWithOb20)
    (hroom : pos + packet.length ≤ maxPacketLengthWithOb20) :
    ∃ net', maNetWriteBuff obCrc32 pvioWrite net packet = .ok (false, net') ∧
      TracePending net' v (pos + packet.length) := by
  obtain ⟨net1, hgrow, hnet1⟩ := h.growBuff_some packet.length
  have hsize : getProtocol20ExtraInfoLength net.ob20.extraInfoList = .ok (6 + v.length) := h.extraLen_eq
  have halone : sendExtraInfoAlone obCrc32 pvioWrite net (6 + v.length) = .ok (false, net) := by
    rw [sendExtraInfoAlone, h.buffered, if_neg (by omega)]
  obtain ⟨-, hpos, -, -, -, -, hleft⟩ := growBuff_spec h.writable hgrow
  rw [h.buffered] at hpos hleft
  have hfits : ¬leftLength net1 < packet.length := by
    omega
  refine ⟨appendBuff net1 packet, ?_, ?_⟩
  · rw [maNetWriteBuff, if_neg hne, hsize, ok_bind, if_neg (by omega), halone, ok_bind]
    dsimp only
    rw [hgrow]
    exact if_neg hfits
  · have hlength := leftLength_eq hnet1.writable
    have hbuffered : (appendBuff net1 packet).writePos = pos + packet.length := by
      rw [← hpos]
      rfl
    have hmax : (appendBuff net1 packet).maxPacket = net1.maxPacket := rfl
    refine ⟨⟨?_, ?_, hnet1.writable.bound⟩, hnet1.noError, hnet1.multiStatus, hnet1.pending, hbuffered,
      hnet1.unsent, hnet1.limit⟩
    · rw [hbuffered]
      exact hroom
    · omega

/-- What is buffered goes out in one frame with the trace, although there is no room for both. -/
theorem TracePending.maNetFlush_overfull (obCrc32 : List UInt8 → UInt32)
    (pvioWrite : List (List UInt8) → List UInt8 → Bool) (hpos : pos ≠ 0) (hsmall : pos < 2 ^ 24)
    (hv : v.length < 2 ^ 31) (hover : 2 ^ 24 ≤ pos + v.length + 38) :
    ∃ failed net', maNetFlush obCrc32 pvioWrite net = .ok (failed, net') ∧ ¬WellFormed net' := by
  have hlen : (loadAt net.buff 0 net.writePos).length = pos := by rw [length_loadAt, h.buffered]
  obtain ⟨failed, net1, hwrite, hnew⟩ := maNetRealWrite_sends obCrc32 pvioWrite h.noError h.pending hv
    (by rw [hlen]; exact hsmall)
  refine ⟨failed, { net1 with writePos := 0, pktNr := net1.compressPktNr }, ?_, ?_⟩
  · rw [maNetFlush, if_neg (by rw [h.multiStatus]; exact lt_irrefl 0),
      if_pos (by rw [h.buffered]; exact hpos), hwrite]
    rfl
  · intro hok
    obtain ⟨-, -, hsame | ⟨size, f, hsize, hsent, hlength, -⟩⟩ := maNetRealWrite_spec hwrite
    · exact hnew hsame
    rw [h.extraLen_eq] at hsize
    obtain rfl := Except.ok.inj hsize
    have hmem : f ∈ net1.sent := by
      rw [hsent]
      exact mem_append_right _ mem_cons_self
    have hbody := (hok f hmem).body
    rw [length_drop, hlength, ob20PacketLen, if_pos (by omega)] at hbody
    unfold ob20HeaderSize ob20TailerSize ob20ExtrainfoLengthSize maxPacketLength at hbody
    omega

end

section

variable (h : TracePending net v 0) (obCrc32 : List UInt8 → UInt32) (pvioWrite : List (List UInt8) → List UInt8 → Bool)
include h obCrc32 pvioWrite

/-- A payload that fits the buffer is only copied there. -/
theorem TracePending.writePacket_ok (hv : 10 + v.length ≤ maxPacketLengthWithOb20) (hne : packet.length ≠ 0)
    (hpacket : 4 + packet.length ≤ maxPacketLengthWithOb20) :
    ∃ net', writePacket obCrc32 pvioWrite net [] packet = .ok (false, net') ∧
      TracePending net' v (4 + packet.length) := by
  have hheader : (leBytes 3 (([] : List UInt8).length + packet.length) ++
      UInt8.ofNat net.pktNr :: []).length = 4 := by
    rfl
  have hfirst : TracePending { net with pktNr := net.pktNr + 1 } v 0 :=
    ⟨⟨h.writable.buffered, h.writable.inside, h.writable.bound⟩, h.noError, h.multiStatus, h.pending,
      h.buffered, h.unsent, h.limit⟩
  obtain ⟨net1, hwrite1, hnet1⟩ := hfirst.maNetWriteBuff_ok obCrc32 pvioWrite
    (by rw [hheader]; decide) (by omega) (by rw [hheader]; omega)
  obtain ⟨net2, hwrite2, hnet2⟩ := hnet1.maNetWriteBuff_ok obCrc32 pvioWrite hne (by omega) hpacket
  refine ⟨net2, ?_, hnet2⟩
  rw [writePacket, hwrite1, ok_bind]
  simp only [Bool.false_eq_true, if_false, hwrite2]

/-- A payload that fills the buffer is written and flushed with a trace pending. -/
theorem TracePending.write_flush (hv : v.length = 94) (hpacket : packet.length + 4 = maxPacketLengthWithOb20) :
    ¬SendsWellFormed obCrc32 pvioWrite net [.write packet, .flush] := by
  have hcap : maxPacketLengthWithOb20 = 16777183 := rfl
  have hlimit : maxPacketLength = 2 ^ 24 - 1 := rfl
  have hid : TracePending (if net.ob20.updateRequestId then updateRequestId net else net) v 0 := by
    split
    · exact ⟨⟨h.writable.buffered, h.writable.inside, h.writable.bound⟩, h.noError, h.multiStatus,
        h.pending, h.buffered, h.unsent, h.limit⟩
    · exact h
  obtain ⟨net1, hwrite1, hnet1⟩ := hid.writePacket_ok obCrc32 pvioWrite
    (by omega) (show packet.length ≠ 0 by omega) (by omega)
  obtain ⟨failed, net2, hflush, hbad⟩ := hnet1.maNetFlush_overfull obCrc32 pvioWrite
    (by omega) (by omega) (by omega) (by omega)
  have hwrite : maNetWrite obCrc32 pvioWrite net packet = .ok (false, net1) := by
    rw [maNetWrite, writePackets, if_neg (by rw [length_nil]; omega), hwrite1]
  intro hok
  apply hbad
  apply hok
  simp only [runCalls, hwrite, ok_bind, NetCall.run, hflush]

end

theorem trace_write_flush (hpacket : packet.length + 4 = maxPacketLengthWithOb20) :
    ¬SendsWellFormed (fun _ => 0) (fun _ _ => true) (freshNet [])
      [.setExtraInfo fullTrc (List.replicate 94 0), .write packet, .flush] := by
  intro hok
  obtain ⟨net, hset, hpending⟩ : ∃ net, NetCall.run (fun _ => 0) (fun _ _ => true) (freshNet [])
      (.setExtraInfo fullTrc (List.replicate 94 0)) = .ok (false, net) ∧
      TracePending net (List.replicate 94 0) 0 :=
    ⟨_, rfl, ⟨Nat.zero_le _, Nat.zero_le _, by decide⟩, by decide, rfl, rfl, rfl, rfl, by decide⟩
  apply hpending.write_flush (fun _ => 0) (fun _ _ => true) length_replicate hpacket
  intro net' hrun
  apply hok
  rw [runCalls, hset]
  exact hrun

/-- **A frame can be too long for its length field.** A trace of 100 bytes is pending, and the
payload fills the buffer: the frame has 100 bytes more than three bytes can say. -/
theorem trace_behind_full_buffer_overflows : ¬SendsWellFormed (fun _ => 0) (fun _ _ => true) (freshNet [])
      [.setExtraInfo fullTrc (List.replicate 94 0),
        .write (List.replicate (maxPacketLengthWithOb20 - 4) 0), .flush] := by
  apply trace_write_flush
  rw [length_replicate]
  exact Nat.sub_add_cancel (show 4 ≤ 16777183 by norm_num)

end ObConnector.Net
