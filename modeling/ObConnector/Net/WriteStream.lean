/-
# ObConnector.Net.WriteStream -- the bytes that come out of the packet buffer.

Four functions choose the blocks that `ma_net_real_write` is handed, and none of them may lose a byte
or change the order. `Streams` says what every function does: what was passed on and what waits is
what waited and what came in; composed along a run it gives the whole stream (`streamKept_of_single`).
The pending extra info goes out with the first block after it was set, as long as a single `FULL_TRC`
item is pending then. A command that is refused before it is sent leaves its trace behind, and two
traces are freed twice before their frame is sent (`two_traces_freed_twice`).
-/
import ObConnector.Net.WriteFits
import ObConnector.Net.WriteModes

namespace ObConnector.Net.Stream

open Lib Protocol20 List

/-! ## What one function does to the stream -/

/-- The blocks of a log, one behind the other. -/
def basics : List WriteEvent → List UInt8
  | [] => []
  | .extraInfo _ :: es => basics es
  | .passed basic _ :: es => basic ++ basics es

/-- The bytes still waiting in the packet buffer. -/
def waiting (w : Writer) : List UInt8 := loadAt w.net.buff 0 w.net.writePos

/-- The extra info that waits for a frame. -/
def pending (w : Writer) : List Tlv := w.net.ob20.extraInfoList

/-- `Placed ob20 before log after`: along the log every block is one frame, and in OB2.0 mode the
frame carries exactly the extra info that was set since the frame before it. -/
inductive Placed (ob20 : Bool) : List Tlv → List WriteEvent → List Tlv → Prop
  | nil (before : List Tlv) : Placed ob20 before [] before
  | set {before after : List Tlv} {item : Tlv} {es : List WriteEvent} :
    Placed ob20 (item :: before) es after → Placed ob20 before (.extraInfo item :: es) after
  | frame {before after : List Tlv} {basic frame : List UInt8} {es : List WriteEvent} :
    (if ob20 then Carries before basic frame else before = []) →
    Placed ob20 [] es after → Placed ob20 before (.passed basic [frame] :: es) after

theorem basics_append (es fs : List WriteEvent) : basics (es ++ fs) = basics es ++ basics fs := by
  induction es with
  | nil => rfl
  | cons e es ih =>
    cases e with
    | extraInfo item => exact ih
    | passed basic frames =>
      simp only [cons_append, basics, append_assoc]
      rw [ih]

theorem Placed.append {ob20 : Bool} {p q r : List Tlv} {es fs : List WriteEvent}
    (h : Placed ob20 p es q) (h' : Placed ob20 q fs r) : Placed ob20 p (es ++ fs) r := by
  induction h with
  | nil => exact h'
  | set _ ih => exact .set (ih h')
  | frame hcarries _ ih => exact .frame hcarries (ih h')

/-- What holds between two calls: the buffer is not overfull, and at most one trace is pending. -/
structure Sound (w : Writer) : Prop where
  buffered : w.net.writePos ≤ blockLength w
  inside : w.net.writePos ≤ w.net.maxPacket
  bound : w.net.maxPacket < 2 ^ 64
  single : Single (pending w)
  plain : w.useOb20protocol = false → pending w = []

/-- **What every function of the send path does**, when it does not fail: what was passed on and what
waits now is what waited and what came in. -/
structure Streams (w w' : Writer) (bytes : List UInt8) : Prop where
  sound : Sound w'
  mode : w'.useOb20protocol = w.useOb20protocol
  events : ∃ es, w'.log = w.log ++ es ∧ basics es ++ waiting w' = waiting w ++ bytes ∧
    Placed w.useOb20protocol (pending w) es (pending w')

variable {w : Writer}

theorem Streams.refl (h : Sound w) : Streams w w [] :=
  ⟨h, rfl, [], (append_nil _).symm, (append_nil _).symm, .nil _⟩

variable {w' : Writer}

theorem Streams.trans {w'' : Writer} {as bs : List UInt8} (h : Streams w w' as) (h' : Streams w' w'' bs) :
    Streams w w'' (as ++ bs) := by
  obtain ⟨-, hmode, es, hlog, hstream, hplaced⟩ := h
  obtain ⟨hsound, hmode', fs, hlog', hstream', hplaced'⟩ := h'
  refine ⟨hsound, hmode'.trans hmode, es ++ fs, ?_, ?_, ?_⟩
  · rw [hlog', hlog, append_assoc]
  · calc basics (es ++ fs) ++ waiting w''
        = basics es ++ (basics fs ++ waiting w'') := by rw [basics_append, append_assoc]
      _ = (basics es ++ waiting w') ++ bs := by rw [hstream', append_assoc]
      _ = waiting w ++ (as ++ bs) := by rw [hstream, append_assoc]
  · rw [hmode] at hplaced'
    exact hplaced.append hplaced'

/-- Below a packet, the packet number stays too. -/
structure Step (w w' : Writer) (bytes : List UInt8) : Prop extends Streams w w' bytes where
  pktNr : w'.net.pktNr = w.net.pktNr

theorem Step.refl (h : Sound w) : Step w w [] := ⟨.refl h, rfl⟩

theorem Step.trans {w'' : Writer} {as bs : List UInt8} (h : Step w w' as) (h' : Step w' w'' bs) :
    Step w w'' (as ++ bs) :=
  ⟨h.toStreams.trans h'.toStreams, h'.pktNr.trans h.pktNr⟩

/-- A result that is either a failure or a `Step`. -/
def Does (w : Writer) (bytes : List UInt8) (result : Except Fault (Bool × Writer)) : Prop :=
  ∃ failed w', result = .ok (failed, w') ∧ (failed = false → Step w w' bytes)

/-- `ma_net_real_write` leaves the buffer alone and logs one frame. -/
structure Passed (w w' : Writer) (packet : List UInt8) : Prop where
  buff : w'.net.buff = w.net.buff
  writePos : w'.net.writePos = w.net.writePos
  maxPacket : w'.net.maxPacket = w.net.maxPacket
  pktNr : w'.net.pktNr = w.net.pktNr
  mode : w'.useOb20protocol = w.useOb20protocol
  cleared : pending w' = []
  frame : ∃ frame, w'.log = w.log ++ [.passed packet [frame]] ∧
    if w.useOb20protocol then Carries (pending w) packet frame else pending w = []

variable {packet : List UInt8}

/-- The block is passed on, and what is behind it is as it was. -/
theorem Passed.placed (h : Passed w w' packet) : ∃ es, w'.log = w.log ++ es ∧ basics es = packet ∧
      Placed w.useOb20protocol (pending w) es [] := by
  obtain ⟨frame, hlog, hcarries⟩ := h.frame
  exact ⟨_, hlog, append_nil _, .frame hcarries (.nil _)⟩

theorem Passed.sound (h : Passed w w' packet) (hw : Sound w) : Sound w' := by
  obtain ⟨-, hpos, hmax, -, hmode, hnil, -⟩ := h
  refine ⟨?_, ?_, ?_, .inl hnil, fun _ => hnil⟩
  · rw [blockLength, hmode, hpos]
    exact hw.buffered
  · rw [hpos, hmax]
    exact hw.inside
  · rw [hmax]
    exact hw.bound

/-- An empty buffer is sound. -/
theorem Sound.setPos_zero (h : Sound w) : Sound (setPos w 0) :=
  ⟨Nat.zero_le _, Nat.zero_le _, h.bound, h.single, h.plain⟩

theorem Sound.storeBuff (h : Sound w) (bytes : List UInt8) : Sound (storeBuff w bytes) :=
  ⟨h.buffered, h.inside, h.bound, h.single, h.plain⟩

theorem leftLength_eq (h : Sound w) : leftLength w = min w.net.maxPacket (blockLength w) - w.net.writePos := by
  have hbuffered := h.buffered
  have hinside := h.inside
  have hbound := h.bound
  have hless : maxPacketLengthWithOb20 < maxPacketLength := by decide
  have hword : maxPacketLength < 2 ^ 64 := by decide
  unfold blockLength at hbuffered
  unfold leftLength blockLength
  cases hmode : w.useOb20protocol with
  | true =>
    rw [if_pos hmode] at hbuffered
    by_cases hlarge : maxPacketLengthWithOb20 < w.net.maxPacket
    · rw [if_pos ⟨hlarge, rfl⟩, usub_eq hbuffered (by omega), if_pos rfl, min_eq_right hlarge.le]
    rw [if_neg (fun h => hlarge h.1), if_neg (by omega), usub_eq hinside hbound, if_pos rfl,
      min_eq_left (Nat.le_of_not_lt hlarge)]
  | false =>
    rw [hmode, if_neg Bool.false_ne_true] at hbuffered
    rw [if_neg (fun h => Bool.false_ne_true h.2), if_neg Bool.false_ne_true]
    by_cases hlarge : maxPacketLength < w.net.maxPacket
    · rw [if_pos hlarge, usub_eq hbuffered hword, min_eq_right hlarge.le]
    · rw [if_neg hlarge, usub_eq hinside hbound, min_eq_left (Nat.le_of_not_lt hlarge)]

theorem blockLength_lt (w : Writer) : blockLength w < 2 ^ 24 := by
  unfold blockLength
  split <;> decide

theorem blockLength_pos (w : Writer) : 0 < blockLength w := by
  unfold blockLength
  split <;> decide

/-- A copy that fits puts the bytes behind what waits. -/
theorem waiting_store (bytes : List UInt8) :
    loadAt (storeAt w.net.buff w.net.writePos bytes) 0 (w.net.writePos + bytes.length) = waiting w ++ bytes := by
  have hbefore : Holds (storeAt w.net.buff w.net.writePos bytes) 0 (waiting w) := by
    apply holds_storeAt_of_disjoint (holds_loadAt _ _ _)
    left
    rw [length_loadAt, zero_add]
  have hboth : Holds (storeAt w.net.buff w.net.writePos bytes) 0 (waiting w ++ bytes) := by
    rw [holds_append]
    refine ⟨hbefore, ?_⟩
    rw [waiting, length_loadAt, zero_add]
    exact holds_storeAt _ _ _
  apply load_of_holds hboth
  rw [length_append, waiting, length_loadAt]

/-- **A packet that fits is copied behind what waits.** -/
theorem appendBuff_does (hw : Sound w) {bytes : List UInt8} (hblock : w.net.writePos + bytes.length ≤ blockLength w)
    (hroom : w.net.writePos + bytes.length ≤ w.net.maxPacket) : Does w bytes (appendBuff w bytes) := by
  rw [appendBuff, copyBuff, if_pos hroom]
  refine ⟨false, _, rfl, fun _ => ?_⟩
  refine ⟨⟨⟨hblock, hroom, hw.bound, hw.single, hw.plain⟩, rfl, [], ?_, ?_, .nil _⟩, rfl⟩
  · exact (append_nil _).symm
  · exact waiting_store bytes

section Steps

variable (obCrc32 : List UInt8 → UInt32) (mariadbCompress : List UInt8 → List UInt8 × Nat)
  (pvioWrite : List (List UInt8) → List UInt8 → Bool)

/-- Whatever frame is sent, the buffer stays as it is. -/
theorem passed_of_sendFrame {pvioWrite : List (List UInt8) → List UInt8 → Bool} {net net' : NET}
    {frame : List UInt8} {failed : Bool} (h : sendFrame pvioWrite net frame = (failed, net'))
    (hsent : net.sent = w.net.sent) (hbuff : net.buff = w.net.buff) (hpos : net.writePos = w.net.writePos)
    (hmax : net.maxPacket = w.net.maxPacket) (hnr : net.pktNr = w.net.pktNr) (hnil : net.ob20.extraInfoList = [])
    (hcarries : if w.useOb20protocol then Carries (pending w) packet frame else pending w = []) :
    Passed w { w with net := net', log := w.log ++ [.passed packet (net'.sent.drop w.net.sent.length)] } packet := by
  obtain ⟨hsame, hob20, hsent'⟩ := sendFrame_spec h
  have hkept : net'.buff = net.buff ∧ net'.pktNr = net.pktNr := by
    unfold sendFrame at h
    split at h <;> (cases h; exact ⟨rfl, rfl⟩)
  refine ⟨hkept.1.trans hbuff, hsame.writePos.trans hpos, hsame.maxPacket.trans hmax,
    hkept.2.trans hnr, rfl, ?_, frame, ?_, hcarries⟩
  · rw [pending, hob20]
    exact hnil
  · rw [hsent', hsent, drop_left]

/-- **`ma_net_real_write`**, in both modes: one frame, or a failure. -/
theorem maNetRealWrite_passes (hw : Sound w) (hlen : packet.length < 2 ^ 24) :
    ∃ failed w', maNetRealWrite obCrc32 mariadbCompress pvioWrite w packet = .ok (failed, w') ∧
      (failed = false → Passed w w' packet) := by
  by_cases herror : w.net.error = 2
  · -- the socket is not used any more
    refine ⟨true, { w with log := w.log ++ [.passed packet (w.net.sent.drop w.net.sent.length)] }, ?_,
      fun h => Bool.noConfusion h⟩
    cases hmode : w.useOb20protocol with
    | true =>
      simp only [maNetRealWrite, hmode, if_true, Net.maNetRealWrite, if_pos herror, ok_bind, pure_eq_ok]
    | false =>
      simp only [maNetRealWrite, hmode, Bool.false_eq_true, if_false, realWriteCompressed,
        if_pos herror, ok_bind, pure_eq_ok]
  cases hmode : w.useOb20protocol with
  | true =>
    obtain ⟨p, frame, hwrite, hnil, hcarries⟩ := realWrite_frame obCrc32 pvioWrite herror
      hw.single hlen
    rcases hsend : sendFrame pvioWrite { w.net with ob20 := p, compressPktNr := w.net.compressPktNr + 1 }
      frame with ⟨failed, net'⟩
    rw [hsend] at hwrite
    refine ⟨failed, _, ?_, fun _ => passed_of_sendFrame hsend rfl rfl rfl rfl rfl hnil ?_⟩
    · simp only [maNetRealWrite, hmode, if_true, hwrite, ok_bind, pure_eq_ok]
    · rw [if_pos hmode]
      exact hcarries
  | false =>
    rcases hsend : sendFrame pvioWrite { w.net with compressPktNr := w.net.compressPktNr + 1 }
      (outerHeader (mariadbCompress packet).1.length w.net.compressPktNr (mariadbCompress packet).2 ++
        (mariadbCompress packet).1) with ⟨failed, net'⟩
    have hplain := hw.plain hmode
    refine ⟨failed, _, ?_, fun _ => passed_of_sendFrame hsend rfl rfl rfl rfl rfl hplain ?_⟩
    · simp only [maNetRealWrite, hmode, Bool.false_eq_true, if_false, realWriteCompressed,
        if_neg herror, hsend, ok_bind, pure_eq_ok]
    · rw [if_neg (by rw [hmode]; decide)]
      exact hplain

/-- After a full buffer has gone out: what is left of the packet, and an empty buffer. -/
structure Emptied (w w' : Writer) (packet rest : List UInt8) : Prop where
  done : ∃ first, packet = first ++ rest ∧ Step w w' first
  writePos : w'.net.writePos = 0

/-- The buffer is topped up from a packet that does not fit. -/
theorem topUp_does (hw : Sound w) (hlarge : leftLength w < packet.length) :
    ∃ failed w' rest, topUp obCrc32 mariadbCompress pvioWrite w packet = .ok (failed, w', rest) ∧
      (failed = false → Emptied w w' packet rest) := by
  by_cases hpos : w.net.writePos ≠ 0
  · have hleft := leftLength_eq hw
    have hbuffered := hw.buffered
    have hinside := hw.inside
    have hblock := blockLength_lt w
    have htake : (packet.take (leftLength w)).length = leftLength w := by
      rw [length_take]
      omega
    -- the copy fills the buffer to its end or to a full block
    have hcopy : copyBuff w (packet.take (leftLength w)) =
        .ok (storeBuff w (packet.take (leftLength w))) := if_pos (by omega)
    have hload : loadAt (storeBuff w (packet.take (leftLength w))).net.buff 0
        (w.net.writePos + leftLength w) = waiting w ++ packet.take (leftLength w) := by
      have hstored := waiting_store (w := w) (packet.take (leftLength w))
      rw [htake] at hstored
      exact hstored
    have hlen : (waiting w ++ packet.take (leftLength w)).length < 2 ^ 24 := by
      rw [length_append, waiting, length_loadAt]
      omega
    have hw1 := hw.storeBuff (packet.take (leftLength w))
    obtain ⟨failed, w2, hwrite, hpassed⟩ :=
      maNetRealWrite_passes obCrc32 mariadbCompress pvioWrite hw1 hlen
    rw [topUp, if_pos hpos]
    dsimp only
    rw [hcopy]
    change ∃ failed w' rest, (maNetRealWrite obCrc32 mariadbCompress pvioWrite _
      (loadAt _ 0 (w.net.writePos + leftLength w)) >>= _) = _ ∧ _
    rw [hload, hwrite]
    cases failed with
    | true => exact ⟨true, w2, packet, rfl, nofun⟩
    | false =>
      have hp := hpassed rfl
      obtain ⟨es, hlog, hbasics, hplaced⟩ := hp.placed
      refine ⟨false, setPos w2 0, packet.drop (leftLength w), rfl,
        fun _ => ⟨⟨packet.take (leftLength w), ?_, ?_⟩, rfl⟩⟩
      · exact (take_append_drop _ _).symm
      · refine ⟨⟨(hp.sound hw1).setPos_zero, hp.mode, es, hlog, ?_, ?_⟩, hp.pktNr⟩
        · rw [hbasics]
          exact append_nil _
        · show Placed _ _ _ (pending w2)
          rw [hp.cleared]
          exact hplaced
  · refine ⟨false, w, packet, ?_, fun _ => ⟨⟨[], rfl, Step.refl hw⟩, not_not.1 hpos⟩⟩
    rw [topUp, if_neg hpos]

/-- The block goes out, and the buffer, which is empty, stays so. -/
theorem Passed.emptied (h : Passed w w' packet) (hw : Sound w) (hpos : w.net.writePos = 0) : Step w w' packet := by
  obtain ⟨es, hlog, hbasics, hplaced⟩ := h.placed
  have hempty : waiting w = [] ∧ waiting w' = [] := by
    rw [waiting, waiting, h.writePos, hpos]
    exact ⟨rfl, rfl⟩
  refine ⟨⟨h.sound hw, h.mode, es, hlog, ?_, ?_⟩, h.pktNr⟩
  · rw [hbasics, hempty.1, hempty.2, append_nil, nil_append]
  · rw [h.cleared]
    exact hplaced

/-- The loop over full blocks: induction on what is left of the packet. -/
theorem writeChunks_does (hw : Sound w) (hpos : w.net.writePos = 0) (packet : List UInt8) :
    ∃ failed w' rest, writeChunks obCrc32 mariadbCompress pvioWrite w packet = .ok (failed, w', rest) ∧
      (failed = false → Emptied w w' packet rest ∧ rest.length ≤ blockLength w') := by
  induction hk : packet.length using Nat.strong_induction_on generalizing w packet with
  | h k ih =>
    by_cases hlarge : blockLength w < packet.length
    · have htake : (packet.take (blockLength w)).length < 2 ^ 24 := by
        rw [length_take]
        exact lt_of_le_of_lt (min_le_left _ _) (blockLength_lt w)
      obtain ⟨failed, w1, hwrite, hpassed⟩ :=
        maNetRealWrite_passes obCrc32 mariadbCompress pvioWrite hw htake
      rw [writeChunks, if_pos hlarge, hwrite]
      cases failed with
      | true => exact ⟨true, w1, packet, rfl, nofun⟩
      | false =>
        have hp := hpassed rfl
        have hlength : (packet.drop (blockLength w)).length < k := by
          rw [length_drop]
          have := blockLength_pos w
          omega
        obtain ⟨failed, w2, rest, hchunks, hrest⟩ :=
          ih _ hlength (hp.sound hw) (hp.writePos.trans hpos) (packet.drop (blockLength w)) rfl
        refine ⟨failed, w2, rest, hchunks, fun hfailed => ?_⟩
        obtain ⟨⟨⟨first, hsplit, hstep⟩, hempty⟩, hshort⟩ := hrest hfailed
        refine ⟨⟨⟨packet.take (blockLength w) ++ first, ?_, ?_⟩, hempty⟩, hshort⟩
        · rw [append_assoc, ← hsplit, take_append_drop]
        · exact (hp.emptied hw hpos).trans hstep
    · refine ⟨false, w, packet, ?_, fun _ => ⟨⟨⟨[], rfl, Step.refl hw⟩, hpos⟩, Nat.le_of_not_lt hlarge⟩⟩
      rw [writeChunks, if_neg hlarge]

/-- **A packet that does not fit**: the buffer is sent, full blocks go out directly, and the rest is
sent or buffered. -/
theorem writeLarge_does (hw : Sound w) (hlarge : leftLength w < packet.length) :
    Does w packet (writeLarge obCrc32 mariadbCompress pvioWrite w packet) := by
  obtain ⟨failed1, w1, rest1, htop, hemptied⟩ := topUp_does obCrc32 mariadbCompress pvioWrite hw hlarge
  rw [writeLarge, htop, ok_bind]
  cases failed1 with
  | true => exact ⟨true, w1, rfl, nofun⟩
  | false =>
    obtain ⟨⟨first1, hsplit1, hstep1⟩, hpos1⟩ := hemptied rfl
    obtain ⟨failed2, w2, rest2, hchunks, hemptied2⟩ :=
      writeChunks_does obCrc32 mariadbCompress pvioWrite hstep1.sound hpos1 rest1
    dsimp only
    rw [hchunks]
    cases failed2 with
    | true => exact ⟨true, w2, rfl, nofun⟩
    | false =>
      obtain ⟨⟨⟨first2, hsplit2, hstep2⟩, hpos2⟩, hshort⟩ := hemptied2 rfl
      have hlast : Does w2 rest2 (if w2.net.maxPacket < rest2.length then
          maNetRealWrite obCrc32 mariadbCompress pvioWrite w2 rest2 else appendBuff w2 rest2) := by
        split
        · obtain ⟨failed, w3, hwrite, hpassed⟩ := maNetRealWrite_passes obCrc32 mariadbCompress pvioWrite
            hstep2.sound (lt_of_le_of_lt hshort (blockLength_lt w2))
          exact ⟨failed, w3, hwrite, fun h => (hpassed h).emptied hstep2.sound hpos2⟩
        apply appendBuff_does hstep2.sound
        · rw [hpos2, zero_add]
          exact hshort
        · rw [hpos2, zero_add]
          exact Nat.le_of_not_lt ‹_›
      obtain ⟨failed, w3, hrun, hstep3⟩ := hlast
      refine ⟨failed, w3, hrun, fun h => ?_⟩
      rw [hsplit1, hsplit2]
      exact hstep1.trans (hstep2.trans (hstep3 h))

theorem placePacket_does (hw : Sound w) (packet : List UInt8) :
    Does w packet (placePacket obCrc32 mariadbCompress pvioWrite w packet) := by
  unfold placePacket
  split
  · exact writeLarge_does obCrc32 mariadbCompress pvioWrite hw ‹_›
  have hleft := leftLength_eq hw
  have hbuffered := hw.buffered
  have hinside := hw.inside
  apply appendBuff_does hw <;> omega

/-- Extra info alone: an empty block in front of what waits. -/
theorem sendExtraInfoAlone_does (hw : Sound w) (size : Nat) :
    Does w [] (sendExtraInfoAlone obCrc32 mariadbCompress pvioWrite w size) := by
  unfold sendExtraInfoAlone
  split
  · obtain ⟨failed, w1, hwrite, hpassed⟩ := maNetRealWrite_passes obCrc32 mariadbCompress pvioWrite hw
      (show [].length < 2 ^ 24 by decide)
    refine ⟨failed, w1, hwrite, fun h => ?_⟩
    have hp := hpassed h
    obtain ⟨es, hlog, hbasics, hplaced⟩ := hp.placed
    refine ⟨⟨hp.sound hw, hp.mode, es, hlog, ?_, ?_⟩, hp.pktNr⟩
    · rw [hbasics, waiting, waiting, hp.writePos, hp.buff, nil_append, append_nil]
    · rw [hp.cleared]
      exact hplaced
  · exact ⟨false, w, rfl, fun _ => Step.refl hw⟩

/-- The buffer grows without losing what is in it. -/
theorem growBuff_step (hw : Sound w) (hmode : w.useOb20protocol = true) {len : Nat} {net : NET}
    (h : growBuff w.net len = some net) : Step w { w with net := net } [] := by
  have hblock : blockLength w = maxPacketLengthWithOb20 := if_pos hmode
  obtain ⟨hwritable, hpos, -, hob20, -⟩ :=
    growBuff_spec ⟨hblock ▸ hw.buffered, hw.inside, hw.bound⟩ h
  have hbuff : net.buff = w.net.buff ∧ net.pktNr = w.net.pktNr := by
    unfold growBuff netRealloc at h
    split at h
    · split at h
      · cases h
      obtain rfl := Option.some.inj h
      exact ⟨rfl, rfl⟩
    obtain rfl := Option.some.inj h
    exact ⟨rfl, rfl⟩
  have hpending : pending { w with net := net } = pending w := congrArg Ob20Protocol.extraInfoList hob20
  refine ⟨⟨⟨?_, hwritable.inside, hwritable.bound, ?_, ?_⟩, rfl, [], (append_nil _).symm, ?_, ?_⟩, hbuff.2⟩
  · show net.writePos ≤ blockLength w
    rw [hblock]
    exact hwritable.buffered
  · rw [hpending]
    exact hw.single
  · rw [hpending]
    exact hw.plain
  · rw [waiting, hpos, hbuff.1, append_nil]
    rfl
  · rw [hpending]
    exact .nil _

/-- **`ma_net_write_buff`** appends its bytes to the stream. -/
theorem maNetWriteBuff_does (hw : Sound w) (packet : List UInt8) :
    Does w packet (maNetWriteBuff obCrc32 mariadbCompress pvioWrite w packet) := by
  by_cases hempty : packet.length = 0
  · rw [eq_nil_of_length_eq_zero hempty]
    exact ⟨false, w, rfl, fun _ => Step.refl hw⟩
  rw [maNetWriteBuff, if_neg hempty]
  cases hmode : w.useOb20protocol with
  | false =>
    exact placePacket_does obCrc32 mariadbCompress pvioWrite hw packet
  | true =>
    have hsize : getProtocol20ExtraInfoLength w.net.ob20.extraInfoList = .ok _ :=
      extraInfoLength_single hw.single
    rw [if_pos rfl, hsize, ok_bind]
    split
    · exact ⟨true, w, rfl, nofun⟩
    obtain ⟨failed, w1, halone, hstep1⟩ := sendExtraInfoAlone_does obCrc32 mariadbCompress pvioWrite hw
      (tlvBytes w.net.ob20.extraInfoList).length
    rw [halone, ok_bind]
    cases failed with
    | true => exact ⟨true, w1, rfl, nofun⟩
    | false =>
      have h1 := hstep1 rfl
      dsimp only
      cases hgrow : growBuff w1.net packet.length with
      | none => exact ⟨true, _, rfl, nofun⟩
      | some net =>
        have h2 := growBuff_step h1.sound (h1.mode.trans hmode) hgrow
        obtain ⟨failed, w3, hplace, hstep3⟩ :=
          placePacket_does obCrc32 mariadbCompress pvioWrite h2.sound packet
        exact ⟨failed, w3, hplace, fun h => h1.trans (h2.trans (hstep3 h))⟩

/-! ## Payloads and runs -/

/-- The packets of a payload on the wire: each header says how long its packet is, and a packet of
`MAX_PACKET_LENGTH` bytes is followed by another. -/
def packetsOf (numbered : Bool) (nr : Nat) (lead packet : List UInt8) : List UInt8 :=
  if maxPacketLength ≤ lead.length + packet.length ∧ lead.length < maxPacketLength then
    packetHeader nr lead (maxPacketLength - lead.length) ++
      (packet.take (maxPacketLength - lead.length) ++
        packetsOf numbered (if numbered then nr + 1 else nr) [] (packet.drop (maxPacketLength - lead.length)))
  else packetHeader nr lead packet.length ++ packet
termination_by packet.length
decreasing_by
  rw [length_drop]
  omega

/-- The number of the next packet. -/
def numberOf (w : Writer) (numbered : Bool) : Nat := if numbered then w.net.pktNr else 0

theorem nextNumber_streams (hw : Sound w) (numbered : Bool) :
    (nextNumber w numbered).1 = numberOf w numbered ∧ Streams w (nextNumber w numbered).2 [] ∧
      numberOf (nextNumber w numbered).2 numbered =
        if numbered then numberOf w numbered + 1 else numberOf w numbered := by
  cases numbered with
  | false => exact ⟨rfl, .refl hw, rfl⟩
  | true =>
    refine ⟨rfl, ⟨⟨hw.buffered, hw.inside, hw.bound, hw.single, hw.plain⟩, rfl, [], ?_, ?_, .nil _⟩, rfl⟩
    · exact (append_nil _).symm
    · exact (append_nil _).symm

/-- The bytes that follow do not touch the packet number. -/
theorem Step.numberOf {bytes : List UInt8} (h : Step w w' bytes) (numbered : Bool) :
    numberOf w' numbered = numberOf w numbered := by
  unfold Stream.numberOf
  rw [h.pktNr]

/-- **One packet** puts its header and its bytes into the stream. -/
theorem writePacket_does (hw : Sound w) (numbered : Bool) (lead packet : List UInt8) :
    ∃ failed w', writePacket obCrc32 mariadbCompress pvioWrite w numbered lead packet = .ok (failed, w') ∧
      (failed = false → Streams w w' (packetHeader (numberOf w numbered) lead packet.length ++ packet) ∧
        numberOf w' numbered = if numbered then numberOf w numbered + 1 else numberOf w numbered) := by
  obtain ⟨hnr, h1, hnext⟩ := nextNumber_streams hw numbered
  obtain ⟨failed, w2, hheader, hstep2⟩ := maNetWriteBuff_does obCrc32 mariadbCompress pvioWrite h1.sound
    (packetHeader (numberOf w numbered) lead packet.length)
  rw [writePacket]
  dsimp only
  rw [hnr, hheader]
  cases failed with
  | true => exact ⟨true, w2, rfl, nofun⟩
  | false =>
    have h2 := hstep2 rfl
    obtain ⟨failed, w3, hbody, hstep3⟩ :=
      maNetWriteBuff_does obCrc32 mariadbCompress pvioWrite h2.sound packet
    refine ⟨failed, w3, hbody, fun h => ⟨?_, ?_⟩⟩
    · exact h1.trans (h2.trans (hstep3 h)).toStreams
    · rw [(hstep3 h).numberOf, h2.numberOf, hnext]

/-- **A payload**: induction on what is left of it. -/
theorem writePackets_does (hw : Sound w) (numbered : Bool) (lead packet : List UInt8) :
    ∃ failed w', writePackets obCrc32 mariadbCompress pvioWrite w numbered lead packet = .ok (failed, w') ∧
      (failed = false → Streams w w' (packetsOf numbered (numberOf w numbered) lead packet)) := by
  induction hk : packet.length using Nat.strong_induction_on generalizing w lead packet with
  | h k ih =>
    rw [writePackets, packetsOf]
    split
    · have htake : (packet.take (maxPacketLength - lead.length)).length = maxPacketLength - lead.length := by
        rw [length_take]
        omega
      have hdrop : (packet.drop (maxPacketLength - lead.length)).length < k := by
        rw [length_drop]
        omega
      obtain ⟨failed, w1, hfirst, hstep1⟩ := writePacket_does obCrc32 mariadbCompress pvioWrite hw numbered
        lead (packet.take (maxPacketLength - lead.length))
      dsimp only
      rw [hfirst]
      cases failed with
      | true => exact ⟨true, w1, rfl, nofun⟩
      | false =>
        obtain ⟨h1, hnext⟩ := hstep1 rfl
        obtain ⟨failed, w2, hrest, hstep2⟩ := ih _ hdrop h1.sound [] _ rfl
        refine ⟨failed, w2, hrest, fun h => ?_⟩
        have hboth := h1.trans (hstep2 h)
        rw [htake, hnext, append_assoc] at hboth
        exact hboth
    · obtain ⟨failed, w1, hlast, hstep1⟩ :=
        writePacket_does obCrc32 mariadbCompress pvioWrite hw numbered lead packet
      exact ⟨failed, w1, hlast, fun h => (hstep1 h).1⟩

/-- **A flush** passes on what waits. -/
theorem maNetFlush_does (hw : Sound w) :
    ∃ failed w', maNetFlush obCrc32 mariadbCompress pvioWrite w = .ok (failed, w') ∧
      (failed = false → Streams w w' []) := by
  by_cases hmulti : 0 < w.net.multiStatus
  · exact ⟨false, w, if_pos hmulti, fun _ => .refl hw⟩
  rw [maNetFlush, if_neg hmulti]
  by_cases hpos : w.net.writePos ≠ 0
  · have hlen : (loadAt w.net.buff 0 w.net.writePos).length < 2 ^ 24 := by
      rw [length_loadAt]
      exact lt_of_le_of_lt hw.buffered (blockLength_lt w)
    obtain ⟨failed, w1, hwrite, hpassed⟩ :=
      maNetRealWrite_passes obCrc32 mariadbCompress pvioWrite hw hlen
    rw [if_pos hpos, hwrite]
    refine ⟨failed, _, rfl, fun h => ?_⟩
    have hp := hpassed h
    obtain ⟨es, hlog, hbasics, hplaced⟩ := hp.placed
    obtain ⟨hbuffered, hinside, hbound, hsingle, hplain⟩ := (hp.sound hw).setPos_zero
    refine ⟨⟨hbuffered, hinside, hbound, hsingle, hplain⟩, hp.mode, es, hlog, ?_, ?_⟩
    · rw [hbasics]
      rfl
    · show Placed _ _ _ (pending w1)
      rw [hp.cleared]
      exact hplaced
  · rw [if_neg hpos]
    refine ⟨false, _, rfl, fun _ => ⟨⟨hw.buffered, hw.inside, hw.bound, hw.single, hw.plain⟩, rfl, [], ?_, ?_,
      .nil _⟩⟩
    · exact (append_nil _).symm
    · exact (append_nil _).symm

/-- What a call adds to the stream. -/
def callBytes (w : Writer) : NetCall → List UInt8
  | .write packet => packetsOf true (numberOf w true) [] packet
  | .writeCommand command packet _ =>
    packetsOf w.useOb20protocol (numberOf w w.useOb20protocol) [command] packet
  | .flush => []
  | .setExtraInfo _ _ => []

/-- Extra info is set in OB2.0 mode, as one trace of sensible length, when none is pending. -/
def SetsAlone (w : Writer) : NetCall → Prop
  | .setExtraInfo key value =>
    w.useOb20protocol = true ∧ pending w = [] ∧ key = fullTrc ∧ value.length < 2 ^ 31
  | _ => True

/-- The request id has no part in the stream. -/
theorem updateRequestId_streams (hw : Sound w) : Streams w { w with net := updateRequestId w.net } [] :=
  ⟨⟨hw.buffered, hw.inside, hw.bound, hw.single, hw.plain⟩, rfl, [], (append_nil _).symm,
    (append_nil _).symm, .nil _⟩

/-- **One call** adds its packets to the stream. -/
theorem runCall_does (hw : Sound w) {c : NetCall} (hc : SetsAlone w c) :
    ∃ failed w', runCall obCrc32 mariadbCompress pvioWrite w c = .ok (failed, w') ∧
      (failed = false → Streams w w' (callBytes w c)) := by
  cases c with
  | write packet =>
    unfold runCall maNetWrite
    dsimp only
    split
    · have h1 := updateRequestId_streams hw
      obtain ⟨failed, w2, hrun, hstep⟩ :=
        writePackets_does obCrc32 mariadbCompress pvioWrite h1.sound true [] packet
      exact ⟨failed, w2, hrun, fun h => h1.trans (hstep h)⟩
    · exact writePackets_does obCrc32 mariadbCompress pvioWrite hw true [] packet
  | writeCommand command packet disableFlush =>
    -- the request id, the packets, and then the flush unless it is disabled
    have hfirst : Streams w (if w.useOb20protocol then { w with net := updateRequestId w.net } else w) [] := by
      split
      · exact updateRequestId_streams hw
      · exact .refl hw
    have hnumber : numberOf (if w.useOb20protocol then { w with net := updateRequestId w.net } else w)
        w.useOb20protocol = numberOf w w.useOb20protocol := by
      split <;> rfl
    obtain ⟨failed, w2, hpackets, hstep2⟩ := writePackets_does obCrc32 mariadbCompress pvioWrite
      hfirst.sound w.useOb20protocol [command] packet
    rw [hnumber] at hstep2
    rw [runCall, maNetWriteCommand]
    dsimp only
    rw [hfirst.mode, hpackets]
    cases failed with
    | true => exact ⟨true, w2, rfl, nofun⟩
    | false =>
      have h2 := hfirst.trans (hstep2 rfl)
      cases disableFlush with
      | true => exact ⟨false, w2, rfl, fun _ => h2⟩
      | false =>
        obtain ⟨failed, w3, hflush, hstep3⟩ := maNetFlush_does obCrc32 mariadbCompress pvioWrite h2.sound
        refine ⟨failed, w3, hflush, fun h => ?_⟩
        have h3 := h2.trans (hstep3 h)
        rw [append_nil] at h3
        exact h3
  | flush => exact maNetFlush_does obCrc32 mariadbCompress pvioWrite hw
  | setExtraInfo key value =>
    obtain ⟨hmode, hnil, rfl, hshort⟩ := hc
    have hlist : ob20SetExtraInfo w.net.ob20.extraInfoList fullTrc value = [⟨fullTrc, value⟩] :=
      congrArg (List.cons _) hnil
    refine ⟨false, _, rfl, fun _ => ⟨⟨hw.buffered, hw.inside, hw.bound, .inr ⟨value, hlist, hshort⟩, ?_⟩, rfl,
      [.extraInfo ⟨fullTrc, value⟩], rfl, ?_, .set (.nil _)⟩⟩
    · intro hplain
      exact absurd (hmode.symm.trans hplain) (by decide)
    · exact (append_nil _).symm

/-- Every `ob20_set_extra_info` of a run finds nothing pending. -/
def OneTrace (w : Writer) : List NetCall → Prop
  | [] => True
  | c :: cs => SetsAlone w c ∧ ∀ w', runCall obCrc32 mariadbCompress pvioWrite w c = .ok (false, w') →
    OneTrace w' cs

/-- The packet headers and payloads of the calls, in call order. -/
def streamOf (w : Writer) : List NetCall → List UInt8
  | [] => []
  | c :: cs => callBytes w c ++ match runCall obCrc32 mariadbCompress pvioWrite w c with
    | .ok (false, w') => streamOf w' cs
    | _ => []

/-- **The run lemma.** -/
theorem runCalls_does (hw : Sound w) {calls : List NetCall}
    (hone : OneTrace obCrc32 mariadbCompress pvioWrite w calls) :
    ∃ failed w', runCalls obCrc32 mariadbCompress pvioWrite w calls = .ok (failed, w') ∧
      (failed = false → Streams w w' (streamOf obCrc32 mariadbCompress pvioWrite w calls)) := by
  induction calls generalizing w with
  | nil => exact ⟨false, w, rfl, fun _ => .refl hw⟩
  | cons c cs ih =>
    obtain ⟨hc, hrest⟩ := hone
    obtain ⟨failed, w1, hrun, hstep1⟩ := runCall_does obCrc32 mariadbCompress pvioWrite hw hc
    rw [runCalls, hrun]
    cases failed with
    | true => exact ⟨true, w1, rfl, nofun⟩
    | false =>
      have h1 := hstep1 rfl
      obtain ⟨failed, w2, hrun2, hstep2⟩ := ih h1.sound (hrest w1 hrun)
      refine ⟨failed, w2, hrun2, fun h => ?_⟩
      have h2 := h1.trans (hstep2 h)
      rw [streamOf, hrun]
      exact h2

/-- A run keeps the stream: no copy leaves the buffer, and when no call fails, what was handed to
`ma_net_real_write` and what still waits are the packets in call order, every block went out as one
frame, and extra info went out with the first frame after it was set and with no other. -/
def StreamKept (w : Writer) (calls : List NetCall) : Prop :=
  ∃ failed w', runCalls obCrc32 mariadbCompress pvioWrite w calls = .ok (failed, w') ∧
    (failed = false →
      basics w'.log ++ waiting w' = streamOf obCrc32 mariadbCompress pvioWrite w calls ∧
      Placed w.useOb20protocol [] w'.log (pending w'))

/-- A connection between two commands: nothing waits and nothing is pending. -/
structure Idle (w : Writer) : Prop where
  writePos : w.net.writePos = 0
  bound : w.net.maxPacket < 2 ^ 64
  pending : pending w = []
  log : w.log = []

/-- **The stream is kept in both modes**, whatever is written and whenever it is flushed, as long as
extra info is set as one trace at a time. -/
theorem streamKept_of_single (w : Writer) (calls : List NetCall) (hw : Idle w)
    (hone : OneTrace obCrc32 mariadbCompress pvioWrite w calls) :
    StreamKept obCrc32 mariadbCompress pvioWrite w calls := by
  obtain ⟨hpos, hbound, hnil, hlog⟩ := hw
  have hsound : Sound w := by
    refine ⟨?_, ?_, hbound, .inl hnil, fun _ => hnil⟩
    · rw [hpos]
      exact Nat.zero_le _
    · rw [hpos]
      exact Nat.zero_le _
  obtain ⟨failed, w', hrun, hstreams⟩ := runCalls_does obCrc32 mariadbCompress pvioWrite hsound hone
  refine ⟨failed, w', hrun, fun h => ?_⟩
  obtain ⟨-, -, es, hlog', hstream, hplaced⟩ := hstreams h
  have hempty : waiting w = [] := by
    rw [waiting, hpos]
    rfl
  rw [hlog] at hlog'
  rw [hempty] at hstream
  rw [hnil] at hplaced
  rw [hlog']
  exact ⟨hstream, hplaced⟩

end Steps

/-! ## Two traces -/

/-- An OB2.0 connection after login. -/
def idleWriter : Writer := ⟨freshNet [], true, []⟩

/-- A command with a trace of two bytes, and a flush after it. -/
theorem streamKept_tracedCommand :
    StreamKept (fun _ => 0) (fun bs => (bs, 0)) (fun _ _ => true) idleWriter (tracedCommand ++ [.flush]) := by
  apply streamKept_of_single
  · exact ⟨rfl, by decide, rfl, rfl⟩
  · refine ⟨⟨rfl, rfl, rfl, by decide⟩, fun w1 h1 => ⟨trivial, fun w2 h2 => ⟨trivial, fun w3 h3 => trivial⟩⟩⟩

/-- A command that finds the trace of an earlier one, which was refused, still pending. -/
def commandAfterRefused : List NetCall :=
  [.setExtraInfo fullTrc [1, 2], .setExtraInfo fullTrc [1, 2], .writeCommand 3 [83, 69, 76] false]

/-- **Two traces end the process**: the frame is put together, and then the items are freed twice. -/
theorem two_traces_freed_twice :
    runCalls (fun _ => 0) (fun bs => (bs, 0)) (fun _ _ => true) idleWriter commandAfterRefused =
        .error .useAfterFree ∧
      ¬StreamKept (fun _ => 0) (fun bs => (bs, 0)) (fun _ _ => true) idleWriter commandAfterRefused := by
  have hfault : (runCalls (fun _ => 0) (fun bs => (bs, 0)) (fun _ _ => true) idleWriter
      commandAfterRefused).map Prod.fst = .error .useAfterFree := by
    decide +kernel
  cases hrun : runCalls (fun _ => 0) (fun bs => (bs, 0)) (fun _ _ => true) idleWriter commandAfterRefused with
  | ok r =>
    rw [hrun] at hfault
    cases hfault
  | error f =>
    rw [hrun] at hfault
    cases hfault
    refine ⟨rfl, ?_⟩
    rintro ⟨failed, w', hkept, -⟩
    rw [hrun] at hkept
    cases hkept

end ObConnector.Net.Stream
