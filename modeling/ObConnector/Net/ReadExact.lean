/-
# ObConnector.Net.ReadExact -- successive calls return the payloads.

A peer sends payloads, cut into packets, and the packets cut into frames at will. The calls of
`ma_net_read` return the payloads, in order and byte for byte, unless a payload that an empty packet
ends is followed, in the same frame, by one whose length field has a low byte other than zero: the
byte the call saved is the empty packet's, and the next call puts it over that low byte
(`readsExactly_iff`).
-/
import ObConnector.Net.Read

namespace ObConnector.Net

open Lib Protocol20 List

/-! ## Payloads, and what the calls return of them -/

/-- A logical payload, and the sequence number of its first packet. -/
structure Payload where
  seq : UInt8
  bytes : List UInt8

/-- The packets of payloads, one behind the other. -/
def streamOf (ps : List Payload) : List UInt8 := (ps.map fun p => packets p.seq p.bytes).flatten

@[simp] theorem streamOf_cons (p : Payload) (ps : List Payload) :
    streamOf (p :: ps) = packets p.seq p.bytes ++ streamOf ps := rfl

/-- A connection with nothing read ahead, to a peer that sends these payloads in these frames. The
payloads keep under the connection's packet limit, which `net_realloc` enforces. -/
structure Session (obCrc32 : List UInt8 → UInt32) (net : NET) (ps : List Payload)
    (fs : List Frame) : Prop where
  empty : net.remainInBuf = 0
  peer : Peer obCrc32 net fs
  stream : basics fs = streamOf ps
  room : ∀ p ∈ ps, p.bytes.length + 2 ^ 24 + 8 ≤ net.maxPacketSize
  maxPacketSize : net.maxPacketSize ≤ 2 ^ 64

/-- As many calls as there are payloads return just these. -/
def Reads (obCrc32 : List UInt8 → UInt32) (net : NET) (bs : List (List UInt8)) : Prop :=
  ∃ n, ∀ fuel, n ≤ fuel → readCalls obCrc32 fuel bs.length net = .ok (some bs)

/-- The calls return the payloads, in order, with their lengths and bytes. -/
def ReadsExactly (obCrc32 : List UInt8 → UInt32) (net : NET) (ps : List Payload) : Prop :=
  Reads obCrc32 net (ps.map Payload.bytes)

/-- Whatever follows a payload that an empty packet ends begins with a frame, or has a length field
whose low byte is zero. -/
def Intact (fs : List Frame) (ps : List Payload) : Prop :=
  ∀ before p q later, ps = before ++ p :: q :: later → EndsEmpty p.bytes →
    (∃ fs', fs' <:+ fs ∧ basics fs' = streamOf (q :: later)) ∨
      min q.bytes.length maxPacketLength % 256 = 0

/-! ## One call -/

variable {ps : List Payload}

section Calls

variable {obCrc32 : List UInt8 → UInt32} {net net' : NET} {all fs : List Frame}

/-- A call, and those behind it. -/
theorem reads_cons {n len : Nat} {b : List UInt8} {bs : List (List UInt8)}
    (hcall : ∀ fuel, n ≤ fuel → maNetRead obCrc32 fuel net = .ok (some len, net')) :
    Reads obCrc32 net (b :: bs) ↔ returned len net' = b ∧ Reads obCrc32 net' bs := by
  have hstep : ∀ fuel, n ≤ fuel → (readCalls obCrc32 fuel (b :: bs).length net = .ok (some (b :: bs)) ↔
      returned len net' = b ∧ readCalls obCrc32 fuel bs.length net' = .ok (some bs)) := by
    intro fuel hfuel
    rw [length_cons, readCalls, hcall fuel hfuel]
    simp only [ok_bind]
    cases hrest : readCalls obCrc32 fuel bs.length net' with
    | error e => simp [error_bind]
    | ok out =>
      cases out <;> simp [ok_bind]
  constructor
  · rintro ⟨m, hm⟩
    have hboth := fun fuel hfuel =>
      (hstep fuel (le_of_max_le_right hfuel)).1 (hm fuel (le_of_max_le_left hfuel))
    exact ⟨(hboth _ le_rfl).1, max m n, fun fuel hfuel => (hboth fuel hfuel).2⟩
  · rintro ⟨hret, m, hm⟩
    refine ⟨max m n, fun fuel hfuel => ?_⟩
    exact (hstep fuel (le_of_max_le_right hfuel)).2 ⟨hret, hm fuel (le_of_max_le_left hfuel)⟩

variable {u : List UInt8}

/-- A call that finds the packets of `p` returns `p`. -/
theorem Between.returns {p rest : List UInt8} {seq : UInt8} (h : Between obCrc32 all net u fs)
    (hstream : u ++ basics fs = packets seq p ++ rest) (hroom : p.length + 2 ^ 24 + 8 ≤ net.maxPacketSize)
    (hmax : net.maxPacketSize ≤ 2 ^ 64) : Returns obCrc32 all (startRead net) p rest := by
  obtain ⟨hpvio, hob20, hsize⟩ := startRead_net net
  obtain ⟨size, hfetched, hlt, hu⟩ := h.fetched
  have hpos := four_le_packetEnd u
  have hunder : Underway obCrc32 all rest (startRead net) [] p seq u fs size := by
    refine ⟨h.waiting, h.peer.of_eq hpvio hob20, ⟨0, rfl⟩, hstream, ?_, hfetched, hlt, .inr ?_, ?_, ?_⟩
    · rcases hu with rfl | hu
      · exact Nat.add_pos_left (by omega) size
      · omega
    · rcases hu with rfl | hu
      · exact Nat.zero_lt_of_lt hlt
      · exact hu.trans hlt
    · rw [hsize, length_nil, zero_add]
      exact hroom
    · rw [hsize]
      exact hmax
  exact hunder.returns

/-- What is left is behind the start of the last frame, so it begins with a frame only when nothing
is left in the buffer. -/
theorem Between.boundary_iff {held rest : List UInt8} (h : Between obCrc32 all net held fs)
    (hlen : held.length = u.length) (hrest : u ++ basics fs = rest) :
    (∃ fs', fs' <:+ all ∧ basics fs' = rest) ↔ u = [] := by
  have hmono : ∀ {as bs : List Frame}, as <:+ bs → (basics as).length ≤ (basics bs).length := by
    rintro as bs ⟨t, rfl⟩
    rw [basics, basics, map_append, flatten_append, length_append]
    exact Nat.le_add_left _ _
  obtain ⟨size, hfetched, -, hheld⟩ := h.fetched
  constructor
  · rintro ⟨fs', hsuffix, heq⟩
    by_contra hne
    have hpos := length_pos_iff.2 hne
    have htotal : (basics fs').length = u.length + (basics fs).length := by
      rw [heq, ← hrest, length_append]
    have hlt : u.length < size := by
      rcases hheld with rfl | hlt
      · rw [← hlen] at hpos
        exact absurd hpos (Nat.lt_irrefl 0)
      · rwa [hlen] at hlt
    rcases hfetched with ⟨rfl, hzero⟩ | ⟨f, hf, rfl⟩
    · omega
    -- a suffix of the frames is shorter than what is left, or longer
    rcases suffix_or_suffix_of_suffix hsuffix hf with hshort | hlong
    · rcases suffix_cons_iff.1 hshort with rfl | hshort
      · rw [basics_cons, length_append] at htotal
        omega
      have := hmono hshort
      omega
    have := hmono hlong
    rw [basics_cons, length_append] at this
    omega
  · rintro rfl
    exact ⟨fs, hfetched.suffix, by simpa using hrest⟩

/-! ## The byte that is put back -/

theorem packetHeader_cons (len : Nat) (seq : UInt8) :
    packetHeader len seq = UInt8.ofNat len :: (leBytes 2 (len / 256) ++ [seq]) := rfl

/-- Without its low byte, a length is the multiple of 256 below. -/
theorem withFirst_packetHeader (len : Nat) (seq : UInt8) (r : List UInt8) :
    withFirst 0 (packetHeader len seq ++ r) = packetHeader (256 * (len / 256)) seq ++ r := by
  have hzero : UInt8.ofNat (256 * (len / 256)) = 0 := by
    apply UInt8.toNat_inj.1
    exact Nat.mul_mod_right 256 _
  rw [packetHeader_cons, packetHeader_cons, hzero, Nat.mul_div_cancel_left _ (by decide)]
  rfl

/-- The first byte of what is left is the low byte of the next length field. -/
theorem first_byte {w r : List UInt8} {len : Nat} {seq : UInt8} (hu : u ≠ [])
    (h : u ++ w = packetHeader len seq ++ r) : ∃ t, u = UInt8.ofNat len :: t := by
  obtain ⟨x, t, rfl⟩ := exists_cons_of_ne_nil hu
  exact ⟨t, by rw [(List.cons.inj h).1]⟩

theorem ofNat_eq_zero_iff (n : Nat) : UInt8.ofNat n = 0 ↔ n % 256 = 0 := by
  rw [← UInt8.toNat_inj]
  rfl

/-- **A spoiled length field**: the next call returns a shorter payload. -/
theorem Between.not_reads {rest : List UInt8} {q : Payload} {bs : List (List UInt8)}
    (h : Between obCrc32 all net (withFirst 0 u) fs) (hu : u ≠ [])
    (hstream : u ++ basics fs = packets q.seq q.bytes ++ rest)
    (hlow : min q.bytes.length maxPacketLength % 256 ≠ 0)
    (hroom : q.bytes.length + 2 ^ 24 + 8 ≤ net.maxPacketSize) (hmax : net.maxPacketSize ≤ 2 ^ 64) :
    ¬Reads obCrc32 net (q.bytes :: bs) := by
  -- the payload that the spoiled header announces
  obtain ⟨len, hlen⟩ : ∃ len, len = 256 * (min q.bytes.length maxPacketLength / 256) := ⟨_, rfl⟩
  have hless : len < min q.bytes.length maxPacketLength := by omega
  have hp : ((q.bytes.take maxPacketLength).take len).length = len := by
    rw [length_take, length_take_cap, min_eq_left hless.le]
  have hspoiled : withFirst 0 u ++ basics fs =
      packets q.seq ((q.bytes.take maxPacketLength).take len) ++
        ((q.bytes.take maxPacketLength).drop len ++ (laterPackets q.seq q.bytes ++ rest)) := by
    have hfirst : withFirst 0 u ++ basics fs = withFirst 0 (u ++ basics fs) := by
      obtain ⟨x, t, rfl⟩ := exists_cons_of_ne_nil hu
      rfl
    have hshort : ((q.bytes.take maxPacketLength).take len).length < maxPacketLength := by omega
    rw [hfirst, hstream, packets_eq, append_assoc, withFirst_packetHeader, ← hlen,
      packets_short hshort, hp, append_assoc, append_assoc,
      ← append_assoc (List.take len _), take_append_drop]
  obtain ⟨n, net', u', fs', hrun, hret, -⟩ := h.returns hspoiled (by omega) hmax
  rw [reads_cons hrun, hret]
  rintro ⟨heq, -⟩
  have := congrArg List.length heq
  omega

/-! ## All calls -/

theorem intact_cons {p : Payload} : Intact all (p :: ps) ↔ (∀ q later, ps = q :: later → EndsEmpty p.bytes →
        (∃ fs', fs' <:+ all ∧ basics fs' = streamOf ps) ∨
          min q.bytes.length maxPacketLength % 256 = 0) ∧ Intact all ps := by
  constructor
  · intro h
    refine ⟨?_, ?_⟩
    · rintro q later rfl hempty
      exact h [] p q later rfl hempty
    · intro before p' q later heq
      exact h (p :: before) p' q later (by rw [heq, cons_append])
  · rintro ⟨hfirst, hrest⟩ before p' q later heq hempty
    cases before with
    | nil =>
      obtain ⟨rfl, rfl⟩ := List.cons.inj heq
      exact hfirst q later rfl hempty
    | cons b before =>
      obtain ⟨-, hps⟩ := List.cons.inj heq
      exact hrest before p' q later hps hempty

/-- **The calls return the payloads just when no length field is spoiled.** -/
theorem Between.reads_iff (h : Between obCrc32 all net u fs) (hstream : u ++ basics fs = streamOf ps)
    (hroom : ∀ p ∈ ps, p.bytes.length + 2 ^ 24 + 8 ≤ net.maxPacketSize) (hmax : net.maxPacketSize ≤ 2 ^ 64) :
    ReadsExactly obCrc32 net ps ↔ Intact all ps := by
  induction ps generalizing net u fs with
  | nil =>
    refine iff_of_true ⟨0, fun fuel _ => rfl⟩ ?_
    intro before p q later heq
    exact absurd heq (by simp)
  | cons p ps ih =>
    rw [streamOf_cons] at hstream
    obtain ⟨n, net', u', fs', hrun, hret, hrest, hbetween, hsize⟩ :=
      h.returns hstream (hroom p mem_cons_self) hmax
    rw [(startRead_net net).2.2] at hsize
    have hroom' : ∀ q ∈ ps, q.bytes.length + 2 ^ 24 + 8 ≤ net'.maxPacketSize := by
      intro q hq
      rw [hsize]
      exact hroom q (mem_cons_of_mem p hq)
    have hcall : ReadsExactly obCrc32 net (p :: ps) ↔ ReadsExactly obCrc32 net' ps := by
      rw [ReadsExactly, map_cons, reads_cons hrun, and_iff_right hret]
      rfl
    have hlen : (if EndsEmpty p.bytes then withFirst 0 u' else u').length = u'.length := by
      split
      · exact length_withFirst 0 u'
      · rfl
    have hboundary := hbetween.boundary_iff hlen hrest
    rw [hcall, intact_cons, hboundary]
    by_cases hheld : (if EndsEmpty p.bytes then withFirst 0 u' else u') = u'
    · -- what is left is as it was
      rw [hheld] at hbetween
      rw [ih hbetween hrest hroom' (hsize.trans_le hmax)]
      refine (and_iff_right ?_).symm
      rintro q later rfl hempty
      by_cases hu' : u' = []
      · exact .inl hu'
      right
      rw [if_pos hempty] at hheld
      rw [streamOf_cons, packets_eq] at hrest
      obtain ⟨t, rfl⟩ := first_byte hu' hrest
      exact (ofNat_eq_zero_iff _).1 (List.cons.inj hheld).1.symm
    -- the next length field is spoiled
    have hempty : EndsEmpty p.bytes := by
      by_contra hnot
      exact hheld (if_neg hnot)
    rw [if_pos hempty] at hheld hbetween
    have hu' : u' ≠ [] := by
      rintro rfl
      exact hheld rfl
    cases ps with
    | nil => exact absurd (append_eq_nil_iff.1 hrest).1 hu'
    | cons q later =>
      have hlow : min q.bytes.length maxPacketLength % 256 ≠ 0 := by
        intro hzero
        have hparts := hrest
        rw [streamOf_cons, packets_eq] at hparts
        obtain ⟨t, rfl⟩ := first_byte hu' hparts
        rw [(ofNat_eq_zero_iff _).2 hzero] at hheld
        exact hheld rfl
      refine iff_of_false ?_ ?_
      · exact hbetween.not_reads hu' hrest hlow (hroom' q mem_cons_self) (hsize.trans_le hmax)
      · rintro ⟨hlink, -⟩
        rcases hlink q later rfl hempty with hnil | hzero
        · exact hu' hnil
        · exact hlow hzero

theorem Session.between (h : Session obCrc32 net ps fs) : Between obCrc32 fs net [] fs := by
  refine ⟨?_, h.peer, 0, .inl ⟨rfl, rfl⟩, by decide, .inl rfl⟩
  rw [Waiting, startRead_empty h.empty]
  exact ⟨holds_nil _ _, rfl, Nat.two_pow_pos 64, .inl ⟨rfl, rfl, rfl⟩⟩

end Calls

/-! ### Two sessions -/

/-- A frame without extra info and without checksums. -/
def plainFrame (basic : List UInt8) : Frame := ⟨0, 0, 0, none, basic, false, false⟩

/-- A fresh connection to a peer that sends two such frames. -/
def twoFrames (b c : List UInt8) : NET :=
  freshNet [Frame.wires (fun _ => 0) ⟨0x20AB, 20, 7, 9⟩ 0 [plainFrame b, plainFrame c]]

theorem plainFrame_valid {b : List UInt8} (hb : b ≠ []) (hlen : b.length + 28 ≤ maxPacketLength) :
    (plainFrame b).Valid := by
  refine ⟨Nat.zero_lt_succ 255, Nat.pos_of_neZero (256 ^ 4), Nat.pos_of_neZero (256 ^ 2), rfl, ?_, hb, ?_⟩
  · intro e he
    cases he
  · show ob20HeaderSize + b.length + ob20TailerSize ≤ maxPacketLength
    unfold ob20HeaderSize ob20TailerSize
    omega

theorem fits_freshNet : Identity.Fits ⟨0x20AB, 20, 7, 9⟩ :=
  ⟨by decide, by decide, by decide, by decide⟩

theorem twoFrames_session {b c : List UInt8} (hb : b ≠ []) (hc : c ≠ []) (hblen : b.length + 28 ≤ maxPacketLength)
    (hclen : c.length + 28 ≤ maxPacketLength) (hstream : b ++ c = streamOf ps)
    (hroom : ∀ p ∈ ps, p.bytes.length + 2 ^ 24 + 8 ≤ 2 ^ 30) :
    Session (fun _ => 0) (twoFrames b c) ps [plainFrame b, plainFrame c] := by
  refine ⟨rfl, ⟨fits_freshNet, ?_, ?_, append_nil _⟩, ?_, hroom, show 2 ^ 30 ≤ 2 ^ 64 by decide⟩
  · intro piece hpiece
    rw [mem_singleton.1 hpiece]
    exact cons_ne_nil _ _
  · intro f hf
    rcases mem_pair.1 hf with rfl | rfl
    · exact plainFrame_valid hb hblen
    · exact plainFrame_valid hc hclen
  · show b ++ (c ++ []) = streamOf ps
    rw [append_nil, hstream]

section BehindFull

variable {p : List UInt8}

/-- A payload of one full packet, and one of a single byte. -/
def behindFull (p : List UInt8) : List Payload := [⟨0, p⟩, ⟨0, [1]⟩]

theorem packets_one : packets 0 [1] = packetHeader 1 0 ++ [1] := packets_short (by decide)

theorem length_streamOf_behindFull (hp : p.length = maxPacketLength) :
    (streamOf (behindFull p)).length = maxPacketLength + 13 := by
  have hfirst : packets 0 p = packetHeader maxPacketLength 0 ++ (p ++ packetHeader 0 1) := by
    rw [packets_eq, laterPackets, hp, take_of_length_le hp.le, drop_of_length_le hp.le, packets_short (by decide)]
    rfl
  rw [behindFull, streamOf_cons, streamOf_cons, hfirst, packets_one]
  simp only [length_append, length_packetHeader, length_singleton, streamOf, map_nil, flatten_nil, length_nil]
  omega

/-- The connection on which these payloads arrive, cut into two frames. -/
def behindFullNet (p : List UInt8) : NET :=
  twoFrames ((streamOf (behindFull p)).take (2 ^ 23)) ((streamOf (behindFull p)).drop (2 ^ 23))

/-- The two frames. -/
def behindFullFrames (p : List UInt8) : List Frame :=
  [plainFrame ((streamOf (behindFull p)).take (2 ^ 23)), plainFrame ((streamOf (behindFull p)).drop (2 ^ 23))]

section

variable (hp : p.length = maxPacketLength)
include hp

theorem length_cut : ((streamOf (behindFull p)).take (2 ^ 23)).length = 2 ^ 23 ∧
      ((streamOf (behindFull p)).drop (2 ^ 23)).length = 2 ^ 23 + 12 := by
  rw [length_take, length_drop, length_streamOf_behindFull hp]
  decide

theorem behindFull_session : Session (fun _ => 0) (behindFullNet p) (behindFull p) (behindFullFrames p) := by
  obtain ⟨hb, hc⟩ := length_cut hp
  apply twoFrames_session
  · exact ne_nil_of_length_pos (by rw [hb]; decide)
  · exact ne_nil_of_length_pos (by rw [hc]; decide)
  · rw [hb]
    decide
  · rw [hc]
    decide
  · exact take_append_drop _ _
  · intro q hq
    rcases mem_pair.1 hq with rfl | rfl
    · rw [hp]
      decide
    · exact show 1 + 2 ^ 24 + 8 ≤ 2 ^ 30 by norm_num

/-- No frame begins with the second payload, whose length field ends in a one. -/
theorem behindFull_not_intact : ¬Intact (behindFullFrames p) (behindFull p) := by
  obtain ⟨hb, hc⟩ := length_cut hp
  intro hintact
  have hempty : EndsEmpty p := by
    refine ⟨ne_nil_of_length_pos ?_, hp ▸ dvd_rfl⟩
    rw [hp]
    decide
  rcases hintact [] ⟨0, p⟩ ⟨0, [1]⟩ [] rfl hempty with ⟨fs', hsuffix, heq⟩ | hlow
  · have hfive : (basics fs').length = 5 := by
      rw [heq, streamOf_cons, packets_one]
      rfl
    unfold behindFullFrames at hsuffix
    generalize (streamOf (behindFull p)).take (2 ^ 23) = b at hb hsuffix
    generalize (streamOf (behindFull p)).drop (2 ^ 23) = c at hc hsuffix
    rw [suffix_cons_iff, suffix_cons_iff, suffix_nil] at hsuffix
    rcases hsuffix with rfl | rfl | rfl
    · rw [basics_cons, length_append] at hfive
      have hfirst : (plainFrame b).basic.length = 2 ^ 23 := hb
      omega
    · rw [basics_cons, length_append] at hfive
      have hsecond : (plainFrame c).basic.length = 2 ^ 23 + 12 := hc
      omega
    · cases hfive
  · exact absurd hlow (by decide)

/-- The session is a proper one, and the second payload is lost. -/
theorem behindFull_lost : Session (fun _ => 0) (behindFullNet p) (behindFull p) (behindFullFrames p) ∧
      ¬ReadsExactly (fun _ => 0) (behindFullNet p) (behindFull p) := by
  have hsession := behindFull_session hp
  refine ⟨hsession, ?_⟩
  rw [hsession.between.reads_iff hsession.stream hsession.room hsession.maxPacketSize]
  exact behindFull_not_intact hp

end

end BehindFull

end ObConnector.Net
