/-
# ObConnector.Net.Corrupted -- frames that a burst has hit.

Both checksums of a frame are reflected CRCs, so a change inside as many bytes as the checksum has
changes it. A frame with checksums is then refused (`corrupted_refused`), whichever implementation of
`ob_crc32` either side has.
-/
import ObConnector.Net.Frame
import ObConnector.Protocol20.HeaderCheck
import ObConnector.Protocol20.PayloadCrc

namespace ObConnector.Net

open Lib Lib.Crc Protocol20 Protocol20.PayloadCrc List

/-- `ob_crc32` of a payload at an address, on a processor with the instructions or without. -/
def payloadCrc (sse42 : Bool) (addr : Nat) (bs : List UInt8) : UInt32 :=
  ⟨obCrc32 sse42 0 addr (storeAt (fun _ => 0) 0 bs) bs.length⟩

theorem payloadCrc_toBitVec (sse42 : Bool) {addr : Nat} (haddr : addr ≠ 0) (bs : List UInt8) :
    (payloadCrc sse42 addr bs).toBitVec = bs.foldl (byteStep crc32cPoly) 0 := by
  have hload : loadAt (storeAt (fun _ => 0) 0 bs) 0 bs.length = bs := load_of_holds (holds_storeAt _ _ _) rfl
  have hfold : crc64Sse42Dispatch sse42 0 addr (storeAt (fun _ => 0) 0 bs) bs.length = bs.foldl crc32b 0 := by
    cases sse42
    · simp [crc64Sse42Dispatch, crc64Sse42Manually, hload, foldl_manualStep]
    · simp [crc64Sse42Dispatch, crc64Sse42_eq haddr, hload]
  have hlow : bs.foldl crc32b 0 = (bs.foldl (byteStep crc32cPoly) 0).setWidth 64 := by
    cases bs with
    | nil => rfl
    | cons b bs => exact foldl_crc32b _ (cons_ne_nil b bs) 0
  rw [payloadCrc, obCrc32, hfold, hlow]
  generalize bs.foldl (byteStep crc32cPoly) 0 = r
  apply BitVec.eq_of_toNat_eq
  simpa [Nat.and_two_pow_sub_one_eq_mod _ 32] using r.isLt

/-- A frame carries the checksum, which is not 0, of other bytes than it has: a burst has hit two of those
that the header checksum covers, or four of the payload. -/
def Corrupted (net : NET) (P : Nat) : Prop :=
  let payload := net.whereB + ob20HeaderSize
  let len := (frameHeader net).payloadLen
  let packetCrc32 := leNat (loadAt net.buff (payload + len) 4)
  (∃ sent, Burst 2 sent (coveredBytes (loadAt net.buff net.whereB ob20HeaderSize) P (net.pktNr - 1) 0) ∧
    (frameHeader net).headerChecksum = (obCrc16 0 sent).toNat ∧ (frameHeader net).headerChecksum ≠ 0) ∨
  ∃ sent sse42 addr, addr ≠ 0 ∧ Burst 4 sent (loadAt net.buff payload len) ∧
    packetCrc32 = (payloadCrc sse42 addr sent).toNat ∧ packetCrc32 ≠ 0

/-- **A corrupted frame is refused.** -/
theorem corrupted_refused {net net1 : NET} {P complen : Nat} (hread : maRealRead net = (some (P, complen), net1))
    (hcorrupted : Corrupted net1 P) (sse42 : Bool) {addr : Nat} (haddr : addr ≠ 0) (fuel : Nat) :
    ∃ net', recvFrame (payloadCrc sse42 addr) fuel net = .ok (none, net') := by
  by_cases hacc : HeaderAccepted net1.ob20 (loadAt net1.buff net1.whereB ob20HeaderSize) P (net1.pktNr - 1) 0
  · rcases hcorrupted with ⟨sent, hburst, hsum, hne⟩ | ⟨sent, sse', addr', haddr', hburst, hsum, hne⟩
    · -- the header checksum of what arrived is another
      have hchecksum := hacc.checksum
      rw [headerCrc_covered hne] at hchecksum
      exact absurd (UInt16.toNat_inj.mp (hchecksum.trans hsum)).symm (obCrc16_ne_of_burst hburst 0)
    · refine ⟨_, (recvFrame_header hread hacc fuel).trans (if_pos ?_)⟩
      rw [crcMismatch, decide_eq_true_iff, hsum]
      refine ⟨hsum ▸ hne, fun heq => ?_⟩
      have hsame := congrArg UInt32.toBitVec (UInt32.toNat_inj.mp heq)
      rw [payloadCrc_toBitVec _ haddr, payloadCrc_toBitVec _ haddr'] at hsame
      exact foldl_ne_of_burst crc32cPoly (by decide) (by decide) hburst 0 hsame.symm
  · exact recvFrame_bad_header hread hacc fuel

/-- A frame whose payload was 2 when its checksum was taken, and is 1. -/
def changedFrame : List UInt8 :=
  outerHeader 29 0 0 ++ headerFields ⟨0x20AB, 20, 7, 9, 1, 1, 0, 0, 0⟩ ++ [0, 0, 1] ++
    leBytes 4 (payloadCrc false 8 [2]).toNat

theorem changedFrame_refused : ∃ net', recvFrame (payloadCrc true 8) 0 (freshNet [changedFrame]) = .ok (none, net') := by
  generalize hnet : freshNet [changedFrame] = net
  have hlen : (maRealRead net).1 = some (29, 0) := by
    rw [← hnet]
    decide +kernel
  refine corrupted_refused (Prod.ext hlen rfl) (.inr ⟨[2], false, 8, by decide, ⟨[], [2], [1], [], ?_⟩, ?_⟩) true
    (by decide) 0 <;> rw [← hnet] <;> decide +kernel

end ObConnector.Net
