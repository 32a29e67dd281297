/-
# ObConnector.Protocol20.HeaderCheck -- what the header checksum detects.

The table of `ob_crc16` holds eight shifts of each byte by the reflected polynomial 0xA001
(`obCrc16Table_eq`), so a step of `ob_crc16_byte` is the step of a reflected CRC
(`obCrc16Byte_eq`). The polynomial has its top bit, hence nothing is lost on the way and a single
changed byte changes the checksum. A header that was accepted with a checksum is then refused when
any one of the 29 bytes that the checksum covers is another (`singleByte_detected`).
-/
import ObConnector.Lib.Crc
import ObConnector.Protocol20.Header

namespace ObConnector.Protocol20

open Lib Lib.Crc

/-! ## The table -/

/-- The polynomial x^16 + x^15 + x^2 + 1 of the table, reflected. -/
def crc16Poly : BitVec 16 := 0xA001

/-- Entry `i` of the table is the remainder of the byte `i`. -/
theorem obCrc16Table_eq {i : Nat} (hi : i < 256) :
    (obCrc16Table.getD i 0).toBitVec = bitSteps crc16Poly 8 (BitVec.ofNat 16 i) := by
  have hall : ∀ i : Fin 256,
      (obCrc16Table.getD i.val 0).toBitVec = bitSteps crc16Poly 8 (BitVec.ofNat 16 i.val) := by
    decide +kernel
  exact hall ⟨i, hi⟩

/-- A step of `ob_crc16` is the step of a reflected CRC. -/
theorem obCrc16Byte_eq (crc : UInt16) (b : UInt8) :
    (obCrc16Byte crc b).toBitVec = byteStep crc16Poly crc.toBitVec b := by
  have hb := b.toNat_lt
  have hdata : b.toUInt16.toBitVec = BitVec.ofNat 16 b.toNat := by
    apply BitVec.eq_of_toNat_eq
    rw [BitVec.toNat_ofNat, UInt16.toNat_toBitVec, UInt8.toNat_toUInt16, Nat.mod_eq_of_lt (by omega)]
  obtain ⟨x, hx⟩ : ∃ x, x = crc.toBitVec ^^^ BitVec.ofNat 16 b.toNat := ⟨_, rfl⟩
  -- the index is the low byte of the remainder combined with the data
  have hindex : ((crc ^^^ b.toUInt16) &&& 0xff).toNat = x.toNat % 256 := by
    rw [hx, ← hdata]
    exact Nat.and_two_pow_sub_one_eq_mod _ 8
  have hrest : crc.toBitVec >>> 8 = x >>> 8 := by
    rw [hx, BitVec.ushiftRight_xor_distrib, ofNat_byte_shift, BitVec.xor_zero]
  have hstep : (obCrc16Byte crc b).toBitVec =
      (crc.toBitVec >>> 8) ^^^ (obCrc16Table.getD (x.toNat % 256) 0).toBitVec := by
    rw [obCrc16Byte, hindex]
    rfl
  rw [hstep, obCrc16Table_eq (Nat.mod_lt _ (by decide)), ofNat_low, hrest, byteStep_eq crc16Poly (by decide), ← hx,
    bitSteps_eight crc16Poly x, BitVec.xor_comm]

theorem obCrc16_toBitVec (crc : UInt16) (bs : List UInt8) :
    (obCrc16 crc bs).toBitVec = bs.foldl (byteStep crc16Poly) crc.toBitVec := by
  induction bs generalizing crc with
  | nil => rfl
  | cons b bs ih =>
    rw [List.foldl_cons, ← obCrc16Byte_eq, ← ih]
    rfl

/-- **A burst of two bytes changes the checksum**, from whatever value it starts. -/
theorem obCrc16_ne_of_burst {as bs : List UInt8} (h : Burst 2 as bs) (crc : UInt16) :
    obCrc16 crc as ≠ obCrc16 crc bs := by
  intro heq
  apply foldl_ne_of_burst crc16Poly (by decide) (by decide) h crc.toBitVec
  rw [← obCrc16_toBitVec, ← obCrc16_toBitVec, heq]

theorem obCrc16_ne_of_differOnce {as bs : List UInt8} (h : DifferOnce as bs) (crc : UInt16) :
    obCrc16 crc as ≠ obCrc16 crc bs :=
  obCrc16_ne_of_burst (h.burst (by decide)) crc

/-! ## A changed header is refused -/

/-- The bytes the header checksum covers: the outer header and the fields in front of it. -/
def coveredBytes (buffer : List UInt8) (pktLen pktNr complen : Nat) : List UInt8 :=
  outerHeader pktLen pktNr complen ++ buffer.take 22

theorem headerCrc_covered {buffer : List UInt8} (h : (readHeader buffer).headerChecksum ≠ 0)
    (pktLen pktNr complen : Nat) :
    headerCrc buffer pktLen pktNr complen = (obCrc16 0 (coveredBytes buffer pktLen pktNr complen)).toNat := by
  rw [headerCrc, if_pos h, coveredBytes, obCrc16_append]

/-- **The header checksum detects every single-byte change.** Two byte strings that differ in exactly
one byte have different checksums, from every initial value. And a header that was accepted with a
checksum that is not 0 is refused, in the same state, once one of the 29 covered bytes is another. -/
theorem singleByte_detected {as bs : List UInt8} (hdiff : DifferOnce as bs) (crc : UInt16)
    {p p' : Ob20Protocol} {buffer buffer' : List UInt8}
    {pktLen pktNr complen pktLen' pktNr' complen' : Nat}
    (hacc : decodeProtocol20Header p buffer pktLen pktNr complen = (false, p'))
    (hsum : (readHeader buffer).headerChecksum ≠ 0)
    (hbehind : buffer'.drop 22 = buffer.drop 22)
    (hchange : DifferOnce (coveredBytes buffer pktLen pktNr complen)
      (coveredBytes buffer' pktLen' pktNr' complen')) :
    obCrc16 crc as ≠ obCrc16 crc bs ∧ (decodeProtocol20Header p buffer' pktLen' pktNr' complen').1 = true := by
  refine ⟨obCrc16_ne_of_differOnce hdiff crc, ?_⟩
  have hsame : (readHeader buffer').headerChecksum = (readHeader buffer).headerChecksum := by
    show leNat ((buffer'.drop 22).take 2) = leNat ((buffer.drop 22).take 2)
    rw [hbehind]
  have hchecksum := (decodeHeader_ok_iff.mp hacc).1.checksum
  rw [headerCrc_covered hsum] at hchecksum
  rw [decodeHeader_fails_iff]
  intro hacc'
  have hchecksum' := hacc'.checksum
  rw [headerCrc_covered (by rwa [hsame]), hsame, ← hchecksum] at hchecksum'
  exact obCrc16_ne_of_differOnce hchange 0 (UInt16.toNat_inj.mp hchecksum').symm

/-- The 24 bytes of an OB2.0 header that were sent behind the outer header 105, 0, 0. -/
def sentHeader : List UInt8 := (fillProtocol20Header (sampleProtocol 4) 105 512 0).1.drop outerHeaderSize

theorem sentHeader_accepted : HeaderAccepted (sampleProtocol 255) sentHeader 105 0 0 := by
  constructor <;> decide +kernel

theorem sentHeader_differOnce : DifferOnce (coveredBytes sentHeader 105 0 0) (coveredBytes sentHeader 361 0 0) := by
  refine ⟨rfl, 1, by decide +kernel, ?_⟩
  intro i hi
  match i with
  | 0 => exact absurd rfl hi
  | 1 => rfl
  | i + 2 => exact absurd rfl hi

theorem sentHeader_changed_refused :
    obCrc16 7 (coveredBytes sentHeader 105 0 0) ≠ obCrc16 7 (coveredBytes sentHeader 361 0 0) ∧
      (decodeProtocol20Header (sampleProtocol 255) sentHeader 361 0 0).1 = true :=
  singleByte_detected sentHeader_differOnce 7 (decodeHeader_ok_iff.mpr ⟨sentHeader_accepted, rfl⟩)
    (by decide +kernel) rfl sentHeader_differOnce

end ObConnector.Protocol20
