/-
# ObConnector.Protocol20.Header -- the header of an OB2.0 frame.

A frame is a 7-byte outer header (3 bytes of length, a packet number, 3 bytes that are zero here),
a 24-byte OB2.0 header, the payload and a 4-byte checksum. `fill_protocol20_header` writes the first
two, `decode_protocol20_header` reads the second back and compares it with what the connection
expects (`ob_protocol20.c`). The header checksum is a CRC-16 over the outer header and the first 22
bytes; a peer that sends 0 there switches the comparison off.

`decodeHeader_ok_iff` says what an accepted header is, and nothing more is checked: neither the
payload length nor the flags are compared with anything. A header that was written is accepted by a peer
that waits for it (`fill_decode_roundTrip`): the checksum is computed over the outer header and the
fields at once by the writer and one after the other by the reader.
-/
import ObConnector.Lib.Mem
import ObConnector.Protocol20.Flt

namespace ObConnector.Protocol20

open Lib

/-! ## CRC-16 -/

/-- `ob_crc16_table`. -/
def obCrc16Table : Array UInt16 :=
  #[
    0x0000, 0xC0C1, 0xC181, 0x0140, 0xC301, 0x03C0, 0x0280, 0xC241,
    0xC601, 0x06C0, 0x0780, 0xC741, 0x0500, 0xC5C1, 0xC481, 0x0440,
    0xCC01, 0x0CC0, 0x0D80, 0xCD41, 0x0F00, 0xCFC1, 0xCE81, 0x0E40,
    0x0A00, 0xCAC1, 0xCB81, 0x0B40, 0xC901, 0x09C0, 0x0880, 0xC841,
    0xD801, 0x18C0, 0x1980, 0xD941, 0x1B00, 0xDBC1, 0xDA81, 0x1A40,
    0x1E00, 0xDEC1, 0xDF81, 0x1F40, 0xDD01, 0x1DC0, 0x1C80, 0xDC41,
    0x1400, 0xD4C1, 0xD581, 0x1540, 0xD701, 0x17C0, 0x1680, 0xD641,
    0xD201, 0x12C0, 0x1380, 0xD341, 0x1100, 0xD1C1, 0xD081, 0x1040,
    0xF001, 0x30C0, 0x3180, 0xF141, 0x3300, 0xF3C1, 0xF281, 0x3240,
    0x3600, 0xF6C1, 0xF781, 0x3740, 0xF501, 0x35C0, 0x3480, 0xF441,
    0x3C00, 0xFCC1, 0xFD81, 0x3D40, 0xFF01, 0x3FC0, 0x3E80, 0xFE41,
    0xFA01, 0x3AC0, 0x3B80, 0xFB41, 0x3900, 0xF9C1, 0xF881, 0x3840,
    0x2800, 0xE8C1, 0xE981, 0x2940, 0xEB01, 0x2BC0, 0x2A80, 0xEA41,
    0xEE01, 0x2EC0, 0x2F80, 0xEF41, 0x2D00, 0xEDC1, 0xEC81, 0x2C40,
    0xE401, 0x24C0, 0x2580, 0xE541, 0x2700, 0xE7C1, 0xE681, 0x2640,
    0x2200, 0xE2C1, 0xE381, 0x2340, 0xE101, 0x21C0, 0x2080, 0xE041,
    0xA001, 0x60C0, 0x6180, 0xA141, 0x6300, 0xA3C1, 0xA281, 0x6240,
    0x6600, 0xA6C1, 0xA781, 0x6740, 0xA501, 0x65C0, 0x6480, 0xA441,
    0x6C00, 0xACC1, 0xAD81, 0x6D40, 0xAF01, 0x6FC0, 0x6E80, 0xAE41,
    0xAA01, 0x6AC0, 0x6B80, 0xAB41, 0x6900, 0xA9C1, 0xA881, 0x6840,
    0x7800, 0xB8C1, 0xB981, 0x7940, 0xBB01, 0x7BC0, 0x7A80, 0xBA41,
    0xBE01, 0x7EC0, 0x7F80, 0xBF41, 0x7D00, 0xBDC1, 0xBC81, 0x7C40,
    0xB401, 0x74C0, 0x7580, 0xB541, 0x7700, 0xB7C1, 0xB681, 0x7640,
    0x7200, 0xB2C1, 0xB381, 0x7340, 0xB101, 0x71C0, 0x7080, 0xB041,
    0x5000, 0x90C1, 0x9181, 0x5140, 0x9301, 0x53C0, 0x5280, 0x9241,
    0x9601, 0x56C0, 0x5780, 0x9741, 0x5500, 0x95C1, 0x9481, 0x5440,
    0x9C01, 0x5CC0, 0x5D80, 0x9D41, 0x5F00, 0x9FC1, 0x9E81, 0x5E40,
    0x5A00, 0x9AC1, 0x9B81, 0x5B40, 0x9901, 0x59C0, 0x5880, 0x9841,
    0x8801, 0x48C0, 0x4980, 0x8941, 0x4B00, 0x8BC1, 0x8A81, 0x4A40,
    0x4E00, 0x8EC1, 0x8F81, 0x4F40, 0x8D01, 0x4DC0, 0x4C80, 0x8C41,
    0x4400, 0x84C1, 0x8581, 0x4540, 0x8701, 0x47C0, 0x4680, 0x8641,
    0x8201, 0x42C0, 0x4380, 0x8341, 0x4100, 0x81C1, 0x8081, 0x4040  ]

/-- `ob_crc16_byte`. -/
def obCrc16Byte (crc : UInt16) (data : UInt8) : UInt16 :=
  (crc >>> 8) ^^^ obCrc16Table.getD ((crc ^^^ data.toUInt16) &&& 0xff).toNat 0

/-- `ob_crc16`. -/
def obCrc16 (crc : UInt16) (buffer : List UInt8) : UInt16 := buffer.foldl obCrc16Byte crc

theorem obCrc16_append (crc : UInt16) (as bs : List UInt8) :
    obCrc16 crc (as ++ bs) = obCrc16 (obCrc16 crc as) bs := by
  simp [obCrc16]

/-! ## The protocol record -/

/-- `Ob20ProtocolHeader`; the flags are kept as the 32-bit word. -/
structure Ob20ProtocolHeader where
  magicNum : Nat
  version : Nat
  connectionId : Nat
  requestId : Nat
  pktSeq : Nat
  payloadLen : Nat
  flags : Nat
  reserved : Nat
  headerChecksum : Nat
  deriving DecidableEq, Repr

/-- `Ob20Protocol`. What `realloc` adds to the write buffer is not set, so the buffer is a memory of
which the first `realWriteBufferLength` bytes may be used. -/
structure Ob20Protocol where
  header : Ob20ProtocolHeader
  extraInfoList : List Tlv
  flt : FLTInfo
  updateRequestId : Bool
  realWriteBuffer : Mem
  realWriteBufferLength : Nat

/-- `NET_HEADER_SIZE + COMP_HEADER_SIZE`. -/
def outerHeaderSize : Nat := 7

/-- `OB20_HEADER_SIZE`. -/
def ob20HeaderSize : Nat := 24

/-- `OB20_TAILER_SIZE`. -/
def ob20TailerSize : Nat := 4

/-- `OB20_EXTRAINFO_LENGTH_SIZE`. -/
def ob20ExtrainfoLengthSize : Nat := 4

/-- `MAX_PACKET_LENGTH`. -/
def maxPacketLength : Nat := 2 ^ 24 - 1

/-- The flag bit `OB_EXTRA_INFO_EXIST`. -/
def extraInfoExist (flags : Nat) : Bool := flags % 2 = 1

/-- The flag bit `OB_IS_NEW_EXTRA_INFO`. -/
def isNewExtraInfo (flags : Nat) : Bool := flags / 8 % 2 = 1

/-! ## Writing and reading a header -/

/-- The seven bytes in front of the OB2.0 header. -/
def outerHeader (len pktNr complen : Nat) : List UInt8 :=
  leBytes 3 len ++ (UInt8.ofNat pktNr :: leBytes 3 complen)

/-- The first 22 bytes of an OB2.0 header. -/
def headerFields (h : Ob20ProtocolHeader) : List UInt8 :=
  leBytes 2 h.magicNum ++ (leBytes 2 h.version ++ (leBytes 4 h.connectionId ++
    (leBytes 3 h.requestId ++ (leBytes 1 h.pktSeq ++ (leBytes 4 h.payloadLen ++
      (leBytes 4 h.flags ++ leBytes 2 h.reserved))))))

@[simp] theorem length_outerHeader (len pktNr complen : Nat) : (outerHeader len pktNr complen).length = 7 := by
  simp [outerHeader]

@[simp] theorem length_headerFields (h : Ob20ProtocolHeader) : (headerFields h).length = 22 := by
  simp [headerFields]

/-- `fill_protocol20_header`: the 31 bytes, and the record with the sequence number and the checksum
it has written. -/
def fillProtocol20Header (p : Ob20Protocol) (len pktNr complen : Nat) :
    List UInt8 × Ob20Protocol :=
  let h := { p.header with pktSeq := pktNr % 256 }
  let bytes := outerHeader len pktNr complen ++ headerFields h
  let crc := (obCrc16 0 bytes).toNat
  (bytes ++ leBytes 2 crc, { p with header := { h with headerChecksum := crc } })

/-- The little-endian field of `k` bytes at `off`. -/
def fieldAt (buffer : List UInt8) (off k : Nat) : Nat := leNat ((buffer.drop off).take k)

/-- The fields that `decode_protocol20_header` reads from the 24 bytes. -/
def readHeader (buffer : List UInt8) : Ob20ProtocolHeader where
  magicNum := fieldAt buffer 0 2
  version := fieldAt buffer 2 2
  connectionId := fieldAt buffer 4 4
  requestId := fieldAt buffer 8 3
  pktSeq := fieldAt buffer 11 1
  payloadLen := fieldAt buffer 12 4
  flags := fieldAt buffer 16 4
  reserved := fieldAt buffer 20 2
  headerChecksum := fieldAt buffer 22 2

/-- The CRC-16 that the 24 bytes are compared with: none is computed when they carry 0. -/
def headerCrc (buffer : List UInt8) (pktLen pktNr complen : Nat) : Nat :=
  if (readHeader buffer).headerChecksum ≠ 0 then
    (obCrc16 (obCrc16 0 (outerHeader pktLen pktNr complen)) (buffer.take 22)).toNat
  else 0

/-- `decode_protocol20_header` on the 24 bytes at `buffer`: whether it fails, and the record after
it. The expected sequence number is advanced even when the comparison then fails. -/
def decodeProtocol20Header (p : Ob20Protocol) (buffer : List UInt8) (pktLen pktNr complen : Nat) :
    Bool × Ob20Protocol :=
  let h := readHeader buffer
  if headerCrc buffer pktLen pktNr complen ≠ h.headerChecksum then (true, p)
  else if h.magicNum ≠ p.header.magicNum then (true, p)
  else if h.version ≠ p.header.version then (true, p)
  else if h.connectionId ≠ p.header.connectionId then (true, p)
  else if h.requestId ≠ p.header.requestId then (true, p)
  else
    let seq := (p.header.pktSeq + 1) % 256
    if h.pktSeq ≠ seq then (true, { p with header := { p.header with pktSeq := seq } })
    else (false, { p with header := { p.header with
      flags := h.flags, payloadLen := h.payloadLen, pktSeq := h.pktSeq, reserved := h.reserved,
      headerChecksum := h.headerChecksum } })

/-- Everything `decode_protocol20_header` asks of a header. -/
structure HeaderAccepted (p : Ob20Protocol) (buffer : List UInt8) (pktLen pktNr complen : Nat) :
    Prop where
  checksum : headerCrc buffer pktLen pktNr complen = (readHeader buffer).headerChecksum
  magicNum : (readHeader buffer).magicNum = p.header.magicNum
  version : (readHeader buffer).version = p.header.version
  connectionId : (readHeader buffer).connectionId = p.header.connectionId
  requestId : (readHeader buffer).requestId = p.header.requestId
  pktSeq : (readHeader buffer).pktSeq = (p.header.pktSeq + 1) % 256

/-- The record after an accepted header. -/
def acceptHeader (p : Ob20Protocol) (h : Ob20ProtocolHeader) : Ob20Protocol :=
  { p with header := { p.header with
    flags := h.flags, payloadLen := h.payloadLen, pktSeq := h.pktSeq, reserved := h.reserved,
    headerChecksum := h.headerChecksum } }

/-- **What an accepted header is.** -/
theorem decodeHeader_ok_iff {p p' : Ob20Protocol} {buffer : List UInt8} {pktLen pktNr complen : Nat} :
    decodeProtocol20Header p buffer pktLen pktNr complen = (false, p') ↔
      HeaderAccepted p buffer pktLen pktNr complen ∧ p' = acceptHeader p (readHeader buffer) := by
  constructor
  · intro h
    unfold decodeProtocol20Header at h
    simp only [ite_not] at h
    repeat' split at h
    all_goals try cases h
    refine ⟨⟨?_, ?_, ?_, ?_, ?_, ?_⟩, rfl⟩ <;> assumption
  · rintro ⟨⟨hcrc, hmagic, hversion, hconn, hreq, hseq⟩, rfl⟩
    simp [decodeProtocol20Header, hcrc, hmagic, hversion, hconn, hreq, hseq, acceptHeader]

theorem decodeHeader_fails_iff {p : Ob20Protocol} {buffer : List UInt8} {pktLen pktNr complen : Nat} :
    (decodeProtocol20Header p buffer pktLen pktNr complen).1 = true ↔
      ¬HeaderAccepted p buffer pktLen pktNr complen := by
  constructor
  · intro h hacc
    rw [decodeHeader_ok_iff.2 ⟨hacc, rfl⟩] at h
    cases h
  · intro hacc
    by_contra h
    rw [Bool.not_eq_true] at h
    exact hacc (decodeHeader_ok_iff.1 (Prod.ext h rfl)).1

/-- The fields fit their widths. -/
structure HeaderFits (h : Ob20ProtocolHeader) : Prop where
  magicNum : h.magicNum < 256 ^ 2
  version : h.version < 256 ^ 2
  connectionId : h.connectionId < 256 ^ 4
  requestId : h.requestId < 256 ^ 3
  pktSeq : h.pktSeq < 256 ^ 1
  payloadLen : h.payloadLen < 256 ^ 4
  flags : h.flags < 256 ^ 4
  reserved : h.reserved < 256 ^ 2
  headerChecksum : h.headerChecksum < 256 ^ 2

/-- **A header is read back from its bytes.** -/
theorem readHeader_headerFields {h : Ob20ProtocolHeader} (hfit : HeaderFits h) :
    readHeader (headerFields h ++ leBytes 2 h.headerChecksum) = h := by
  have hfields : readHeader (headerFields h ++ leBytes 2 h.headerChecksum) =
      ⟨leNat (leBytes 2 h.magicNum), leNat (leBytes 2 h.version), leNat (leBytes 4 h.connectionId),
        leNat (leBytes 3 h.requestId), leNat (leBytes 1 h.pktSeq), leNat (leBytes 4 h.payloadLen),
        leNat (leBytes 4 h.flags), leNat (leBytes 2 h.reserved),
        leNat (leBytes 2 h.headerChecksum)⟩ := rfl
  rw [hfields, leNat_leBytes_of_lt hfit.magicNum, leNat_leBytes_of_lt hfit.version,
    leNat_leBytes_of_lt hfit.connectionId, leNat_leBytes_of_lt hfit.requestId,
    leNat_leBytes_of_lt hfit.pktSeq, leNat_leBytes_of_lt hfit.payloadLen,
    leNat_leBytes_of_lt hfit.flags, leNat_leBytes_of_lt hfit.reserved,
    leNat_leBytes_of_lt hfit.headerChecksum]

/-! ## What is sent is accepted -/

/-- The peer waits for the next frame of this connection. -/
structure Expects (peer p : Ob20Protocol) (pktNr : Nat) : Prop where
  magicNum : peer.header.magicNum = p.header.magicNum
  version : peer.header.version = p.header.version
  connectionId : peer.header.connectionId = p.header.connectionId
  requestId : peer.header.requestId = p.header.requestId
  pktSeq : (peer.header.pktSeq + 1) % 256 = pktNr % 256

section RoundTrip

variable {p peer : Ob20Protocol} {len pktNr : Nat}

/-- The OB2.0 header of a frame, without the seven bytes in front of it. -/
theorem fill_drop (p : Ob20Protocol) (len pktNr complen : Nat) :
    (fillProtocol20Header p len pktNr complen).1.drop outerHeaderSize =
      headerFields (fillProtocol20Header p len pktNr complen).2.header ++
        leBytes 2 (fillProtocol20Header p len pktNr complen).2.header.headerChecksum := by
  rfl

theorem fill_fits (hfit : HeaderFits p.header) (len pktNr complen : Nat) :
    HeaderFits (fillProtocol20Header p len pktNr complen).2.header where
  magicNum := hfit.magicNum
  version := hfit.version
  connectionId := hfit.connectionId
  requestId := hfit.requestId
  pktSeq := Nat.mod_lt _ (by decide)
  payloadLen := hfit.payloadLen
  flags := hfit.flags
  reserved := hfit.reserved
  headerChecksum := UInt16.toNat_lt _

/-- Only the low byte of the packet number is in the outer header. -/
theorem outerHeader_mod (len pktNr complen : Nat) :
    outerHeader len (pktNr % 256) complen = outerHeader len pktNr complen := by
  have hbyte : UInt8.ofNat (pktNr % 256) = UInt8.ofNat pktNr := by
    apply UInt8.toNat_inj.1
    simp
  rw [outerHeader, hbyte, outerHeader]

/-- The checksum that is computed in two parts is the one that was computed in one. -/
theorem headerCrc_fill (hfit : HeaderFits p.header) :
    headerCrc ((fillProtocol20Header p len pktNr 0).1.drop outerHeaderSize) len (pktNr % 256) 0 =
      (fillProtocol20Header p len pktNr 0).2.header.headerChecksum := by
  rw [headerCrc, fill_drop, readHeader_headerFields (fill_fits hfit len pktNr 0)]
  split
  · rw [outerHeader_mod]
    rfl
  rename_i hzero
  exact (not_not.1 hzero).symm

/-- **A header that was written is accepted by the peer**, which then holds what was sent. -/
theorem fill_decode_roundTrip (hfit : HeaderFits p.header) (hpeer : Expects peer p pktNr) :
    ∃ peer', decodeProtocol20Header peer ((fillProtocol20Header p len pktNr 0).1.drop outerHeaderSize)
        len (pktNr % 256) 0 = (false, peer') ∧
      peer'.header.flags = p.header.flags ∧ peer'.header.payloadLen = p.header.payloadLen ∧
      peer'.header.pktSeq = pktNr % 256 ∧ peer'.header.reserved = p.header.reserved ∧
      peer'.header.headerChecksum = (fillProtocol20Header p len pktNr 0).2.header.headerChecksum := by
  have hread := readHeader_headerFields (fill_fits hfit len pktNr 0)
  rw [← fill_drop] at hread
  refine ⟨_, decodeHeader_ok_iff.2 ⟨⟨?_, ?_, ?_, ?_, ?_, ?_⟩, rfl⟩, ?_⟩
  · rw [headerCrc_fill hfit, hread]
  · rw [hread, hpeer.magicNum]
    rfl
  · rw [hread, hpeer.version]
    rfl
  · rw [hread, hpeer.connectionId]
    rfl
  · rw [hread, hpeer.requestId]
    rfl
  · rw [hread, hpeer.pktSeq]
    rfl
  · rw [hread]
    exact ⟨rfl, rfl, rfl, rfl, rfl⟩

end RoundTrip

/-- A connection that has sent the packet with this number. -/
def sampleProtocol (pktSeq : Nat) : Ob20Protocol where
  header := ⟨0x20AB, 20, 3221, 0xABCDEF, pktSeq, 77, 11, 0, 0⟩
  extraInfoList := []
  flt := zeroFlt
  updateRequestId := true
  realWriteBuffer := fun _ => 0
  realWriteBufferLength := 0

theorem sample_header_accepted :
    HeaderFits (sampleProtocol 4).header ∧ Expects (sampleProtocol 255) (sampleProtocol 4) 512 ∧
      ∃ peer', decodeProtocol20Header (sampleProtocol 255)
          ((fillProtocol20Header (sampleProtocol 4) 105 512 0).1.drop outerHeaderSize) 105 (512 % 256) 0 =
            (false, peer') ∧
        peer'.header.flags = 11 ∧ peer'.header.payloadLen = 77 ∧ peer'.header.pktSeq = 512 % 256 ∧
        peer'.header.reserved = 0 ∧ peer'.header.headerChecksum =
          (fillProtocol20Header (sampleProtocol 4) 105 512 0).2.header.headerChecksum := by
  have hfit : HeaderFits (sampleProtocol 4).header := by constructor <;> decide
  have hpeer : Expects (sampleProtocol 255) (sampleProtocol 4) 512 := ⟨rfl, rfl, rfl, rfl, rfl⟩
  exact ⟨hfit, hpeer, fill_decode_roundTrip hfit hpeer⟩

end ObConnector.Protocol20
