/-
# ObConnector.Protocol20.PayloadCrc -- the checksum of a frame's payload.

`ob_crc32` and `ob_crc64` (`mariadb_stmt.c`) take a CRC-32C either with the processor's `crc32b` and
`crc32q` instructions, a byte at a time up to an 8-byte boundary and then 8 bytes at a time
(`crc64_sse42`), or a byte at a time from a table (`crc64_sse42_manually`). The instructions are
specified bit by bit, as the reflected CRC-32C of one and of eight little-endian bytes.

All four loops of the first function keep the checksum of what is still to come
(`Pending`), and a step of the second is the step of the reflected CRC because its table holds eight
shifts of each byte (`crc32tab_eq`). So the two agree on every buffer, whatever its length and
alignment (`crc64_agree`).
-/
import ObConnector.Lib.Crc
import ObConnector.Lib.Mem

namespace ObConnector.Protocol20.PayloadCrc

open Lib Lib.Crc List

/-! ## With the instructions -/

/-- The polynomial 0x1EDC6F41 of CRC-32C, reflected. -/
def crc32cPoly : BitVec 32 := 0x82f63b78

/-- `crc32b`: the reflected CRC-32C of one byte, from the low half of the register. -/
def crc32b (crc : BitVec 64) (b : UInt8) : BitVec 64 :=
  (serial crc32cPoly 8 (crc.setWidth 32) b.toNat).setWidth 64

/-- `crc32q`: the reflected CRC-32C of eight little-endian bytes. -/
def crc32q (crc : BitVec 64) (quad : List UInt8) : BitVec 64 :=
  (serial crc32cPoly 64 (crc.setWidth 32) (leNat quad)).setWidth 64

/-- The loop up to an 8-byte boundary, from the address `addr` on. -/
def alignLoop : Nat → BitVec 64 → List UInt8 → BitVec 64 × List UInt8
  | _, crc, [] => (crc, [])
  | addr, crc, b :: bs =>
    if addr % 8 ≠ 0 then alignLoop (addr + 1) (crc32b crc b) bs else (crc, b :: bs)

/-- `crc32_sse42_quadword`. -/
def quadword (s : BitVec 64 × List UInt8) : BitVec 64 × List UInt8 := (crc32q s.1 (s.2.take 8), s.2.drop 8)

/-- The loop over 32 bytes at a time. -/
def quad32Loop (s : BitVec 64 × List UInt8) : BitVec 64 × List UInt8 :=
  if 32 ≤ s.2.length then quad32Loop (quadword (quadword (quadword (quadword s)))) else s
termination_by s.2.length
decreasing_by
  simp only [quadword, length_drop]
  omega

/-- The loop over 8 bytes at a time. -/
def quadLoop (s : BitVec 64 × List UInt8) : BitVec 64 × List UInt8 :=
  if 8 ≤ s.2.length then quadLoop (quadword s) else s
termination_by s.2.length
decreasing_by
  simp only [quadword, length_drop]
  omega

/-- `crc64_sse42` of the `len` bytes of `buf`, which stands at the address `addr`. -/
def crc64Sse42 (crc : BitVec 64) (addr : Nat) (buf : Mem) (len : Int) : BitVec 64 :=
  if addr ≠ 0 ∧ len > 0 then
    let s := quadLoop (quad32Loop (alignLoop addr crc (loadAt buf 0 len.toNat)))
    s.2.foldl crc32b s.1
  else crc

/-! ## With the table -/

/-- `crc32tab`. -/
def crc32tab : Array (BitVec 32) :=
  #[
    0x00000000, 0xf26b8303, 0xe13b70f7, 0x1350f3f4, 0xc79a971f, 0x35f1141c, 0x26a1e7e8, 0xd4ca64eb,
    0x8ad958cf, 0x78b2dbcc, 0x6be22838, 0x9989ab3b, 0x4d43cfd0, 0xbf284cd3, 0xac78bf27, 0x5e133c24,
    0x105ec76f, 0xe235446c, 0xf165b798, 0x030e349b, 0xd7c45070, 0x25afd373, 0x36ff2087, 0xc494a384,
    0x9a879fa0, 0x68ec1ca3, 0x7bbcef57, 0x89d76c54, 0x5d1d08bf, 0xaf768bbc, 0xbc267848, 0x4e4dfb4b,
    0x20bd8ede, 0xd2d60ddd, 0xc186fe29, 0x33ed7d2a, 0xe72719c1, 0x154c9ac2, 0x061c6936, 0xf477ea35,
    0xaa64d611, 0x580f5512, 0x4b5fa6e6, 0xb93425e5, 0x6dfe410e, 0x9f95c20d, 0x8cc531f9, 0x7eaeb2fa,
    0x30e349b1, 0xc288cab2, 0xd1d83946, 0x23b3ba45, 0xf779deae, 0x05125dad, 0x1642ae59, 0xe4292d5a,
    0xba3a117e, 0x4851927d, 0x5b016189, 0xa96ae28a, 0x7da08661, 0x8fcb0562, 0x9c9bf696, 0x6ef07595,
    0x417b1dbc, 0xb3109ebf, 0xa0406d4b, 0x522bee48, 0x86e18aa3, 0x748a09a0, 0x67dafa54, 0x95b17957,
    0xcba24573, 0x39c9c670, 0x2a993584, 0xd8f2b687, 0x0c38d26c, 0xfe53516f, 0xed03a29b, 0x1f682198,
    0x5125dad3, 0xa34e59d0, 0xb01eaa24, 0x42752927, 0x96bf4dcc, 0x64d4cecf, 0x77843d3b, 0x85efbe38,
    0xdbfc821c, 0x2997011f, 0x3ac7f2eb, 0xc8ac71e8, 0x1c661503, 0xee0d9600, 0xfd5d65f4, 0x0f36e6f7,
    0x61c69362, 0x93ad1061, 0x80fde395, 0x72966096, 0xa65c047d, 0x5437877e, 0x4767748a, 0xb50cf789,
    0xeb1fcbad, 0x197448ae, 0x0a24bb5a, 0xf84f3859, 0x2c855cb2, 0xdeeedfb1, 0xcdbe2c45, 0x3fd5af46,
    0x7198540d, 0x83f3d70e, 0x90a324fa, 0x62c8a7f9, 0xb602c312, 0x44694011, 0x5739b3e5, 0xa55230e6,
    0xfb410cc2, 0x092a8fc1, 0x1a7a7c35, 0xe811ff36, 0x3cdb9bdd, 0xceb018de, 0xdde0eb2a, 0x2f8b6829,
    0x82f63b78, 0x709db87b, 0x63cd4b8f, 0x91a6c88c, 0x456cac67, 0xb7072f64, 0xa457dc90, 0x563c5f93,
    0x082f63b7, 0xfa44e0b4, 0xe9141340, 0x1b7f9043, 0xcfb5f4a8, 0x3dde77ab, 0x2e8e845f, 0xdce5075c,
    0x92a8fc17, 0x60c37f14, 0x73938ce0, 0x81f80fe3, 0x55326b08, 0xa759e80b, 0xb4091bff, 0x466298fc,
    0x1871a4d8, 0xea1a27db, 0xf94ad42f, 0x0b21572c, 0xdfeb33c7, 0x2d80b0c4, 0x3ed04330, 0xccbbc033,
    0xa24bb5a6, 0x502036a5, 0x4370c551, 0xb11b4652, 0x65d122b9, 0x97baa1ba, 0x84ea524e, 0x7681d14d,
    0x2892ed69, 0xdaf96e6a, 0xc9a99d9e, 0x3bc21e9d, 0xef087a76, 0x1d63f975, 0x0e330a81, 0xfc588982,
    0xb21572c9, 0x407ef1ca, 0x532e023e, 0xa145813d, 0x758fe5d6, 0x87e466d5, 0x94b49521, 0x66df1622,
    0x38cc2a06, 0xcaa7a905, 0xd9f75af1, 0x2b9cd9f2, 0xff56bd19, 0x0d3d3e1a, 0x1e6dcdee, 0xec064eed,
    0xc38d26c4, 0x31e6a5c7, 0x22b65633, 0xd0ddd530, 0x0417b1db, 0xf67c32d8, 0xe52cc12c, 0x1747422f,
    0x49547e0b, 0xbb3ffd08, 0xa86f0efc, 0x5a048dff, 0x8ecee914, 0x7ca56a17, 0x6ff599e3, 0x9d9e1ae0,
    0xd3d3e1ab, 0x21b862a8, 0x32e8915c, 0xc083125f, 0x144976b4, 0xe622f5b7, 0xf5720643, 0x07198540,
    0x590ab964, 0xab613a67, 0xb831c993, 0x4a5a4a90, 0x9e902e7b, 0x6cfbad78, 0x7fab5e8c, 0x8dc0dd8f,
    0xe330a81a, 0x115b2b19, 0x020bd8ed, 0xf0605bee, 0x24aa3f05, 0xd6c1bc06, 0xc5914ff2, 0x37faccf1,
    0x69e9f0d5, 0x9b8273d6, 0x88d28022, 0x7ab90321, 0xae7367ca, 0x5c18e4c9, 0x4f48173d, 0xbd23943e,
    0xf36e6f75, 0x0105ec76, 0x12551f82, 0xe03e9c81, 0x34f4f86a, 0xc69f7b69, 0xd5cf889d, 0x27a40b9e,
    0x79b737ba, 0x8bdcb4b9, 0x988c474d, 0x6ae7c44e, 0xbe2da0a5, 0x4c4623a6, 0x5f16d052, 0xad7d5351]

/-- One turn of the loop of `crc64_sse42_manually`; the byte is a `char`. -/
def manualStep (crc : BitVec 64) (b : UInt8) : BitVec 64 :=
  (crc32tab.getD ((crc ^^^ b.toBitVec.signExtend 64) &&& 0xff).toNat 0).setWidth 64 ^^^ (crc >>> 8)

/-- `crc64_sse42_manually`. -/
def crc64Sse42Manually (crc : BitVec 64) (buf : Mem) (len : Int) : BitVec 64 :=
  (loadAt buf 0 len.toNat).foldl manualStep crc

/-- `crc64_sse42_dispatch`; `sse42` is the bit of `cpuid` that it asks for. -/
def crc64Sse42Dispatch (sse42 : Bool) (crc : BitVec 64) (addr : Nat) (buf : Mem) (len : Int) : BitVec 64 :=
  if sse42 then crc64Sse42 crc addr buf len else crc64Sse42Manually crc buf len

/-- `ob_crc32`. -/
def obCrc32 (sse42 : Bool) (crc : BitVec 64) (addr : Nat) (buf : Mem) (len : Int) : BitVec 32 :=
  (crc64Sse42Dispatch sse42 crc addr buf len &&& 0xffffffff).setWidth 32

/-! ## The loops keep what is still to come -/

/-- The checksum of the rest of the buffer, from the checksum so far. -/
def Pending (s : BitVec 64 × List UInt8) : BitVec 64 := s.2.foldl crc32b s.1

/-- The low half of a register that an instruction has written. -/
theorem crc32b_setWidth (crc : BitVec 64) (b : UInt8) :
    (crc32b crc b).setWidth 32 = byteStep crc32cPoly (crc.setWidth 32) b := by
  rw [crc32b, BitVec.setWidth_setWidth_of_le _ (by decide), BitVec.setWidth_eq, byteStep]

/-- A fold of `crc32b` in the low half, over at least one byte. -/
theorem foldl_crc32b (bs : List UInt8) (hne : bs ≠ []) (crc : BitVec 64) :
    bs.foldl crc32b crc = (bs.foldl (byteStep crc32cPoly) (crc.setWidth 32)).setWidth 64 := by
  induction bs generalizing crc with
  | nil => exact absurd rfl hne
  | cons b bs ih =>
    rw [foldl_cons, foldl_cons]
    cases bs with
    | nil => rfl
    | cons b' bs' => rw [ih (cons_ne_nil b' bs'), crc32b_setWidth]

/-- `crc32q` is eight times `crc32b`. -/
theorem crc32q_eq_foldl (crc : BitVec 64) {quad : List UInt8} (h : quad.length = 8) :
    crc32q crc quad = quad.foldl crc32b crc := by
  have hne : quad ≠ [] := by
    rintro rfl
    cases h
  have hserial := serial_leNat crc32cPoly (crc.setWidth 32) quad
  rw [h] at hserial
  rw [crc32q, hserial, foldl_crc32b quad hne]

theorem pending_quadword {s : BitVec 64 × List UInt8} (h : 8 ≤ s.2.length) : Pending (quadword s) = Pending s := by
  have htake : (s.2.take 8).length = 8 := by
    rw [length_take]
    omega
  rw [Pending, quadword, crc32q_eq_foldl _ htake, ← foldl_append, take_append_drop, Pending]

theorem length_quadword (s : BitVec 64 × List UInt8) : (quadword s).2.length = s.2.length - 8 := by
  simp [quadword]

theorem pending_quad32Loop (s : BitVec 64 × List UInt8) : Pending (quad32Loop s) = Pending s := by
  induction s using quad32Loop.induct with
  | case1 s h ih =>
    have h1 := length_quadword s
    have h2 := length_quadword (quadword s)
    have h3 := length_quadword (quadword (quadword s))
    rw [quad32Loop, if_pos h, ih, pending_quadword (by omega), pending_quadword (by omega),
      pending_quadword (by omega), pending_quadword (by omega)]
  | case2 s h => rw [quad32Loop, if_neg h]

theorem pending_quadLoop (s : BitVec 64 × List UInt8) : Pending (quadLoop s) = Pending s := by
  induction s using quadLoop.induct with
  | case1 s h ih => rw [quadLoop, if_pos h, ih, pending_quadword h]
  | case2 s h => rw [quadLoop, if_neg h]

theorem pending_alignLoop (addr : Nat) (crc : BitVec 64) (bs : List UInt8) :
    Pending (alignLoop addr crc bs) = Pending (crc, bs) := by
  induction bs generalizing addr crc with
  | nil => rfl
  | cons b bs ih =>
    rw [alignLoop]
    split
    · exact ih _ _
    · rfl

/-- `crc64_sse42` is one `crc32b` after the other. -/
theorem crc64Sse42_eq {addr : Nat} (haddr : addr ≠ 0) (crc : BitVec 64) (buf : Mem) (len : Int) :
    crc64Sse42 crc addr buf len = (loadAt buf 0 len.toNat).foldl crc32b crc := by
  by_cases hlen : len > 0
  · rw [crc64Sse42, if_pos ⟨haddr, hlen⟩]
    show Pending (quadLoop (quad32Loop (alignLoop addr crc _))) = _
    rw [pending_quadLoop, pending_quad32Loop, pending_alignLoop, Pending]
  have hzero : len.toNat = 0 := by omega
  rw [crc64Sse42, if_neg (fun h => hlen h.2), hzero]
  rfl

/-! ## The table step -/

/-- Entry `i` of the table is the remainder of the byte `i`. -/
theorem crc32tab_eq {i : Nat} (hi : i < 256) : crc32tab.getD i 0 = bitSteps crc32cPoly 8 (BitVec.ofNat 32 i) := by
  have hall : ∀ i : Fin 256, crc32tab.getD i.val 0 = bitSteps crc32cPoly 8 (BitVec.ofNat 32 i.val) := by
    decide +kernel
  exact hall ⟨i, hi⟩

theorem crc32b_lt (crc : BitVec 64) (b : UInt8) : (crc32b crc b).toNat < 2 ^ 32 := by
  rw [crc32b, BitVec.toNat_setWidth]
  exact lt_of_le_of_lt (Nat.mod_le _ _) (BitVec.isLt _)

/-- A turn of the table loop is a `crc32b`. -/
theorem manualStep_eq {crc : BitVec 64} (h : crc.toNat < 2 ^ 32) (b : UInt8) : manualStep crc b = crc32b crc b := by
  have hb := b.toNat_lt
  obtain ⟨x, hx⟩ : ∃ x, x = crc.setWidth 32 ^^^ BitVec.ofNat 32 b.toNat := ⟨_, rfl⟩
  -- the sign of the `char` is masked away
  have hsign : (b.toBitVec.signExtend 64).setWidth 8 = b.toBitVec := by
    apply BitVec.eq_of_getLsbD_eq
    intro i hi
    rw [BitVec.getLsbD_setWidth, BitVec.getLsbD_signExtend]
    simp [hi, show i < 64 by omega]
  have hbyte : (BitVec.ofNat 32 b.toNat).setWidth 8 = b.toBitVec := by
    apply BitVec.eq_of_toNat_eq
    rw [BitVec.toNat_setWidth, BitVec.toNat_ofNat, UInt8.toNat_toBitVec]
    omega
  have hindex : ((crc ^^^ b.toBitVec.signExtend 64) &&& 0xff).toNat = x.toNat % 256 := by
    have hmask : (0xff : BitVec 64).toNat = 2 ^ 8 - 1 := rfl
    have hcut : (crc ^^^ b.toBitVec.signExtend 64).setWidth 8 = x.setWidth 8 := by
      rw [BitVec.setWidth_xor, hsign, hx, BitVec.setWidth_xor, hbyte, BitVec.setWidth_setWidth_of_le _ (by decide)]
    have hnat := congrArg BitVec.toNat hcut
    rw [BitVec.toNat_setWidth, BitVec.toNat_setWidth] at hnat
    rw [BitVec.toNat_and, hmask, Nat.and_two_pow_sub_one_eq_mod, hnat]
  have hrest : crc >>> 8 = (x >>> 8).setWidth 64 := by
    rw [hx, BitVec.ushiftRight_xor_distrib, ofNat_byte_shift, BitVec.xor_zero]
    apply BitVec.eq_of_toNat_eq
    rw [BitVec.toNat_setWidth, BitVec.toNat_ushiftRight, BitVec.toNat_ushiftRight, BitVec.toNat_setWidth]
    omega
  rw [manualStep, hindex, crc32tab_eq (Nat.mod_lt _ (by decide)), ofNat_low, hrest, ← BitVec.setWidth_xor,
    ← bitSteps_eight, hx, crc32b, ← byteStep, byteStep_eq crc32cPoly (by decide)]

/-- The table loop is one `crc32b` after the other, and its checksum stays below 2^32. -/
theorem foldl_manualStep (bs : List UInt8) {crc : BitVec 64} (h : crc.toNat < 2 ^ 32) :
    bs.foldl manualStep crc = bs.foldl crc32b crc ∧ (bs.foldl crc32b crc).toNat < 2 ^ 32 := by
  induction bs generalizing crc with
  | nil => exact ⟨rfl, h⟩
  | cons b bs ih =>
    rw [foldl_cons, manualStep_eq h]
    exact ih (crc32b_lt crc b)

/-! ## Agreement -/

/-- The bytes of two buffers that lie one behind the other. -/
theorem loadAt_split (buf : Mem) (m n : Nat) :
    loadAt buf 0 (m + n) = loadAt buf 0 m ++ loadAt (fun i => buf (m + i)) 0 n := by
  rw [loadAt_add, zero_add]
  congr 1
  apply loadAt_congr
  intro i _
  rw [zero_add]

/-- **The two implementations of the payload checksum agree.** From every value below 2^32, for every
buffer at every address and every length, both give the same checksum, which is below 2^32 again; it
does not matter to `ob_crc32` which one the processor has; and the checksum of two buffers that lie
one behind the other is that of the second, started from that of the first. -/
theorem crc64_agree {crc : BitVec 64} (hcrc : crc.toNat < 2 ^ 32) {addr : Nat} (haddr : addr ≠ 0) (buf : Mem)
    (len : Int) :
    crc64Sse42 crc addr buf len = crc64Sse42Manually crc buf len ∧
    (crc64Sse42 crc addr buf len).toNat < 2 ^ 32 ∧
    obCrc32 true crc addr buf len = obCrc32 false crc addr buf len ∧
    ∀ m n : Nat, crc64Sse42 crc addr buf (m + n : Nat) =
        crc64Sse42 (crc64Sse42 crc addr buf m) (addr + m) (fun i => buf (m + i)) n ∧
      crc64Sse42Manually crc buf (m + n : Nat) =
        crc64Sse42Manually (crc64Sse42Manually crc buf m) (fun i => buf (m + i)) n := by
  obtain ⟨hmanual, hlt⟩ := foldl_manualStep (loadAt buf 0 len.toNat) hcrc
  have hagree : crc64Sse42 crc addr buf len = crc64Sse42Manually crc buf len := by
    rw [crc64Sse42_eq haddr, crc64Sse42Manually, hmanual]
  refine ⟨hagree, ?_, ?_, ?_⟩
  · rw [crc64Sse42_eq haddr]
    exact hlt
  · simp only [obCrc32, crc64Sse42Dispatch, hagree, if_true, Bool.false_eq_true, if_false]
  · intro m n
    constructor
    · rw [crc64Sse42_eq haddr, crc64Sse42_eq haddr, crc64Sse42_eq (by omega), Int.toNat_natCast,
        Int.toNat_natCast, Int.toNat_natCast, loadAt_split, foldl_append]
    · simp only [crc64Sse42Manually, Int.toNat_natCast]
      rw [loadAt_split, foldl_append]

/-- A buffer of three bytes at an odd address, from the checksum 7. -/
theorem crc64_agree_unaligned : crc64Sse42 7 4097 (fun i => UInt8.ofNat (200 + i)) 3 =
      crc64Sse42Manually 7 (fun i => UInt8.ofNat (200 + i)) 3 :=
  (crc64_agree (by decide) (by decide) _ _).1

end ObConnector.Protocol20.PayloadCrc
