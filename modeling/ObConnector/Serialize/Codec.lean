/-
# ObConnector.Serialize.Codec -- the primitive encoders and decoders.

`ob_serialize.c` writes integers in groups of seven bits (`encode_vi64`, `encode_vi32`), single bytes
(`encode_i8`) and strings as a length, the bytes and a terminator (`encode_vstr_with_len`), each at a
position of a buffer that it advances. An encoder first asks whether its bytes fit; a decoder checks
as it goes, and looks at the byte at its position before it asks whether that byte is there.

A buffer is the bytes that the length argument announces, so a load at or past that length is outside
it. Values of the C integer types are bit patterns (`BitVec`); the casts between signed and unsigned
types of one width are the identity on them.

An encoder that fits writes the base-128 digits of its value (`encodeVi_fits`). A decoder has a result
exactly when the number ends in the buffer before the shift reaches the width of the value
(`decodeVi_ends`, `decodeVi_fault`).
-/
import ObConnector.Lib.Buffer
import ObConnector.Lib.VarInt

namespace ObConnector.Serialize

open Lib Lib.VarInt List

/-! ## The functions -/

/-- The return codes. -/
inductive Ret where
  | success
  | error
  | sizeOverflow
  | deserializeError
  deriving DecidableEq, Repr

/-- What an encoder leaves: its return code, the buffer and the position. -/
structure Written where
  ret : Ret
  buf : List UInt8
  pos : Nat
  deriving DecidableEq, Repr

/-- What a decoder leaves: its return code, the value if it has stored one, and the position. -/
structure Decoded (α : Type) where
  ret : Ret
  val : Option α
  pos : Nat
  deriving DecidableEq, Repr

/-- `OB_MAX_V1B`, `OB_MAX_V2B` and so on. -/
def obMaxVB (k : Nat) : Nat := 2 ^ (7 * k) - 1

/-- `encoded_length_vi64`. -/
def encodedLengthVi64 (val : BitVec 64) : Nat :=
  let v := val.toNat
  if v ≤ obMaxVB 1 then 1
  else if v ≤ obMaxVB 2 then 2
  else if v ≤ obMaxVB 3 then 3
  else if v ≤ obMaxVB 4 then 4
  else if v ≤ obMaxVB 5 then 5
  else if v ≤ obMaxVB 6 then 6
  else if v ≤ obMaxVB 7 then 7
  else if v ≤ obMaxVB 8 then 8
  else if v ≤ obMaxVB 9 then 9
  else 10

/-- `encoded_length_vi32`. -/
def encodedLengthVi32 (val : BitVec 32) : Nat :=
  let v := val.toNat
  if v ≤ obMaxVB 1 then 1
  else if v ≤ obMaxVB 2 then 2
  else if v ≤ obMaxVB 3 then 3
  else if v ≤ obMaxVB 4 then 4
  else 5

/-- The loop of the encoders, and the byte behind it. -/
def encodeLoop (buf : List UInt8) (pos v : Nat) : Except Fault (List UInt8 × Nat) :=
  if v > obMaxVB 1 then do
    let buf' ← writeAt buf pos [UInt8.ofNat (v ||| 0x80)]
    encodeLoop buf' (pos + 1) (v >>> 7)
  else do
    let buf' ← writeAt buf pos [UInt8.ofNat (v &&& 0x7f)]
    .ok (buf', pos + 1)
termination_by v
decreasing_by
  rw [Nat.shiftRight_eq_div_pow]
  simp only [obMaxVB] at *
  omega

/-- The common body of `encode_vi64` and `encode_vi32`. -/
def encodeVi {w : Nat} (encodedLength : BitVec w → Nat) (buf : List UInt8) (pos : Nat) (val : BitVec w) :
    Except Fault Written :=
  if (buf.length : Int) - pos ≥ encodedLength val then do
    let (buf', pos') ← encodeLoop buf pos val.toNat
    .ok ⟨.success, buf', pos'⟩
  else .ok ⟨.sizeOverflow, buf, pos⟩

/-- `encode_vi64`. -/
def encodeVi64 : List UInt8 → Nat → BitVec 64 → Except Fault Written := encodeVi encodedLengthVi64

/-- `encode_vi32`. -/
def encodeVi32 : List UInt8 → Nat → BitVec 32 → Except Fault Written := encodeVi encodedLengthVi32

/-- A shift to the left of an unsigned operand of `w` bits. -/
def shiftLeft (w x shift : Nat) : Except Fault Nat :=
  if shift < w then .ok ((x <<< shift) % 2 ^ w) else .error .shiftTooFar

/-- The state of a decoder between two bytes. -/
structure Reading where
  ret : Ret
  tmpPos : Nat
  v : Nat
  shift : Nat

/-- The loop of the decoders. The byte at `tmp_pos` is looked at before its position is checked. -/
def decodeLoop (w : Nat) (buf : List UInt8) : Nat → Nat → Nat → Nat → Except Fault Reading
  | 0, _, _, _ => .error .outOfFuel
  | fuel + 1, tmpPos, v, shift => do
    let c ← readAt buf tmpPos 1
    if leNat c &&& 0x80 = 0 then .ok ⟨.success, tmpPos, v, shift⟩
    else if (buf.length : Int) - tmpPos < 1 then .ok ⟨.deserializeError, tmpPos, v, shift⟩
    else do
      let part ← shiftLeft w (leNat c &&& 0x7f) shift
      decodeLoop w buf fuel (tmpPos + 1) (v ||| part) (shift + 7)

/-- What the decoders do behind their loop. -/
def decodeEnd (w : Nat) (buf : List UInt8) (pos : Nat) (r : Reading) : Except Fault (Decoded (BitVec w)) :=
  if r.ret = .success then
    if (buf.length : Int) - r.tmpPos < 1 then .ok ⟨.deserializeError, none, pos⟩
    else do
      let c ← readAt buf r.tmpPos 1
      let part ← shiftLeft w (leNat c &&& 0x7f) r.shift
      .ok ⟨.success, some (BitVec.ofNat w (r.v ||| part)), r.tmpPos + 1⟩
  else .ok ⟨r.ret, none, pos⟩

/-- The common body of `decode_vi64` and `decode_vi32`. -/
def decodeVi (w : Nat) (buf : List UInt8) (pos : Nat) : Except Fault (Decoded (BitVec w)) := do
  let r ← decodeLoop w buf (buf.length + 1) pos 0 0
  decodeEnd w buf pos r

/-- `decode_vi64`. -/
def decodeVi64 : List UInt8 → Nat → Except Fault (Decoded (BitVec 64)) := decodeVi 64

/-- `decode_vi32`. -/
def decodeVi32 : List UInt8 → Nat → Except Fault (Decoded (BitVec 32)) := decodeVi 32

/-- `encode_i8`. -/
def encodeI8 (buf : List UInt8) (pos : Nat) (val : BitVec 8) : Except Fault Written :=
  if (buf.length : Int) - pos ≥ 1 then do
    let buf' ← writeAt buf pos [UInt8.ofBitVec val]
    .ok ⟨.success, buf', pos + 1⟩
  else .ok ⟨.sizeOverflow, buf, pos⟩

/-- `decode_i8`, which keeps the position in an `int`. -/
def decodeI8 (buf : List UInt8) (pos : Nat) : Except Fault (Decoded (BitVec 8)) :=
  let intPos : Int := Int.bmod pos (2 ^ 32)
  if (buf.length : Int) - intPos ≥ 1 then do
    let c ← readAt buf intPos 1
    if intPos = 2 ^ 31 - 1 then .error .intOverflow
    else .ok ⟨.success, some (BitVec.ofNat 8 (leNat c)), (intPos + 1).toNat⟩
  else .ok ⟨.deserializeError, none, pos⟩

/-- `encode_int16_t`. -/
def encodeInt16T (buf : List UInt8) (pos : Nat) (val : BitVec 16) : Except Fault Written :=
  encodeVi32 buf pos (val.signExtend 32)

/-- `encode_uint16_t`. -/
def encodeUint16T (buf : List UInt8) (pos : Nat) (val : BitVec 16) : Except Fault Written :=
  encodeVi32 buf pos (val.setWidth 32)

/-- `encoded_length_int16_t`. -/
def encodedLengthInt16T (val : BitVec 16) : Nat := encodedLengthVi32 (val.signExtend 32)

/-- `encoded_length_uint16_t`. -/
def encodedLengthUint16T (val : BitVec 16) : Nat := encodedLengthVi32 (val.setWidth 32)

/-- The common body of `decode_int16_t` and `decode_uint16_t`: a value is stored in any case. -/
def decode16 (buf : List UInt8) (pos : Nat) : Except Fault (Decoded (BitVec 16)) := do
  let d ← decodeVi32 buf pos
  .ok ⟨d.ret, some ((d.val.getD 0).setWidth 16), d.pos⟩

/-- `decode_int16_t`. -/
def decodeInt16T : List UInt8 → Nat → Except Fault (Decoded (BitVec 16)) := decode16

/-- `decode_uint16_t`. -/
def decodeUint16T : List UInt8 → Nat → Except Fault (Decoded (BitVec 16)) := decode16

/-- `encoded_length_vstr_with_len`. -/
def encodedLengthVstrWithLen (len : Int) : Int := encodedLengthVi64 (BitVec.ofInt 64 len) + len + 1

/-- The write of a terminator. -/
def putTerminator (w : Written) : Except Fault Written := do
  let buf' ← writeAt w.buf w.pos [0]
  .ok ⟨w.ret, buf', w.pos + 1⟩

/-- The copy of `len` bytes of `vbuf`, behind an encoded length. -/
def putData (vbuf : Option (List UInt8)) (len : Int) (w : Written) : Except Fault Written :=
  match vbuf with
  | none => .ok w
  | some data =>
    if w.ret = .success ∧ len > 0 then do
      let bs ← readAt data 0 len.toNat
      let buf' ← writeAt w.buf w.pos bs
      .ok ⟨w.ret, buf', w.pos + len.toNat⟩
    else .ok w

/-- `encode_vstr_with_len`; `vbuf` is `none` when it is NULL. The room that is asked for is narrowed to
32 bits. -/
def encodeVstrWithLen (buf : List UInt8) (pos : Nat) (vbuf : Option (List UInt8)) (len : Int) :
    Except Fault Written :=
  if len ≥ 0 ∧ (buf.length : Int) - pos ≥ Int.bmod (encodedLengthVstrWithLen len) (2 ^ 32) then do
    let w ← encodeVi64 buf pos (BitVec.ofInt 64 len)
    let w' ← putData vbuf len w
    putTerminator w'
  else .ok ⟨.sizeOverflow, buf, pos⟩

/-- What a string decoder leaves: where in the buffer the string stands, if there is one, the
destination, the length it reports and the position. -/
structure VStr where
  str : Option Nat
  dest : List UInt8
  len : Int
  pos : Nat
  deriving DecidableEq, Repr

/-- `decode_vstr_nocopy`; `lenp` is what `*lenp` holds before. -/
def decodeVstrNocopy (buf : List UInt8) (pos : Nat) (lenp : Int) : Except Fault VStr := do
  let d ← decodeVi64 buf pos
  let tmpLen : Int := (d.val.getD 0).toInt
  if d.ret ≠ .success then .ok ⟨none, [], -1, pos⟩
  else if tmpLen ≥ 0 then
    if (buf.length : Int) - d.pos ≥ tmpLen then .ok ⟨some d.pos, [], tmpLen, d.pos + (tmpLen.toNat + 1)⟩
    else .ok ⟨none, [], -1, pos⟩
  else .ok ⟨none, [], lenp, pos⟩

/-- `decode_vstr`, which also copies the string to `dest`. -/
def decodeVstr (buf : List UInt8) (pos : Nat) (dest : List UInt8) (lenp : Int) : Except Fault VStr := do
  let d ← decodeVi64 buf pos
  let tmpLen : Int := (d.val.getD 0).toInt
  if d.ret ≠ .success ∨ tmpLen > dest.length then .ok ⟨none, dest, -1, pos⟩
  else if tmpLen ≥ 0 then
    if (buf.length : Int) - d.pos ≥ tmpLen then do
      let bs ← readAt buf d.pos tmpLen.toNat
      let dest' ← writeAt dest 0 bs
      .ok ⟨some d.pos, dest', tmpLen, d.pos + (tmpLen.toNat + 1)⟩
    else .ok ⟨none, dest, -1, pos⟩
  else .ok ⟨none, dest, lenp, pos⟩

/-! ## Encoding integers -/

theorem digit_or (v : Nat) : UInt8.ofNat (v ||| 0x80) = UInt8.ofNat (v % 128 + 128) := by
  have hall : ∀ x : Fin 256, (x.val ||| 0x80) = x.val % 128 + 128 := by decide +kernel
  have hbyte : v % 2 ^ 8 ||| 0x80 % 2 ^ 8 = v % 256 % 128 + 128 := hall ⟨v % 256, Nat.mod_lt _ (by decide)⟩
  have hor : (v ||| 0x80) % 2 ^ 8 = v % 2 ^ 8 ||| 0x80 % 2 ^ 8 := Nat.or_mod_two_pow
  apply UInt8.toNat_inj.mp
  rw [UInt8.toNat_ofNat', UInt8.toNat_ofNat']
  omega

variable {v : Nat}

theorem digit_and (h : v < 128) : UInt8.ofNat (v &&& 0x7f) = UInt8.ofNat v := by
  have hmask : v &&& 0x7f = v % 2 ^ 7 := Nat.and_two_pow_sub_one_eq_mod v 7
  rw [hmask, Nat.mod_eq_of_lt (by omega)]

/-- The loop of the encoders writes the digits of its value, behind what is done already. -/
theorem encodeLoop_append (v : Nat) : ∀ (done rest : List UInt8), (encode v).length ≤ rest.length →
      encodeLoop (done ++ rest) done.length v =
        .ok ((done ++ encode v) ++ rest.drop (encode v).length, done.length + (encode v).length) := by
  induction v using Nat.strongRecOn with
  | ind v ih =>
    intro done rest hfit
    have hone b (hr : 1 ≤ rest.length) :
        writeAt (done ++ rest) done.length [b] = .ok ((done ++ [b]) ++ rest.drop 1) :=
      writeAt_append done [b] hr
    by_cases hv : v < 128
    · rw [encode_small hv] at hfit ⊢
      rw [encodeLoop, if_neg (by simp only [obMaxVB]; omega), digit_and hv, hone _ hfit]
      rfl
    rw [encode_large (by omega), length_cons] at hfit
    have hstep := ih (v / 128) (by omega) (done ++ [UInt8.ofNat (v % 128 + 128)]) (rest.drop 1)
      (by rw [length_drop]; omega)
    rw [length_append, length_singleton] at hstep
    have hshift : v >>> 7 = v / 128 := Nat.shiftRight_eq_div_pow v 7
    rw [encodeLoop, if_pos (by simp only [obMaxVB]; omega), digit_or, hone _ (by omega), ok_bind, hshift,
      hstep, @encode_large v (by omega)]
    simp only [append_assoc, singleton_append, drop_drop, length_cons]
    congr 2
    · rw [add_comm 1]
    · omega

variable {buf : List UInt8} {pos : Nat}

/-- The digits of a value go to their place and leave the rest of the buffer as it is. -/
theorem encodeLoop_fits (h : pos + (encode v).length ≤ buf.length) : encodeLoop buf pos v =
      .ok (buf.take pos ++ (encode v ++ buf.drop (pos + (encode v).length)), pos + (encode v).length) := by
  have hpos : (buf.take pos).length = pos := by
    rw [length_take]
    omega
  have hloop := encodeLoop_append v (buf.take pos) (buf.drop pos) (by rw [length_drop]; omega)
  rw [hpos, take_append_drop, drop_drop, append_assoc] at hloop
  exact hloop

variable {w : Nat}

/-- An encoding whose announced length is that of the digits. -/
theorem encodeVi_fits {encodedLength : BitVec w → Nat} {val : BitVec w}
    (hlen : encodedLength val = (encode val.toNat).length) (h : pos + encodedLength val ≤ buf.length) :
    encodeVi encodedLength buf pos val =
      .ok ⟨.success, buf.take pos ++ (encode val.toNat ++ buf.drop (pos + encodedLength val)),
        pos + encodedLength val⟩ := by
  rw [encodeVi, if_pos (by omega), hlen, encodeLoop_fits (by omega)]
  rfl

theorem encodeVi_overflow {encodedLength : BitVec w → Nat} {val : BitVec w}
    (h : buf.length < pos + encodedLength val) :
    encodeVi encodedLength buf pos val = .ok ⟨.sizeOverflow, buf, pos⟩ := by
  rw [encodeVi, if_neg (by omega)]

theorem obMaxVB_lt {k : Nat} (hk : 1 ≤ k) : v ≤ obMaxVB k ↔ (encode v).length ≤ k := by
  rw [length_encode_le hk, obMaxVB, Nat.pow_mul]
  have hpos : 0 < 128 ^ k := Nat.pow_pos (by decide)
  show v ≤ 128 ^ k - 1 ↔ v < 128 ^ k
  omega

/-- **The thresholds of `encoded_length_vi64` count the digits.** -/
theorem encodedLengthVi64_eq (val : BitVec 64) : encodedLengthVi64 val = (encode val.toNat).length := by
  have hmost : (encode val.toNat).length ≤ 10 := by
    rw [length_encode_le (by decide)]
    exact lt_of_lt_of_le val.isLt (by decide)
  have hleast := length_encode_pos val.toNat
  unfold encodedLengthVi64
  simp (disch := decide) only [obMaxVB_lt]
  split_ifs <;> omega

/-- **The thresholds of `encoded_length_vi32` count the digits.** -/
theorem encodedLengthVi32_eq (val : BitVec 32) : encodedLengthVi32 val = (encode val.toNat).length := by
  have hmost : (encode val.toNat).length ≤ 5 := by
    rw [length_encode_le (by decide)]
    exact lt_of_lt_of_le val.isLt (by decide)
  have hleast := length_encode_pos val.toNat
  unfold encodedLengthVi32
  simp (disch := decide) only [obMaxVB_lt]
  split_ifs <;> omega

/-! ## Decoding integers -/

theorem continues_and (b : UInt8) : leNat [b] &&& 0x80 = 0 ↔ continues b = false := by
  have hall : ∀ x : Fin 256, (x.val &&& 0x80 = 0) ↔ x.val < 128 := by decide +kernel
  have hbyte := hall ⟨b.toNat, b.toNat_lt⟩
  have hone : leNat [b] = b.toNat := by simp [leNat]
  rw [hone, hbyte, continues]
  simp

theorem digit_mask (b : UInt8) : leNat [b] &&& 0x7f = b.toNat % 128 := by
  exact Nat.and_two_pow_sub_one_eq_mod _ 7

/-- A digit added above what is decoded so far. -/
theorem or_digit {shift x : Nat} (hv : v < 2 ^ shift) (hw : shift ≤ w) :
    v ||| (x <<< shift) % 2 ^ w = (v + 2 ^ shift * x) % 2 ^ w := by
  obtain ⟨k, rfl⟩ := Nat.exists_eq_add_of_le hw
  have hcut : (2 ^ shift * x) % 2 ^ (shift + k) = 2 ^ shift * (x % 2 ^ k) := by
    rw [pow_add, Nat.mul_mod_mul_left]
  have hlt : v + 2 ^ shift * (x % 2 ^ k) < 2 ^ (shift + k) := by
    have hx : x % 2 ^ k + 1 ≤ 2 ^ k := Nat.mod_lt _ (Nat.two_pow_pos k)
    have := Nat.mul_le_mul_left (2 ^ shift) hx
    rw [pow_add]
    rw [mul_add] at this
    omega
  rw [Nat.shiftLeft_eq, mul_comm x, ← Nat.add_mod_mod v, hcut, Nat.or_comm,
    ← Nat.two_pow_add_eq_or_of_lt hv, add_comm, Nat.mod_eq_of_lt hlt]

/-- The decoders from a byte of the number on: the loop and what stands behind it. -/
def decodeFrom (w : Nat) (buf : List UInt8) (pos fuel tmpPos v shift : Nat) :
    Except Fault (Decoded (BitVec w)) := do
  let r ← decodeLoop w buf fuel tmpPos v shift
  decodeEnd w buf pos r

variable {bs : List UInt8} {b : UInt8}

theorem readAt_drop (h : buf.drop pos = b :: bs) : readAt buf pos 1 = .ok [b] := by
  have hlen := congrArg List.length h
  rw [length_drop, length_cons] at hlen
  rw [readAt_inside (by omega) (by omega), sliceAt, Int.toNat_natCast, h]
  rfl

theorem length_of_drop (h : buf.drop pos = b :: bs) : pos < buf.length := by
  have hlen := congrArg List.length h
  rw [length_drop, length_cons] at hlen
  omega

/-- Behind the last byte of the buffer there is no result. -/
theorem decodeFrom_nil {fuel tmpPos shift : Nat} (h : buf.drop tmpPos = []) :
    decodeFrom w buf pos (fuel + 1) tmpPos v shift = .error .readOutside := by
  have hlen := congrArg List.length h
  rw [length_drop, length_nil] at hlen
  rw [decodeFrom, decodeLoop, readAt_outside (by omega)]
  rfl

/-- A byte that ends the number. -/
theorem decodeFrom_ends {fuel tmpPos shift : Nat} (h : buf.drop tmpPos = b :: bs) (hb : continues b = false) :
    decodeFrom w buf pos (fuel + 1) tmpPos v shift = if shift < w then
        .ok ⟨.success, some (BitVec.ofNat w (v ||| (b.toNat % 128) <<< shift % 2 ^ w)), tmpPos + 1⟩
      else .error .shiftTooFar := by
  have hlen := length_of_drop h
  have hloop : decodeLoop w buf (fuel + 1) tmpPos v shift = .ok ⟨.success, tmpPos, v, shift⟩ := by
    rw [decodeLoop, readAt_drop h, ok_bind, if_pos ((continues_and b).mpr hb)]
  rw [decodeFrom, hloop, ok_bind, decodeEnd, if_pos rfl]
  simp only
  rw [if_neg (by omega), readAt_drop h, ok_bind, digit_mask, shiftLeft]
  split <;> rfl

/-- A byte behind which the number goes on. -/
theorem decodeFrom_continues {fuel tmpPos shift : Nat} (h : buf.drop tmpPos = b :: bs) (hb : continues b = true) :
    decodeFrom w buf pos (fuel + 1) tmpPos v shift = if shift < w then
        decodeFrom w buf pos fuel (tmpPos + 1) (v ||| (b.toNat % 128) <<< shift % 2 ^ w) (shift + 7)
      else .error .shiftTooFar := by
  have hlen := length_of_drop h
  have hnot : ¬leNat [b] &&& 0x80 = 0 := by
    rw [continues_and, hb]
    decide
  rw [decodeFrom, decodeLoop, readAt_drop h, ok_bind, if_neg hnot, if_neg (by omega), digit_mask, shiftLeft]
  split <;> rfl

theorem drop_succ_of_drop (h : buf.drop pos = b :: bs) : buf.drop (pos + 1) = bs := by
  rw [← drop_drop, h]
  rfl

/-- The number that starts at `tmp_pos` ends in the buffer and fits below the width: the decoder reads
it on top of what it has already. -/
theorem decodeFrom_number {buf : List UInt8} {pos : Nat} (bs : List UInt8) :
    ∀ {fuel tmpPos v shift : Nat}, buf.drop tmpPos = bs → bs.length < fuel → v < 2 ^ shift →
      (lead bs).length < bs.length → shift + 7 * (lead bs).length < w →
      decodeFrom w buf pos fuel tmpPos v shift =
        .ok ⟨.success, some (BitVec.ofNat w (v + 2 ^ shift * numberAt bs)), tmpPos + ((lead bs).length + 1)⟩ := by
  induction bs with
  | nil =>
    intro fuel tmpPos v shift _ _ _ hend _
    exact absurd hend (Nat.not_lt_zero _)
  | cons b bs ih =>
    intro fuel tmpPos v shift hdrop hfuel hv hend hw
    obtain ⟨fuel, rfl⟩ : ∃ k, fuel = k + 1 := ⟨fuel - 1, by omega⟩
    rw [length_cons] at hfuel hend
    cases hb : continues b with
    | false =>
      rw [lead_cons_ends hb] at ⊢
      rw [decodeFrom_ends hdrop hb, if_pos (by omega), or_digit hv (by omega), numberAt_cons_ends hb]
      have hval : BitVec.ofNat w ((v + 2 ^ shift * (b.toNat % 128)) % 2 ^ w) =
          BitVec.ofNat w (v + 2 ^ shift * (b.toNat % 128)) := by
        apply BitVec.eq_of_toNat_eq
        rw [BitVec.toNat_ofNat, BitVec.toNat_ofNat, Nat.mod_mod]
      rw [hval]
      rfl
    | true =>
      rw [lead_cons_continues hb, length_cons] at hend hw ⊢
      -- below the width nothing is cut off the new digit
      have hsum : v + 2 ^ shift * (b.toNat % 128) < 2 ^ (shift + 7) := by
        rw [Nat.pow_add]
        have := Nat.mul_le_mul_left (2 ^ shift) (show b.toNat % 128 + 1 ≤ 2 ^ 7 by omega)
        rw [Nat.mul_add] at this
        omega
      have hroom : 2 ^ (shift + 7) ≤ 2 ^ w := Nat.pow_le_pow_right (by decide) (by omega)
      rw [decodeFrom_continues hdrop hb, if_pos (by omega), or_digit hv (by omega),
        Nat.mod_eq_of_lt (Nat.lt_of_lt_of_le hsum hroom),
        ih (drop_succ_of_drop hdrop) (by omega) hsum (by omega) (by omega), numberAt_cons_continues hb]
      have hnum : v + 2 ^ shift * (b.toNat % 128) + 2 ^ (shift + 7) * numberAt bs =
          v + 2 ^ shift * (b.toNat % 128 + 128 * numberAt bs) := by
        rw [Nat.pow_add, Nat.mul_assoc, Nat.mul_add, Nat.add_assoc]
      rw [hnum, Nat.add_assoc tmpPos, Nat.add_comm 1]

/-- A number that does not end in the buffer, or not before the shift reaches the width, has no
result. -/
theorem decodeFrom_fault (bs : List UInt8) :
    ∀ {fuel tmpPos v shift : Nat}, buf.drop tmpPos = bs → bs.length < fuel →
      ¬((lead bs).length < bs.length ∧ shift + 7 * (lead bs).length < w) →
      ∃ e, decodeFrom w buf pos fuel tmpPos v shift = .error e := by
  induction bs with
  | nil =>
    intro fuel tmpPos v shift hdrop hfuel _
    obtain ⟨fuel, rfl⟩ : ∃ k, fuel = k + 1 := ⟨fuel - 1, by omega⟩
    exact ⟨_, decodeFrom_nil hdrop⟩
  | cons b bs ih =>
    intro fuel tmpPos v shift hdrop hfuel hnot
    obtain ⟨fuel, rfl⟩ : ∃ k, fuel = k + 1 := ⟨fuel - 1, by omega⟩
    rw [length_cons] at hfuel hnot
    cases hb : continues b with
    | false =>
      rw [lead_cons_ends hb, length_nil] at hnot
      rw [decodeFrom_ends hdrop hb, if_neg (by omega)]
      exact ⟨_, rfl⟩
    | true =>
      rw [lead_cons_continues hb, length_cons] at hnot
      rw [decodeFrom_continues hdrop hb]
      split
      · exact ih (drop_succ_of_drop hdrop) (by omega) (by omega)
      · exact ⟨_, rfl⟩

/-- **A number that ends in the buffer, and whose digits all stand below the width, is decoded.** -/
theorem decodeVi_ends {buf : List UInt8} {pos : Nat} (hend : (lead (buf.drop pos)).length < (buf.drop pos).length)
    (hw : 7 * (lead (buf.drop pos)).length < w) : decodeVi w buf pos =
      .ok ⟨.success, some (BitVec.ofNat w (numberAt (buf.drop pos))), pos + ((lead (buf.drop pos)).length + 1)⟩ := by
  have hfrom := @decodeFrom_number w buf pos (buf.drop pos) (buf.length + 1) pos 0 0 rfl
    (by rw [length_drop]; omega) (by decide) hend (by omega)
  rw [pow_zero, one_mul, zero_add] at hfrom
  exact hfrom

/-- **Every other input has no result**: the decoder looks behind the buffer or shifts too far. -/
theorem decodeVi_fault {buf : List UInt8} {pos : Nat}
    (h : ¬((lead (buf.drop pos)).length < (buf.drop pos).length ∧ 7 * (lead (buf.drop pos)).length < w)) :
    ∃ e, decodeVi w buf pos = .error e :=
  decodeFrom_fault (buf.drop pos) rfl (by rw [length_drop]; omega) (by rwa [zero_add])

end ObConnector.Serialize
