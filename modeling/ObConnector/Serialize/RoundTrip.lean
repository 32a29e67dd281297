/-
# ObConnector.Serialize.RoundTrip -- what is encoded is decoded.

`RoundTrips` is the contract of an encoder, its length function and its decoder, at one value, buffer
and position. When the announced number of bytes remains, exactly these bytes are written, and the
decoder gives the value back and stops where the encoder stopped, whatever follows. Otherwise nothing
changes. It holds of the 64-, 32- and 16-bit integers because an integer has at most ten, five and
five digits, so that the last digit stands below the width of the value (`roundTrips_vi`), and of the
strings as long as the room that `encode_vstr_with_len` asks for fits 32 bits (`vstr_roundTrips`).
-/
import ObConnector.Serialize.Codec

namespace ObConnector.Serialize

open Lib Lib.VarInt List

/-! ## Integers -/

/-- The contract of an encoder, its length and its decoder. -/
structure RoundTrips {α : Type} (encoder : List UInt8 → Nat → α → Except Fault Written) (encodedLength : α → Nat)
    (decoder : List UInt8 → Nat → Except Fault (Decoded α)) (v : α) (buf : List UInt8) (pos : Nat) : Prop where
  fits : pos + encodedLength v ≤ buf.length → ∃ bytes : List UInt8, bytes.length = encodedLength v ∧
    encoder buf pos v =
      .ok ⟨.success, buf.take pos ++ (bytes ++ buf.drop (pos + encodedLength v)), pos + encodedLength v⟩ ∧
    ∀ following, decoder (buf.take pos ++ (bytes ++ following)) pos = .ok ⟨.success, some v, pos + encodedLength v⟩
  overflow : buf.length < pos + encodedLength v → encoder buf pos v = .ok ⟨.sizeOverflow, buf, pos⟩

theorem drop_take_append {buf : List UInt8} {pos : Nat} (h : pos ≤ buf.length) (bs : List UInt8) :
    (buf.take pos ++ bs).drop pos = bs :=
  drop_left' (by rw [length_take]; omega)

/-- Digits in front of anything are decoded, when they all stand below the width. -/
theorem decodeVi_encode {w k : Nat} (hk : 1 ≤ k) (hw : 7 * (k - 1) < w) {n : Nat} (hn : n < 128 ^ k)
    {buf : List UInt8} {pos : Nat} (hpos : pos ≤ buf.length) (following : List UInt8) :
    decodeVi w (buf.take pos ++ (encode n ++ following)) pos =
      .ok ⟨.success, some (BitVec.ofNat w n), pos + (encode n).length⟩ := by
  have hlead := lead_encode n following
  obtain ⟨hshort, hend⟩ := endsWithin_encode hk hn following
  have hdrop := drop_take_append hpos (encode n ++ following)
  have hdecode := @decodeVi_ends w (buf.take pos ++ (encode n ++ following)) pos
    (by rw [hdrop]; exact hend) (by rw [hdrop]; omega)
  rw [hdecode, hdrop, numberAt_encode, hlead]

/-- An integer of `w` bits with at most `k` digits. -/
theorem roundTrips_vi {w k : Nat} (hk : 1 ≤ k) (hw : 7 * (k - 1) < w) {encodedLength : BitVec w → Nat} {val : BitVec w}
    (hlen : encodedLength val = (encode val.toNat).length) (hval : val.toNat < 128 ^ k) (buf : List UInt8)
    (pos : Nat) : RoundTrips (encodeVi encodedLength) encodedLength (decodeVi w) val buf pos where
  fits := by
    intro hfit
    refine ⟨encode val.toNat, hlen.symm, encodeVi_fits hlen hfit, ?_⟩
    intro following
    rw [decodeVi_encode hk hw hval (by omega), BitVec.ofNat_toNat, BitVec.setWidth_eq, hlen]
  overflow := encodeVi_overflow

theorem roundTrips_vi64 (val : BitVec 64) (buf : List UInt8) (pos : Nat) :
    RoundTrips encodeVi64 encodedLengthVi64 decodeVi64 val buf pos :=
  roundTrips_vi (show 1 ≤ 10 by decide) (by decide) (encodedLengthVi64_eq val)
    (lt_of_lt_of_le val.isLt (by decide)) buf pos

theorem roundTrips_vi32 (val : BitVec 32) (buf : List UInt8) (pos : Nat) :
    RoundTrips encodeVi32 encodedLengthVi32 decodeVi32 val buf pos :=
  roundTrips_vi (show 1 ≤ 5 by decide) (by decide) (encodedLengthVi32_eq val)
    (lt_of_lt_of_le val.isLt (by decide)) buf pos

/-- A 16-bit value goes through 32 bits, by a cast that truncation undoes. -/
theorem roundTrips_16 {widen : BitVec 16 → BitVec 32} (hcast : ∀ val, (widen val).setWidth 16 = val)
    (val : BitVec 16) (buf : List UInt8) (pos : Nat) :
    RoundTrips (fun b p v => encodeVi32 b p (widen v)) (fun v => encodedLengthVi32 (widen v)) decode16 val buf pos where
  fits := by
    intro hfit
    obtain ⟨bytes, hbytes, hencode, hdecode⟩ := (roundTrips_vi32 (widen val) buf pos).fits hfit
    refine ⟨bytes, hbytes, hencode, ?_⟩
    intro following
    rw [decode16, hdecode following, ok_bind]
    simp only [Option.getD_some, hcast]
  overflow := (roundTrips_vi32 (widen val) buf pos).overflow

theorem setWidth_signExtend {v w : Nat} (h : v ≤ w) (val : BitVec v) : (val.signExtend w).setWidth v = val := by
  apply BitVec.eq_of_getLsbD_eq
  intro i hi
  rw [BitVec.getLsbD_setWidth, BitVec.getLsbD_signExtend]
  simp [hi, show i < w by omega]

theorem setWidth_widened {v w : Nat} (h : v ≤ w) (val : BitVec v) : (val.setWidth w).setWidth v = val := by
  rw [BitVec.setWidth_setWidth_of_le _ h, BitVec.setWidth_eq]

/-! ## Strings -/

/-- The contract of `encode_vstr_with_len` and `decode_vstr`: the string comes back in the destination
and as a pointer into the buffer. -/
structure VstrRoundTrips (data buf : List UInt8) (pos : Nat) : Prop where
  fits : (pos : Int) + encodedLengthVstrWithLen data.length ≤ buf.length → ∃ bytes : List UInt8,
    (bytes.length : Int) = encodedLengthVstrWithLen data.length ∧
    encodeVstrWithLen buf pos (some data) data.length =
      .ok ⟨.success, buf.take pos ++ (bytes ++ buf.drop (pos + bytes.length)), pos + bytes.length⟩ ∧
    ∀ following dest lenp, data.length ≤ dest.length → ∃ str,
      decodeVstr (buf.take pos ++ (bytes ++ following)) pos dest lenp =
        .ok ⟨some str, data ++ dest.drop data.length, data.length, pos + bytes.length⟩ ∧
      sliceAt (buf.take pos ++ (bytes ++ following)) str data.length = data
  overflow : (buf.length : Int) < pos + encodedLengthVstrWithLen data.length →
    encodeVstrWithLen buf pos (some data) data.length = .ok ⟨.sizeOverflow, buf, pos⟩

/-- A length as the 64-bit pattern that is encoded. -/
theorem ofInt_natCast (n : Nat) : BitVec.ofInt 64 (n : Int) = BitVec.ofNat 64 n := by
  apply BitVec.eq_of_toNat_eq
  rw [BitVec.toNat_ofInt, BitVec.toNat_ofNat]
  omega

theorem length_encode_le_five {n : Nat} (h : n < 2 ^ 31) : (encode n).length ≤ 5 := by
  rw [length_encode_le (by decide)]
  exact lt_of_lt_of_le h (by decide)

theorem encodedLengthVstr_eq {n : Nat} (h : n < 2 ^ 31) :
    encodedLengthVstrWithLen n = ((encode n).length + n + 1 : Nat) := by
  have hn : (BitVec.ofNat 64 n).toNat = n := by
    exact Nat.mod_eq_of_lt (by omega)
  rw [encodedLengthVstrWithLen, ofInt_natCast, encodedLengthVi64_eq, hn]
  rfl

/-- The room that is asked for survives the narrowing to 32 bits. -/
theorem bmod_encodedLengthVstr {n : Nat} (h : n < 2 ^ 31 - 16) :
    Int.bmod (encodedLengthVstrWithLen n) (2 ^ 32) = encodedLengthVstrWithLen n := by
  have hfive := @length_encode_le_five n (by omega)
  rw [encodedLengthVstr_eq (by omega)]
  apply Int.bmod_eq_of_le
  · omega
  · omega

/-- The narrowed room is never more than the room itself. -/
theorem bmod_le_of_nonneg {x : Int} (h : 0 ≤ x) : Int.bmod x (2 ^ 32) ≤ x := by
  rw [Int.bmod_def]
  split <;> omega

/-- `encode_vstr_with_len` writes the length, the string and a terminator. -/
theorem encodeVstr_fits {data buf : List UInt8} (hdata : data.length < 2 ^ 31) {pos : Nat}
    (hfit : pos + ((encode data.length).length + data.length + 1) ≤ buf.length) :
    encodeVstrWithLen buf pos (some data) data.length =
      .ok ⟨.success, buf.take pos ++ ((encode data.length ++ (data ++ [0])) ++
          buf.drop (pos + (encode data.length ++ (data ++ [0])).length)),
        pos + (encode data.length ++ (data ++ [0])).length⟩ := by
  have hn : (BitVec.ofNat 64 data.length).toNat = data.length := by
    exact Nat.mod_eq_of_lt (by omega)
  have helen : encodedLengthVi64 (BitVec.ofNat 64 data.length) = (encode data.length).length := by
    rw [encodedLengthVi64_eq, hn]
  have hlength : encodeVi64 buf pos (BitVec.ofInt 64 data.length) = .ok ⟨.success,
      (buf.take pos ++ encode data.length) ++ buf.drop (pos + (encode data.length).length),
      pos + (encode data.length).length⟩ := by
    rw [ofInt_natCast, encodeVi64, encodeVi_fits (encodedLengthVi64_eq _) (by rw [helen]; omega), hn, helen,
      append_assoc]
  obtain ⟨rest, hrest⟩ : ∃ rest, rest = buf.drop (pos + (encode data.length).length) := ⟨_, rfl⟩
  obtain ⟨done, hdone⟩ : ∃ done, done = buf.take pos ++ encode data.length := ⟨_, rfl⟩
  have hroom : data.length + 1 ≤ rest.length := by
    rw [hrest, length_drop]
    omega
  have hat : pos + (encode data.length).length = done.length := by
    rw [hdone, length_append, length_take]
    omega
  have hcopy : putData (some data) data.length ⟨.success, done ++ rest, done.length⟩ =
      .ok ⟨.success, (done ++ data) ++ rest.drop data.length, done.length + data.length⟩ := by
    cases data with
    | nil => simp [putData]
    | cons b bs =>
      have hread : readAt (b :: bs) 0 (b :: bs).length = .ok (b :: bs) := by
        rw [readAt_inside (by omega) (by omega), sliceAt]
        simp
      rw [putData, if_pos ⟨rfl, by simp only [length_cons]; omega⟩, Int.toNat_natCast, hread, ok_bind]
      rw [writeAt_append done (b :: bs) (by omega)]
      rfl
  have hlast : writeAt ((done ++ data) ++ rest.drop data.length) (done.length + data.length) [0] =
      .ok (((done ++ data) ++ [0]) ++ rest.drop (data.length + 1)) := by
    have happend := @writeAt_append (done ++ data) [0] (rest.drop data.length)
      (by rw [length_drop, length_singleton]; omega)
    rw [length_append, drop_drop] at happend
    exact happend
  have hroom' : buf.length - pos ≥ Int.bmod (encodedLengthVstrWithLen data.length) (2 ^ 32) := by
    rw [encodedLengthVstr_eq hdata]
    have := @bmod_le_of_nonneg ((encode data.length).length + data.length + 1 : Nat) (by omega)
    omega
  rw [encodeVstrWithLen, if_pos ⟨by omega, hroom'⟩, hlength, ok_bind, ← hrest, ← hdone, hat, hcopy, ok_bind, putTerminator, hlast, ok_bind]
  have htail : rest.drop (data.length + 1) = buf.drop (pos + (encode data.length ++ (data ++ [0])).length) := by
    rw [hrest, drop_drop]
    congr 1
    simp only [length_append, length_singleton]
    omega
  have hend : done.length + data.length + 1 = pos + (encode data.length ++ (data ++ [0])).length := by
    simp only [length_append, length_singleton]
    omega
  rw [htail, hend, hdone]
  simp only [append_assoc]

theorem toInt_ofNat_length {n : Nat} (h : n < 2 ^ 31) : (BitVec.ofNat 64 n).toInt = n := by
  rw [BitVec.toInt_eq_toNat_of_lt]
  · rw [BitVec.toNat_ofNat, Nat.mod_eq_of_lt (by omega)]
  · rw [BitVec.toNat_ofNat]
    omega

section Encoded

variable {data buf : List UInt8} {pos : Nat} (hdata : data.length < 2 ^ 31) (hpos : pos ≤ buf.length)
  (following : List UInt8)

include hdata hpos

/-- The length in front of an encoded string. -/
theorem decodeVi64_vstr : decodeVi64 (buf.take pos ++ ((encode data.length ++ (data ++ [0])) ++ following)) pos =
      .ok ⟨.success, some (BitVec.ofNat 64 data.length), pos + (encode data.length).length⟩ := by
  have hsmall : data.length < 128 ^ 10 := lt_of_lt_of_le hdata (by decide)
  rw [append_assoc (encode data.length)]
  exact decodeVi_encode (by decide) (by decide) hsmall hpos _

omit hdata in
/-- The bytes of an encoded string. -/
theorem readAt_vstr : readAt (buf.take pos ++ ((encode data.length ++ (data ++ [0])) ++ following))
        (pos + (encode data.length).length : Nat) data.length = .ok data ∧
      sliceAt (buf.take pos ++ ((encode data.length ++ (data ++ [0])) ++ following))
        (pos + (encode data.length).length : Nat) data.length = data := by
  have hlen : pos + (encode data.length).length = (buf.take pos ++ encode data.length).length := by
    rw [length_append, length_take]
    omega
  have hsplit : buf.take pos ++ ((encode data.length ++ (data ++ [0])) ++ following) =
      (buf.take pos ++ encode data.length) ++ (data ++ ([0] ++ following)) := by
    simp only [append_assoc]
  have hslice : sliceAt (buf.take pos ++ ((encode data.length ++ (data ++ [0])) ++ following))
      (pos + (encode data.length).length : Nat) data.length = data := by
    rw [hsplit, hlen, sliceAt_append rfl rfl]
  refine ⟨?_, hslice⟩
  rw [readAt_inside (by omega), hslice]
  rw [hlen]
  simp only [length_append]
  omega

omit hdata hpos in
theorem length_vstr :
    (encode data.length ++ (data ++ [0])).length = (encode data.length).length + data.length + 1 := by
  simp only [length_append, length_singleton]
  omega

omit hdata in
/-- An encoded string is all there, and its terminator is the last byte of it. -/
theorem vstr_room : ((buf.take pos ++ ((encode data.length ++ (data ++ [0])) ++ following)).length : Int) -
        (pos + (encode data.length).length : Nat) ≥ data.length ∧
      pos + (encode data.length).length + (data.length + 1) =
        pos + (encode data.length ++ (data ++ [0])).length := by
  simp only [length_append, length_take, length_singleton]
  omega

/-- `decode_vstr` reads a string back. -/
theorem decodeVstr_encoded {dest : List UInt8} (hdest : data.length ≤ dest.length) (lenp : Int) :
    decodeVstr (buf.take pos ++ ((encode data.length ++ (data ++ [0])) ++ following)) pos dest lenp =
      .ok ⟨some (pos + (encode data.length).length), data ++ dest.drop data.length, data.length,
        pos + (encode data.length ++ (data ++ [0])).length⟩ := by
  have hwrite : writeAt dest 0 data = .ok (data ++ dest.drop data.length) := by
    rw [writeAt_inside (by omega), take_zero, nil_append, zero_add]
  obtain ⟨hroom, htotal⟩ := @vstr_room data buf pos hpos following
  rw [decodeVstr, decodeVi64_vstr hdata hpos, ok_bind]
  simp only [Option.getD_some, toInt_ofNat_length hdata]
  rw [if_neg (by simp; omega), if_pos (by omega), if_pos hroom, Int.toNat_natCast, (readAt_vstr hpos following).1,
    ok_bind, hwrite, ok_bind, htotal]

/-- `decode_vstr_nocopy` finds a string. -/
theorem decodeVstrNocopy_encoded (lenp : Int) :
    decodeVstrNocopy (buf.take pos ++ ((encode data.length ++ (data ++ [0])) ++ following)) pos lenp =
      .ok ⟨some (pos + (encode data.length).length), [], data.length,
        pos + (encode data.length ++ (data ++ [0])).length⟩ := by
  obtain ⟨hroom, htotal⟩ := @vstr_room data buf pos hpos following
  rw [decodeVstrNocopy, decodeVi64_vstr hdata hpos, ok_bind]
  simp only [Option.getD_some, toInt_ofNat_length hdata]
  rw [if_neg (by simp), if_pos (by omega), if_pos hroom, Int.toNat_natCast, htotal]

end Encoded

theorem vstr_roundTrips {data : List UInt8} (hdata : data.length < 2 ^ 31 - 16) (buf : List UInt8) (pos : Nat) :
    VstrRoundTrips data buf pos := by
  have hlen := @encodedLengthVstr_eq data.length (by omega)
  constructor
  · intro hfit
    refine ⟨encode data.length ++ (data ++ [0]), by rw [hlen, length_vstr],
      encodeVstr_fits (by omega) (by omega), ?_⟩
    intro following dest lenp hdest
    exact ⟨_, decodeVstr_encoded (by omega) (by omega) following hdest lenp, (readAt_vstr (by omega) following).2⟩
  · intro hover
    rw [encodeVstrWithLen, if_neg]
    rintro ⟨-, hroom⟩
    rw [bmod_encodedLengthVstr hdata] at hroom
    omega

/-! ## All of them -/

/-- **The variable-length encodings round trip**: every 64- and 32-bit value, every 16-bit value through
either wrapper, and every string shorter than 2^31 - 16 bytes, at every position of every buffer. -/
theorem varlen_roundTrips (v64 : BitVec 64) (v32 : BitVec 32) (v16 : BitVec 16) {data : List UInt8}
    (hdata : data.length < 2 ^ 31 - 16) (buf : List UInt8) (pos : Nat) :
    RoundTrips encodeVi64 encodedLengthVi64 decodeVi64 v64 buf pos ∧
    RoundTrips encodeVi32 encodedLengthVi32 decodeVi32 v32 buf pos ∧
    RoundTrips encodeInt16T encodedLengthInt16T decodeInt16T v16 buf pos ∧
    RoundTrips encodeUint16T encodedLengthUint16T decodeUint16T v16 buf pos ∧
    VstrRoundTrips data buf pos :=
  ⟨roundTrips_vi64 v64 buf pos, roundTrips_vi32 v32 buf pos, roundTrips_16 (setWidth_signExtend (by decide)) v16 buf pos,
    roundTrips_16 (setWidth_widened (by decide)) v16 buf pos, vstr_roundTrips hdata buf pos⟩

theorem short_values_roundTrip : RoundTrips encodeVi64 encodedLengthVi64 decodeVi64 (-1) (List.replicate 12 7) 1 ∧
    VstrRoundTrips [79, 66] (List.replicate 12 7) 1 :=
  have h := varlen_roundTrips (-1) 300 (-2) (show [(79 : UInt8), 66].length < 2 ^ 31 - 16 by decide) (List.replicate 12 7) 1
  ⟨h.1, h.2.2.2.2⟩

end ObConnector.Serialize
