/-
# ObConnector.Serialize.Bounds -- the decoders on arbitrary input.

A decoder is safe on an input when it has a result at all (no load at or behind the announced length,
no shift by the width of its operand), leaves the position inside the buffer and reports an error on
input that is cut off. `decode_vi64` and `decode_vi32` look at a byte before they check that it is
there, and nothing stops the shift: they are safe exactly on inputs whose number ends inside the
buffer within ten, respectively five, bytes. The string decoders count a terminator that they never
ask for, so one more input is unsafe for them: the one that ends right behind the string
(`decoders_safe_iff`).
-/
import ObConnector.Serialize.Codec

namespace ObConnector.Serialize

open Lib Lib.VarInt

/-! ## Integers -/

/-- The decoder of `w`-bit integers is safe on the input: it has a result, the position stays in the
buffer, and a number that is cut off or has more than `digits` digits is refused. -/
def SafeVi (w digits : Nat) (buf : List UInt8) (pos : Nat) : Prop :=
  ∃ d, decodeVi w buf pos = .ok d ∧ d.pos ≤ buf.length ∧
    (¬EndsWithin digits (buf.drop pos) → d.ret ≠ .success)

theorem safeVi_iff {w digits : Nat} (hw : ∀ n, 7 * n < w ↔ n < digits) (buf : List UInt8) (pos : Nat) :
    SafeVi w digits buf pos ↔ EndsWithin digits (buf.drop pos) := by
  constructor
  · rintro ⟨d, hd, -, -⟩
    by_contra hnot
    obtain ⟨e, he⟩ := @decodeVi_fault w buf pos (fun h => hnot ⟨(hw _).mp h.2, h.1⟩)
    rw [hd] at he
    cases he
  · intro h
    refine ⟨_, decodeVi_ends h.2 ((hw _).mpr h.1), ?_, fun hnot => absurd h hnot⟩
    have hend := h.2
    rw [List.length_drop] at hend
    show pos + ((lead (buf.drop pos)).length + 1) ≤ buf.length
    omega

theorem safeVi64_iff (buf : List UInt8) (pos : Nat) : SafeVi 64 10 buf pos ↔ EndsWithin 10 (buf.drop pos) :=
  safeVi_iff (fun n => by omega) buf pos

theorem safeVi32_iff (buf : List UInt8) (pos : Nat) : SafeVi 32 5 buf pos ↔ EndsWithin 5 (buf.drop pos) :=
  safeVi_iff (fun n => by omega) buf pos

/-! ## Strings -/

/-- The length that the number at the start of `bs` announces, as an `int64_t`. -/
def announced (bs : List UInt8) : Int := (BitVec.ofNat 64 (numberAt bs)).toInt

/-- The number of bytes behind that number. -/
def behind (bs : List UInt8) : Nat := bs.length - ((lead bs).length + 1)

/-- The input is cut off: the number does not end, or the string and its terminator are not all
there. -/
def Truncated (bs : List UInt8) : Prop := ¬EndsWithin 10 bs ∨ behind bs < announced bs + 1

/-- A string decoder is safe on the input: it has a result, the position stays in the buffer, and
truncated input gives no string. -/
def SafeVstr (buf : List UInt8) (pos : Nat) (result : Except Fault VStr) : Prop :=
  ∃ r, result = .ok r ∧ r.pos ≤ buf.length ∧ (Truncated (buf.drop pos) → r.str = none)

section Strings

variable {buf : List UInt8} {pos : Nat}

/-- The number in front of a string. -/
theorem decodeVi64_announced (h : EndsWithin 10 (buf.drop pos)) :
    decodeVi64 buf pos = .ok ⟨.success, some (BitVec.ofNat 64 (numberAt (buf.drop pos))),
        pos + ((lead (buf.drop pos)).length + 1)⟩ ∧
      buf.length = pos + ((lead (buf.drop pos)).length + 1) + behind (buf.drop pos) := by
  obtain ⟨hten, hend⟩ := h
  refine ⟨decodeVi_ends hend (by omega), ?_⟩
  rw [List.length_drop] at hend
  rw [behind, List.length_drop]
  omega

theorem decodeVstr_fault (h : ¬EndsWithin 10 (buf.drop pos)) : ∃ e, decodeVi64 buf pos = .error e :=
  decodeVi_fault fun h' => h ⟨by omega, h'.1⟩

theorem safeVstr_none (hpos : pos ≤ buf.length) (dest : List UInt8) (len : Int) :
    SafeVstr buf pos (.ok ⟨none, dest, len, pos⟩) :=
  ⟨_, rfl, hpos, fun _ => rfl⟩

theorem not_safeVstr_error (e : Fault) : ¬SafeVstr buf pos (.error e) := by
  rintro ⟨r, hr, -⟩
  cases hr

/-- The position behind a string that is found counts the terminator. -/
theorem safeVstr_found_iff {n : Int} (hends : EndsWithin 10 (buf.drop pos)) (hann : announced (buf.drop pos) = n)
    (hn : 0 ≤ n) (hroom : n ≤ behind (buf.drop pos)) (str : Nat) (dest : List UInt8) (len : Int) :
    SafeVstr buf pos (.ok ⟨some str, dest, len, pos + ((lead (buf.drop pos)).length + 1) + (n.toNat + 1)⟩) ↔
      n ≠ behind (buf.drop pos) := by
  obtain ⟨-, hlen⟩ := decodeVi64_announced hends
  constructor
  · rintro ⟨r, hr, hin, -⟩
    cases hr
    dsimp only at hin
    omega
  · intro hne
    refine ⟨_, rfl, by dsimp only; omega, ?_⟩
    rintro (hnot | hcut)
    · exact absurd hends hnot
    · omega

/-- `decode_vstr_nocopy` is unsafe where the number is, and where the string reaches the end. -/
theorem safeVstrNocopy_iff (lenp : Int) : SafeVstr buf pos (decodeVstrNocopy buf pos lenp) ↔
      EndsWithin 10 (buf.drop pos) ∧ announced (buf.drop pos) ≠ behind (buf.drop pos) := by
  by_cases hends : EndsWithin 10 (buf.drop pos)
  · obtain ⟨hnumber, hlen⟩ := decodeVi64_announced hends
    obtain ⟨n, hann⟩ : ∃ n, announced (buf.drop pos) = n := ⟨_, rfl⟩
    rw [decodeVstrNocopy, hnumber, ok_bind, and_iff_right hends, hann]
    simp only [Option.getD_some, show (BitVec.ofNat 64 (numberAt (buf.drop pos))).toInt = n from hann, ne_eq,
      not_true_eq_false, if_false]
    split_ifs with hn hroom
    · exact safeVstr_found_iff hends hann hn (by omega) _ _ _
    · exact iff_of_true (safeVstr_none (by omega) _ _) (by omega)
    · exact iff_of_true (safeVstr_none (by omega) _ _) (by omega)
  · obtain ⟨e, he⟩ := decodeVstr_fault hends
    rw [decodeVstrNocopy, he]
    exact iff_of_false (not_safeVstr_error e) (fun h => hends h.1)

/-- The copy of a string that lies in the buffer to a destination that takes it. -/
theorem copy_string {n start : Nat} {dest : List UInt8} (hin : start + n ≤ buf.length) (hdest : n ≤ dest.length) :
    ∃ bs, readAt buf start n = .ok bs ∧ ∃ dest', writeAt dest 0 bs = .ok dest' := by
  refine ⟨_, readAt_inside (by omega) (by omega), _, writeAt_inside ?_⟩
  rw [sliceAt, List.length_take]
  omega

/-- `decode_vstr` refuses a string that its destination does not take; otherwise it is unsafe where
`decode_vstr_nocopy` is. -/
theorem safeVstr_iff (dest : List UInt8) (lenp : Int) : SafeVstr buf pos (decodeVstr buf pos dest lenp) ↔
      EndsWithin 10 (buf.drop pos) ∧
        (announced (buf.drop pos) ≠ behind (buf.drop pos) ∨ dest.length < announced (buf.drop pos)) := by
  by_cases hends : EndsWithin 10 (buf.drop pos)
  · obtain ⟨hnumber, hlen⟩ := decodeVi64_announced hends
    obtain ⟨n, hann⟩ : ∃ n, announced (buf.drop pos) = n := ⟨_, rfl⟩
    rw [decodeVstr, hnumber, ok_bind, and_iff_right hends, hann]
    simp only [Option.getD_some, show (BitVec.ofNat 64 (numberAt (buf.drop pos))).toInt = n from hann, ne_eq,
      not_true_eq_false, false_or]
    split_ifs with hbig hn hroom
    · exact iff_of_true (safeVstr_none (by omega) _ _) (.inr hbig)
    · obtain ⟨bs, hread, dest', hwrite⟩ := @copy_string buf n.toNat
        (pos + ((lead (buf.drop pos)).length + 1)) dest (by omega) (by omega)
      rw [hread, ok_bind, hwrite, or_iff_left hbig]
      exact safeVstr_found_iff hends hann hn (by omega) _ _ _
    · exact iff_of_true (safeVstr_none (by omega) _ _) (by omega)
    · exact iff_of_true (safeVstr_none (by omega) _ _) (by omega)
  · obtain ⟨e, he⟩ := decodeVstr_fault hends
    rw [decodeVstr, he]
    exact iff_of_false (not_safeVstr_error e) (fun h => hends h.1)

end Strings

/-! ## All of them -/

/-- **On which inputs the decoders are safe.** An integer must end inside the buffer, within ten bytes
for 64 bits and five for 32; a string must not end exactly where the buffer ends. -/
theorem decoders_safe_iff (buf : List UInt8) (pos : Nat) (dest : List UInt8) (lenp : Int) :
    (SafeVi 64 10 buf pos ↔ EndsWithin 10 (buf.drop pos)) ∧
    (SafeVi 32 5 buf pos ↔ EndsWithin 5 (buf.drop pos)) ∧
    (SafeVstr buf pos (decodeVstrNocopy buf pos lenp) ↔
      EndsWithin 10 (buf.drop pos) ∧ announced (buf.drop pos) ≠ behind (buf.drop pos)) ∧
    (SafeVstr buf pos (decodeVstr buf pos dest lenp) ↔ EndsWithin 10 (buf.drop pos) ∧
        (announced (buf.drop pos) ≠ behind (buf.drop pos) ∨ dest.length < announced (buf.drop pos))) :=
  ⟨safeVi64_iff buf pos, safeVi32_iff buf pos, safeVstrNocopy_iff lenp, safeVstr_iff dest lenp⟩

/-- A number that is cut off after one byte, one of eleven bytes, and a string that ends with its
buffer. -/
theorem cutOff_inputs_fail : decodeVi64 [0x80] 0 = .error .readOutside ∧ ¬SafeVi 64 10 [0x80] 0 ∧
    decodeVi64 (List.replicate 10 0x80 ++ [1]) 0 = .error .shiftTooFar ∧
    ¬SafeVi 64 10 (List.replicate 10 0x80 ++ [1]) 0 ∧
    decodeVstrNocopy [1, 65] 0 0 = .ok ⟨some 1, [], 1, 3⟩ ∧
    ¬SafeVstr [1, 65] 0 (decodeVstrNocopy [1, 65] 0 0) := by
  refine ⟨by decide, ?_, by decide, ?_, by decide, ?_⟩
  · rw [safeVi64_iff]
    decide
  · rw [safeVi64_iff]
    decide
  · rw [safeVstrNocopy_iff]
    rintro ⟨-, hne⟩
    exact hne (by decide)

end ObConnector.Serialize
