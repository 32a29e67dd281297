/-
# ObConnector.FormatModels.NumberText -- numbers printed to a fixed width.

`format_unsigned` takes its digits from a table of pairs and stores them towards the front of a scratch buffer,
`format_signed` adds the sign, and `data_fmt_nd` copies the text behind zeros. The buffer has room for every
64-bit number, and `data_fmt_nd` either fills the width or changes nothing (`dataFmtNd_exact`).
-/
import ObConnector.FormatModels.IsoWeek
import ObConnector.Lib.CString

namespace ObConnector.FormatModels

open Lib List

/-! ## the code -/

def maxDigits10StrSize : Nat := 23

/-- `DIGITS`. -/
def digitPairs : List UInt8 := ascii ("0001020304050607080910111213141516171819" ++
  "2021222324252627282930313233343536373839" ++ "4041424344454647484950515253545556575859" ++
  "6061626364656667686970717273747576777879" ++ "8081828384858687888990919293949596979899")

/-- How many bytes of the scratch buffer are in front of the pointer, and what is stored behind it. -/
abbrev Scratch := Nat × List UInt8

/-- `*--ptr = c`. -/
def push (c : UInt8) : Scratch → Except Fault Scratch
  | (0, _) => .error .writeOutside
  | (ptr + 1, text) => .ok (ptr, c :: text)

/-- The two stores from the table, for a number below 100. -/
def pushPair (value : Nat) (s : Scratch) : Except Fault Scratch := do
  let index : Nat := value <<< 1 % 2 ^ 32
  let s ← push (← tableAt digitPairs (index + 1)) s
  push (← tableAt digitPairs index) s

def formatUnsigned (value : Nat) : Scratch → Except Fault Scratch :=
  if 100 ≤ value then fun s => pushPair (value % 100) s >>= formatUnsigned (value / 100)
  else if value < 10 then push (UInt8.ofNat (48 + value))
  else pushPair value

/-- The text behind `ptr_`, and `len_`. -/
def formatSigned (value : BitVec 64) : Except Fault (List UInt8 × Int) := do
  let absValue := if value.toInt < 0 then ~~~value + 1 else value
  let s ← formatUnsigned absValue.toNat (maxDigits10StrSize - 1, [])
  let s ← (if value.toInt < 0 then push 45 s else .ok s)
  return (s.2, maxDigits10StrSize - 1 - s.1)

/-- What is returned, with the buffer and the position behind the call. -/
def dataFmtNd (buffer : List UInt8) (pos : Nat) (n target : Int) : Except Fault (Int × List UInt8 × Nat) :=
  if n ≤ 0 ∨ target < 0 ∨ 999999999 < target then .ok (1, buffer, pos)
  else if (buffer.length : Int) - pos < n then .ok (1, buffer, pos)
  else do
    let (text, len) ← formatSigned (BitVec.ofInt 64 target)
    if n < len then return (1, buffer, pos)
    else
      let buffer ← writeAt buffer pos (replicate (n - len).toNat 48)
      let buffer ← writeAt buffer (pos + (n - len).toNat) (← readAt text 0 len.toNat)
      return (0, buffer, pos + n.toNat)

/-! ## digits from the last one to the first -/

/-- The stores put the text in front of what is there. -/
def Puts (f : Scratch → Except Fault Scratch) (text : List UInt8) : Prop :=
  ∀ room behind, f (room + text.length, behind) = .ok (room, text ++ behind)

variable {f g : Scratch → Except Fault Scratch} {first second : List UInt8}

theorem puts_push (c : UInt8) : Puts (push c) [c] := fun _ _ => rfl

/-- What is stored later stands in front. -/
theorem Puts.bind (hf : Puts f second) (hg : Puts g first) : Puts (fun s => f s >>= g) (first ++ second) := by
  intro room behind
  rw [length_append, ← add_assoc, append_assoc]
  simp only [hf (room + first.length), ok_bind, hg room]

theorem puts_pushPair {v : Nat} (hv : v < 100) : Puts (pushPair v) [digitByte (v / 10), digitByte (v % 10)] := by
  have htable : tableAt digitPairs (v <<< 1 % 2 ^ 32 : Nat) = .ok (digitByte (v / 10)) ∧
      tableAt digitPairs ((v <<< 1 % 2 ^ 32 : Nat) + 1) = .ok (digitByte (v % 10)) := by
    unfold digitPairs ascii
    decide +revert +kernel
  intro room behind
  simp only [pushPair, htable.1, htable.2, ok_bind]
  rfl

theorem puts_formatUnsigned (value : Nat) : Puts (formatUnsigned value) (decimal value) := by
  -- by induction on the number, which loses its last two digits
  induction value using Nat.strong_induction_on with
  | _ value ih =>
    unfold formatUnsigned
    split
    · have h := (puts_pushPair (Nat.mod_lt value (show 0 < 100 by decide))).bind (ih (value / 100) (by omega))
      rw [decimal_of_le (by omega), decimal_of_le (n := value / 10) (by omega), append_assoc, Nat.div_div_eq_div_mul]
      rwa [show value % 100 / 10 = value / 10 % 10 by omega, show value % 100 % 10 = value % 10 by omega] at h
    split
    · rename_i hsmall
      rw [decimal_of_lt hsmall]
      exact puts_push _
    rw [decimal_of_le (by omega), decimal_of_lt (n := value / 10) (by omega)]
    exact puts_pushPair (by omega)

/-! ## the sign and the width -/

/-- A number in decimal, with its sign. -/
def signedText (value : Int) : List UInt8 := (if value < 0 then [45] else []) ++ decimal value.natAbs

theorem formatSigned_eq (value : BitVec 64) :
    formatSigned value = .ok (signedText value.toInt, (signedText value.toInt).length) := by
  have hsize := value.isLt
  have hlow := value.le_toInt
  have hhigh := value.toInt_lt
  have habs : (if value.toInt < 0 then ~~~value + 1 else value).toNat = value.toInt.natAbs := by
    rw [BitVec.toInt_eq_toNat_cond]
    split
    · rw [if_neg (by omega)]
      omega
    rw [if_pos (by omega), BitVec.toNat_add, BitVec.toNat_not, show (1 : BitVec 64).toNat = 1 from rfl]
    omega
  have hlen : (signedText value.toInt).length ≤ 22 := by
    have hdigits := length_decimal_le (n := value.toInt.natAbs) (by omega)
    unfold signedText
    split <;> simp only [length_append, length_nil, length_singleton] <;> omega
  have hputs : Puts (fun s => formatUnsigned value.toInt.natAbs s >>= fun s =>
      if value.toInt < 0 then push 45 s else .ok s) (signedText value.toInt) := by
    refine (puts_formatUnsigned _).bind ?_
    split
    · exact puts_push 45
    · exact fun _ _ => rfl
  have h := hputs (22 - (signedText value.toInt).length) []
  rw [Nat.sub_add_cancel hlen, append_nil] at h
  obtain ⟨s, hs, hsign⟩ := bind_eq_ok.1 h
  simp only [formatSigned, habs, show maxDigits10StrSize = 23 from rfl, hs, ok_bind, hsign, pure_eq_ok]
  congr 2
  omega

/-- **Numbers are printed exactly.** Every 64-bit number is in the scratch buffer with its sign and without leading
zeros, and a number of up to nine digits fills its width, or nothing changes. -/
theorem dataFmtNd_exact (buffer : List UInt8) (pos : Nat) (n target : Int) :
    (∀ value : BitVec 64, formatSigned value = .ok (signedText value.toInt, (signedText value.toInt).length)) ∧
    if 0 < n ∧ (0 ≤ target ∧ target ≤ 999999999) ∧ pos + n ≤ buffer.length ∧ (decimal target.toNat).length ≤ n then
      ∃ digits : List UInt8, digits.length = n ∧ (∀ c ∈ digits, IsDigit c) ∧ readDecimal 0 digits = target ∧
        dataFmtNd buffer pos n target =
          .ok (0, buffer.take pos ++ digits ++ buffer.drop (pos + n.toNat), pos + n.toNat)
    else dataFmtNd buffer pos n target = .ok (1, buffer, pos) := by
  refine ⟨formatSigned_eq, ?_⟩
  by_cases hrange : n ≤ 0 ∨ target < 0 ∨ 999999999 < target
  · rw [if_neg (by omega), dataFmtNd, if_pos hrange]
  by_cases hroom : (buffer.length : Int) - pos < n
  · rw [if_neg (by omega), dataFmtNd, if_neg hrange, if_pos hroom]
  have htext : signedText (BitVec.ofInt 64 target).toInt = decimal target.toNat := by
    rw [BitVec.toInt_ofInt, Int.bmod_eq_of_le (by omega) (by omega), signedText, if_neg (by omega), nil_append]
    congr 1
    omega
  rw [dataFmtNd, if_neg hrange, if_neg hroom, formatSigned_eq, htext, ok_bind]
  dsimp only
  by_cases hwide : n < (decimal target.toNat).length
  · rw [if_pos hwide, if_neg (by omega)]
    rfl
  have hprint : printfZero n.toNat target.toNat =
      replicate (n - (decimal target.toNat).length).toNat 48 ++ decimal target.toNat := by
    rw [printfZero, show n.toNat - (decimal target.toNat).length = (n - (decimal target.toNat).length).toNat by omega]
  have hlength : (printfZero n.toNat target.toNat).length = n.toNat := by
    rw [hprint, length_append, length_replicate]
    omega
  rw [if_pos (by omega), if_neg hwide, readAt_inside (by omega) (by omega), sliceAt]
  refine ⟨printfZero n.toNat target.toNat, by omega, ?_, ?_, ?_⟩
  · intro c hc
    rcases mem_append.1 (hprint ▸ hc) with hc | hc
    · rw [eq_of_mem_replicate hc]
      decide
    · exact isDigit_of_mem_decimal hc
  · rw [readDecimal_printfZero]
    omega
  · have h := @writeAt_inside buffer pos (printfZero n.toNat target.toNat) (by omega)
    rw [hprint, writeAt_behind _ _ (by rw [← hprint]; omega), ← hprint, hlength, length_replicate] at h
    obtain ⟨b, hzeros, hdigits⟩ := bind_eq_ok.1 h
    simp only [hzeros, ok_bind, Int.toNat_natCast, Int.toNat_zero, drop_zero, take_length, hdigits, pure_eq_ok]

end ObConnector.FormatModels
