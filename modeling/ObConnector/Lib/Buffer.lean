/-
# ObConnector.Lib.Buffer -- bounded byte buffers whose misuse is a value.

C code that runs past its buffer does not return a wrong answer, it has no answer at all. Here that
is made a value: a computation lives in `Except Fault`, and every load and store states its range.
`readAt` and `writeAt` are the only accesses; each succeeds exactly when its range lies inside the
buffer (`readAt_eq_ok_iff`, `writeAt_eq_ok_iff`). A loop that may not end carries fuel and faults
with `outOfFuel`, so "terminates" is "some fuel gives a result".

`Tlv` is the key / length / value triple that such buffers carry, with two bytes of key and four of
length. Nothing here names the driver.
-/
import ObConnector.Lib.Bytes

namespace ObConnector.Lib

open List

/-- Why a computation of a C function has no result. -/
inductive Fault where
  /-- a load whose range leaves the buffer -/
  | readOutside
  /-- a store whose range leaves the buffer -/
  | writeOutside
  /-- a call through a null function pointer -/
  | nullCall
  /-- an index past the end of a fixed table -/
  | tableOverrun
  /-- a division by zero -/
  | divideByZero
  /-- a signed operation whose result is no `int` -/
  | intOverflow
  /-- a shift by the width of its operand or more -/
  | shiftTooFar
  /-- a use of a block that has been freed -/
  | useAfterFree
  /-- the fuel of a loop is spent -/
  | outOfFuel
  deriving DecidableEq, Repr

section Binding

variable {α β : Type}

@[simp] theorem ok_bind (a : α) (f : α → Except Fault β) : (Except.ok a >>= f) = f a := rfl

@[simp] theorem error_bind (e : Fault) (f : α → Except Fault β) :
    ((Except.error e : Except Fault α) >>= f) = .error e := rfl

@[simp] theorem pure_eq_ok (a : α) : (pure a : Except Fault α) = .ok a := rfl

/-- A sequence of computations has a result exactly when each of them has one. -/
theorem bind_eq_ok {x : Except Fault α} {f : α → Except Fault β} {b : β} :
    (x >>= f) = .ok b ↔ ∃ a, x = .ok a ∧ f a = .ok b := by
  cases x with
  | error e => simp
  | ok a => simp

theorem exists_ok_bind {x : Except Fault α} {a : α} {f : α → Except Fault β} (hx : x = .ok a)
    (hf : ∃ b, f a = .ok b) : ∃ b, (x >>= f) = .ok b := by
  rw [hx]
  exact hf

end Binding

/-! ## Loads -/

/-- Load `n` bytes at `off`. -/
def readAt (b : List UInt8) (off : Int) (n : Nat) : Except Fault (List UInt8) :=
  if 0 ≤ off ∧ off + n ≤ b.length then .ok ((b.drop off.toNat).take n) else .error .readOutside

/-- The bytes a load of `n` bytes at `off` gives when it stays inside. -/
def sliceAt (b : List UInt8) (off : Int) (n : Nat) : List UInt8 := (b.drop off.toNat).take n

variable {b : List UInt8}

theorem readAt_inside {off : Int} {n : Nat} (h0 : 0 ≤ off) (h1 : off + n ≤ b.length) :
    readAt b off n = .ok (sliceAt b off n) := by
  rw [readAt, if_pos ⟨h0, h1⟩, sliceAt]

theorem readAt_outside {off : Int} {n : Nat} (h : ¬(0 ≤ off ∧ off + n ≤ b.length)) :
    readAt b off n = .error .readOutside := by
  rw [readAt, if_neg h]

variable {bs : List UInt8}

/-- **A load succeeds exactly when its range is inside the buffer.** -/
theorem readAt_eq_ok_iff {off : Int} {n : Nat} :
    readAt b off n = .ok bs ↔ (0 ≤ off ∧ off + n ≤ b.length) ∧ sliceAt b off n = bs := by
  by_cases h : 0 ≤ off ∧ off + n ≤ b.length
  · rw [readAt_inside h.1 h.2]
    simp [h]
  rw [readAt_outside h]
  simp [h]

/-- The slice of a concatenation that starts where the second part starts. -/
theorem sliceAt_append {as cs : List UInt8} {off : Int} {n : Nat} (ho : off = as.length) (hn : n = bs.length) :
    sliceAt (as ++ (bs ++ cs)) off n = bs := by
  subst ho hn
  rw [sliceAt, Int.toNat_natCast, drop_left, take_left]

/-! ## Stores -/

/-- Store `bs` at `off`. -/
def writeAt (b : List UInt8) (off : Nat) (bs : List UInt8) : Except Fault (List UInt8) :=
  if off + bs.length ≤ b.length then
    .ok (b.take off ++ bs ++ b.drop (off + bs.length))
  else .error .writeOutside

theorem writeAt_inside {b : List UInt8} {off : Nat} {bs : List UInt8} (h : off + bs.length ≤ b.length) :
    writeAt b off bs = .ok (b.take off ++ bs ++ b.drop (off + bs.length)) := by
  rw [writeAt, if_pos h]

theorem writeAt_outside {off : Nat} (h : b.length < off + bs.length) : writeAt b off bs = .error .writeOutside := by
  rw [writeAt, if_neg (by omega)]

/-- A store keeps the size of its buffer. -/
theorem length_of_writeAt {b' : List UInt8} {off : Nat} (h : writeAt b off bs = .ok b') : b'.length = b.length := by
  unfold writeAt at h
  split at h
  · cases h
    simp only [length_append, length_take, length_drop]
    omega
  · cases h

/-- A store right behind a filled part of the buffer lengthens that part. -/
theorem writeAt_append (done bs : List UInt8) {rest : List UInt8} (h : bs.length ≤ rest.length) :
    writeAt (done ++ rest) done.length bs = .ok ((done ++ bs) ++ rest.drop bs.length) := by
  rw [writeAt_inside (by simp only [length_append]; omega), take_left, ← drop_drop, drop_left]

/-- A store is two stores, one behind the other. -/
theorem writeAt_behind {b : List UInt8} {off : Nat} (as bs : List UInt8) (h : off + (as ++ bs).length ≤ b.length) :
    writeAt b off (as ++ bs) = writeAt b off as >>= fun b => writeAt b (off + as.length) bs := by
  obtain ⟨front, rest, rfl, rfl⟩ : ∃ front rest, b = front ++ rest ∧ off = front.length :=
    ⟨b.take off, b.drop off, (take_append_drop off b).symm, by rw [length_take]; omega⟩
  simp only [length_append] at h
  rw [writeAt_append _ _ (by rw [length_append]; omega), writeAt_append _ _ (by omega), ok_bind, ← length_append,
    writeAt_append _ _ (by rw [length_drop]; omega), drop_drop, length_append, ← append_assoc front]

/-- A store over a part of its own length replaces that part. -/
theorem writeAt_over {pre old post : List UInt8} {off : Nat} (ho : off = pre.length)
    (hlen : old.length = bs.length) : writeAt (pre ++ (old ++ post)) off bs = .ok (pre ++ (bs ++ post)) := by
  rw [ho, writeAt_append pre bs (by simp only [length_append]; omega), ← hlen, drop_left, append_assoc]

/-! ## Key, length, value -/

/-- A key with its value bytes. -/
structure Tlv where
  key : Nat
  value : List UInt8
  deriving DecidableEq, Repr

/-- The wire form: two bytes of key, four of length, then the value. -/
def Tlv.bytes (t : Tlv) : List UInt8 := leBytes 2 t.key ++ (leBytes 4 t.value.length ++ t.value)

/-- The wire form of a sequence. -/
def tlvBytes (ts : List Tlv) : List UInt8 := ts.flatMap Tlv.bytes

@[simp] theorem Tlv.length_bytes (t : Tlv) : t.bytes.length = 6 + t.value.length := by
  simp [Tlv.bytes]; omega

@[simp] theorem tlvBytes_nil : tlvBytes [] = [] := rfl

@[simp] theorem tlvBytes_cons (t : Tlv) (ts : List Tlv) : tlvBytes (t :: ts) = t.bytes ++ tlvBytes ts := by
  simp [tlvBytes]

@[simp] theorem tlvBytes_append (ts us : List Tlv) : tlvBytes (ts ++ us) = tlvBytes ts ++ tlvBytes us := by
  simp [tlvBytes]

end ObConnector.Lib
