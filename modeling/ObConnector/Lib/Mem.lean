/-
# ObConnector.Lib.Mem -- a byte memory, and what it holds where.

A buffer that a program keeps reusing, moving bytes about inside it, is a memory `Nat → UInt8` with
three operations: `loadAt`, `storeAt` and `memmove` (which reads all of its source before it writes,
so that ranges may overlap). Reasoning about such code is reasoning about which bytes stand where;
`Holds m off bs` says that, and the lemmas say how the operations change it: `holds_append` splits
what is held, `holds_storeAt` and `holds_memmove` give what is written, and the two `_of_disjoint`
lemmas frame the rest. Nothing here names the driver.
-/
import ObConnector.Lib.Bytes

namespace ObConnector.Lib

open List

/-- A byte memory. -/
abbrev Mem := Nat → UInt8

/-- The `n` bytes at `off`. -/
def loadAt (m : Mem) (off n : Nat) : List UInt8 := (List.range n).map fun i => m (off + i)

/-- The memory with `bs` at `off`. -/
def storeAt (m : Mem) (off : Nat) (bs : List UInt8) : Mem :=
  fun i => if off ≤ i then (bs[i - off]?).getD (m i) else m i

/-- `memmove(m + dst, m + src, n)`. -/
def memmove (m : Mem) (dst src n : Nat) : Mem := storeAt m dst (loadAt m src n)

/-- The bytes `bs` stand at `off`. -/
def Holds (m : Mem) (off : Nat) (bs : List UInt8) : Prop := loadAt m off bs.length = bs

@[simp] theorem length_loadAt (m : Mem) (off n : Nat) : (loadAt m off n).length = n := by
  simp [loadAt]

theorem loadAt_add (m : Mem) (off a b : Nat) : loadAt m off (a + b) = loadAt m off a ++ loadAt m (off + a) b := by
  simp only [loadAt, range_add, map_append, map_map]
  congr 1
  apply map_congr_left
  intro i _
  simp only [Function.comp_apply, add_assoc]

variable {n : Nat}

theorem take_loadAt (m : Mem) (off : Nat) {k : Nat} (h : k ≤ n) : (loadAt m off n).take k = loadAt m off k := by
  obtain ⟨j, rfl⟩ := Nat.exists_eq_add_of_le h
  rw [loadAt_add, take_left' (length_loadAt m off k)]

theorem drop_loadAt (m : Mem) (off : Nat) {k : Nat} (h : k ≤ n) :
    (loadAt m off n).drop k = loadAt m (off + k) (n - k) := by
  obtain ⟨j, rfl⟩ := Nat.exists_eq_add_of_le h
  rw [loadAt_add, drop_left' (length_loadAt m off k), Nat.add_sub_cancel_left]

theorem loadAt_congr {m m' : Mem} {off off' : Nat} (h : ∀ i < n, m (off + i) = m' (off' + i)) :
    loadAt m off n = loadAt m' off' n := by
  apply map_congr_left
  intro i hi
  exact h i (mem_range.1 hi)

@[simp] theorem holds_nil (m : Mem) (off : Nat) : Holds m off [] := rfl

/-- What a load gives stands there. -/
theorem holds_loadAt (m : Mem) (off n : Nat) : Holds m off (loadAt m off n) := by
  rw [Holds, length_loadAt]

variable {m : Mem} {off : Nat}

variable {as : List UInt8}

/-- **Holding a concatenation is holding its parts one behind the other.** -/
theorem holds_append {bs : List UInt8} :
    Holds m off (as ++ bs) ↔ Holds m off as ∧ Holds m (off + as.length) bs := by
  unfold Holds
  rw [length_append, loadAt_add]
  constructor
  · intro h
    exact append_inj h (by simp)
  · rintro ⟨ha, hb⟩
    rw [ha, hb]

variable {bs : List UInt8}

theorem holds_cons {b : UInt8} : Holds m off (b :: bs) ↔ m off = b ∧ Holds m (off + 1) bs := by
  have hone : Holds m off [b] ↔ m off = b := by
    simp [Holds, loadAt]
  rw [← singleton_append, holds_append, hone]
  rfl

theorem load_of_holds (h : Holds m off bs) (hn : n = bs.length) : loadAt m off n = bs := by
  rw [hn]
  exact h

/-- What is held depends on the bytes of its range only. -/
theorem holds_congr {m' : Mem} (h : Holds m off bs) (heq : ∀ i, i < bs.length → m' (off + i) = m (off + i)) :
    Holds m' off bs := by
  unfold Holds at ⊢
  rw [loadAt_congr heq]
  exact h

/-! ## Stores -/

theorem holds_storeAt (m : Mem) (off : Nat) (bs : List UInt8) : Holds (storeAt m off bs) off bs := by
  apply ext_getElem
  · simp
  · intro i h1 h2
    simp [loadAt, storeAt, h2]

theorem storeAt_below {i : Nat} (h : i < off) : storeAt m off bs i = m i := by
  rw [storeAt, if_neg (by omega)]

theorem storeAt_above {i : Nat} (h : off + bs.length ≤ i) : storeAt m off bs i = m i := by
  unfold storeAt
  split
  · rw [List.getElem?_eq_none (by omega)]
    rfl
  · rfl

/-- A store elsewhere leaves what is held. -/
theorem holds_storeAt_of_disjoint {off' : Nat} (h : Holds m off as)
    (hdis : off + as.length ≤ off' ∨ off' + bs.length ≤ off) : Holds (storeAt m off' bs) off as := by
  apply holds_congr h
  intro i hi
  rcases hdis with hlow | hhigh
  · exact storeAt_below (by omega)
  · exact storeAt_above (by omega)

/-! ## Moves -/

/-- What stood at the source stands at the destination. -/
theorem holds_memmove {dst src : Nat} (h : Holds m src as) (hn : as.length ≤ n) :
    Holds (memmove m dst src n) dst as := by
  have hsrc : loadAt m src n = as ++ loadAt m (src + as.length) (n - as.length) := by
    rw [show n = as.length + (n - as.length) by omega, loadAt_add, h]
    simp
  have hall := holds_storeAt m dst (loadAt m src n)
  rw [hsrc, holds_append] at hall
  rw [memmove, hsrc]
  exact hall.1

/-- A move elsewhere leaves what is held. -/
theorem holds_memmove_of_disjoint {dst src : Nat} (h : Holds m off as)
    (hdis : off + as.length ≤ dst ∨ dst + n ≤ off) : Holds (memmove m dst src n) off as :=
  holds_storeAt_of_disjoint h (by rwa [length_loadAt])

end ObConnector.Lib
