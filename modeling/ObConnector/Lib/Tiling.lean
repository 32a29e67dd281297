/-
# ObConnector.Lib.Tiling -- intervals that cover a range without overlap.

A bump allocator hands out consecutive intervals of one buffer. What a caller may rely on is stated
without the order in which they came: the intervals are pairwise disjoint and their union is the range
from `0` to the total (`Tiles`). The one rule a proof about such an allocator needs is that the interval
that starts at the total, added to a tiling, gives a tiling again (`Tiles.concat`). Nothing here names
the driver.
-/
import Mathlib

namespace ObConnector.Lib

/-- The interval of `length` numbers from `start` on. -/
structure Span where
  start : Nat
  length : Nat
  deriving DecidableEq, Repr

/-- The numbers of a span. -/
def Span.set (s : Span) : Set Nat := Set.Ico s.start (s.start + s.length)

/-- The spans are pairwise disjoint and cover exactly the numbers below `total`. -/
structure Tiles (spans : List Span) (total : Nat) : Prop where
  disjoint : spans.Pairwise fun s t => Disjoint s.set t.set
  covers : ⋃ s ∈ spans, s.set = Set.Ico 0 total

theorem tiles_nil : Tiles [] 0 := ⟨List.Pairwise.nil, by simp⟩

theorem Tiles.set_subset {spans : List Span} {total : Nat} (h : Tiles spans total) {s : Span} (hs : s ∈ spans) :
    s.set ⊆ Set.Ico 0 total := by
  rw [← h.covers]
  exact Set.subset_biUnion_of_mem hs

/-- **The next interval of a bump allocator keeps the tiling.** -/
theorem Tiles.concat {spans : List Span} {total : Nat} (h : Tiles spans total) (length : Nat) :
    Tiles (spans ++ [⟨total, length⟩]) (total + length) := by
  constructor
  · rw [List.pairwise_append]
    refine ⟨h.disjoint, List.pairwise_singleton _ _, ?_⟩
    intro s hs t ht
    rw [List.mem_singleton.mp ht]
    -- everything handed out so far lies below the total, the new span above it
    exact Set.disjoint_of_subset_left (h.set_subset hs) (Set.Ico_disjoint_Ico_same)
  · have hunion : ⋃ s ∈ spans ++ [⟨total, length⟩], s.set = (⋃ s ∈ spans, s.set) ∪ Set.Ico total (total + length) := by
      ext i
      simp only [List.mem_append, List.mem_singleton, Set.mem_iUnion, Set.mem_union]
      constructor
      · rintro ⟨s, hs | rfl, hi⟩
        · exact .inl ⟨s, hs, hi⟩
        · exact .inr hi
      · rintro (⟨s, hs, hi⟩ | hi)
        · exact ⟨s, .inl hs, hi⟩
        · exact ⟨⟨total, length⟩, .inr rfl, hi⟩
    rw [hunion, h.covers]
    exact Set.Ico_union_Ico_eq_Ico (Nat.zero_le _) (Nat.le_add_right _ _)

end ObConnector.Lib
