/-
# ObConnector.Lib.Linked -- linked lists over a pool of records.

Records are named by the elements of a type, and lists are made by pointers inside the records:
`Linked` for lists with a `next` pointer, `Chained` for lists with `prev` and `next` (`Link`). Each says
which records hang off a root, in which order. `listAdd` and `listDelete` are the usual operations on
the second kind. On a list they add and remove the head (`chained_listAdd`, `chained_listDelete`), and
they leave alone every list that shares no record with it (`listAdd_frame`, `listDelete_frame`).
-/
import Mathlib.Data.List.Nodup
import Mathlib.Logic.Function.Basic

namespace ObConnector.Lib

open List

variable {α : Type}

/-! ## Lists with one pointer -/

/-- The records `xs`, in this order, hang off a root by their `next` pointers. -/
def Linked (next : α → Option α) : Option α → List α → Prop
  | root, [] => root = none
  | root, x :: xs => root = some x ∧ Linked next (next x) xs

/-- Only the pointers of the list's own records matter. -/
theorem Linked.congr {next next' : α → Option α} {root : Option α} {xs : List α} (h : Linked next root xs)
    (hsame : ∀ x ∈ xs, next' x = next x) : Linked next' root xs := by
  induction xs generalizing root with
  | nil => exact h
  | cons x xs ih =>
    obtain ⟨hroot, hrest⟩ := h
    refine ⟨hroot, ?_⟩
    rw [hsame x mem_cons_self]
    exact ih hrest fun y hy => hsame y (mem_cons_of_mem x hy)

/-! ## Lists with two pointers -/

/-- The pointers of a record in a doubly linked list. -/
structure Link (α : Type) where
  prev : Option α
  next : Option α
  deriving DecidableEq, Repr

/-- The records `xs` hang off a root by their `next` pointers and lead back, the first one to
`before`. -/
def Chained (links : α → Link α) : Option α → Option α → List α → Prop
  | _, root, [] => root = none
  | before, root, x :: xs => root = some x ∧ (links x).prev = before ∧ Chained links (some x) (links x).next xs

theorem Chained.congr {links links' : α → Link α} {before root : Option α} {xs : List α}
    (h : Chained links before root xs) (hsame : ∀ x ∈ xs, links' x = links x) : Chained links' before root xs := by
  induction xs generalizing before root with
  | nil => exact h
  | cons x xs ih =>
    obtain ⟨hroot, hprev, hrest⟩ := h
    have hx := hsame x mem_cons_self
    refine ⟨hroot, by rw [hx]; exact hprev, ?_⟩
    rw [hx]
    exact ih hrest fun y hy => hsame y (mem_cons_of_mem x hy)

variable [DecidableEq α]

/-- Put `element` in front of the list at `root`; the new root is `element`. -/
def listAdd (links : α → Link α) (root : Option α) (element : α) : α → Link α :=
  let placed :=
    match root with
    | none => Function.update links element { links element with prev := none }
    | some r =>
      let relinked :=
        match (links r).prev with
        | some p => Function.update links p { links p with next := some element }
        | none => links
      let behind := Function.update relinked element { relinked element with prev := (relinked r).prev }
      Function.update behind r { behind r with prev := some element }
  Function.update placed element { placed element with next := root }

/-- Take `element` out of the list at `root`; the second part is the new root. -/
def listDelete (links : α → Link α) (root : Option α) (element : α) : (α → Link α) × Option α :=
  let (links', root') :=
    match (links element).prev with
    | some p => (Function.update links p { links p with next := (links element).next }, root)
    | none => (links, (links element).next)
  match (links' element).next with
  | some n => (Function.update links' n { links' n with prev := (links' element).prev }, root')
  | none => (links', root')

section Add

variable {links : α → Link α} {root : Option α} {xs : List α} {e : α}

section

variable (h : Chained links none root xs) (he : e ∉ xs)
include h he

/-- What the records are after `listAdd` in front of a list. -/
theorem listAdd_apply (y : α) : listAdd links root e y =
      if y = e then ⟨none, root⟩ else if some y = root then { links y with prev := some e } else links y := by
  cases xs with
  | nil =>
    obtain rfl : root = none := h
    by_cases hy : y = e
    · subst hy
      simp [listAdd]
    · simp [listAdd, hy]
  | cons x xs =>
    obtain ⟨rfl, hprev, -⟩ := h
    have hxe : x ≠ e := fun hxe => he (hxe ▸ mem_cons_self)
    by_cases hy : y = e
    · subst hy
      simp [listAdd, hprev, Function.update_of_ne hxe.symm]
    by_cases hyx : y = x
    · subst hyx
      simp [listAdd, hprev, hy]
    · simp [listAdd, hprev, hy, hyx]

theorem chained_listAdd (hxs : xs.Nodup) : Chained (listAdd links root e) none (some e) (e :: xs) := by
  have happ := listAdd_apply h he
  refine ⟨rfl, by rw [happ, if_pos rfl], ?_⟩
  rw [happ, if_pos rfl]
  cases xs with
  | nil => exact h
  | cons x xs =>
    obtain ⟨rfl, hprev, hrest⟩ := h
    have hxe : x ≠ e := fun hxe => he (hxe ▸ mem_cons_self)
    refine ⟨rfl, by rw [happ, if_neg hxe, if_pos rfl], ?_⟩
    rw [happ, if_neg hxe, if_pos rfl]
    -- behind the old head nothing changes
    apply Chained.congr hrest
    intro y hy
    have hye : y ≠ e := fun hye => he (hye ▸ mem_cons_of_mem x hy)
    have hyx : some y ≠ some x := by
      intro hyx
      cases hyx
      exact (nodup_cons.mp hxs).1 hy
    rw [happ, if_neg hye, if_neg hyx]

theorem listAdd_frame {y : α} (hye : y ≠ e) (hy : y ∉ xs) : listAdd links root e y = links y := by
  rw [listAdd_apply h he, if_neg hye, if_neg]
  rintro rfl
  cases xs with
  | nil => cases h
  | cons x xs =>
    cases h.1
    exact hy mem_cons_self

end

end Add

section Delete

variable {links : α → Link α} {x : α} {xs : List α}

section

variable (h : Chained links none (some x) (x :: xs))
include h

/-- The head of a list is taken out. -/
theorem listDelete_apply : (listDelete links (some x) x).2 = (links x).next ∧
      ∀ y, (listDelete links (some x) x).1 y =
        if some y = (links x).next then { links y with prev := none } else links y := by
  obtain ⟨-, hprev, hrest⟩ := h
  cases hnext : (links x).next with
  | none => simp [listDelete, hprev, hnext]
  | some n =>
    refine ⟨by simp [listDelete, hprev, hnext], ?_⟩
    intro y
    by_cases hy : y = n
    · subst hy
      simp [listDelete, hprev, hnext]
    · simp [listDelete, hprev, hnext, hy]

theorem chained_listDelete (hxs : (x :: xs).Nodup) :
    Chained (listDelete links (some x) x).1 none (listDelete links (some x) x).2 xs := by
  obtain ⟨hroot, happ⟩ := listDelete_apply h
  rw [hroot]
  obtain ⟨-, hprev, hrest⟩ := h
  cases xs with
  | nil => exact hrest
  | cons y ys =>
    obtain ⟨hnext, -, hrest⟩ := hrest
    rw [hnext] at happ ⊢
    refine ⟨rfl, by rw [happ, if_pos rfl], ?_⟩
    rw [happ, if_pos rfl]
    apply Chained.congr hrest
    intro z hz
    rw [happ, if_neg]
    intro hzy
    cases hzy
    exact (nodup_cons.mp (nodup_cons.mp hxs).2).1 hz

theorem listDelete_frame {y : α} (hy : y ∉ xs) : (listDelete links (some x) x).1 y = links y := by
  obtain ⟨-, happ⟩ := listDelete_apply h
  rw [happ, if_neg]
  intro hnext
  obtain ⟨-, -, hrest⟩ := h
  rw [← hnext] at hrest
  cases xs with
  | nil => cases hrest
  | cons z zs =>
    cases hrest.1
    exact hy mem_cons_self

end

end Delete

/-- The head of one list moves to the front of another. -/
theorem chained_move {links : α → Link α} {x : α} {xs ys : List α} {root : Option α}
    (hfrom : Chained links none (some x) (x :: xs)) (hto : Chained links none root ys)
    (hnodup : ((x :: xs) ++ ys).Nodup) :
    Chained (listAdd (listDelete links (some x) x).1 root x) none (listDelete links (some x) x).2 xs ∧
      Chained (listAdd (listDelete links (some x) x).1 root x) none (some x) (x :: ys) ∧
      ∀ z, z ≠ x → z ∉ xs → z ∉ ys → listAdd (listDelete links (some x) x).1 root x z = links z := by
  obtain ⟨hxs, hys, hdisjoint⟩ := nodup_append.mp hnodup
  have hx : x ∉ ys := fun h => hdisjoint x mem_cons_self x h rfl
  have hapart y hy : y ∉ xs := fun h => hdisjoint y (mem_cons_of_mem x h) y hy rfl
  have hleft : Chained (listDelete links (some x) x).1 none root ys :=
    hto.congr fun y hy => listDelete_frame hfrom (hapart y hy)
  refine ⟨?_, chained_listAdd hleft hx hys, ?_⟩
  · apply (chained_listDelete hfrom hxs).congr
    intro y hy
    apply listAdd_frame hleft hx
    · intro hyx
      exact (nodup_cons.mp hxs).1 (hyx ▸ hy)
    · intro hmem
      exact hapart y hmem hy
  · intro z hzx hzxs hzys
    rw [listAdd_frame hleft hx hzx hzys, listDelete_frame hfrom hzxs]

end ObConnector.Lib
