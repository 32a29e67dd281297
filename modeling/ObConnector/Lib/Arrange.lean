/-
# ObConnector.Lib.Arrange -- the same things in another order.

A list is an arrangement of another one when both have the same elements of each kind, in the same order:
elements of different kinds may change places, and those of one kind may not. A fold whose steps commute
when they are of different kinds does not see the difference (`Arranged.foldl`). Nothing here names the
driver.
-/
import Mathlib.Data.List.Basic

namespace ObConnector.Lib

open List

variable {α β κ : Type} [DecidableEq κ] {kind : α → κ}

/-- The same elements of each kind, in the same order. -/
def Arranged (kind : α → κ) (as bs : List α) : Prop :=
  ∀ k, as.filter (fun a => kind a = k) = bs.filter (fun a => kind a = k)

@[refl] theorem Arranged.refl (as : List α) : Arranged kind as as := fun _ => rfl

theorem Arranged.eq_nil {bs : List α} (h : Arranged kind [] bs) : bs = [] := by
  cases bs with
  | nil => rfl
  | cons b bs =>
    have hb := h (kind b)
    rw [filter_cons_of_pos (by simp)] at hb
    cases hb

/-- The first element is the first of its kind, wherever it stands. -/
theorem Arranged.split {a : α} {as bs : List α} (h : Arranged kind (a :: as) bs) :
    ∃ before after, bs = before ++ a :: after ∧ (∀ b ∈ before, kind b ≠ kind a) ∧
      Arranged kind as (before ++ after) := by
  have ha := h (kind a)
  rw [filter_cons_of_pos (by simp)] at ha
  obtain ⟨before, after, rfl, hbefore, -, hafter⟩ := filter_eq_cons_iff.1 ha.symm
  refine ⟨before, after, rfl, fun b hb heq => hbefore b hb (decide_eq_true heq), fun k => ?_⟩
  by_cases hk : kind a = k
  · subst hk
    rw [filter_append, filter_eq_nil_iff.2 hbefore, nil_append, hafter]
  have hrest := h k
  rw [filter_cons_of_neg (by simpa using hk), filter_append, filter_cons_of_neg (by simpa using hk)] at hrest
  rw [hrest, filter_append]

section Fold

variable {f : β → α → β} {P : β → Prop}

section

variable (hP : ∀ b a, P b → P (f b a)) (hcomm : ∀ b a a', P b → kind a ≠ kind a' → f (f b a) a' = f (f b a') a)
include hP hcomm

omit [DecidableEq κ] in
/-- A step passes over steps of other kinds. -/
theorem foldl_comm {a : α} {as : List α} (h : ∀ a' ∈ as, kind a' ≠ kind a) {b : β} (hb : P b) :
    f (as.foldl f b) a = as.foldl f (f b a) := by
  induction as generalizing b with
  | nil => rfl
  | cons a' as ih =>
    rw [foldl_cons, foldl_cons, ih (fun c hc => h c (mem_cons_of_mem a' hc)) (hP b a' hb),
      hcomm b a' a hb (h a' mem_cons_self)]

/-- **An arrangement gives the same fold** when steps of different kinds commute. -/
theorem Arranged.foldl {as bs : List α} (h : Arranged kind as bs) {b : β} (hb : P b) :
    as.foldl f b = bs.foldl f b := by
  induction as generalizing bs b with
  | nil => rw [h.eq_nil]
  | cons a as ih =>
    obtain ⟨before, after, rfl, hbefore, hrest⟩ := h.split
    rw [foldl_cons, ih hrest (hP b a hb), foldl_append, foldl_append, foldl_cons, foldl_comm hP hcomm hbefore hb]

end

end Fold

end ObConnector.Lib
