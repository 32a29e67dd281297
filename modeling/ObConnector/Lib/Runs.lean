/-
# ObConnector.Lib.Runs -- runs of a step function that may fail.

A run applies a step to one input after the other and ends at the first failure. A condition holds along
a run when every input meets it in the state it is applied to (`Along`); it is decidable when the
condition is, because the run can be followed. An invariant that every such step keeps holds at the end
of the run, and the run gets there (`runAll_invariant`). Nothing here names the driver.
-/
import Mathlib.Logic.Basic

namespace ObConnector.Lib

variable {σ α ε : Type} {step : σ → α → Except ε σ} {P : σ → α → Prop} {s s' : σ} {a : α} {as : List α}

/-- A result that is there. -/
theorem toOption_eq_some_iff {β : Type} {x : Except ε β} {b : β} : x.toOption = some b ↔ x = .ok b := by
  cases x with
  | ok c => simp [Except.toOption]
  | error e => simp [Except.toOption]

/-- The state after all inputs. -/
def runAll (step : σ → α → Except ε σ) (s : σ) : List α → Except ε σ
  | [] => .ok s
  | a :: as =>
    match step s a with
    | .ok s' => runAll step s' as
    | .error e => .error e

/-- Every input meets the condition in the state it is applied to. -/
def Along (step : σ → α → Except ε σ) (P : σ → α → Prop) (s : σ) : List α → Prop
  | [] => True
  | a :: as => P s a ∧ ∀ s', step s a = .ok s' → Along step P s' as

theorem runAll_cons (h : step s a = .ok s') : runAll step s (a :: as) = runAll step s' as := by
  rw [runAll, h]

theorem along_cons_iff (h : step s a = .ok s') : Along step P s (a :: as) ↔ P s a ∧ Along step P s' as := by
  constructor
  · rintro ⟨ha, hlater⟩
    exact ⟨ha, hlater s' h⟩
  · rintro ⟨ha, hlater⟩
    refine ⟨ha, ?_⟩
    intro s'' h''
    rw [h] at h''
    cases h''
    exact hlater

/-- A condition that the inputs meet in any state. -/
theorem along_of_forall (h : ∀ a ∈ as, ∀ s, P s a) (s : σ) : Along step P s as := by
  induction as generalizing s with
  | nil => trivial
  | cons a as ih =>
    obtain ⟨ha, has⟩ := List.forall_mem_cons.mp h
    exact ⟨ha s, fun s' _ => ih has s'⟩

instance decidableAlong [∀ s a, Decidable (P s a)] (s : σ) : (as : List α) → Decidable (Along step P s as)
  | [] => .isTrue trivial
  | a :: as =>
    match h : step s a with
    | .ok s' =>
      have : Decidable (Along step P s' as) := decidableAlong s' as
      decidable_of_iff (P s a ∧ Along step P s' as) (along_cons_iff h).symm
    | .error _ => decidable_of_iff (P s a) ⟨fun ha => ⟨ha, fun _ h' => by rw [h] at h'; cases h'⟩, And.left⟩

/-- **An invariant of the steps is one of the runs.** -/
theorem runAll_invariant {I : σ → Prop} (hstep : ∀ s a, I s → P s a → ∃ s', step s a = .ok s' ∧ I s') (hs : I s)
    (halong : Along step P s as) : ∃ s', runAll step s as = .ok s' ∧ I s' := by
  induction as generalizing s with
  | nil => exact ⟨s, rfl, hs⟩
  | cons a as ih =>
    obtain ⟨s1, h1, hs1⟩ := hstep s a hs halong.1
    rw [runAll_cons h1]
    exact ih hs1 (halong.2 s1 h1)

end ObConnector.Lib
