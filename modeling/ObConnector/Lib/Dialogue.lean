/-
# ObConnector.Lib.Dialogue -- programs that talk to a service.

A `Dialogue` is a program whose only access to its environment is to ask a service and go on with the
answer. It is run against any service, given as a function from a state and a question to an answer and
the next state (`Dialogue.run`). A program that spends its fuel is `stuck`, and its run gives nothing.

Two services whose states are related, so that related states answer every question alike and stay
related, cannot be told apart by any program (`run_simulates`). The relation need only survive the
questions that the program really asks: the ones marked as bad must not occur (`Avoids`). Nothing here
names the driver.
-/
import Mathlib.Data.List.Basic

namespace ObConnector.Lib

/-- A program that asks questions in `C`, gets answers in `A` and ends with an `α`. -/
inductive Dialogue (C A α : Type) where
  | done (a : α)
  | ask (c : C) (k : A → Dialogue C A α)
  | stuck

namespace Dialogue

variable {C A α β S T : Type}

/-- One program and then another. -/
def bind : Dialogue C A α → (α → Dialogue C A β) → Dialogue C A β
  | .done a, f => f a
  | .ask c k, f => .ask c fun r => (k r).bind f
  | .stuck, _ => .stuck

instance : Monad (Dialogue C A) where
  pure := .done
  bind := Dialogue.bind

@[simp] theorem done_bind (a : α) (f : α → Dialogue C A β) : (Dialogue.done a >>= f) = f a := rfl

@[simp] theorem pure_bind (a : α) (f : α → Dialogue C A β) : ((pure a : Dialogue C A α) >>= f) = f a := rfl

theorem bind_assoc {γ : Type} (p : Dialogue C A α) (f : α → Dialogue C A β) (g : β → Dialogue C A γ) :
    (p >>= f) >>= g = p >>= fun a => f a >>= g := by
  induction p with
  | done a => rfl
  | ask c k ih => exact congrArg (Dialogue.ask c) (funext ih)
  | stuck => rfl

/-- `while`, for at most `n` rounds. -/
def loop (cond : α → Bool) (body : α → Dialogue C A α) : Nat → α → Dialogue C A α
  | 0, _ => .stuck
  | n + 1, a => if cond a then (body a).bind (loop cond body n) else .done a

/-- A run against a service. -/
def run (serve : S → C → A × S) : Dialogue C A α → S → Option (α × S)
  | .done a, s => some (a, s)
  | .ask c k, s => run serve (k (serve s c).1) (serve s c).2
  | .stuck, _ => none

/-- None of the questions that are asked is a bad one. -/
def Avoids (serve : S → C → A × S) (bad : S → C → Prop) : Dialogue C A α → S → Prop
  | .done _, _ => True
  | .ask c k, s => ¬bad s c ∧ Avoids serve bad (k (serve s c).1) (serve s c).2
  | .stuck, _ => True

instance decidableAvoids (serve : S → C → A × S) (bad : S → C → Prop) [∀ s c, Decidable (bad s c)] :
    (p : Dialogue C A α) → (s : S) → Decidable (p.Avoids serve bad s)
  | .done _, _ => .isTrue trivial
  | .ask c k, s =>
    have := decidableAvoids serve bad (k (serve s c).1) (serve s c).2
    inferInstanceAs (Decidable (_ ∧ _))
  | .stuck, _ => .isTrue trivial

variable {p : Dialogue C A α}

/-- **Related services cannot be told apart**, as long as no bad question is asked. -/
theorem run_simulates {serve : S → C → A × S} {serve' : T → C → A × T} {R : S → T → Prop} {bad : T → C → Prop}
    (hstep : ∀ s t c, R s t → ¬bad t c → (serve s c).1 = (serve' t c).1 ∧ R (serve s c).2 (serve' t c).2) {s : S}
    {t : T} (hR : R s t) (havoids : p.Avoids serve' bad t) :
    (p.run serve s).map Prod.fst = (p.run serve' t).map Prod.fst := by
  induction p generalizing s t with
  | done a => rfl
  | ask c k ih =>
    obtain ⟨hgood, hrest⟩ := havoids
    obtain ⟨hanswer, hnext⟩ := hstep s t c hR hgood
    rw [run, hanswer]
    exact ih _ hnext hrest
  | stuck => rfl

section Ending

variable {serve : S → C → A × S}

@[simp] theorem run_done (a : α) (s : S) : (Dialogue.done a : Dialogue C A α).run serve s = some (a, s) := rfl

@[simp] theorem run_pure (a : α) (s : S) : (pure a : Dialogue C A α).run serve s = some (a, s) := rfl

theorem run_bind (p : Dialogue C A α) (f : α → Dialogue C A β) (s : S) :
    (p >>= f).run serve s = (p.run serve s).bind fun r => (f r.1).run serve r.2 := by
  induction p generalizing s with
  | done a => rfl
  | ask c k ih => exact ih _ _
  | stuck => rfl

/-- What no answer makes larger is not larger at the end of a run. -/
theorem run_measure {μ : S → Nat} (hserve : ∀ s c, μ (serve s c).2 ≤ μ s) {s : S} {r : α × S}
    (h : p.run serve s = some r) : μ r.2 ≤ μ s := by
  induction p generalizing s with
  | done a =>
    cases h
    exact Nat.le_refl _
  | ask c k ih => exact Nat.le_trans (ih _ h) (hserve s c)
  | stuck => cases h

/-- The program ends whenever the service is in a state of at most that measure. -/
def Ends (serve : S → C → A × S) (μ : S → Nat) (limit : Nat) (p : Dialogue C A α) : Prop :=
  ∀ s, μ s ≤ limit → ∃ r, p.run serve s = some r

variable {μ : S → Nat} {limit : Nat}

theorem ends_done (a : α) : Ends serve μ limit (.done a) := fun s _ => ⟨(a, s), rfl⟩

theorem ends_pure (a : α) : Ends serve μ limit (pure a : Dialogue C A α) := ends_done a

theorem ends_bind (hserve : ∀ s c, μ (serve s c).2 ≤ μ s) {f : α → Dialogue C A β} (hp : Ends serve μ limit p)
    (hf : ∀ a, Ends serve μ limit (f a)) : Ends serve μ limit (p >>= f) := by
  intro s hs
  obtain ⟨r, hr⟩ := hp s hs
  obtain ⟨r', hr'⟩ := hf r.1 r.2 (Nat.le_trans (run_measure hserve hr) hs)
  exact ⟨r', by rw [run_bind, hr]; exact hr'⟩

/-- **A loop ends** when its body does and every round that is followed by another one makes the measure
smaller. -/
theorem ends_loop (hserve : ∀ s c, μ (serve s c).2 ≤ μ s) {cond : α → Bool} {body : α → Dialogue C A α}
    (hbody : ∀ a, Ends serve μ limit (body a))
    (hdown : ∀ a s r, (body a).run serve s = some r → cond r.1 = true → μ r.2 < μ s) (a : α) :
    Ends serve μ limit (loop cond body (limit + 2) a) := by
  -- the rounds left are two more than the measure, or the loop is about to end
  have h : ∀ n a s, μ s ≤ limit → (cond a = true → μ s + 2 ≤ n) → 1 ≤ n →
      ∃ r, (loop cond body n a).run serve s = some r := by
    intro n
    induction n with
    | zero =>
      intro a s _ _ hn
      omega
    | succ n ih =>
      intro a s hs hrounds _
      by_cases hcond : cond a = true
      · obtain ⟨r, hr⟩ := hbody a s hs
        have hrun : (loop cond body (n + 1) a).run serve s = (loop cond body n r.1).run serve r.2 := by
          rw [loop, if_pos hcond]
          show (body a >>= loop cond body n).run serve s = _
          rw [run_bind, hr]
          rfl
        rw [hrun]
        have hle := run_measure hserve hr
        have hrounds := hrounds hcond
        apply ih
        · omega
        · intro hnext
          have hlt := hdown a s r hr hnext
          omega
        · omega
      · exact ⟨(a, s), by rw [loop, if_neg hcond]; rfl⟩
  intro s hs
  exact h (limit + 2) a s hs (fun _ => by omega) (by omega)

end Ending

end Dialogue

end ObConnector.Lib
