import Mathlib.Algebra.Group.Defs
import FrameProcessor.Foundations.Machine

/-!
# Foundations - What the steps of a run contribute

A balance says that what a machine holds is what came in.  When some steps add to it, the
balance of a run has a correction: the sum of what its steps contribute, each of which sees the
state before the step and the action taken.

Main results:

- Theorem `Machine.exec_balance`: when every step keeps a balance up to its contribution, every
  run keeps it up to the sum.
- Theorem `Machine.total_eq_zero_of_meets`: a run whose steps contribute nothing needs no
  correction.
-/

universe u v w

namespace Machine

variable {σ : Type u} {α : Type v} {A : Type w} [AddMonoid A] (M : Machine σ α)

/-- The sum of what the steps of a run contribute. -/
def total (gain : σ → α → A) : σ → List α → A
  | _, [] => 0
  | s, a :: as => gain s a + (M.step s a).elim 0 fun s' => total gain s' as

variable {M} {gain : σ → α → A}

@[simp]
theorem total_nil (s : σ) : M.total gain s [] = 0 :=
  rfl

theorem total_cons {s s' : σ} {a : α} {as : List α} (h : M.step s a = some s') :
    M.total gain s (a :: as) = gain s a + M.total gain s' as := by
  simp [total, h]

/-- When every step keeps a balance up to its contribution, every run keeps it up to the sum. -/
theorem exec_balance {P : σ → A → Prop}
    (hstep : ∀ s d a s', P s d → M.step s a = some s' → P s' (d + gain s a))
    {s t : σ} {d : A} {as : List α} (hs : P s d) (h : M.exec s as = some t) :
    P t (d + M.total gain s as) := by
  induction as generalizing s d with
  | nil =>
      cases h
      simpa using hs
  | cons a as ih =>
      rcases M.exec_cons_eq_some.mp h with ⟨s', hstep', hrest⟩
      rw [total_cons hstep', ← add_assoc]
      exact ih (hstep s d a s' hs hstep') hrest

/-- A run whose steps contribute nothing needs no correction. -/
theorem total_eq_zero_of_meets {s : σ} {as : List α}
    (h : M.Meets (fun s a => gain s a = 0) s as) : M.total gain s as = 0 := by
  induction as generalizing s with
  | nil => rfl
  | cons a as ih =>
      cases hstep : M.step s a with
      | none => simp [total, hstep, h.1]
      | some s' => rw [total_cons hstep, h.1, ih (h.2 s' hstep), zero_add]

end Machine
