import Mathlib.Algebra.BigOperators.Fin
import Mathlib.Algebra.Order.BigOperators.Group.Finset
import Mathlib.Algebra.Order.Group.Multiset
import Mathlib.Tactic.Abel

/-!
# Foundations - Pools of threads and what they hold

A pool is a family of thread-local states indexed by a finite type, of which one
member changes at a time.  Conservation arguments add up what every thread holds
in its hands; this file gives the update rule of that sum, and that of a property
that every thread has.

Main results:

- Theorem `Pool.forall_update`: a property of every thread is kept when the thread that
  moves keeps it.
- Theorem `Pool.held_update`: changing one thread exchanges what it held for what
  it holds now.
- Theorem `Pool.held_eq_zero_iff`: nothing is held in total exactly when no thread
  holds anything.
-/

namespace Pool

/-- A property of every thread is kept when the thread that moves keeps it. -/
theorem forall_update {ι σ : Type*} [DecidableEq ι] (P : σ → Prop) {pool : ι → σ} {i : ι} {w : σ}
    (hw : P w) (hpool : ∀ j, P (pool j)) (j : ι) : P (Function.update pool i w j) :=
  (Function.forall_update_iff pool fun _ w => P w).mpr ⟨hw, fun j _ => hpool j⟩ j

variable {ι σ μ : Type*} [Fintype ι] [AddCommMonoid μ]

/-- Everything the threads of a pool hold, when `hand` reads one thread. -/
def held (hand : σ → μ) (pool : ι → σ) : μ :=
  ∑ i, hand (pool i)

/-- Changing one thread exchanges what it held for what it holds now. -/
theorem held_update [DecidableEq ι] (hand : σ → μ) (pool : ι → σ) (i : ι) (w : σ) :
    held hand (Function.update pool i w) + hand (pool i) = held hand pool + hand w := by
  have hrest : ∑ j ∈ {i}ᶜ, hand (Function.update pool i w j) = ∑ j ∈ {i}ᶜ, hand (pool j) := by
    refine Finset.sum_congr rfl fun j hj => ?_
    have hne : j ≠ i := by simpa using hj
    rw [Function.update_of_ne hne]
  unfold held
  rw [Fintype.sum_eq_add_sum_compl i, Fintype.sum_eq_add_sum_compl i (fun j => hand (pool j)),
    hrest, Function.update_self]
  abel

/-- A pool in which every thread holds nothing holds nothing. -/
theorem held_eq_zero {hand : σ → μ} {pool : ι → σ} (h : ∀ i, hand (pool i) = 0) :
    held hand pool = 0 :=
  Finset.sum_eq_zero fun i _ => h i

/-- Nothing is held in total exactly when no thread holds anything. -/
theorem held_eq_zero_iff {α : Type*} {hand : σ → Multiset α} {pool : ι → σ} :
    held hand pool = 0 ↔ ∀ i, hand (pool i) = 0 := by
  simp [held, Finset.sum_eq_zero_iff]

end Pool
