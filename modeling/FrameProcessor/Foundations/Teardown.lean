import Mathlib.Logic.Function.Basic
import Mathlib.Data.Nat.Basic
import Mathlib.Tactic.Common

/-!
# Foundations - Destroying a vector of threads

`std::vector<std::jthread>::clear()` destroys its threads from the first to the last;
the destructor of a `std::jthread` requests a stop and then joins, so it waits until
the thread has returned.

Main results:

- Theorem `Teardown.step_cases`: a step requests the stop of one thread or takes note
  that one has returned.
- Theorem `Teardown.step_thread`: it changes nothing else.
- Theorem `Teardown.Joined.step`: every thread before the current one has returned.
- Theorems `Teardown.remaining_lt` and `Teardown.step_or_waits`: a step brings the end nearer,
  and only a thread that still runs holds the destruction up.
-/

universe u

/-- How far the destruction of the threads has come. -/
inductive Teardown where
  | requesting (k : Nat)
  | joining (k : Nat)
deriving DecidableEq

namespace Teardown

variable {σ : Type u} {n : Nat}

/-- The next step of the destruction: request the stop of thread `k`, or find that it
has returned.  It is disabled while the thread to join still runs, and at the end. -/
def step (requestStop : σ → σ) (done : σ → Bool) (pool : Fin n → σ) :
    Teardown → Option (Teardown × (Fin n → σ))
  | requesting k =>
      if h : k < n then
        some (joining k, Function.update pool ⟨k, h⟩ (requestStop (pool ⟨k, h⟩)))
      else none
  | joining k =>
      if h : k < n then
        if done (pool ⟨k, h⟩) then some (requesting (k + 1), pool) else none
      else none

/-- The number of threads that have been joined. -/
def joined : Teardown → Nat
  | requesting k => k
  | joining k => k

/-- `clear()` has returned. -/
def Finished (n : Nat) (t : Teardown) : Prop :=
  t = requesting n

variable {requestStop : σ → σ} {done : σ → Bool}

/-- A step of the destruction requests one stop, or joins one thread that is done. -/
theorem step_cases {pool pool' : Fin n → σ} {t t' : Teardown}
    (h : t.step requestStop done pool = some (t', pool')) :
    (∃ k : Fin n, t = requesting k ∧ t' = joining k ∧
      pool' = Function.update pool k (requestStop (pool k))) ∨
    (∃ k : Fin n, t = joining k ∧ t' = requesting (k + 1) ∧ pool' = pool ∧
      done (pool k) = true) := by
  cases t with
  | requesting k =>
      simp only [step] at h
      split at h
      · next hk =>
        cases h
        exact Or.inl ⟨⟨k, hk⟩, rfl, rfl, rfl⟩
      · cases h
  | joining k =>
      simp only [step] at h
      split at h
      · next hk =>
        split at h
        · next hdone =>
          cases h
          exact Or.inr ⟨⟨k, hk⟩, rfl, rfl, rfl, hdone⟩
        · cases h
      · cases h

/-- A step leaves each thread as it was, but for a stop request. -/
theorem step_thread {pool pool' : Fin n → σ} {t t' : Teardown}
    (h : t.step requestStop done pool = some (t', pool')) (i : Fin n) :
    pool' i = pool i ∨ pool' i = requestStop (pool i) := by
  rcases step_cases h with ⟨k, -, -, rfl⟩ | ⟨k, -, -, rfl, -⟩
  · by_cases hik : i = k
    · subst hik
      exact Or.inr (Function.update_self ..)
    · exact Or.inl (Function.update_of_ne hik ..)
  · exact Or.inl rfl

/-- Every thread that has been joined is done. -/
def Joined (done : σ → Bool) (pool : Fin n → σ) (t : Teardown) : Prop :=
  ∀ i : Fin n, i < t.joined → done (pool i) = true

theorem Joined.start (pool : Fin n → σ) : Joined done pool (requesting 0) :=
  fun _ hi => absurd hi (Nat.not_lt_zero _)

/-- A step keeps the joined threads done. -/
theorem Joined.step {pool pool' : Fin n → σ} {t t' : Teardown} (hjoined : Joined done pool t)
    (h : t.step requestStop done pool = some (t', pool')) : Joined done pool' t' := by
  rcases step_cases h with ⟨k, rfl, rfl, rfl⟩ | ⟨k, rfl, rfl, rfl, hdone⟩
  · intro i hi
    by_cases hik : i = k
    · subst hik
      exact absurd hi (Nat.lt_irrefl _)
    · rw [Function.update_of_ne hik]
      exact hjoined i hi
  · intro i hi
    rcases Nat.lt_succ_iff_lt_or_eq.mp hi with hlt | heq
    · exact hjoined i hlt
    · rw [Fin.ext heq]
      exact hdone

/-- A step of another thread keeps the joined threads done when threads that are done
take no step. -/
theorem Joined.update {pool : Fin n → σ} {t : Teardown} (hjoined : Joined done pool t)
    {i : Fin n} {w : σ} (hrunning : done (pool i) = false) :
    Joined done (Function.update pool i w) t := by
  intro j hj
  by_cases hij : j = i
  · subst hij
    rw [hjoined j hj] at hrunning
    cases hrunning
  · rw [Function.update_of_ne hij]
    exact hjoined j hj

/-- When `clear()` has returned, every thread is done. -/
theorem Joined.finished {pool : Fin n → σ} {t : Teardown} (hjoined : Joined done pool t)
    (h : t.Finished n) (i : Fin n) : done (pool i) = true := by
  subst h
  exact hjoined i i.isLt

/-! ## Reaching the end -/

/-- The steps of the destruction that are still to come. -/
def remaining (n : Nat) : Teardown → Nat
  | requesting k => 2 * (n - k)
  | joining k => 2 * (n - k) - 1

/-- The destruction has not gone past its threads. -/
def InRange (n : Nat) : Teardown → Prop
  | requesting k => k ≤ n
  | joining k => k < n

theorem inRange_start : (requesting 0).InRange n :=
  Nat.zero_le n

theorem InRange.step {pool pool' : Fin n → σ} {t t' : Teardown}
    (h : t.step requestStop done pool = some (t', pool')) : t'.InRange n := by
  rcases step_cases h with ⟨k, -, rfl, -⟩ | ⟨k, -, rfl, -, -⟩
  · exact k.isLt
  · exact k.isLt

/-- A step brings the end nearer. -/
theorem remaining_lt {pool pool' : Fin n → σ} {t t' : Teardown}
    (h : t.step requestStop done pool = some (t', pool')) :
    t'.remaining n < t.remaining n := by
  rcases step_cases h with ⟨k, rfl, rfl, -⟩ | ⟨k, rfl, rfl, -, -⟩
  · have hk := k.isLt
    simp only [remaining]
    omega
  · have hk := k.isLt
    simp only [remaining]
    omega

/-- Before the end the destruction goes on, or waits for a thread that still runs. -/
theorem step_or_waits (requestStop : σ → σ) (done : σ → Bool) {t : Teardown}
    (hrange : t.InRange n) (hend : ¬ t.Finished n) (pool : Fin n → σ) :
    (∃ t' pool', t.step requestStop done pool = some (t', pool')) ∨
      ∃ k : Fin n, t = joining k ∧ done (pool k) = false := by
  cases t with
  | requesting k =>
      have hk : k < n := Nat.lt_of_le_of_ne hrange fun heq => hend (congrArg requesting heq)
      exact Or.inl ⟨_, _, dif_pos hk⟩
  | joining k =>
      have hk : k < n := hrange
      cases hdone : done (pool ⟨k, hk⟩) with
      | false => exact Or.inr ⟨⟨k, hk⟩, rfl, hdone⟩
      | true =>
          refine Or.inl ⟨requesting (k + 1), pool, ?_⟩
          simp only [step]
          rw [dif_pos hk, if_pos hdone]

end Teardown
