import Mathlib.Data.Set.Insert
import Mathlib.Order.BooleanAlgebra.Set
import Mathlib.Data.Set.Subsingleton
import Mathlib.Logic.Function.Basic

/-!
# Foundations - Child processes

The children of a process as the kernel keeps them: a child that has been forked runs
until it terminates, and its status is kept until the parent waits for it.  Until then
its identifier names this child and no other process.

Main results:

- Theorems `Children.unreaped_fork`, `Children.unreaped_exit` and `Children.unreaped_reap`:
  the set of the children that have been forked and not reaped grows by a fork, is left
  alone by an exit and shrinks by a wait.
- Theorems `Children.unreaped_fork_of_empty` and `Children.unreaped_reap_of_subset`: a parent
  that forks only when it has no child has at most one, and none after it has waited for it.
-/

universe u v

/-- A child that has been forked and not yet reaped. -/
inductive Child (σ : Type u) where
  | running
  | terminated (status : σ)
deriving DecidableEq

/-- The children of a process, by identifier. -/
abbrev Children (κ : Type v) (σ : Type u) :=
  κ → Option (Child σ)

namespace Children

variable {κ : Type v} {σ : Type u}

/-- A process without children. -/
def empty : Children κ σ :=
  fun _ => none

/-- The identifiers of the children that have been forked and not reaped. -/
def unreaped (c : Children κ σ) : Set κ :=
  {pid | c pid ≠ none}

@[simp]
theorem mem_unreaped {c : Children κ σ} {pid : κ} : pid ∈ c.unreaped ↔ c pid ≠ none :=
  Iff.rfl

theorem not_mem_unreaped {c : Children κ σ} {pid : κ} : pid ∉ c.unreaped ↔ c pid = none := by
  simp

@[simp]
theorem unreaped_empty : (empty : Children κ σ).unreaped = ∅ := by
  ext pid
  simp [empty]

variable [DecidableEq κ]

/-- A child is forked. -/
def fork (c : Children κ σ) (pid : κ) : Children κ σ :=
  Function.update c pid (some .running)

/-- A child terminates; its status is kept. -/
def exit (c : Children κ σ) (pid : κ) (status : σ) : Children κ σ :=
  Function.update c pid (some (.terminated status))

/-- The parent waits for a child that has terminated. -/
def reap (c : Children κ σ) (pid : κ) : Children κ σ :=
  Function.update c pid none

variable {c : Children κ σ} {pid other : κ} {status : σ}

@[simp]
theorem fork_self : c.fork pid pid = some .running :=
  Function.update_self ..

@[simp]
theorem exit_self : c.exit pid status pid = some (.terminated status) :=
  Function.update_self ..

@[simp]
theorem reap_self : c.reap pid pid = none :=
  Function.update_self ..

theorem unreaped_fork : (c.fork pid).unreaped = insert pid c.unreaped := by
  ext other
  by_cases h : other = pid
  · subst h
    simp
  · simp [fork, h]

theorem unreaped_exit (h : pid ∈ c.unreaped) : (c.exit pid status).unreaped = c.unreaped := by
  ext other
  by_cases hsame : other = pid
  · subst hsame
    simpa using h
  · simp [exit, Function.update_of_ne hsame]

theorem unreaped_reap : (c.reap pid).unreaped = c.unreaped \ {pid} := by
  ext other
  by_cases h : other = pid
  · subst h
    simp
  · simp [reap, h]

theorem unreaped_fork_of_empty (h : c.unreaped = ∅) : (c.fork pid).unreaped = {pid} := by
  rw [unreaped_fork, h, insert_empty_eq]

theorem unreaped_reap_of_subset (h : c.unreaped ⊆ {pid}) : (c.reap pid).unreaped = ∅ := by
  rw [unreaped_reap]
  exact Set.sdiff_eq_empty.mpr h

end Children
