import Mathlib.Data.List.Induction
import Mathlib.Order.Bounds.Basic
import Mathlib.Order.Lattice
import FrameProcessor.Foundations.Machine

/-!
# Foundations - Histories and the states of a run

A sequential object is specified by a law that says which event may follow a history.
A history is lawful when each of its events is allowed by the events before it; a
machine that records its events keeps such a history one event at a time.

A run passes through the states that the prefixes of its schedule lead to.  A register
that each step raises to the current size holds the greatest size of these states.

Main results:

- Theorem `lawful_concat`: a lawful history grows by one lawful event.
- Theorem `Machine.isGreatest_passes`: a running maximum is the greatest size passed.
-/

universe u v w

/-! ## Lawful histories -/

/-- Every event is allowed by the events before it. -/
def Lawful {ε : Type u} (law : List ε → ε → Prop) (history : List ε) : Prop :=
  ∀ before event after, history = before ++ event :: after → law before event

section Lawful

variable {ε : Type u} {law : List ε → ε → Prop} {history : List ε} {event : ε}

theorem lawful_nil : Lawful law [] := by
  intro before event after h
  simp at h

theorem lawful_concat :
    Lawful law (history ++ [event]) ↔ Lawful law history ∧ law history event := by
  constructor
  · intro h
    constructor
    · intro before event' after hsplit
      exact h before event' (after ++ [event]) (by simp [hsplit])
    · exact h history event [] rfl
  · rintro ⟨hhistory, hevent⟩ before event' after hsplit
    rcases List.eq_nil_or_concat after with rfl | ⟨after', last, rfl⟩
    · obtain ⟨rfl, hlast⟩ := List.append_inj' hsplit rfl
      obtain rfl : event = event' := by simpa using hlast
      exact hevent
    · rw [List.concat_eq_append, ← List.cons_append, ← List.append_assoc] at hsplit
      obtain ⟨hinit, -⟩ := List.append_inj' hsplit rfl
      exact hhistory before event' after' hinit

end Lawful

/-! ## The states a run passes through -/

namespace Machine

variable {σ : Type u} {α : Type v}

/-- The run of a schedule passes through `t`. -/
def Passes (M : Machine σ α) (s : σ) (as : List α) (t : σ) : Prop :=
  ∃ bs cs, as = bs ++ cs ∧ M.exec s bs = some t

variable {M : Machine σ α} {s t t' u : σ} {a : α} {as : List α}

theorem passes_nil : M.Passes s [] u ↔ u = s := by
  constructor
  · rintro ⟨bs, cs, hsplit, hrun⟩
    obtain rfl : bs = [] := (List.append_eq_nil_iff.mp hsplit.symm).1
    exact (Option.some.inj hrun).symm
  · rintro rfl
    exact ⟨[], [], rfl, rfl⟩

theorem passes_last (h : M.exec s as = some t) : M.Passes s as t :=
  ⟨as, [], (List.append_nil as).symm, h⟩

/-- One more step adds the state it ends in. -/
theorem passes_concat (h : M.exec s as = some t) (hstep : M.step t a = some t') :
    M.Passes s (as ++ [a]) u ↔ M.Passes s as u ∨ u = t' := by
  have hrun : M.exec s (as ++ [a]) = some t' :=
    M.exec_append_eq_some.mpr ⟨t, h, by simp [hstep]⟩
  constructor
  · rintro ⟨bs, cs, hsplit, hbs⟩
    rcases List.eq_nil_or_concat cs with rfl | ⟨cs', last, rfl⟩
    · right
      rw [List.append_nil] at hsplit
      rw [← hsplit, hrun] at hbs
      exact (Option.some.inj hbs).symm
    · left
      rw [List.concat_eq_append, ← List.append_assoc] at hsplit
      exact ⟨bs, cs', (List.append_inj' hsplit rfl).1, hbs⟩
  · rintro (⟨bs, cs, hsplit, hbs⟩ | rfl)
    · exact ⟨bs, cs ++ [a], by rw [hsplit, List.append_assoc], hbs⟩
    · exact passes_last hrun

/-- A register that starts at the size and that every allowed step raises to the size it
leads to holds the greatest size the run has passed. -/
theorem isGreatest_passes {β : Type w} [LinearOrder β] {size peak : σ → β} {A : α → Prop}
    (hpeak : ∀ t a t', A a → size t ≤ peak t → M.step t a = some t' →
      peak t' = max (peak t) (size t'))
    (hstart : peak s = size s) (hA : ∀ a ∈ as, A a) (h : M.exec s as = some t) :
    IsGreatest {n | ∃ u, M.Passes s as u ∧ size u = n} (peak t) := by
  induction as using List.reverseRecOn generalizing t with
  | nil =>
      obtain rfl : s = t := Option.some.inj h
      constructor
      · exact ⟨s, passes_nil.mpr rfl, hstart.symm⟩
      · rintro n ⟨u, hu, rfl⟩
        rw [passes_nil.mp hu, hstart]
  | append_singleton as a ih =>
      rcases M.exec_append_eq_some.mp h with ⟨t₁, hrun, hlast⟩
      have hstep : M.step t₁ a = some t := by simpa using hlast
      have hgreatest := ih (fun a' ha' => hA a' (List.mem_append_left _ ha')) hrun
      have hsize : size t₁ ≤ peak t₁ := hgreatest.2 ⟨t₁, passes_last hrun, rfl⟩
      have hmax := hpeak t₁ a t (hA a (by simp)) hsize hstep
      constructor
      · rcases le_total (size t) (peak t₁) with hle | hle
        · rcases hgreatest.1 with ⟨u, hu, hsame⟩
          rw [hmax, max_eq_left hle]
          exact ⟨u, (passes_concat hrun hstep).mpr (Or.inl hu), hsame⟩
        · rw [hmax, max_eq_right hle]
          exact ⟨t, (passes_concat hrun hstep).mpr (Or.inr rfl), rfl⟩
      · rintro n ⟨u, hu, rfl⟩
        rw [hmax]
        rcases (passes_concat hrun hstep).mp hu with hu | rfl
        · exact (hgreatest.2 ⟨u, hu, rfl⟩).trans (le_max_left _ _)
        · exact le_max_right _ _

end Machine
