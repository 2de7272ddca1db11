import FrameProcessor.Foundations.Fairness

/-!
# Foundations - Machines seen as their components

A composed machine shows its component: every step is a step of the component, or leaves it as
it is.  The behaviours of the whole are then behaviours of the component, and fair ones as soon
as a thread of the component is never kept from a step that the component alone would let it
take.

Main results:

- Theorem `Projection.reachable`: what is reachable in the whole shows what is reachable in the
  component.
- Theorem `Projection.fair`: a behaviour that is fair to a thread of the whole is fair to the
  thread of the component that it runs.
-/

universe u u' v v'

/-- Every step of `M` from a state that satisfies `I` is a step of `N`, or none, as seen through
`view`. -/
structure Projection {σ : Type u} {τ : Type u'} {α : Type v} {β : Type v'} (M : Machine σ α)
    (N : Machine τ β) (I : σ → Prop) where
  view : σ → τ
  act : σ → α → Option β
  invariant : ∀ s a s', I s → M.step s a = some s' → I s'
  elapses : ∀ s a s', I s → M.step s a = some s' → N.Elapses (view s) (act s a) (view s')

namespace Behaviour

variable {σ : Type u} {α : Type v} {M : Machine σ α}

/-- The behaviour from an instant on. -/
def drop (b : Behaviour M) (n : ℕ) : Behaviour M where
  state i := b.state (n + i)
  action i := b.action (n + i)
  elapses i := b.elapses (n + i)

theorem Fair.drop {ι : Type*} {b : Behaviour M} {owner : α → Option ι} {t : ι}
    (h : b.Fair owner t) (n : ℕ) : (b.drop n).Fair owner t := by
  intro i hcan
  have hlate : ∀ j, n + i ≤ j → M.CanStep owner t (b.state j) := by
    intro j hj
    have hlater := hcan (j - n) (by omega)
    rwa [show (b.drop n).state (j - n) = b.state j from congrArg b.state (by omega)] at hlater
  rcases h (n + i) hlate with ⟨j, a, hj, haction, howner⟩
  refine ⟨j - n, a, by omega, ?_, howner⟩
  rwa [show (b.drop n).action (j - n) = b.action j from congrArg b.action (by omega)]

end Behaviour

namespace Projection

variable {σ : Type u} {τ : Type u'} {α : Type v} {β : Type v'} {M : Machine σ α} {N : Machine τ β}
  {I : σ → Prop}

/-- What is reachable in the whole shows what is reachable in the component. -/
theorem reachable (P : Projection M N I) (hinit : ∀ s, M.init s → I s ∧ N.Reachable (P.view s))
    {s : σ} (h : M.Reachable s) : I s ∧ N.Reachable (P.view s) := by
  refine Machine.reachable_induction (P := fun s => I s ∧ N.Reachable (P.view s)) hinit ?_ h
  rintro s a s' ⟨hI, hview⟩ hstep
  refine ⟨P.invariant s a s' hI hstep, ?_⟩
  have helapses := P.elapses s a s' hI hstep
  unfold Machine.Elapses at helapses
  split at helapses
  · rw [helapses]
    exact hview
  · exact hview.step helapses

theorem invariant_state (P : Projection M N I) (b : Behaviour M) (hI : I (b.state 0)) (i : ℕ) :
    I (b.state i) :=
  b.invariant P.invariant (Nat.zero_le i) hI

/-- What a behaviour of the whole shows of the component. -/
def behaviour (P : Projection M N I) (b : Behaviour M) (hI : I (b.state 0)) : Behaviour N where
  state i := P.view (b.state i)
  action i := (b.action i).bind (P.act (b.state i))
  elapses i := by
    have hIi := P.invariant_state b hI i
    have hpass := b.elapses i
    unfold Machine.Elapses at hpass
    split at hpass
    · next haction =>
      rw [haction, hpass]
      rfl
    · next a haction =>
      rw [haction]
      exact P.elapses _ a _ hIi hpass

/-- A behaviour that is fair to a thread of the whole is fair to the thread of the component
that it runs: where the component lets this thread step, so does the whole, and what the thread
of the whole then does is a step of the thread of the component. -/
theorem fair (P : Projection M N I) {ι κ : Type*} {ownerM : α → Option ι} {ownerN : β → Option κ}
    {u : ι} {t : κ} (b : Behaviour M) (hI : I (b.state 0)) (hfair : b.Fair ownerM u)
    (hcan : ∀ s, I s → N.CanStep ownerN t (P.view s) → M.CanStep ownerM u s)
    (hact : ∀ s a s', I s → N.CanStep ownerN t (P.view s) → M.step s a = some s' →
      ownerM a = some u → ∃ c, P.act s a = some c ∧ ownerN c = some t) :
    (P.behaviour b hI).Fair ownerN t := by
  intro i hable
  rcases hfair i fun j hij => hcan _ (P.invariant_state b hI j) (hable j hij) with
    ⟨j, a, hij, haction, howner⟩
  have hpass := b.elapses j
  rw [haction] at hpass
  rcases hact _ a _ (P.invariant_state b hI j) (hable j hij) hpass howner with ⟨c, hc, hownerc⟩
  refine ⟨j, c, hij, ?_, hownerc⟩
  simp [behaviour, haction, hc]

end Projection
