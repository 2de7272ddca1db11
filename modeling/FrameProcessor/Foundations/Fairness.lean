import Mathlib.Data.Nat.Basic
import Mathlib.Order.WellFounded
import Mathlib.Tactic.Common
import FrameProcessor.Foundations.Machine

/-!
# Foundations - Fair behaviours of a machine

A behaviour is an infinite run: a state at every instant, and the action that leads to the
next one, or none at an instant that passes without a step.  Some actions belong to threads,
the others to the environment.  A behaviour is fair to a thread when the thread does not stay
able to step for ever without taking a step, and strongly fair when being able to step again
and again is enough.

Main results:

- Theorem `Behaviour.leadsTo_of_rank_of_acts`: when the steps of a thread lower a rank, no other
  step raises the rank or picks another thread without lowering it, and the thread picked
  takes a step, the behaviour reaches the goal.
- Theorems `Behaviour.leadsTo_of_rank_of_unblocked` and `Behaviour.leadsTo_of_rank_of_strongFair`:
  a fair behaviour does so when no block lasts for ever, and a strongly fair one when the
  thread can step again and again.
- Theorem `Machine.exists_strongFair`: a run to a state where no thread can step extends to a
  behaviour that is fair in both senses.
-/

universe u v w

namespace Machine

variable {σ : Type u} {α : Type v} (M : Machine σ α)

/-- One instant of a behaviour: a step of the machine, or nothing. -/
def Elapses (s : σ) (action : Option α) (s' : σ) : Prop :=
  match action with
  | none => s' = s
  | some a => M.step s a = some s'

variable {ι : Type w} (owner : α → Option ι)

/-- Some action of the thread is enabled. -/
def CanStep (t : ι) (s : σ) : Prop :=
  ∃ a s', owner a = some t ∧ M.step s a = some s'

variable {M} {owner}

theorem CanStep.of_isSome {t : ι} {s : σ} (a : α) (howner : owner a = some t)
    (h : (M.step s a).isSome = true) : M.CanStep owner t s := by
  rcases Option.isSome_iff_exists.mp h with ⟨s', hstep⟩
  exact ⟨a, s', howner, hstep⟩

theorem not_canStep_iff {t : ι} {s : σ} :
    ¬ M.CanStep owner t s ↔ ∀ a, owner a = some t → M.step s a = none := by
  simp only [CanStep, not_exists, not_and, Option.eq_none_iff_forall_ne_some]
  constructor
  · exact fun h a ha s' hstep => h a s' ha hstep
  · exact fun h a s' ha hstep => h a ha s' hstep

/-- A restricted machine can do nothing that the machine itself cannot do. -/
theorem CanStep.of_restrict {C : σ → α → Prop} [∀ s a, Decidable (C s a)] {t : ι} {s : σ}
    (h : (M.restrict C).CanStep owner t s) : M.CanStep owner t s := by
  rcases h with ⟨a, s', howner, hstep⟩
  exact ⟨a, s', howner, (restrict_step.mp hstep).2⟩

theorem CanStep.restrict {C : σ → α → Prop} [∀ s a, Decidable (C s a)] {t : ι} {s : σ} (a : α)
    (howner : owner a = some t) (hguard : C s a) (h : (M.step s a).isSome = true) :
    (M.restrict C).CanStep owner t s := by
  rcases Option.isSome_iff_exists.mp h with ⟨s', hstep⟩
  exact ⟨a, s', howner, restrict_step.mpr ⟨hguard, hstep⟩⟩

end Machine

/-- An infinite run of a machine. -/
structure Behaviour {σ : Type u} {α : Type v} (M : Machine σ α) where
  state : ℕ → σ
  action : ℕ → Option α
  elapses : ∀ i, M.Elapses (state i) (action i) (state (i + 1))

namespace Behaviour

variable {σ : Type u} {α : Type v} {M : Machine σ α} {ι : Type w}

/-! ## Invariants and leads-to -/

/-- What one instant keeps holds ever after. -/
theorem invariant {P : σ → Prop} (hstep : ∀ s a s', P s → M.step s a = some s' → P s')
    (b : Behaviour M) {i j : ℕ} (hij : i ≤ j) (h : P (b.state i)) : P (b.state j) := by
  induction j, hij using Nat.le_induction with
  | base => exact h
  | succ j hij ih =>
      have hpass := b.elapses j
      unfold Machine.Elapses at hpass
      split at hpass
      · rw [hpass]
        exact ih
      · exact hstep _ _ _ ih hpass

/-- Every state of a behaviour that begins in a reachable state is reachable. -/
theorem reachable (b : Behaviour M) (h : M.Reachable (b.state 0)) (i : ℕ) :
    M.Reachable (b.state i) :=
  b.invariant (P := M.Reachable) (fun _ _ _ hs hstep => hs.step hstep) (Nat.zero_le i) h

/-- What the steps that meet a guard keep always holds when every step meets it. -/
theorem invariant_of_meets {C : σ → α → Prop} {P : σ → Prop}
    (hstep : ∀ s a s', P s → C s a → M.step s a = some s' → P s') (b : Behaviour M)
    (hC : ∀ i a, b.action i = some a → C (b.state i) a) (h : P (b.state 0)) (i : ℕ) :
    P (b.state i) := by
  induction i with
  | zero => exact h
  | succ i ih =>
      have hpass := b.elapses i
      unfold Machine.Elapses at hpass
      split at hpass
      · rw [hpass]
        exact ih
      · next a haction => exact hstep _ a _ ih (hC i a haction) hpass

/-- What is left of a schedule meets the guard that the schedule meets. -/
theorem meets_drop {C : σ → α → Prop} (b : Behaviour M) {as : List α}
    (haction : ∀ i, b.action i = as[i]?) (hmeets : M.Meets C (b.state 0) as) (i : ℕ) :
    M.Meets C (b.state i) (as.drop i) := by
  induction i with
  | zero => exact hmeets
  | succ i ih =>
      have hpass := b.elapses i
      unfold Machine.Elapses at hpass
      rw [haction] at hpass
      cases hget : as[i]? with
      | none =>
          have hle : as.length ≤ i + 1 := by
            have hlength := List.getElem?_eq_none_iff.mp hget
            omega
          rw [List.drop_eq_nil_of_le hle]
          exact Machine.meets_nil _ _
      | some a =>
          rw [hget] at hpass
          rw [List.drop_eq_getElem?_toList_append, hget] at ih
          exact ih.2 _ hpass

/-- The steps of a behaviour that follows a schedule meet the guard that the schedule meets. -/
theorem guard_of_meets {C : σ → α → Prop} (b : Behaviour M) {as : List α}
    (haction : ∀ i, b.action i = as[i]?) (hmeets : M.Meets C (b.state 0) as) {i : ℕ} {a : α}
    (ha : b.action i = some a) : C (b.state i) a := by
  have hdrop := b.meets_drop haction hmeets i
  rw [haction] at ha
  rw [List.drop_eq_getElem?_toList_append, ha] at hdrop
  exact hdrop.1

/-- From every instant at which `P` holds, `Q` holds then or later. -/
def LeadsTo (b : Behaviour M) (P Q : σ → Prop) : Prop :=
  ∀ i, P (b.state i) → ∃ j, i ≤ j ∧ Q (b.state j)

theorem LeadsTo.trans {b : Behaviour M} {P Q R : σ → Prop} (hPQ : b.LeadsTo P Q)
    (hQR : b.LeadsTo Q R) : b.LeadsTo P R := by
  intro i hP
  rcases hPQ i hP with ⟨j, hij, hQ⟩
  rcases hQR j hQ with ⟨k, hjk, hR⟩
  exact ⟨k, hij.trans hjk, hR⟩

theorem LeadsTo.of_imp {b : Behaviour M} {P Q : σ → Prop} (h : ∀ s, P s → Q s) :
    b.LeadsTo P Q :=
  fun i hP => ⟨i, le_refl i, h _ hP⟩

/-! ## Fairness -/

/-- The thread does not stay able to step for ever without taking a step. -/
def Fair (b : Behaviour M) (owner : α → Option ι) (t : ι) : Prop :=
  ∀ i, (∀ j, i ≤ j → M.CanStep owner t (b.state j)) →
    ∃ j a, i ≤ j ∧ b.action j = some a ∧ owner a = some t

/-- A thread that is able to step again and again takes a step. -/
def StrongFair (b : Behaviour M) (owner : α → Option ι) (t : ι) : Prop :=
  ∀ i, (∀ j, i ≤ j → ∃ k, j ≤ k ∧ M.CanStep owner t (b.state k)) →
    ∃ j a, i ≤ j ∧ b.action j = some a ∧ owner a = some t

theorem StrongFair.fair {b : Behaviour M} {owner : α → Option ι} {t : ι}
    (h : b.StrongFair owner t) : b.Fair owner t :=
  fun i hcan => h i fun j hij => ⟨j, le_refl j, hcan j hij⟩

/-- A behaviour that ends where no thread can step is fair to all of them. -/
theorem strongFair_of_settled {b : Behaviour M} {owner : α → Option ι} {n : ℕ}
    (h : ∀ j, n ≤ j → ∀ t, ¬ M.CanStep owner t (b.state j)) (t : ι) : b.StrongFair owner t := by
  intro i hcan
  rcases hcan (max i n) (le_max_left i n) with ⟨k, hk, hlate⟩
  exact absurd hlate (h k ((le_max_right i n).trans hk) t)

/-- What a step does for the goal: it reaches it, or keeps the invariant and lowers the rank,
or is a step of another thread than the helpful one and changes neither rank nor mark.  The
mark says which thread is the helpful one. -/
def Advances {β : Type*} (owner : α → Option ι) (goal I : σ → Prop) (rank : σ → ℕ) (mark : σ → β)
    (helper : β → ι) (s : σ) (a : α) (s' : σ) : Prop :=
  goal s' ∨ (I s' ∧ (rank s' < rank s ∨
    (rank s' = rank s ∧ mark s' = mark s ∧ owner a ≠ some (helper (mark s)))))

section Rank

variable {β : Type*} {owner : α → Option ι} {goal I : σ → Prop} {rank : σ → ℕ} {mark : σ → β}
  {helper : β → ι}

/-- As long as the goal is not reached and the rank does not fall, the invariant holds and
rank and mark stay what they are. -/
private theorem waits
    (hstep : ∀ s a s', I s → ¬ goal s → M.step s a = some s' →
      Advances owner goal I rank mark helper s a s')
    (b : Behaviour M) {i : ℕ} (hI : I (b.state i)) (hgoal : ∀ j, i ≤ j → ¬ goal (b.state j))
    (hrank : ∀ j, i ≤ j → I (b.state j) → ¬ rank (b.state j) < rank (b.state i)) {j : ℕ}
    (hij : i ≤ j) :
    I (b.state j) ∧ rank (b.state j) = rank (b.state i) ∧
      mark (b.state j) = mark (b.state i) := by
  induction j, hij using Nat.le_induction with
  | base => exact ⟨hI, rfl, rfl⟩
  | succ j hij ih =>
      rcases ih with ⟨hIj, hsame, hmark⟩
      have hpass := b.elapses j
      unfold Machine.Elapses at hpass
      split at hpass
      · rw [hpass]
        exact ⟨hIj, hsame, hmark⟩
      · next a _ =>
        have hij' : i ≤ j + 1 := hij.trans (Nat.le_succ j)
        rcases hstep _ a _ hIj (hgoal j hij) hpass with hreached | ⟨hI', hless | hkeep⟩
        · exact absurd hreached (hgoal (j + 1) hij')
        · rw [hsame] at hless
          exact absurd hless (hrank (j + 1) hij' hI')
        · exact ⟨hI', hkeep.1.trans hsame, hkeep.2.1.trans hmark⟩

/-- The goal stays out of reach from an instant on, and nothing comes nearer to it. -/
def Stalls (b : Behaviour M) (goal I : σ → Prop) (rank : σ → ℕ) (mark : σ → β) (i : ℕ) : Prop :=
  ∀ j, i ≤ j → I (b.state j) ∧ ¬ goal (b.state j) ∧ rank (b.state j) = rank (b.state i) ∧
    mark (b.state j) = mark (b.state i)

/-- A behaviour reaches the goal when the steps of a helpful thread lower a rank that nobody
raises, and this thread takes a step whenever nothing else comes nearer to the goal. -/
theorem leadsTo_of_rank_of_acts (rank : σ → ℕ) (mark : σ → β) (helper : β → ι)
    (hstep : ∀ s a s', I s → ¬ goal s → M.step s a = some s' →
      Advances owner goal I rank mark helper s a s')
    (b : Behaviour M)
    (hacts : ∀ i, b.Stalls goal I rank mark i →
      ∃ j a, i ≤ j ∧ b.action j = some a ∧ owner a = some (helper (mark (b.state i)))) :
    b.LeadsTo I goal := by
  intro i hI
  -- induction on the rank of the state from which the goal is to be reached
  induction hr : rank (b.state i) using Nat.strong_induction_on generalizing i with
  | _ r ih =>
      by_contra hnever
      have hgoal : ∀ j, i ≤ j → ¬ goal (b.state j) :=
        fun j hij hreached => hnever ⟨j, hij, hreached⟩
      have hrank : ∀ j, i ≤ j → I (b.state j) → ¬ rank (b.state j) < rank (b.state i) := by
        intro j hij hIj hless
        rcases ih _ (hr ▸ hless) j hIj rfl with ⟨k, hjk, hreached⟩
        exact hgoal k (hij.trans hjk) hreached
      have hwaits := fun j (hij : i ≤ j) => waits hstep b hI hgoal hrank hij
      have hstalls : b.Stalls goal I rank mark i := fun j hij =>
        ⟨(hwaits j hij).1, hgoal j hij, (hwaits j hij).2⟩
      rcases hacts i hstalls with ⟨j, a, hij, haction, howner⟩
      rcases hwaits j hij with ⟨hIj, hsame, hmark⟩
      have hpass := b.elapses j
      rw [haction] at hpass
      have hij' : i ≤ j + 1 := hij.trans (Nat.le_succ j)
      rcases hstep _ a _ hIj (hgoal j hij) hpass with hreached | ⟨hI', hless | hkeep⟩
      · exact hgoal (j + 1) hij' hreached
      · rw [hsame] at hless
        exact hrank (j + 1) hij' hI' hless
      · rw [hmark] at hkeep
        exact hkeep.2.2 howner

/-- The case of a helpful thread that is not blocked for ever. -/
theorem leadsTo_of_rank_of_unblocked (Blocked : σ → Prop) (rank : σ → ℕ) (mark : σ → β)
    (helper : β → ι)
    (hstep : ∀ s a s', I s → ¬ goal s → M.step s a = some s' →
      Advances owner goal I rank mark helper s a s')
    (hstays : ∀ s a s', I s → ¬ goal s → M.step s a = some s' → rank s' = rank s →
      mark s' = mark s → ¬ Blocked s → ¬ Blocked s')
    (hcan : ∀ s, I s → ¬ goal s → ¬ Blocked s → M.CanStep owner (helper (mark s)) s)
    (b : Behaviour M) (hfair : ∀ t, b.Fair owner t)
    (hends : ∀ i, b.Stalls goal I rank mark i → ∃ j, i ≤ j ∧ ¬ Blocked (b.state j)) :
    b.LeadsTo I goal := by
  refine leadsTo_of_rank_of_acts rank mark helper hstep b fun i hstalls => ?_
  rcases hends i hstalls with ⟨m, him, hfree⟩
  have hunblocked : ∀ j, m ≤ j → ¬ Blocked (b.state j) := by
    intro j hmj
    induction j, hmj using Nat.le_induction with
    | base => exact hfree
    | succ j hmj ihj =>
        have hij := him.trans hmj
        have hpass := b.elapses j
        unfold Machine.Elapses at hpass
        split at hpass
        · rw [hpass]
          exact ihj
        · next a _ =>
          rcases hstalls j hij with ⟨hIj, hgoalj, hrankj, hmarkj⟩
          rcases hstalls (j + 1) (hij.trans (Nat.le_succ j)) with ⟨-, -, hrank', hmark'⟩
          exact hstays _ a _ hIj hgoalj hpass (hrank'.trans hrankj.symm)
            (hmark'.trans hmarkj.symm) ihj
  have hable : ∀ j, m ≤ j → M.CanStep owner (helper (mark (b.state i))) (b.state j) := by
    intro j hmj
    rcases hstalls j (him.trans hmj) with ⟨hIj, hgoalj, -, hmarkj⟩
    rw [← hmarkj]
    exact hcan _ hIj hgoalj (hunblocked j hmj)
  rcases hfair _ m hable with ⟨j, a, hmj, haction, howner⟩
  exact ⟨j, a, him.trans hmj, haction, howner⟩

/-- The case of a helpful thread that is able to step again and again. -/
theorem leadsTo_of_rank_of_strongFair (rank : σ → ℕ) (mark : σ → β) (helper : β → ι)
    (hstep : ∀ s a s', I s → ¬ goal s → M.step s a = some s' →
      Advances owner goal I rank mark helper s a s')
    (b : Behaviour M) (hfair : ∀ t, b.StrongFair owner t)
    (hable : ∀ i, b.Stalls goal I rank mark i →
      ∃ j, i ≤ j ∧ M.CanStep owner (helper (mark (b.state i))) (b.state j)) :
    b.LeadsTo I goal := by
  refine leadsTo_of_rank_of_acts rank mark helper hstep b fun i hstalls => ?_
  refine hfair _ i fun k hik => ?_
  have hlater : b.Stalls goal I rank mark k := by
    intro j hkj
    rcases hstalls j (hik.trans hkj) with ⟨hIj, hgoalj, hrankj, hmarkj⟩
    rcases hstalls k hik with ⟨-, -, hrankk, hmarkk⟩
    exact ⟨hIj, hgoalj, hrankj.trans hrankk.symm, hmarkj.trans hmarkk.symm⟩
  rcases hable k hlater with ⟨j, hkj, hcan⟩
  rw [(hstalls k hik).2.2.2] at hcan
  exact ⟨j, hkj, hcan⟩

/-- The case of a helpful thread that is never blocked. -/
theorem leadsTo_of_rank (rank : σ → ℕ) (helper : σ → ι)
    (hstep : ∀ s a s', I s → ¬ goal s → M.step s a = some s' →
      Advances owner goal I rank helper id s a s')
    (hcan : ∀ s, I s → ¬ goal s → M.CanStep owner (helper s) s)
    (b : Behaviour M) (hfair : ∀ t, b.Fair owner t) : b.LeadsTo I goal :=
  leadsTo_of_rank_of_unblocked (fun _ => False) rank helper id hstep
    (fun _ _ _ _ _ _ _ _ hfree => hfree) (fun s hI hgoal _ => hcan s hI hgoal) b hfair
    (fun i _ => ⟨i, le_refl i, id⟩)

end Rank

end Behaviour

namespace Machine

variable {σ : Type u} {α : Type v} {M : Machine σ α} {ι : Type w}

/-! ## Behaviours from runs -/

/-- The state of a run after so many actions, and its last state from then on. -/
def stateAfter (M : Machine σ α) (s : σ) (as : List α) (i : ℕ) : σ :=
  (M.exec s (as.take i)).getD s

theorem stateAfter_of_length_le {s t : σ} {as : List α} (h : M.exec s as = some t) {i : ℕ}
    (hi : as.length ≤ i) : M.stateAfter s as i = t := by
  simp [stateAfter, List.take_of_length_le hi, h]

/-- A run, followed by nothing, is a behaviour. -/
theorem stateAfter_elapses {s t : σ} {as : List α} (h : M.exec s as = some t) (i : ℕ) :
    M.Elapses (M.stateAfter s as i) as[i]? (M.stateAfter s as (i + 1)) := by
  by_cases hi : i < as.length
  · have hsplit : as = as.take i ++ as[i] :: as.drop (i + 1) := by simp
    rw [hsplit] at h
    rcases M.exec_append_eq_some.mp h with ⟨s', hbefore, hrest⟩
    rcases M.exec_cons_eq_some.mp hrest with ⟨s'', hstep, -⟩
    have hafter : M.exec s (as.take (i + 1)) = some s'' := by
      rw [List.take_succ_eq_append_getElem hi]
      exact M.exec_append_eq_some.mpr ⟨s', hbefore, by simp [hstep]⟩
    simpa [Elapses, stateAfter, hbefore, hafter, List.getElem?_eq_getElem hi] using hstep
  · have hle : as.length ≤ i := Nat.le_of_not_lt hi
    rw [List.getElem?_eq_none hle]
    exact (stateAfter_of_length_le h (hle.trans (Nat.le_succ i))).trans
      (stateAfter_of_length_le h hle).symm

/-- A run to a state where no thread can step is the beginning of a fair behaviour. -/
theorem exists_strongFair {owner : α → Option ι} {s t : σ} {as : List α}
    (h : M.exec s as = some t) (hsettled : ∀ k, ¬ M.CanStep owner k t) :
    ∃ b : Behaviour M, b.state 0 = s ∧ (∀ i, as.length ≤ i → b.state i = t) ∧
      (∀ i, b.action i = as[i]?) ∧ ∀ k, b.StrongFair owner k := by
  let b : Behaviour M := ⟨M.stateAfter s as, fun i => as[i]?, stateAfter_elapses h⟩
  have hend : ∀ i, as.length ≤ i → b.state i = t := fun i hi => stateAfter_of_length_le h hi
  refine ⟨b, rfl, hend, fun _ => rfl, ?_⟩
  refine Behaviour.strongFair_of_settled (n := as.length) fun j hj k => ?_
  rw [hend j hj]
  exact hsettled k

theorem exists_behaviour {owner : α → Option ι} {s t : σ} {as : List α}
    (h : M.exec s as = some t) (hsettled : ∀ k, ¬ M.CanStep owner k t) :
    ∃ b : Behaviour M, b.state 0 = s ∧ (∀ i, as.length ≤ i → b.state i = t) ∧
      (∀ k, b.Fair owner k) := by
  rcases exists_strongFair h hsettled with ⟨b, hzero, hend, -, hfair⟩
  exact ⟨b, hzero, hend, fun k => (hfair k).fair⟩

/-- An action that an invariant enables, and that keeps the invariant, can be taken for ever. -/
theorem exists_repeating {P : σ → Prop} (a : α)
    (hstep : ∀ s, P s → ∃ s', M.step s a = some s' ∧ P s') {s : σ} (hs : P s) :
    ∃ b : Behaviour M, b.state 0 = s ∧ ∀ i, b.action i = some a ∧ P (b.state i) := by
  choose next hnext using fun t : {t : σ // P t} => hstep t.1 t.2
  let advance : {t : σ // P t} → {t : σ // P t} := fun t => ⟨next t, (hnext t).2⟩
  refine ⟨⟨fun i => (advance^[i] ⟨s, hs⟩).1, fun _ => some a, fun i => ?_⟩, rfl,
    fun i => ⟨rfl, (advance^[i] ⟨s, hs⟩).2⟩⟩
  rw [Function.iterate_succ_apply']
  exact (hnext _).1

end Machine
