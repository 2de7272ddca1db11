import Mathlib.Data.List.Basic
import Mathlib.Data.Option.Basic
import Mathlib.Tactic.Common

/-!
# Foundations - Executable labelled machines

A machine is a set of initial states and a step function that consumes one
action.  An action that is not enabled returns `none`, so a schedule is just a
list of actions and a run is a successful execution of that list.  Concurrent
programs are modelled by one action per atomic step of one thread: the list of
actions is then the interleaving.

Main results:

- Theorem `Machine.exec_append`: a run splits at any point of its schedule.
- Theorem `Machine.reachable_induction`: a predicate that holds initially and is
  preserved by every step holds in every reachable state.
- Theorem `Machine.exec_replicate`: what a thread does that runs alone for a while.
- Theorem `Machine.exec_induction_of_meets`: the same for runs all of whose steps
  meet a guard.
- Theorem `Machine.marked_iff_not_meets`: when a mark is set exactly by the steps
  that violate a guard, the mark at the end of a run says whether the run met it; the
  steps may be assumed to meet another guard.
- Theorem `Machine.kept_iff_meets`: when a predicate is kept exactly by the steps that meet
  a guard, the end of a run says whether the run met it.
- Theorem `Machine.meets_iff_always`: when a guard is met exactly by the steps into a set
  of states, a run meets it exactly if it stays in the set.
- Theorem `Machine.Always.never_of_persists`: what would persist to the end of a run, and
  does not hold there, never holds.
-/

universe u v w

/-- Initial states together with a partial, deterministic step per action. -/
structure Machine (σ : Type u) (α : Type v) where
  init : σ → Prop
  step : σ → α → Option σ

namespace Machine

variable {σ : Type u} {α : Type v} (M : Machine σ α)

/-! ## Runs -/

/-- Execute a schedule; `none` as soon as one of its actions is not enabled. -/
def exec : σ → List α → Option σ
  | s, [] => some s
  | s, a :: as => (M.step s a).bind fun s' => exec s' as

@[simp]
theorem exec_nil (s : σ) : M.exec s [] = some s :=
  rfl

@[simp]
theorem exec_cons (s : σ) (a : α) (as : List α) :
    M.exec s (a :: as) = (M.step s a).bind fun s' => M.exec s' as :=
  rfl

theorem exec_cons_eq_some {s t : σ} {a : α} {as : List α} :
    M.exec s (a :: as) = some t ↔ ∃ s', M.step s a = some s' ∧ M.exec s' as = some t := by
  simp [Option.bind_eq_some_iff]

/-- A run splits at any point of its schedule. -/
theorem exec_append (s : σ) (as bs : List α) :
    M.exec s (as ++ bs) = (M.exec s as).bind fun s' => M.exec s' bs := by
  induction as generalizing s with
  | nil => rfl
  | cons a as ih =>
      simp only [List.cons_append, exec_cons]
      cases M.step s a with
      | none => rfl
      | some s' => simpa using ih s'

theorem exec_append_eq_some {s t : σ} {as bs : List α} :
    M.exec s (as ++ bs) = some t ↔ ∃ s', M.exec s as = some s' ∧ M.exec s' bs = some t := by
  simp [exec_append, Option.bind_eq_some_iff]

/-- A state that some schedule leads to from an initial state. -/
def Reachable (s : σ) : Prop :=
  ∃ s₀ as, M.init s₀ ∧ M.exec s₀ as = some s

theorem Reachable.of_init {s : σ} (h : M.init s) : M.Reachable s :=
  ⟨s, [], h, rfl⟩

theorem Reachable.exec {s t : σ} {as : List α} (hs : M.Reachable s)
    (h : M.exec s as = some t) : M.Reachable t := by
  rcases hs with ⟨s₀, bs, hinit, hrun⟩
  exact ⟨s₀, bs ++ as, hinit, (M.exec_append_eq_some).mpr ⟨s, hrun, h⟩⟩

variable {M}

theorem Reachable.step {s t : σ} {a : α} (hs : M.Reachable s) (h : M.step s a = some t) :
    M.Reachable t := by
  have hrun : M.exec s [a] = some t := by simp [h]
  exact Reachable.exec M hs hrun

/-! ## Invariants -/

/-- A predicate preserved by every step is preserved by every run. -/
theorem exec_induction {P : σ → Prop}
    (hstep : ∀ s a s', P s → M.step s a = some s' → P s')
    {s t : σ} {as : List α} (hs : P s) (h : M.exec s as = some t) : P t := by
  induction as generalizing s with
  | nil =>
      cases h
      exact hs
  | cons a as ih =>
      rcases M.exec_cons_eq_some.mp h with ⟨s', hstep', hrest⟩
      exact ih (hstep s a s' hs hstep') hrest

/-- The invariant rule: initial and preserved, hence true of every reachable state. -/
theorem reachable_induction {P : σ → Prop} (hinit : ∀ s, M.init s → P s)
    (hstep : ∀ s a s', P s → M.step s a = some s' → P s')
    {s : σ} (h : M.Reachable s) : P s := by
  rcases h with ⟨s₀, as, hs₀, hrun⟩
  exact exec_induction hstep (hinit s₀ hs₀) hrun

/-! ## A thread that runs alone -/

/-- Several steps of a thread on the part of the state that it sees. -/
def alone {θ : Type w} (step : θ → Option θ) : ℕ → θ → Option θ
  | 0, t => some t
  | k + 1, t => (step t).bind (alone step k)

/-- When an action is a step of a thread on what it sees, so is a run that repeats it. -/
theorem exec_replicate {θ : Type w} (see : σ → θ) (put : σ → θ → σ) (step : θ → Option θ)
    {a : α} (hself : ∀ s, put s (see s) = s) (hput : ∀ s t t', put (put s t) t' = put s t')
    (hsee : ∀ s t, step (see s) = some t → see (put s t) = t)
    (hstep : ∀ s, M.step s a = (step (see s)).map (put s)) (k : ℕ) (s : σ) :
    M.exec s (List.replicate k a) = (alone step k (see s)).map (put s) := by
  induction k generalizing s with
  | zero => simp [alone, hself]
  | succ k ih =>
      rw [List.replicate_succ, exec_cons, hstep, alone]
      cases hfirst : step (see s) with
      | none => rfl
      | some t =>
          simp only [Option.map_some, Option.bind_some]
          rw [ih, hsee s t hfirst]
          exact congrArg (fun f => (alone step k t).map f) (funext (hput s t))

/-! ## Guards along a run -/

variable (M)

/-- Every step of the run of a schedule meets the guard `C`, which sees the state
before the step and the action taken. -/
def Meets (C : σ → α → Prop) : σ → List α → Prop
  | _, [] => True
  | s, a :: as => C s a ∧ ∀ s', M.step s a = some s' → Meets C s' as

variable {M}

@[simp]
theorem meets_nil (C : σ → α → Prop) (s : σ) : M.Meets C s [] :=
  trivial

theorem meets_cons {C : σ → α → Prop} {s s' : σ} {a : α} {as : List α}
    (h : M.step s a = some s') :
    M.Meets C s (a :: as) ↔ C s a ∧ M.Meets C s' as := by
  simp [Meets, h]

/-- A guard that can be decided can be checked along a run. -/
def Meets.decidable (M : Machine σ α) (C : σ → α → Prop) [∀ s a, Decidable (C s a)] :
    (as : List α) → (s : σ) → Decidable (M.Meets C s as)
  | [], _ => .isTrue trivial
  | a :: as, s =>
      match hstep : M.step s a with
      | none => decidable_of_iff (C s a) ⟨fun h => ⟨h, by simp [hstep]⟩, And.left⟩
      | some s' =>
          haveI := Meets.decidable M C as s'
          decidable_of_iff (C s a ∧ M.Meets C s' as) (meets_cons hstep).symm

instance (C : σ → α → Prop) [∀ s a, Decidable (C s a)] (s : σ) (as : List α) :
    Decidable (M.Meets C s as) :=
  Meets.decidable M C as s

/-- A guard weakened pointwise is still met. -/
theorem Meets.mono {C D : σ → α → Prop} (hCD : ∀ s a, C s a → D s a)
    {s : σ} {as : List α} (h : M.Meets C s as) : M.Meets D s as := by
  induction as generalizing s with
  | nil => trivial
  | cons a as ih =>
      exact ⟨hCD s a h.1, fun s' hs' => ih (h.2 s' hs')⟩

/-- Two guards that are both met. -/
theorem Meets.and {C D : σ → α → Prop} {s : σ} {as : List α} (hC : M.Meets C s as)
    (hD : M.Meets D s as) : M.Meets (fun s a => C s a ∧ D s a) s as := by
  induction as generalizing s with
  | nil => trivial
  | cons a as ih =>
      exact ⟨⟨hC.1, hD.1⟩, fun s' hs' => ih (hC.2 s' hs') (hD.2 s' hs')⟩

/-- A predicate preserved by the steps that meet a guard is preserved by every run
all of whose steps meet it. -/
theorem exec_induction_of_meets {C : σ → α → Prop} {P : σ → Prop}
    (hstep : ∀ s a s', P s → C s a → M.step s a = some s' → P s')
    {s t : σ} {as : List α} (hs : P s) (hC : M.Meets C s as)
    (h : M.exec s as = some t) : P t := by
  induction as generalizing s with
  | nil =>
      cases h
      exact hs
  | cons a as ih =>
      rcases M.exec_cons_eq_some.mp h with ⟨s', hstep', hrest⟩
      exact ih (hstep s a s' hs hC.1 hstep') (hC.2 s' hstep') hrest

/-- A run whose steps meet `G` meets what an invariant of these steps implies. -/
theorem Meets.of_invariant {G C : σ → α → Prop} {I : σ → Prop}
    (hI : ∀ s a s', I s → G s a → M.step s a = some s' → I s')
    (hC : ∀ s a, I s → G s a → C s a) {s : σ} {as : List α} (hG : M.Meets G s as) (hs : I s) :
    M.Meets C s as := by
  induction as generalizing s with
  | nil => trivial
  | cons a as ih =>
      refine ⟨hC s a hs hG.1, fun s' hstep => ?_⟩
      exact ih (hG.2 s' hstep) (hI s a s' hs hG.1 hstep)

/-- A guard on actions alone is met by the schedules of allowed actions. -/
theorem meets_of_forall {A : α → Prop} {s : σ} {as : List α} (h : ∀ a ∈ as, A a) :
    M.Meets (fun _ a => A a) s as := by
  induction as generalizing s with
  | nil => trivial
  | cons a as ih =>
      exact ⟨h a List.mem_cons_self,
        fun s' _ => ih fun a' ha' => h a' (List.mem_cons_of_mem a ha')⟩

/-- When each step that meets `G` sets the mark `Marked` exactly if it was set before or
the step violates `C`, the mark at the end of a run that meets `G` tells whether the run
violated `C`. -/
theorem marked_iff_not_meets {G C : σ → α → Prop} {I Marked : σ → Prop}
    (hI : ∀ s a s', I s → G s a → M.step s a = some s' → I s')
    (hmark : ∀ s a s', I s → G s a → M.step s a = some s' → (Marked s' ↔ Marked s ∨ ¬ C s a))
    {s t : σ} {as : List α} (hs : I s) (hG : M.Meets G s as) (h : M.exec s as = some t) :
    Marked t ↔ Marked s ∨ ¬ M.Meets C s as := by
  induction as generalizing s with
  | nil =>
      cases h
      simp
  | cons a as ih =>
      rcases M.exec_cons_eq_some.mp h with ⟨s', hstep, hrest⟩
      rw [ih (hI s a s' hs hG.1 hstep) (hG.2 s' hstep) hrest, hmark s a s' hs hG.1 hstep,
        meets_cons hstep]
      tauto

/-- When each step keeps `P` exactly if it meets the guard, a run ends in `P` exactly if it
began in it and met the guard. -/
theorem kept_iff_meets {C : σ → α → Prop} {I P : σ → Prop}
    (hI : ∀ s a s', I s → M.step s a = some s' → I s')
    (hP : ∀ s a s', I s → M.step s a = some s' → (P s' ↔ P s ∧ C s a))
    {s t : σ} {as : List α} (hs : I s) (h : M.exec s as = some t) :
    P t ↔ P s ∧ M.Meets C s as := by
  induction as generalizing s with
  | nil =>
      cases h
      simp
  | cons a as ih =>
      rcases M.exec_cons_eq_some.mp h with ⟨s', hstep, hrest⟩
      rw [ih (hI s a s' hs hstep) hrest, hP s a s' hs hstep, meets_cons hstep, and_assoc]

/-! ## Restricted machines -/

/-- The machine that takes only the steps that meet the guard. -/
def restrict (M : Machine σ α) (C : σ → α → Prop) [∀ s a, Decidable (C s a)] : Machine σ α where
  init := M.init
  step s a := if C s a then M.step s a else none

theorem restrict_step {C : σ → α → Prop} [∀ s a, Decidable (C s a)] {s s' : σ} {a : α} :
    (M.restrict C).step s a = some s' ↔ C s a ∧ M.step s a = some s' := by
  simp [restrict]

/-- A run of the restricted machine is a run. -/
theorem exec_of_restrict {C : σ → α → Prop} [∀ s a, Decidable (C s a)] {s t : σ} {as : List α}
    (h : (M.restrict C).exec s as = some t) : M.exec s as = some t := by
  induction as generalizing s with
  | nil => exact h
  | cons a as ih =>
      rcases (exec_cons_eq_some _).mp h with ⟨s', hstep, hrest⟩
      exact (exec_cons_eq_some _).mpr ⟨s', (restrict_step.mp hstep).2, ih hrest⟩

/-- A guard on the actions alone stops no schedule of actions that meet it. -/
theorem exec_restrict {C : α → Prop} [DecidablePred C] {as : List α} (h : ∀ a ∈ as, C a) (s : σ) :
    (M.restrict fun _ => C).exec s as = M.exec s as := by
  induction as generalizing s with
  | nil => rfl
  | cons a as ih =>
      have hfirst : (M.restrict fun _ => C).step s a = M.step s a :=
        if_pos (h a List.mem_cons_self)
      rw [exec_cons, exec_cons, hfirst]
      refine congrArg (Option.bind _) (funext fun s' => ?_)
      exact ih (fun b hb => h b (List.mem_cons_of_mem a hb)) s'

/-! ## Predicates along a run -/

variable (M)

/-- Every state that the run of a schedule passes through satisfies `P`. -/
def Always (P : σ → Prop) : σ → List α → Prop
  | s, [] => P s
  | s, a :: as => P s ∧ ∀ s', M.step s a = some s' → Always P s' as

variable {M}

/-- `Always` speaks about the states that the prefixes of a schedule lead to. -/
theorem always_iff {P : σ → Prop} {s : σ} {as : List α} :
    M.Always P s as ↔ ∀ bs cs t, as = bs ++ cs → M.exec s bs = some t → P t := by
  induction as generalizing s with
  | nil =>
      constructor
      · rintro h bs cs t heq hrun
        have hnil : bs = [] := (List.append_eq_nil_iff.mp heq.symm).1
        subst hnil
        cases hrun
        exact h
      · exact fun h => h [] [] s rfl rfl
  | cons a as ih =>
      constructor
      · rintro ⟨hs, hrest⟩ bs cs t heq hrun
        cases bs with
        | nil =>
            cases hrun
            exact hs
        | cons b bs =>
            cases heq
            rcases M.exec_cons_eq_some.mp hrun with ⟨s', hstep, hrun'⟩
            exact ih.mp (hrest s' hstep) bs cs t rfl hrun'
      · intro h
        refine ⟨h [] (a :: as) s rfl rfl, fun s' hstep => ih.mpr ?_⟩
        rintro bs cs t heq hrun
        refine h (a :: bs) cs t (by rw [heq]; rfl) ?_
        exact M.exec_cons_eq_some.mpr ⟨s', hstep, hrun⟩

theorem Always.head {P : σ → Prop} {s : σ} {as : List α} (h : M.Always P s as) : P s := by
  cases as with
  | nil => exact h
  | cons a as => exact h.1

theorem Always.last {P : σ → Prop} {s t : σ} {as : List α} (h : M.Always P s as)
    (hrun : M.exec s as = some t) : P t :=
  always_iff.mp h as [] t (List.append_nil as).symm hrun

/-- An invariant of the steps between states that satisfy `P` holds along every run that
satisfies `P`. -/
theorem Always.invariant {P I : σ → Prop}
    (hI : ∀ s a s', I s → P s → M.step s a = some s' → P s' → I s')
    {s : σ} {as : List α} (h : M.Always P s as) (hs : I s) :
    M.Always (fun s => P s ∧ I s) s as := by
  induction as generalizing s with
  | nil => exact ⟨h, hs⟩
  | cons a as ih =>
      refine ⟨⟨h.1, hs⟩, fun s' hstep => ih (h.2 s' hstep) ?_⟩
      exact hI s a s' hs h.1 hstep (h.2 s' hstep).head

theorem Always.mono {P Q : σ → Prop} (hPQ : ∀ s, P s → Q s) {s : σ} {as : List α}
    (h : M.Always P s as) : M.Always Q s as := by
  induction as generalizing s with
  | nil => exact hPQ s h
  | cons a as ih => exact ⟨hPQ s h.1, fun s' hstep => ih (h.2 s' hstep)⟩

/-- When a step meets `C` exactly if it ends in a state that satisfies `P`, the runs that
meet `C` are those that always satisfy `P`. -/
theorem meets_iff_always {C : σ → α → Prop} {P I : σ → Prop}
    (hI : ∀ s a s', I s → P s → M.step s a = some s' → P s' → I s')
    (hC : ∀ s a s', I s → P s → M.step s a = some s' → (C s a ↔ P s'))
    {s t : σ} {as : List α} (hs : I s) (hP : P s) (h : M.exec s as = some t) :
    M.Meets C s as ↔ M.Always P s as := by
  induction as generalizing s with
  | nil => exact iff_of_true trivial hP
  | cons a as ih =>
      rcases M.exec_cons_eq_some.mp h with ⟨s', hstep, hrest⟩
      rw [meets_cons hstep, hC s a s' hs hP hstep]
      constructor
      · rintro ⟨hP', hmeets⟩
        refine ⟨hP, fun s'' hstep' => ?_⟩
        rw [hstep] at hstep'
        cases hstep'
        exact (ih (hI s a s' hs hP hstep hP') hP' hrest).mp hmeets
      · rintro ⟨-, halways⟩
        have hP' := (halways s' hstep).head
        exact ⟨hP', (ih (hI s a s' hs hP hstep hP') hP' hrest).mpr (halways s' hstep)⟩

/-- What persists as long as the run satisfies `P`, and does not hold at its end, never
holds. -/
theorem Always.never_of_persists {P D I : σ → Prop}
    (hI : ∀ s a s', I s → P s → M.step s a = some s' → P s' → I s')
    (hD : ∀ s a s', I s → P s → D s → M.step s a = some s' → P s' → D s')
    {s t : σ} {as : List α} (hP : M.Always P s as) (hs : I s) (h : M.exec s as = some t)
    (hend : ¬ D t) : M.Always (fun s => ¬ D s) s as := by
  induction as generalizing s with
  | nil =>
      cases h
      exact hend
  | cons a as ih =>
      rcases M.exec_cons_eq_some.mp h with ⟨s', hstep, hrest⟩
      have hP' := hP.2 s' hstep
      have hnever := ih hP' (hI s a s' hs hP.1 hstep hP'.head) hrest
      refine ⟨fun hdoomed => ?_, fun s'' hstep' => ?_⟩
      · exact hnever.head (hD s a s' hs hP.1 hdoomed hstep hP'.head)
      · rw [hstep] at hstep'
        cases hstep'
        exact hnever

end Machine
