import Mathlib.Algebra.Order.BigOperators.Group.Finset
import Mathlib.Algebra.Order.Group.Multiset
import Mathlib.Order.WellFounded
import Mathlib.Tactic.Abel
import FrameProcessor.Foundations.Fairness

/-!
# Foundations - Threads that empty a queue

A queue is filled by anybody and emptied by a group of threads: a thread pops the head, works
on what it holds for a bounded number of steps, and is done with it.  In a fair behaviour
nothing that is in the queue or in a thread's hands stays there for ever, however much is
pushed behind it.

Main results:

- Theorem `Consumers.pops_ahead`: as long as there is something in front, somebody pops it.
- Theorem `Consumers.puts_down`: a thread that holds something is done with it at some time.
- Theorem `Consumers.finishes`: everything that is queued or held at an instant is finished at
  a later one.
- Theorem `exists_le_of_arrives`: what is in transit or at rest at every instant has arrived or
  is at rest at some instant, when everything in transit arrives.
-/

universe u v w

/-- Threads that take items from a queue: what each holds, what has been finished, and how many
steps a thread has left before it pops again. -/
structure Consumers (σ : Type u) (ι : Type w) (κ β : Type*) where
  thread : κ → ι
  thread_injective : Function.Injective thread
  queue : σ → List β
  hand : σ → κ → Multiset β
  finished : σ → Multiset β
  work : σ → κ → ℕ

namespace Consumers

variable {σ : Type u} {α : Type v} {ι : Type w} {κ β : Type*}

/-! ## Steps -/

/-- What a step can do: push to the queue, bring one thread nearer to its next pop, or pop. -/
inductive Moves (C : Consumers σ ι κ β) (s : σ) (who : Option ι) (s' : σ) : Prop where
  | pushes (added : List β) (hwho : ∀ k, who ≠ some (C.thread k))
      (hqueue : C.queue s' = C.queue s ++ added) (hhand : ∀ k, C.hand s' k = C.hand s k)
      (hwork : ∀ k, C.work s' k = C.work s k) (hfinished : C.finished s ≤ C.finished s')
  | works (k : κ) (hwho : who = some (C.thread k)) (hqueue : C.queue s' = C.queue s)
      (hhand : ∀ j, j ≠ k → C.hand s' j = C.hand s j)
      (hothers : ∀ j, j ≠ k → C.work s' j = C.work s j) (hwork : C.work s' k < C.work s k)
      (hfinished : C.finished s ≤ C.finished s')
      (hkept : C.hand s k + C.finished s ≤ C.hand s' k + C.finished s')
  | pops (k : κ) (item : β) (hwho : who = some (C.thread k))
      (hqueue : C.queue s = item :: C.queue s')
      (hhand : ∀ j, j ≠ k → C.hand s' j = C.hand s j)
      (hothers : ∀ j, j ≠ k → C.work s' j = C.work s j)
      (hempty : C.hand s k = 0) (hpopped : C.hand s' k = {item})
      (hfinished : C.finished s ≤ C.finished s')

/-- A step that leaves the queue and the threads alone. -/
theorem Moves.of_same {C : Consumers σ ι κ β} {s s' : σ} {who : Option ι}
    (hwho : ∀ k, who ≠ some (C.thread k)) (hqueue : C.queue s' = C.queue s)
    (hhand : ∀ k, C.hand s' k = C.hand s k) (hwork : ∀ k, C.work s' k = C.work s k)
    (hfinished : C.finished s ≤ C.finished s') : C.Moves s who s' :=
  .pushes [] hwho (hqueue.trans (List.append_nil _).symm) hhand hwork hfinished

section Pool

variable {τ : Type*} [DecidableEq κ] {thread : κ → ι} {hthread : Function.Injective thread}
  {queue : σ → List β} {pool : σ → κ → τ} {hand : τ → Multiset β} {finished : σ → Multiset β}
  {work : τ → ℕ}

/-- The consumers that are the members of a pool. -/
def ofPool (thread : κ → ι) (hthread : Function.Injective thread) (queue : σ → List β)
    (pool : σ → κ → τ) (hand : τ → Multiset β) (finished : σ → Multiset β) (work : τ → ℕ) :
    Consumers σ ι κ β where
  thread
  thread_injective := hthread
  queue
  hand s k := hand (pool s k)
  finished
  work s k := work (pool s k)

theorem Moves.works_of_update {s s' : σ} (k : κ) {w : τ}
    (hpool : pool s' = Function.update (pool s) k w) (hqueue : queue s' = queue s)
    (hwork : work w < work (pool s k)) (hfinished : finished s ≤ finished s')
    (hkept : hand w + finished s' = hand (pool s k) + finished s) :
    (ofPool thread hthread queue pool hand finished work).Moves s (some (thread k)) s' := by
  have hothers : ∀ j, j ≠ k → pool s' j = pool s j := by
    intro j hj
    rw [hpool, Function.update_of_ne hj]
  have hself : pool s' k = w := by rw [hpool, Function.update_self]
  refine .works k rfl hqueue (fun j hj => congrArg hand (hothers j hj))
    (fun j hj => congrArg work (hothers j hj)) ?_ hfinished ?_
  · simpa only [ofPool, hself] using hwork
  · simpa only [ofPool, hself] using hkept.ge

theorem Moves.pops_of_update {s s' : σ} (k : κ) {w : τ} (item : β)
    (hpool : pool s' = Function.update (pool s) k w) (hqueue : queue s = item :: queue s')
    (hempty : hand (pool s k) = 0) (hpopped : hand w = {item})
    (hfinished : finished s ≤ finished s') :
    (ofPool thread hthread queue pool hand finished work).Moves s (some (thread k)) s' := by
  have hothers : ∀ j, j ≠ k → pool s' j = pool s j := by
    intro j hj
    rw [hpool, Function.update_of_ne hj]
  have hself : pool s' k = w := by rw [hpool, Function.update_self]
  refine .pops k item rfl hqueue (fun j hj => congrArg hand (hothers j hj))
    (fun j hj => congrArg work (hothers j hj)) hempty ?_ hfinished
  simpa only [ofPool, hself] using hpopped

end Pool

/-- The first `ahead` items of the queue, what the threads of `busy` hold and what has been
finished account for the items. -/
def Owes (C : Consumers σ ι κ β) (items : Multiset β) (ahead : ℕ) (busy : Finset κ) (s : σ) :
    Prop :=
  items ≤ ↑((C.queue s).take ahead) + ∑ k ∈ busy, C.hand s k + C.finished s

variable {C : Consumers σ ι κ β} {s s' : σ} {who : Option ι}

theorem Moves.finished_le (h : C.Moves s who s') : C.finished s ≤ C.finished s' := by
  cases h with
  | pushes _ _ _ _ _ hfinished => exact hfinished
  | works _ _ _ _ _ _ hfinished _ => exact hfinished
  | pops _ _ _ _ _ _ _ _ hfinished => exact hfinished

theorem Owes.mono {items : Multiset β} {ahead : ℕ} {busy : Finset κ}
    (howes : C.Owes items ahead busy s)
    (hqueue : (C.queue s).take ahead <+: (C.queue s').take ahead)
    (hhands : ∑ k ∈ busy, C.hand s k + C.finished s ≤ ∑ k ∈ busy, C.hand s' k + C.finished s') :
    C.Owes items ahead busy s' := by
  have hahead : (↑((C.queue s).take ahead) : Multiset β) ≤ ↑((C.queue s').take ahead) :=
    Multiset.coe_le.mpr hqueue.sublist.subperm
  unfold Owes at howes ⊢
  rw [add_assoc] at howes ⊢
  exact howes.trans (add_le_add hahead hhands)

/-- The rules of a group of threads that empty a queue, on the states that satisfy `I`: a
thread is able to step as long as there is something to pop or something in its hands. -/
structure Serves (C : Consumers σ ι κ β) (M : Machine σ α) (owner : α → Option ι)
    (I : σ → Prop) : Prop where
  invariant : ∀ s a s', I s → M.step s a = some s' → I s'
  moves : ∀ s a s', I s → M.step s a = some s' → C.Moves s (owner a) s'
  canStep : ∀ s k, I s → C.queue s ≠ [] ∨ C.hand s k ≠ 0 → M.CanStep owner (C.thread k) s

variable {M : Machine σ α} {owner : α → Option ι} {I : σ → Prop}

/-- What is finished stays finished. -/
theorem Serves.finished_mono (h : C.Serves M owner I) (b : Behaviour M) {i j : ℕ} (hij : i ≤ j)
    (hI : I (b.state i)) : C.finished (b.state i) ≤ C.finished (b.state j) := by
  have hkept := b.invariant (P := fun s => I s ∧ C.finished (b.state i) ≤ C.finished s)
    (fun s a s' hs hstep => ⟨h.invariant s a s' hs.1 hstep,
      hs.2.trans (h.moves s a s' hs.1 hstep).finished_le⟩) hij ⟨hI, le_rfl⟩
  exact hkept.2

variable [DecidableEq κ]

/-- Nobody loses what he holds. -/
theorem Moves.hands_le (h : C.Moves s who s') (busy : Finset κ) :
    ∑ k ∈ busy, C.hand s k + C.finished s ≤ ∑ k ∈ busy, C.hand s' k + C.finished s' := by
  -- the case of a step of one thread
  have hstep : ∀ k, (∀ j, j ≠ k → C.hand s' j = C.hand s j) →
      C.finished s ≤ C.finished s' →
      C.hand s k + C.finished s ≤ C.hand s' k + C.finished s' →
      ∑ k ∈ busy, C.hand s k + C.finished s ≤ ∑ k ∈ busy, C.hand s' k + C.finished s' := by
    intro k hhand hfinished hkept
    have hrest : ∑ j ∈ busy.erase k, C.hand s' j = ∑ j ∈ busy.erase k, C.hand s j :=
      Finset.sum_congr rfl fun j hj => hhand j (Finset.ne_of_mem_erase hj)
    by_cases hk : k ∈ busy
    · rw [← Finset.add_sum_erase busy _ hk, ← Finset.add_sum_erase busy (C.hand s') hk, hrest,
        add_right_comm, add_right_comm (C.hand s' k)]
      exact add_le_add_left hkept _
    · rw [Finset.erase_eq_of_notMem hk] at hrest
      rw [hrest]
      exact add_le_add_right hfinished _
  cases h with
  | pushes _ _ _ hhand _ hfinished =>
      rw [Finset.sum_congr rfl fun k _ => hhand k]
      exact add_le_add_right hfinished _
  | works k _ _ hhand _ _ hfinished hkept => exact hstep k hhand hfinished hkept
  | pops k item _ _ hhand _ hempty _ hfinished =>
      refine hstep k hhand hfinished ?_
      rw [hempty, zero_add]
      exact hfinished.trans (le_add_of_nonneg_left (Multiset.zero_le _))

/-! ## What is owed -/

/-- With nothing ahead, what the threads hold and what is finished stays enough. -/
theorem Moves.owes (h : C.Moves s who s') {items : Multiset β} {busy : Finset κ}
    (howes : C.Owes items 0 busy s) : C.Owes items 0 busy s' :=
  howes.mono (List.prefix_refl []) (h.hands_le busy)

/-- A step with something ahead is a pop, which brings it nearer, or it brings some thread
nearer to its next pop, or is not a step of the threads. -/
theorem Moves.advance [Fintype κ] (h : C.Moves s who s') {items : Multiset β} {ahead : ℕ}
    (howes : C.Owes items (ahead + 1) Finset.univ s) :
    C.Owes items ahead Finset.univ s' ∨ (C.Owes items (ahead + 1) Finset.univ s' ∧
      (∑ k, C.work s' k < ∑ k, C.work s k ∨
        (∑ k, C.work s' k = ∑ k, C.work s k ∧ ∀ k, who ≠ some (C.thread k)))) := by
  have hhands := h.hands_le Finset.univ
  cases h with
  | pushes added hwho hqueue _ hwork _ =>
      refine Or.inr ⟨howes.mono ?_ hhands, Or.inr ⟨Finset.sum_congr rfl fun k _ => hwork k, hwho⟩⟩
      rw [hqueue]
      exact (List.prefix_append _ added).take _
  | works k _ hqueue _ hothers hwork _ _ =>
      refine Or.inr ⟨howes.mono ?_ hhands, Or.inl ?_⟩
      · rw [hqueue]
      · refine Finset.sum_lt_sum (fun j _ => ?_) ⟨k, Finset.mem_univ k, hwork⟩
        by_cases hj : j = k
        · rw [hj]
          exact hwork.le
        · exact (hothers j hj).le
  | pops k item _ hqueue hhand _ hempty hpopped hfinished =>
      left
      have hrest : ∑ j ∈ Finset.univ.erase k, C.hand s' j = ∑ j ∈ Finset.univ.erase k, C.hand s j :=
        Finset.sum_congr rfl fun j hj => hhand j (Finset.ne_of_mem_erase hj)
      have htotal : ∑ j, C.hand s' j = {item} + ∑ j, C.hand s j := by
        rw [← Finset.add_sum_erase _ _ (Finset.mem_univ k), hrest, hpopped,
          ← Finset.add_sum_erase _ (C.hand s) (Finset.mem_univ k), hempty, zero_add]
      unfold Owes at howes ⊢
      rw [hqueue, List.take_succ_cons, ← Multiset.cons_coe, ← Multiset.singleton_add] at howes
      rw [htotal]
      calc items ≤ {item} + ↑((C.queue s').take ahead) + ∑ j, C.hand s j + C.finished s := howes
        _ ≤ {item} + ↑((C.queue s').take ahead) + ∑ j, C.hand s j + C.finished s' :=
            add_le_add_right hfinished _
        _ = ↑((C.queue s').take ahead) + ({item} + ∑ j, C.hand s j) + C.finished s' := by
            abel

/-- A step keeps the work of a thread that holds something, or is a step of this thread and
reduces it. -/
theorem Moves.work_of_holds (h : C.Moves s who s') {k : κ} (hholds : C.hand s k ≠ 0) :
    C.work s' k < C.work s k ∨ (C.work s' k = C.work s k ∧ who ≠ some (C.thread k)) := by
  cases h with
  | pushes _ hwho _ _ hwork _ => exact Or.inr ⟨hwork k, hwho k⟩
  | works j hwho _ _ hothers hwork _ _ =>
      by_cases hj : k = j
      · rw [hj]
        exact Or.inl hwork
      · refine Or.inr ⟨hothers k hj, fun hk => hj ?_⟩
        rw [hwho] at hk
        exact (C.thread_injective (Option.some.inj hk)).symm
  | pops j _ hwho _ _ hothers hempty _ _ =>
      by_cases hj : k = j
      · rw [hj] at hholds
        exact absurd hempty hholds
      · refine Or.inr ⟨hothers k hj, fun hk => hj ?_⟩
        rw [hwho] at hk
        exact (C.thread_injective (Option.some.inj hk)).symm

/-! ## Nothing stays for ever -/

/-- As long as there is something in front, somebody pops it. -/
theorem pops_ahead [Fintype κ] [Nonempty κ] (h : C.Serves M owner I) (b : Behaviour M)
    (hfair : ∀ t, b.Fair owner t) (items : Multiset β) (ahead : ℕ) :
    b.LeadsTo (fun s => I s ∧ C.Owes items ahead Finset.univ s)
      (fun s => I s ∧ C.Owes items 0 Finset.univ s) := by
  induction ahead with
  | zero => exact .of_imp fun s hs => hs
  | succ ahead ih =>
      refine Behaviour.LeadsTo.trans ?_ ih
      let helper : κ := Classical.arbitrary κ
      refine Behaviour.leadsTo_of_rank (fun s => ∑ k, C.work s k) (fun _ => C.thread helper)
        ?_ ?_ b hfair
      · rintro s a s' ⟨hI, howes⟩ - hstep
        have hI' := h.invariant s a s' hI hstep
        rcases (h.moves s a s' hI hstep).advance howes with hnearer | ⟨howes', hless | hsame⟩
        · exact Or.inl ⟨hI', hnearer⟩
        · exact Or.inr ⟨⟨hI', howes'⟩, Or.inl hless⟩
        · exact Or.inr ⟨⟨hI', howes'⟩, Or.inr ⟨hsame.1, rfl, hsame.2 helper⟩⟩
      · rintro s ⟨hI, howes⟩ hgoal
        refine h.canStep s helper hI (Or.inl fun hempty => hgoal ⟨hI, ?_⟩)
        unfold Owes at howes ⊢
        simpa [hempty] using howes

/-- A thread that holds something is done with it at some time. -/
theorem puts_down (h : C.Serves M owner I) (b : Behaviour M) (hfair : ∀ t, b.Fair owner t)
    (items : Multiset β) {busy : Finset κ} {k : κ} (hk : k ∈ busy) :
    b.LeadsTo (fun s => I s ∧ C.Owes items 0 busy s)
      (fun s => I s ∧ C.Owes items 0 (busy.erase k) s) := by
  have hholds : ∀ s, C.Owes items 0 busy s → ¬ C.Owes items 0 (busy.erase k) s →
      C.hand s k ≠ 0 := by
    intro s howes hgoal hempty
    refine hgoal ?_
    unfold Owes at howes ⊢
    rwa [← Finset.add_sum_erase busy _ hk, hempty, zero_add] at howes
  refine Behaviour.leadsTo_of_rank (fun s => C.work s k) (fun _ => C.thread k) ?_ ?_ b hfair
  · rintro s a s' ⟨hI, howes⟩ hgoal hstep
    have hmoves := h.moves s a s' hI hstep
    have hk' := hholds s howes fun hdone => hgoal ⟨hI, hdone⟩
    refine Or.inr ⟨⟨h.invariant s a s' hI hstep, hmoves.owes howes⟩, ?_⟩
    exact (hmoves.work_of_holds hk').imp id fun hsame => ⟨hsame.1, rfl, hsame.2⟩
  · rintro s ⟨hI, howes⟩ hgoal
    exact h.canStep s k hI (Or.inr (hholds s howes fun hdone => hgoal ⟨hI, hdone⟩))

/-- All threads are done with what they hold at some time. -/
theorem puts_down_all (h : C.Serves M owner I) (b : Behaviour M) (hfair : ∀ t, b.Fair owner t)
    (items : Multiset β) (busy : Finset κ) :
    b.LeadsTo (fun s => I s ∧ C.Owes items 0 busy s) (fun s => I s ∧ C.Owes items 0 ∅ s) := by
  induction busy using Finset.induction_on with
  | empty => exact .of_imp fun s hs => hs
  | insert k busy hk ih =>
      have hleads := puts_down h b hfair items (Finset.mem_insert_self k busy)
      rw [Finset.erase_insert hk] at hleads
      exact hleads.trans ih

/-- Everything that is queued or held at an instant is finished at a later one. -/
theorem finishes [Fintype κ] [Nonempty κ] (h : C.Serves M owner I) (b : Behaviour M)
    (hfair : ∀ t, b.Fair owner t) {i : ℕ} (hI : I (b.state i)) :
    ∃ j, i ≤ j ∧ ↑(C.queue (b.state i)) + ∑ k, C.hand (b.state i) k + C.finished (b.state i) ≤
      C.finished (b.state j) := by
  let items : Multiset β :=
    ↑(C.queue (b.state i)) + ∑ k, C.hand (b.state i) k + C.finished (b.state i)
  have howes : C.Owes items (C.queue (b.state i)).length Finset.univ (b.state i) := by
    unfold Owes
    rw [List.take_length]
  have hleads := (pops_ahead h b hfair items (C.queue (b.state i)).length).trans
    (puts_down_all h b hfair items Finset.univ)
  rcases hleads i ⟨hI, howes⟩ with ⟨j, hij, -, hdone⟩
  refine ⟨j, hij, ?_⟩
  unfold Owes at hdone
  simpa using hdone

end Consumers

/-! ## What arrives -/

/-- What is in transit or at rest at every instant has arrived or is at rest at some instant,
when nothing leaves the transit but by arriving, and everything in transit arrives. -/
theorem exists_le_of_arrives {β : Type*} {transit arrived rest : ℕ → Multiset β}
    {items : Multiset β} {i : ℕ} (hmono : Monotone transit)
    (hcover : ∀ j, i ≤ j → items ≤ transit j + rest j)
    (harrives : ∀ j, ∃ k, j ≤ k ∧ transit j ≤ arrived k) :
    ∃ k, i ≤ k ∧ items ≤ arrived k + rest k := by
  classical
  -- an instant from which on no more of the items come out of their rest
  let outside : {j : ℕ // i ≤ j} → ℕ := fun j => (items - transit j).card
  have hnonempty : Nonempty {j : ℕ // i ≤ j} := ⟨⟨i, le_rfl⟩⟩
  rcases hfirst : Function.argmin outside with ⟨j, hij⟩
  rcases harrives j with ⟨k, hjk, harrived⟩
  have hik : i ≤ k := hij.trans hjk
  have hleast : (items - transit j).card ≤ (items - transit k).card := by
    have hmin := Function.argmin_le (f := outside) ⟨k, hik⟩
    rwa [hfirst] at hmin
  have hstays : items - transit k = items - transit j :=
    Multiset.eq_of_le_of_card_le (tsub_le_tsub_left (hmono hjk) items) hleast
  have hrest : items - transit k ≤ rest k := tsub_le_iff_left.mpr (hcover k hik)
  refine ⟨k, hik, ?_⟩
  calc items ≤ transit j + (items - transit j) := le_add_tsub
    _ = transit j + (items - transit k) := by rw [hstays]
    _ ≤ arrived k + rest k := add_le_add harrived hrest
