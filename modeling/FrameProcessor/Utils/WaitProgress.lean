import FrameProcessor.Foundations.Fairness
import FrameProcessor.Utils.Wakeup

/-!
# utils/fifo - Consumers get on

A consumer that has woken up runs the predicate of `wait_and_pop` again as soon as it is given
the mutex.  In a behaviour that gives it to every woken consumer at some time, the queue makes
progress: a call does not outlast a stop, and an item does not stay for ever as long as
consumers keep coming.

Main results:

- Theorem `SleepingFifo.waitAndPop_returns`: every call of `wait_and_pop` returns once the queue
  is stopped.
- Theorem `SleepingFifo.accepted_popped`: every accepted item is popped, whatever other consumers,
  spurious wakeups and pushes come in between, as long as some consumer comes back again and
  again.
-/

namespace FrameProcessor

namespace SleepingFifo

variable {ι α : Type*} [DecidableEq ι] {s s' : SleepingFifo ι α}

/-- Only a woken consumer has to be given the mutex; all else is up to the callers. -/
def owner : WaitAction ι α → Option ι
  | .wake caller => some caller
  | _ => none

/-! ## What a step does to the queue and to a woken consumer -/

/-- A test of the predicate takes the first item, if there is one. -/
theorem testPredicate_totalPopped (s : SleepingFifo ι α) (caller : ι)
    (hitems : s.fifo.queue ≠ []) :
    (s.testPredicate caller).fifo.totalPopped = s.fifo.totalPopped + 1 := by
  rcases List.exists_cons_of_ne_nil hitems with ⟨value, rest, hqueue⟩
  simp [testPredicate, Fifo.waitAndPop, hqueue]

/-- A test of the predicate of a stopped queue does not put anybody to sleep. -/
theorem testPredicate_cv (s : SleepingFifo ι α) (caller : ι)
    (h : s.fifo.queue ≠ [] ∨ s.fifo.stopped = true) : (s.testPredicate caller).cv = s.cv := by
  unfold testPredicate
  cases hpop : s.fifo.waitAndPop with
  | none =>
      rcases Fifo.waitAndPop_eq_none.mp hpop with ⟨hempty, hrunning⟩
      rw [hrunning] at h
      exact absurd hempty (h.resolve_right Bool.false_ne_true)
  | some popped => rfl

/-- A test of the predicate by another thread does not wake or stop a woken one. -/
theorem awake_testPredicate {caller other : ι} (h : s.cv.Awake caller) (hne : caller ≠ other) :
    (s.testPredicate other).cv.Awake caller := by
  unfold testPredicate
  split
  · exact h
  · exact h.imp (Finset.mem_erase_of_ne_of_mem hne) (Finset.mem_erase_of_ne_of_mem hne)

/-- What a step does to the queue: a push, a pop, a stop or nothing. -/
theorem fifo_step {a : WaitAction ι α} (hstep : (machine ι α).step s a = some s') :
    (∃ value, s'.fifo = s.fifo.push value) ∨
      (∃ result, s.fifo.waitAndPop = some (result, s'.fifo)) ∨ s'.fifo = s.fifo.stop ∨
        s'.fifo = s.fifo := by
  have htest : ∀ (r : SleepingFifo ι α) (caller : ι), r.fifo = s.fifo →
      r.testPredicate caller = s' →
      (∃ result, s.fifo.waitAndPop = some (result, s'.fifo)) ∨ s'.fifo = s.fifo := by
    rintro r caller hfifo rfl
    unfold testPredicate
    rw [← hfifo]
    cases hpop : r.fifo.waitAndPop with
    | none => exact Or.inr rfl
    | some popped => exact Or.inl ⟨popped.1, rfl⟩
  cases a with
  | push caller value notified =>
      simp only [machine] at hstep
      split at hstep
      · cases hstep
      · rcases push_cases hstep with ⟨-, rfl⟩ | ⟨-, cv, -, rfl⟩
        · exact Or.inr (Or.inr (Or.inr rfl))
        · exact Or.inl ⟨value, rfl⟩
  | waitAndPop caller =>
      simp only [machine] at hstep
      split at hstep
      · cases hstep
      · exact Or.inr ((htest s caller rfl (Option.some.inj hstep)).imp_right Or.inr)
  | wake caller =>
      simp only [machine] at hstep
      split at hstep
      · have hrun := Option.some.inj hstep
        exact Or.inr ((htest { s with cv := s.cv.resume caller } caller rfl hrun).imp_right Or.inr)
      · cases hstep
  | spurious caller =>
      simp only [machine, Option.map_eq_some_iff] at hstep
      rcases hstep with ⟨cv, -, rfl⟩
      exact Or.inr (Or.inr (Or.inr rfl))
  | stop caller =>
      simp only [machine] at hstep
      split at hstep
      · cases hstep
      · cases hstep
        exact Or.inr (Or.inr (Or.inl rfl))

/-- A step pops an item, or leaves the items that there are where they are. -/
theorem queue_step {a : WaitAction ι α} (hstep : (machine ι α).step s a = some s') :
    s'.fifo.totalPopped = s.fifo.totalPopped + 1 ∨
      (s'.fifo.totalPopped = s.fifo.totalPopped ∧ s.fifo.queue <+: s'.fifo.queue) := by
  rcases fifo_step hstep with ⟨value, hpush⟩ | ⟨result, hpop⟩ | hstop | hsame
  · rw [hpush]
    cases hstopped : s.fifo.stopped with
    | true =>
        rw [Fifo.push_of_stopped hstopped]
        exact Or.inr ⟨rfl, List.prefix_rfl⟩
    | false =>
        rw [Fifo.push_queue_of_not_stopped hstopped]
        exact Or.inr ⟨by simp [Fifo.push, hstopped], List.prefix_append _ _⟩
  · generalize s'.fifo = q at hpop ⊢
    unfold Fifo.waitAndPop at hpop
    split at hpop
    · split at hpop
      · cases hpop
        exact Or.inr ⟨rfl, List.prefix_rfl⟩
      · cases hpop
    · cases hpop
      exact Or.inl rfl
  · rw [hstop]
    exact Or.inr ⟨rfl, List.prefix_rfl⟩
  · rw [hsame]
    exact Or.inr ⟨rfl, List.prefix_rfl⟩

/-- No step starts a stopped queue again. -/
theorem stopped_step {a : WaitAction ι α} (hstep : (machine ι α).step s a = some s')
    (h : s.fifo.stopped = true) : s'.fifo.stopped = true := by
  rcases fifo_step hstep with ⟨value, hpush⟩ | ⟨result, hpop⟩ | hstop | hsame
  · rw [hpush, Fifo.push_stopped, h]
  · rw [Fifo.waitAndPop_stopped hpop, h]
  · rw [hstop, Fifo.stop_stopped]
  · rw [hsame, h]

/-- A woken consumer stays awake until it runs. -/
theorem awake_step {a : WaitAction ι α} {caller : ι} (h : s.cv.Awake caller)
    (hother : owner a ≠ some caller) (hstep : (machine ι α).step s a = some s') :
    s'.cv.Awake caller := by
  cases a with
  | push caller' value notified =>
      simp only [machine] at hstep
      split at hstep
      · cases hstep
      · rcases push_cases hstep with ⟨-, rfl⟩ | ⟨-, cv, hnotify, rfl⟩
        · exact h
        · rcases Condvar.notifyOne_cases hnotify with ⟨-, -, rfl⟩ |
            ⟨chosen, -, -, -, hnotified, hroused⟩
          · exact h
          · refine h.imp (fun hmem => ?_) fun hmem => ?_
            · rw [hnotified]
              exact Finset.mem_insert_of_mem hmem
            · rwa [hroused]
  | waitAndPop caller' =>
      simp only [machine] at hstep
      split at hstep
      · cases hstep
      · next hnot =>
        cases hstep
        exact awake_testPredicate h fun heq => hnot (Or.inr (heq ▸ h))
  | wake caller' =>
      have hne : caller ≠ caller' := fun heq => hother (congrArg some heq.symm)
      simp only [machine] at hstep
      split at hstep
      · cases hstep
        refine awake_testPredicate ?_ hne
        exact h.imp (Finset.mem_erase_of_ne_of_mem hne) (Finset.mem_erase_of_ne_of_mem hne)
      · cases hstep
  | spurious caller' =>
      simp only [machine, Option.map_eq_some_iff] at hstep
      rcases hstep with ⟨cv, hrouse, rfl⟩
      unfold Condvar.rouse at hrouse
      split at hrouse
      · cases hrouse
        exact h.imp_right (Finset.mem_insert_of_mem ·)
      · cases hrouse
  | stop caller' =>
      simp only [machine] at hstep
      split at hstep
      · cases hstep
      · cases hstep
        exact h.imp_left (Finset.mem_union_right _)

/-! ## A stopped queue keeps nobody waiting -/

/-- A woken consumer of a stopped queue returns when it runs. -/
theorem wake_returns {caller : ι} (hawake : s.cv.Awake caller)
    (hwork : s.fifo.queue ≠ [] ∨ s.fifo.stopped = true)
    (hstep : (machine ι α).step s (.wake caller) = some s') : ¬ s'.cv.Waiting caller := by
  have hrun : testPredicate { s with cv := s.cv.resume caller } caller = s' := by
    simpa [machine, hawake] using hstep
  have hcv := testPredicate_cv { s with cv := s.cv.resume caller } caller hwork
  rw [← hrun, hcv]
  have hasleep : caller ∉ s.cv.sleepers := by
    rcases hawake with hnotified | hroused
    · exact Finset.disjoint_right.mp s.cv.sleepers_notified hnotified
    · exact Finset.disjoint_right.mp s.cv.sleepers_roused hroused
  simp [Condvar.Waiting, Condvar.Awake, Condvar.resume, hasleep]

/-- A woken consumer can run. -/
theorem canStep_of_awake {caller : ι} (hawake : s.cv.Awake caller) :
    (machine ι α).CanStep owner caller s :=
  .of_isSome (.wake caller) rfl (by simp [machine, hawake])

/-- In every behaviour in which each woken consumer gets the mutex at some time, every call of
`wait_and_pop` returns once the queue is stopped. -/
theorem waitAndPop_returns (b : Behaviour (machine ι α))
    (hstart : (machine ι α).Reachable (b.state 0)) (hfair : ∀ t, b.Fair owner t) (caller : ι) :
    b.LeadsTo (fun s => s.fifo.stopped = true) (fun s => ¬ s.cv.Waiting caller) := by
  have hwoken : b.LeadsTo (fun s => s.fifo.stopped = true ∧ s.cv.Awake caller)
      (fun s => ¬ s.cv.Waiting caller) := by
    refine Behaviour.leadsTo_of_rank (fun _ => 0) (fun _ => caller) ?_ ?_ b hfair
    · rintro s a s' ⟨hstopped, hawake⟩ - hstep
      by_cases hown : owner a = some caller
      · left
        cases a with
        | wake caller' =>
            cases hown
            exact wake_returns hawake (Or.inr hstopped) hstep
        | push _ _ _ => cases hown
        | waitAndPop _ => cases hown
        | spurious _ => cases hown
        | stop _ => cases hown
      · exact Or.inr ⟨⟨stopped_step hstep hstopped, awake_step hawake hown hstep⟩,
          Or.inr ⟨rfl, rfl, hown⟩⟩
    · exact fun s hs _ => canStep_of_awake hs.2
  intro i hstopped
  by_cases hwaiting : (b.state i).cv.Waiting caller
  · have hnone := (covered_of_reachable (b.reachable hstart i)).stopped hstopped
    have hawake : (b.state i).cv.Awake caller :=
      hwaiting.resolve_left (by rw [hnone]; exact Finset.notMem_empty caller)
    exact hwoken i ⟨hstopped, hawake⟩
  · exact ⟨i, Nat.le_refl i, hwaiting⟩

/-- Without a woken consumer nobody has to be given the mutex. -/
theorem not_canStep_of_empty (hnotified : s.cv.notified = ∅) (hroused : s.cv.roused = ∅)
    (caller : ι) : ¬ (machine ι α).CanStep owner caller s := by
  rw [Machine.not_canStep_iff]
  intro a hown
  cases a with
  | wake caller' => simp [machine, Condvar.Awake, hnotified, hroused]
  | push _ _ _ => cases hown
  | waitAndPop _ => cases hown
  | spurious _ => cases hown
  | stop _ => cases hown

/-- A consumer that sleeps when the queue is stopped returns. -/
theorem waitAndPop_returns_one :
    ∃ b : Behaviour (machine Nat Char), (b.state 0).fifo.stopped = true ∧
      (b.state 0).cv.Waiting 1 ∧ ∃ j, ¬ (b.state j).cv.Waiting 1 := by
  have hrun : ∃ s t, (machine Nat Char).exec {} [.waitAndPop 1, .stop 0] = some s ∧
      (machine Nat Char).exec s [.wake 1] = some t ∧ s.fifo.stopped = true ∧
      1 ∈ s.cv.notified ∧ t.cv.notified = ∅ ∧ t.cv.roused = ∅ :=
    ⟨_, _, rfl, rfl, rfl, by decide, by decide, by decide⟩
  rcases hrun with ⟨s, t, hbefore, hrun, hstopped, hnotified, hempty⟩
  rcases Machine.exists_behaviour hrun (not_canStep_of_empty hempty.1 hempty.2) with
    ⟨b, hzero, -, hfair⟩
  have hstart : (machine Nat Char).Reachable (b.state 0) := by
    rw [hzero]
    exact ⟨{}, _, rfl, hbefore⟩
  have hstopped' : (b.state 0).fifo.stopped = true := by rw [hzero, hstopped]
  have hwaiting : (b.state 0).cv.Waiting 1 := by
    rw [hzero]
    exact Or.inr (Or.inl hnotified)
  rcases waitAndPop_returns b hstart hfair 1 0 hstopped' with ⟨j, -, hreturned⟩
  exact ⟨b, hstopped', hwaiting, j, hreturned⟩

/-! ## No item is left lying -/

/-- What has been accepted and not been popped is in the queue. -/
theorem totalPushed_eq (h : (machine ι α).Reachable s) :
    s.fifo.totalPushed = s.fifo.totalPopped + s.fifo.queue.length := by
  rcases refines_recordedFifo h with ⟨calls, r, hrun, hr⟩
  have hconsistent := RecordedFifo.consistent_of_exec hrun
  have hlength := congrArg List.length hconsistent.contents
  rw [List.length_append, ← hconsistent.pushed, ← hconsistent.popped, hr] at hlength
  exact hlength

/-- While a consumer is awake the items get fewer. -/
theorem awake_leadsTo_popped (b : Behaviour (machine ι α)) (hfair : ∀ t, b.Fair owner t)
    (caller : ι) (popped : Nat) :
    b.LeadsTo
      (fun s => s.fifo.totalPopped = popped ∧ s.fifo.queue ≠ [] ∧ s.cv.Awake caller)
      (fun s => popped < s.fifo.totalPopped) := by
  refine Behaviour.leadsTo_of_rank (fun _ => 0) (fun _ => caller) ?_ ?_ b hfair
  · rintro s a s' ⟨hpopped, hitems, hawake⟩ - hstep
    rcases queue_step hstep with hpop | ⟨hsame, hprefix⟩
    · left
      omega
    · have hitems' : s'.fifo.queue ≠ [] := by
        intro hempty
        rw [hempty] at hprefix
        exact hitems (List.prefix_nil.mp hprefix)
      have hown : owner a ≠ some caller := by
        intro hown
        cases a with
        | wake caller' =>
            cases hown
            have hrun : testPredicate { s with cv := s.cv.resume caller } caller = s' := by
              simpa [machine, hawake] using hstep
            have htaken := testPredicate_totalPopped { s with cv := s.cv.resume caller } caller
              hitems
            rw [hrun, hsame] at htaken
            exact absurd htaken (Nat.ne_of_lt (Nat.lt_succ_self _))
        | push _ _ _ => cases hown
        | waitAndPop _ => cases hown
        | spurious _ => cases hown
        | stop _ => cases hown
      exact Or.inr ⟨⟨hsame.trans hpopped, hitems', awake_step hawake hown hstep⟩,
        Or.inr ⟨rfl, rfl, hown⟩⟩
  · exact fun s hs _ => canStep_of_awake hs.2.2

/-- Consumers come back: again and again one of them waits, or calls `wait_and_pop`. -/
def ConsumersReturn (b : Behaviour (machine ι α)) : Prop :=
  ∀ i, ∃ j, i ≤ j ∧ ∃ caller,
    (b.state j).cv.Waiting caller ∨ b.action j = some (.waitAndPop caller)

/-- What has been accepted stays accepted. -/
theorem totalPushed_step {a : WaitAction ι α} (hstep : (machine ι α).step s a = some s') :
    s.fifo.totalPushed ≤ s'.fifo.totalPushed := by
  rcases fifo_step hstep with ⟨value, hpush⟩ | ⟨result, hpop⟩ | hstop | hsame
  · rw [hpush]
    cases hstopped : s.fifo.stopped <;> simp [Fifo.push, hstopped]
  · generalize s'.fifo = q at hpop ⊢
    unfold Fifo.waitAndPop at hpop
    split at hpop
    · split at hpop
      · cases hpop
        exact Nat.le_refl _
      · cases hpop
    · cases hpop
      exact Nat.le_refl _
  · rw [hstop]
    exact Nat.le_refl _
  · rw [hsame]

/-- What has been popped stays popped. -/
theorem totalPopped_step {a : WaitAction ι α} (hstep : (machine ι α).step s a = some s') :
    s.fifo.totalPopped ≤ s'.fifo.totalPopped := by
  rcases queue_step hstep with hpop | ⟨hsame, -⟩
  · omega
  · exact Nat.le_of_eq hsame.symm

/-- As long as consumers come back, a queue that is not empty is popped from. -/
theorem items_popped (b : Behaviour (machine ι α)) (hstart : (machine ι α).Reachable (b.state 0))
    (hfair : ∀ t, b.Fair owner t) (hconsumers : ConsumersReturn b) {i : ℕ}
    (hitems : (b.state i).fifo.totalPopped < (b.state i).fifo.totalPushed) :
    ∃ j, i ≤ j ∧ (b.state i).fifo.totalPopped < (b.state j).fifo.totalPopped := by
  rcases hconsumers i with ⟨j, hij, caller, hcaller⟩
  have hpushed := b.invariant (P := fun s => (b.state i).fifo.totalPushed ≤ s.fifo.totalPushed)
    (fun _ _ _ hs hstep => hs.trans (totalPushed_step hstep)) hij (Nat.le_refl _)
  have hpopped := b.invariant (P := fun s => (b.state i).fifo.totalPopped ≤ s.fifo.totalPopped)
    (fun _ _ _ hs hstep => hs.trans (totalPopped_step hstep)) hij (Nat.le_refl _)
  rcases Nat.lt_or_eq_of_le hpopped with hless | hsame
  · exact ⟨j, hij, hless⟩
  · have hreach := b.reachable hstart j
    have hqueue : (b.state j).fifo.queue ≠ [] := by
      intro hempty
      have hcount := totalPushed_eq hreach
      rw [hempty, List.length_nil] at hcount
      omega
    rcases hcaller with hwaiting | haction
    · -- somebody is awake, the caller or a consumer that was notified in its place
      have hawake : ∃ other, (b.state j).cv.Awake other := by
        rcases hwaiting with hsleeps | hawake
        · rcases (covered_of_reachable hreach).items.nonempty_notified
            (List.length_pos_iff.mpr hqueue) ⟨caller, hsleeps⟩ with ⟨other, hother⟩
          exact ⟨other, Or.inl hother⟩
        · exact ⟨caller, hawake⟩
      rcases hawake with ⟨other, hother⟩
      rcases awake_leadsTo_popped b hfair other _ j ⟨hsame.symm, hqueue, hother⟩ with
        ⟨k, hjk, hless⟩
      exact ⟨k, hij.trans hjk, hless⟩
    · refine ⟨j + 1, hij.trans (Nat.le_succ j), ?_⟩
      have hpass := b.elapses j
      rw [haction] at hpass
      have hrun : (machine ι α).step (b.state j) (.waitAndPop caller) = some (b.state (j + 1)) :=
        hpass
      simp only [machine] at hrun
      split at hrun
      · cases hrun
      · have htaken := testPredicate_totalPopped (b.state j) caller hqueue
        rw [Option.some.inj hrun] at htaken
        omega

/-- In every behaviour in which each woken consumer gets the mutex at some time, every item that
`push` has accepted is popped, as long as consumers come back. -/
theorem accepted_popped (b : Behaviour (machine ι α))
    (hstart : (machine ι α).Reachable (b.state 0)) (hfair : ∀ t, b.Fair owner t)
    (hconsumers : ConsumersReturn b) {i item : Nat} (hitem : item < (b.state i).fifo.totalPushed) :
    ∃ j, i ≤ j ∧ item < (b.state j).fifo.totalPopped := by
  -- induction on the items that are to be popped, up to this one
  induction hleft : item + 1 - (b.state i).fifo.totalPopped using Nat.strong_induction_on
    generalizing i with
  | _ left ih =>
      by_cases hdone : item < (b.state i).fifo.totalPopped
      · exact ⟨i, Nat.le_refl i, hdone⟩
      · rcases items_popped b hstart hfair hconsumers (i := i) (by omega) with ⟨j, hij, hless⟩
        have hpushed := b.invariant (P := fun s => item < s.fifo.totalPushed)
          (fun _ _ _ hs hstep => hs.trans_le (totalPushed_step hstep)) hij hitem
        rcases ih _ (by omega) hpushed rfl with ⟨k, hjk, hpopped⟩
        exact ⟨k, hij.trans hjk, hpopped⟩

/-- An item that is pushed while a consumer sleeps, which comes back for the next one. -/
theorem accepted_popped_one :
    ∃ b : Behaviour (machine Nat Char), b.state 0 = {} ∧
      ∃ i, 0 < (b.state i).fifo.totalPushed ∧ ∃ j, 0 < (b.state j).fifo.totalPopped := by
  have hrun : ∃ t, (machine Nat Char).exec {}
      [.waitAndPop 1, .push 0 'a' (some 1), .wake 1, .waitAndPop 1] = some t ∧
      t.fifo.totalPushed = 1 ∧ 1 ∈ t.cv.sleepers ∧ t.cv.notified = ∅ ∧ t.cv.roused = ∅ :=
    ⟨_, rfl, rfl, by decide, by decide, by decide⟩
  rcases hrun with ⟨t, hrun, hpushed, hsleeps, hempty⟩
  rcases Machine.exists_behaviour hrun (not_canStep_of_empty hempty.1 hempty.2) with
    ⟨b, hzero, hend, hfair⟩
  have hstart : (machine Nat Char).Reachable (b.state 0) := by
    rw [hzero]
    exact Machine.Reachable.of_init _ rfl
  have hconsumers : ConsumersReturn b := by
    intro i
    refine ⟨max i 4, le_max_left i 4, 1, Or.inl ?_⟩
    rw [hend _ (le_max_right i 4)]
    exact Or.inl hsleeps
  have hpushed' : 0 < (b.state 4).fifo.totalPushed := by
    rw [hend 4 (Nat.le_refl 4), hpushed]
    exact Nat.zero_lt_one
  rcases accepted_popped b hstart hfair hconsumers hpushed' with ⟨j, -, hpopped⟩
  exact ⟨b, hzero, 4, hpushed', j, hpopped⟩

end SleepingFifo

end FrameProcessor
