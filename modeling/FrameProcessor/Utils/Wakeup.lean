import FrameProcessor.Foundations.Condvar
import FrameProcessor.Utils.Linearizable

/-!
# utils/fifo - Sleeping consumers

`wait_and_pop` tests its predicate under the mutex and sleeps while it is false.  A
notified consumer runs the predicate again later, and a consumer that arrives in between
may take the item first.  `push` notifies one sleeper of the environment's choice, `stop`
notifies all, and a sleeper may wake for no reason.

Main results:

- Theorem `SleepingFifo.noLostWakeup`: while a consumer sleeps without a notification, the
  queue is not stopped and the notified consumers suffice for its items.
- Theorem `SleepingFifo.wake_takes`: a notified consumer that runs takes an item or returns.
- Theorem `SleepingFifo.refines_recordedFifo`: the completed calls are a run of the atomic
  queue.
-/

namespace FrameProcessor

/-- A queue with the consumers at its condition variable. -/
structure SleepingFifo (ι α : Type*) where
  fifo : Fifo α := {}
  cv : Condvar ι := .empty

/-- What the threads do. -/
inductive WaitAction (ι α : Type*) where
  /-- `push`; `notified` is the sleeper that `notify_one` chooses. -/
  | push (caller : ι) (value : α) (notified : Option ι)
  /-- A consumer calls `wait_and_pop`. -/
  | waitAndPop (caller : ι)
  /-- A woken consumer has the mutex again. -/
  | wake (caller : ι)
  /-- A sleeper wakes up without a notification. -/
  | spurious (caller : ι)
  | stop (caller : ι)

namespace SleepingFifo

variable {ι α : Type*} [DecidableEq ι]

/-- One test of the wait predicate: take an item, return, or go to sleep. -/
def testPredicate (s : SleepingFifo ι α) (caller : ι) : SleepingFifo ι α :=
  match s.fifo.waitAndPop with
  | some (_, q) => { s with fifo := q }
  | none => { s with cv := s.cv.sleep caller }

/-- `push` notifies one consumer, unless the queue is stopped. -/
def push (s : SleepingFifo ι α) (value : α) (notified : Option ι) :
    Option (SleepingFifo ι α) :=
  if s.fifo.stopped then
    match notified with
    | none => some s
    | some _ => none
  else (s.cv.notifyOne notified).map fun cv => { fifo := s.fifo.push value, cv }

/-- The queue from its construction on. -/
def machine (ι α : Type*) [DecidableEq ι] : Machine (SleepingFifo ι α) (WaitAction ι α) where
  init s := s = {}
  step s
    | .push caller value notified =>
        if s.cv.Waiting caller then none else s.push value notified
    | .waitAndPop caller =>
        if s.cv.Waiting caller then none else some (s.testPredicate caller)
    | .wake caller =>
        if s.cv.Awake caller then
          some (testPredicate { s with cv := s.cv.resume caller } caller)
        else none
    | .spurious caller => (s.cv.rouse caller).map fun cv => { s with cv }
    | .stop caller =>
        if s.cv.Waiting caller then none
        else some { fifo := s.fifo.stop, cv := s.cv.notifyAll }

/-! ## The counting invariant -/

/-- The notified consumers cover the items, and nobody sleeps on a stopped queue. -/
structure Covered (s : SleepingFifo ι α) : Prop where
  items : s.cv.Covers s.fifo.queue.length
  stopped : s.fifo.stopped = true → s.cv.sleepers = ∅

omit [DecidableEq ι] in
theorem Covered.init : Covered ({} : SleepingFifo ι α) where
  items := Condvar.covers_zero _
  stopped _ := rfl

/-- A test of the predicate takes an item or finds none, so it is enough that all items but
one are covered. -/
theorem covered_testPredicate {s : SleepingFifo ι α} {caller : ι}
    (hitems : s.cv.Covers (s.fifo.queue.length - 1))
    (hstopped : s.fifo.stopped = true → s.cv.sleepers = ∅) :
    Covered (s.testPredicate caller) := by
  unfold testPredicate
  cases hpop : s.fifo.waitAndPop with
  | none =>
      rcases Fifo.waitAndPop_eq_none.mp hpop with ⟨hempty, hrunning⟩
      constructor
      · show (s.cv.sleep caller).Covers s.fifo.queue.length
        rw [hempty]
        exact Condvar.covers_zero _
      · intro hstop
        rw [hrunning] at hstop
        cases hstop
  | some popped =>
      rcases popped with ⟨result, q⟩
      rcases Fifo.waitAndPop_cases hpop with ⟨value, -, hqueue, hsame⟩ | ⟨-, rfl, hempty, -⟩
      · constructor
        · rw [hqueue] at hitems
          simpa using hitems
        · intro hstop
          exact hstopped (hsame ▸ hstop)
      · constructor
        · show s.cv.Covers s.fifo.queue.length
          rw [hempty]
          exact Condvar.covers_zero _
        · exact hstopped

/-- A push adds the item and notifies, or the queue is stopped and it does nothing. -/
theorem push_cases {s s' : SleepingFifo ι α} {value : α} {notified : Option ι}
    (h : s.push value notified = some s') :
    (s.fifo.stopped = true ∧ s' = s) ∨
      (s.fifo.stopped = false ∧ ∃ cv, s.cv.notifyOne notified = some cv ∧
        s' = { fifo := s.fifo.push value, cv }) := by
  unfold SleepingFifo.push at h
  cases hstopped : s.fifo.stopped with
  | true =>
      rw [hstopped, if_pos rfl] at h
      cases notified with
      | none => exact Or.inl ⟨rfl, (Option.some.inj h).symm⟩
      | some chosen => cases h
  | false =>
      rw [hstopped, if_neg Bool.false_ne_true, Option.map_eq_some_iff] at h
      rcases h with ⟨cv, hnotify, rfl⟩
      exact Or.inr ⟨rfl, cv, hnotify, rfl⟩

/-- A push covers the item it adds with its notification. -/
theorem Covered.push {s s' : SleepingFifo ι α} (h : s.Covered) {value : α}
    {notified : Option ι} (hpush : s.push value notified = some s') : s'.Covered := by
  rcases push_cases hpush with ⟨-, rfl⟩ | ⟨hrunning, cv, hnotify, rfl⟩
  · exact h
  · constructor
    · rw [Fifo.push_queue_of_not_stopped hrunning, List.length_append]
      exact h.items.notifyOne hnotify
    · intro hstop
      rw [Fifo.push_stopped, hrunning] at hstop
      cases hstop

/-- Every step keeps the items covered. -/
theorem Covered.step {s s' : SleepingFifo ι α} {a : WaitAction ι α} (h : s.Covered)
    (hstep : (machine ι α).step s a = some s') : s'.Covered := by
  cases a with
  | push caller value notified =>
      simp only [machine] at hstep
      split at hstep
      · cases hstep
      · exact h.push hstep
  | waitAndPop caller =>
      simp only [machine] at hstep
      split at hstep
      · cases hstep
      · cases hstep
        exact covered_testPredicate (h.items.mono (Nat.sub_le _ _)) h.stopped
  | wake caller =>
      simp only [machine] at hstep
      split at hstep
      · cases hstep
        exact covered_testPredicate h.items.resume h.stopped
      · cases hstep
  | spurious caller =>
      simp only [machine, Option.map_eq_some_iff] at hstep
      rcases hstep with ⟨cv, hrouse, rfl⟩
      constructor
      · exact h.items.rouse hrouse
      · intro hstop
        rw [(Condvar.rouse_sleepers hrouse).1, h.stopped hstop]
        rfl
  | stop caller =>
      simp only [machine] at hstep
      split at hstep
      · cases hstep
      · cases hstep
        exact ⟨Condvar.covers_notifyAll _ _, fun _ => rfl⟩

theorem covered_of_reachable {s : SleepingFifo ι α} (h : (machine ι α).Reachable s) :
    s.Covered :=
  Machine.reachable_induction (fun _ hinit => hinit ▸ Covered.init)
    (fun _ _ _ hs hstep => hs.step hstep) h

/-! ## No lost wakeup -/

/-- For any number of threads and any interleaving: while a consumer sleeps without a pending
notification, the queue is not stopped and holds no more items than there are notified
consumers; so an item or a stop always has a notified consumer, or nobody sleeps. -/
theorem noLostWakeup {s : SleepingFifo ι α} (h : (machine ι α).Reachable s) :
    (∀ caller ∈ s.cv.sleepers,
      s.fifo.stopped = false ∧ s.fifo.queue.length ≤ s.cv.notified.card) ∧
    (s.fifo.queue ≠ [] ∨ s.fifo.stopped = true →
      s.cv.sleepers = ∅ ∨ s.cv.notified.Nonempty) := by
  have hcovered := covered_of_reachable h
  constructor
  · intro caller hsleeps
    constructor
    · cases hstopped : s.fifo.stopped with
      | false => rfl
      | true =>
          rw [hcovered.stopped hstopped] at hsleeps
          exact absurd hsleeps (Finset.notMem_empty caller)
    · exact hcovered.items ⟨caller, hsleeps⟩
  · rintro (hitems | hstopped)
    · rcases s.cv.sleepers.eq_empty_or_nonempty with hnone | hsome
      · exact Or.inl hnone
      · right
        exact hcovered.items.nonempty_notified (List.length_pos_iff.mpr hitems) hsome
    · exact Or.inl (hcovered.stopped hstopped)

/-- Two consumers sleep and one item arrives: the consumer that still sleeps leaves the item
to the one that was notified. -/
theorem noLostWakeup_two :
    ∃ s : SleepingFifo Nat Char,
      (machine Nat Char).exec {} [.waitAndPop 1, .waitAndPop 2, .push 0 'a' (some 1)] = some s ∧
        s.cv.sleepers = {2} ∧ s.fifo.stopped = false ∧
        s.fifo.queue.length ≤ s.cv.notified.card := by
  have hrun : ∃ s, (machine Nat Char).exec {}
      [.waitAndPop 1, .waitAndPop 2, .push 0 'a' (some 1)] = some s := ⟨_, rfl⟩
  rcases hrun with ⟨s, hs⟩
  have hsleepers : ((machine Nat Char).exec {}
      [.waitAndPop 1, .waitAndPop 2, .push 0 'a' (some 1)]).map (fun s => s.cv.sleepers) =
        some {2} := by decide
  rw [hs] at hsleepers
  have hsleeps : s.cv.sleepers = {2} := Option.some.inj hsleepers
  exact ⟨s, hs, hsleeps, (noLostWakeup ⟨{}, _, rfl, hs⟩).1 2 (by simp [hsleeps])⟩

/-- A notified consumer can always run; it takes the first item, or returns when the queue is
stopped and empty. -/
theorem wake_takes {s : SleepingFifo ι α} {caller : ι} (hnotified : caller ∈ s.cv.notified)
    (hwork : s.fifo.queue ≠ [] ∨ s.fifo.stopped = true) :
    ∃ s', (machine ι α).step s (.wake caller) = some s' ∧
      s'.fifo.queue = s.fifo.queue.tail ∧ ¬ s'.cv.Waiting caller := by
  have hawake : s.cv.Awake caller := Or.inl hnotified
  cases hpop : s.fifo.waitAndPop with
  | none =>
      rcases Fifo.waitAndPop_eq_none.mp hpop with ⟨hempty, hrunning⟩
      rcases hwork with hitems | hstopped
      · exact absurd hempty hitems
      · rw [hrunning] at hstopped
        cases hstopped
  | some popped =>
      rcases popped with ⟨result, q⟩
      refine ⟨{ fifo := q, cv := s.cv.resume caller }, ?_, ?_, ?_⟩
      · simp [machine, hawake, testPredicate, hpop]
      · rcases Fifo.waitAndPop_cases hpop with ⟨value, -, hqueue, -⟩ | ⟨-, rfl, hempty, -⟩
        · rw [hqueue]
          rfl
        · rw [hempty]
          rfl
      · have hasleep : caller ∉ s.cv.sleepers :=
          Finset.disjoint_right.mp s.cv.sleepers_notified hnotified
        simp [Condvar.Waiting, Condvar.Awake, Condvar.resume, hasleep]

/-! ## Refinement of the atomic queue -/

/-- The calls that a step completes. -/
def completed (s : SleepingFifo ι α) : WaitAction ι α → List (FifoCall ι α)
  | .push caller value _ => [.push caller value]
  | .waitAndPop caller => if s.fifo.waitAndPop.isSome then [.waitAndPop caller] else []
  | .wake caller => if s.fifo.waitAndPop.isSome then [.waitAndPop caller] else []
  | .spurious _ => []
  | .stop caller => [.stop caller]

/-- A test of the predicate is a pop of the atomic queue, or nothing. -/
theorem testPredicate_refines {s : SleepingFifo ι α} {caller : ι} {r : RecordedFifo ι α}
    (hr : r.fifo = s.fifo) :
    ∃ r', (RecordedFifo.machine ι α).exec r
        (if s.fifo.waitAndPop.isSome then [.waitAndPop caller] else []) = some r' ∧
      r'.fifo = (s.testPredicate caller).fifo := by
  unfold testPredicate
  cases hpop : s.fifo.waitAndPop with
  | none => exact ⟨r, rfl, hr⟩
  | some popped =>
      rcases popped with ⟨result, q⟩
      refine ⟨⟨q, r.history ++ [.popped caller result]⟩, ?_, rfl⟩
      simp [RecordedFifo.machine, Fifo.call, hr, hpop]

/-- Every step makes the atomic queue take the calls it completes. -/
theorem step_refines {s s' : SleepingFifo ι α} {a : WaitAction ι α} {r : RecordedFifo ι α}
    (hr : r.fifo = s.fifo) (hstep : (machine ι α).step s a = some s') :
    ∃ r', (RecordedFifo.machine ι α).exec r (s.completed a) = some r' ∧ r'.fifo = s'.fifo := by
  cases a with
  | push caller value notified =>
      simp only [machine] at hstep
      split at hstep
      · cases hstep
      · refine ⟨_, rfl, ?_⟩
        show r.fifo.push value = s'.fifo
        rcases push_cases hstep with ⟨hstopped, rfl⟩ | ⟨-, cv, -, rfl⟩
        · rw [hr, Fifo.push_of_stopped hstopped]
        · rw [hr]
  | waitAndPop caller =>
      simp only [machine] at hstep
      split at hstep
      · cases hstep
      · cases hstep
        exact testPredicate_refines hr
  | wake caller =>
      simp only [machine] at hstep
      split at hstep
      · cases hstep
        exact testPredicate_refines (s := { s with cv := s.cv.resume caller }) hr
      · cases hstep
  | spurious caller =>
      simp only [machine, Option.map_eq_some_iff] at hstep
      rcases hstep with ⟨cv, -, rfl⟩
      exact ⟨r, rfl, hr⟩
  | stop caller =>
      simp only [machine] at hstep
      split at hstep
      · cases hstep
      · cases hstep
        refine ⟨_, rfl, ?_⟩
        show r.fifo.stop = s.fifo.stop
        rw [hr]

/-- Whatever the consumers at the condition variable do, the queue is one that the completed
calls lead to. -/
theorem refines_recordedFifo {s : SleepingFifo ι α} (h : (machine ι α).Reachable s) :
    ∃ calls r, (RecordedFifo.machine ι α).exec {} calls = some r ∧ r.fifo = s.fifo := by
  apply Machine.reachable_induction (P := fun s => ∃ calls r,
    (RecordedFifo.machine ι α).exec {} calls = some r ∧ r.fifo = s.fifo) ?_ ?_ h
  · rintro s rfl
    exact ⟨[], {}, rfl, rfl⟩
  · rintro s a s' ⟨calls, r, hrun, hr⟩ hstep
    rcases step_refines hr hstep with ⟨r', hrun', hr'⟩
    exact ⟨calls ++ s.completed a, r',
      (RecordedFifo.machine ι α).exec_append_eq_some.mpr ⟨r, hrun, hrun'⟩, hr'⟩

end SleepingFifo

end FrameProcessor
