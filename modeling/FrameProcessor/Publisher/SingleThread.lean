import FrameProcessor.Publisher.Turns

/-!
# components/publisher - Publishing without failures

When Redis accepts every connection and every command, no batch goes back to
`batch_queue_`, so the batches wait in the order in which they were handed on.  A single
publisher thread then stores them in this order.

Main results:

- Theorem `Publisher.NoneRequeued.publisherStep`: a thread whose commands are accepted leaves
  the waiting batches in order.
- Theorem `Publisher.NoneRequeued.storesInTurn`: a single publisher thread overtakes none.
-/

namespace FrameProcessor

namespace Publisher

variable {n : Nat}

/-! ## The waiting batches -/

/-- No batch has gone back to `batch_queue_`: the numbers in it grow, and those in the hands
of the threads come before them. -/
structure NoneRequeued (publishers : Fin (n + 1) → PublisherThread) (numbers : BatchNumbers n) :
    Prop where
  sorted : (numbers.waiting.map Prod.fst).Pairwise (· < ·)
  waiting : ∀ entry ∈ numbers.waiting, entry.1 < numbers.formed.length
  inHand : ∀ k batch, hand (publishers k).pc = some batch →
    numbers.inHand k < numbers.formed.length ∧
      ∀ entry ∈ numbers.waiting, numbers.inHand k < entry.1
  answered : ∀ k batch, (publishers k).pc ≠ .requeueing batch

theorem noneRequeued_init : NoneRequeued (fun _ => {} : Fin (n + 1) → PublisherThread) {} where
  sorted := List.Pairwise.nil
  waiting := List.forall_mem_nil _
  inHand _ _ hhand := by cases hhand
  answered _ _ hpc := by cases hpc

section Failures

variable {publishers : Fin (n + 1) → PublisherThread} {numbers : BatchNumbers n}

/-- A step of the batching thread. -/
theorem NoneRequeued.batcherStep (h : NoneRequeued publishers numbers) (s : Publisher n) :
    NoneRequeued publishers (batcherNumbers s numbers) := by
  unfold batcherNumbers
  cases pushesNext s.batcher with
  | none => exact ⟨h.sorted, h.waiting, h.inHand, h.answered⟩
  | some batch =>
      have hlength : (numbers.formed ++ [batch]).length = numbers.formed.length + 1 :=
        List.length_append
      cases hstopped : s.batchQueue.stopped with
      | true =>
          simp only [if_true]
          refine ⟨h.sorted, fun entry hentry => ?_, fun k batch' hhand => ?_, h.answered⟩
          · rw [hlength]
            exact (h.waiting entry hentry).trans (Nat.lt_succ_self _)
          · rw [hlength]
            rcases h.inHand k batch' hhand with ⟨hlt, hbefore⟩
            exact ⟨hlt.trans (Nat.lt_succ_self _), hbefore⟩
      | false =>
          simp only [Bool.false_eq_true, if_false]
          have hall : ∀ {P : Nat × PackedBatch → Prop}, (∀ entry ∈ numbers.waiting, P entry) →
              P (numbers.formed.length, batch) →
              ∀ entry ∈ numbers.waiting ++ [(numbers.formed.length, batch)], P entry := by
            intro P hwaiting hlast entry hentry
            rcases List.mem_append.mp hentry with hentry | hentry
            · exact hwaiting entry hentry
            · rwa [List.mem_singleton.mp hentry]
          refine ⟨?_, ?_, fun k batch' hhand => ?_, h.answered⟩
          · rw [List.map_append, List.map_singleton, List.pairwise_append]
            refine ⟨h.sorted, List.pairwise_singleton _ _, fun number hnumber last hlast => ?_⟩
            rcases List.mem_map.mp hnumber with ⟨entry, hentry, rfl⟩
            rw [List.mem_singleton.mp hlast]
            exact h.waiting entry hentry
          · rw [hlength]
            exact hall (fun entry hentry => (h.waiting entry hentry).trans (Nat.lt_succ_self _))
              (Nat.lt_succ_self _)
          · rw [hlength]
            rcases h.inHand k batch' hhand with ⟨hlt, hbefore⟩
            exact ⟨hlt.trans (Nat.lt_succ_self _), hall hbefore hlt⟩

/-- A step of a thread that takes no batch and pushes none back. -/
theorem NoneRequeued.keep (h : NoneRequeued publishers numbers) {numbers' : BatchNumbers n}
    (hformed : numbers'.formed = numbers.formed) (hwaiting : numbers'.waiting = numbers.waiting)
    (hnumber : numbers'.inHand = numbers.inHand) {k : Fin (n + 1)} {t : PublisherThread}
    (hhand : ∀ batch, hand t.pc = some batch → hand (publishers k).pc = some batch)
    (hpc : ∀ batch, t.pc ≠ .requeueing batch) :
    NoneRequeued (Function.update publishers k t) numbers' := by
  refine ⟨hwaiting ▸ h.sorted, ?_, ?_, ?_⟩
  · rw [hwaiting, hformed]
    exact h.waiting
  · rw [hwaiting, hformed, hnumber]
    exact (Function.forall_update_iff publishers fun j t => ∀ batch, hand t.pc = some batch →
      numbers.inHand j < numbers.formed.length ∧
        ∀ entry ∈ numbers.waiting, numbers.inHand j < entry.1).mpr
      ⟨fun batch hbatch => h.inHand k batch (hhand batch hbatch), fun j _ => h.inHand j⟩
  · exact Pool.forall_update (fun t : PublisherThread => ∀ batch, t.pc ≠ .requeueing batch) hpc
      h.answered

/-- A thread pops a batch. -/
theorem NoneRequeued.pop (h : NoneRequeued publishers numbers) {number : Nat} {first : PackedBatch}
    {waiting : List (Nat × PackedBatch)} (hwaiting : numbers.waiting = (number, first) :: waiting)
    {k : Fin (n + 1)} {t : PublisherThread} (hpc : ∀ batch, t.pc ≠ .requeueing batch) :
    NoneRequeued (Function.update publishers k t)
      { numbers with waiting, inHand := Function.update numbers.inHand k number } := by
  have hsorted := h.sorted
  rw [hwaiting, List.map_cons, List.pairwise_cons] at hsorted
  have hbelow := h.waiting
  rw [hwaiting] at hbelow
  refine ⟨hsorted.2, fun entry hentry => hbelow entry (List.mem_cons_of_mem _ hentry), ?_, ?_⟩
  · intro j batch' hbatch'
    by_cases hj : j = k
    · subst hj
      simp only [Function.update_self]
      exact ⟨hbelow _ List.mem_cons_self,
        fun entry hentry => hsorted.1 _ (List.mem_map_of_mem hentry)⟩
    · simp only [Function.update_of_ne hj] at hbatch' ⊢
      rcases h.inHand j batch' hbatch' with ⟨hlt, hbefore⟩
      rw [hwaiting] at hbefore
      exact ⟨hlt, fun entry hentry => hbefore entry (List.mem_cons_of_mem _ hentry)⟩
  · exact Pool.forall_update (fun t : PublisherThread => ∀ batch, t.pc ≠ .requeueing batch) hpc
      h.answered

/-- A step of a thread whose connections and commands are accepted. -/
theorem NoneRequeued.publisherStep {dryRun : Bool} {outcome : RedisOutcome} {key : BatchKey}
    {s : Publisher n} (h : NoneRequeued s.publishers numbers)
    (hturns : StoredInTurn key s numbers) {k : Fin (n + 1)}
    (hconnects : outcome.connects = true) (hreply : outcome.reply = .normal)
    {q : PublisherQueues} {t : PublisherThread}
    (hstep : publisherStep dryRun outcome s.toPublisherQueues (s.publishers k) = some (q, t)) :
    NoneRequeued (Function.update s.publishers k t) (publisherNumbers s numbers k outcome) := by
  have hanswered := publisherStep_answered hconnects hreply hstep
  have hmoves := publisherNumbers_moves hturns.waiting hstep
  generalize publisherNumbers s numbers k outcome = numbers' at hmoves ⊢
  cases hmoves with
  | keep hqueue hstored hhand => exact h.keep rfl rfl rfl hhand hanswered
  | pop number batch waiting hwaiting => exact h.pop hwaiting hanswered
  | store batch hpc hsent =>
      refine h.keep ?_ ?_ ?_ (fun batch' hbatch' => ?_) hanswered
      · rfl
      · rfl
      · rfl
      rcases hsent with ⟨-, hfree⟩ | ⟨hnull, -⟩
      · rw [hfree] at hbatch'
        cases hbatch'
      · rw [hreply] at hnull
        cases hnull
  | requeue batch hpc => exact absurd hpc (h.answered k batch)

/-- A step of `Publisher::stop`. -/
theorem NoneRequeued.stop {s s' : Publisher n} (h : NoneRequeued s.publishers numbers)
    (hstep : stopStep s = some s') : NoneRequeued s'.publishers numbers := by
  cases stopStep_moves hstep with
  | stopFrames | requestBatcher | joinBatcher | stopBatches => exact h
  | clear progress progress' publishers' hpc hclear =>
      have hpcs := clear_frame hclear
      refine ⟨h.sorted, h.waiting, fun k batch hhand => ?_, fun k batch => ?_⟩
      · simp only [hpcs] at hhand
        exact h.inHand k batch hhand
      · simp only [hpcs]
        exact h.answered k batch

end Failures

/-- A single publisher thread overtakes none. -/
theorem NoneRequeued.storesInTurn {key : BatchKey} {s : Publisher 0} {numbers : BatchNumbers 0}
    (h : NoneRequeued s.publishers numbers) {outcome : RedisOutcome}
    (hreply : outcome.reply = .normal) (k : Fin 1) : StoresInTurn key s numbers k outcome where
  waiting batch hpc _ _ entry hentry _ := by
    have hhand : hand (s.publishers k).pc = some batch := by
      rw [hpc]
      rfl
    exact (h.inHand k batch hhand).2 entry hentry
  others _ _ _ _ j hj := absurd (Fin.ext (by omega)) hj
  answered _ _ _ hnull := by
    rw [hreply] at hnull
    cases hnull

end Publisher

end FrameProcessor
