import FrameProcessor.Publisher.Partition
import FrameProcessor.Publisher.Shutdown

/-!
# components/publisher - Frames in a running publisher

Until `Publisher::stop` is called, and as long as Redis stores an entry exactly when it
answers the command, a batch that was not stored goes back to `batch_queue_` and nothing
is given up.  Every batch on its way belongs to one stream and one event.

Main results:

- Theorem `Publisher.publisherStep_forall`: a publisher thread only passes on batches that
  were there.
- Theorem `Publisher.inFlight_step`: every step of a running publisher keeps all frames, each
  in a batch of its own stream and event.
-/

namespace FrameProcessor

namespace Publisher

variable {n : Nat} {P : PackedBatch → Prop}

/-! ## The batches that a step passes on -/

/-- What holds of the batches in the queue, in Redis and in a publisher thread's hand holds
of those after its step. -/
theorem publisherStep_forall {dryRun : Bool} {outcome : RedisOutcome} {q q' : PublisherQueues}
    {t t' : PublisherThread} (hqueued : ∀ batch ∈ q.batchQueue.queue, P batch)
    (hstored : ∀ batch ∈ q.stored, P batch) (hhand : ∀ batch, hand t.pc = some batch → P batch)
    (h : publisherStep dryRun outcome q t = some (q', t')) :
    (∀ batch ∈ q'.batchQueue.queue, P batch) ∧ (∀ batch ∈ q'.stored, P batch) ∧
      ∀ batch, hand t'.pc = some batch → P batch := by
  have hstore : ∀ batch, P batch → ∀ batch' ∈ (store q batch).stored, P batch' := by
    intro batch hbatch batch' hmem
    rcases List.mem_append.mp hmem with hmem | hmem
    · exact hstored batch' hmem
    · rwa [List.mem_singleton.mp hmem]
  cases publisherStep_moves h with
  | start | leave | wait | ended => exact ⟨hqueued, hstored, fun batch hnone => by cases hnone⟩
  | pop batch rest hpc hqueue hstopped =>
      rw [hqueue] at hqueued
      refine ⟨fun batch' hmem => hqueued batch' (List.mem_cons_of_mem _ hmem), hstored, ?_⟩
      intro batch' hbatch'
      cases hbatch'
      exact hqueued batch List.mem_cons_self
  | giveUp batch _ hwhy => exact ⟨hqueued, hstored, fun batch hnone => by cases hnone⟩
  | connected batch redisConn hpc hdry =>
      refine ⟨hqueued, hstored, fun batch' hbatch' => ?_⟩
      cases hbatch'
      exact hhand batch (by simp [hand, hpc])
  | refused batch redisConn hpc hdry houtcome =>
      refine ⟨hqueued, hstored, fun batch' hbatch' => ?_⟩
      cases hbatch'
      exact hhand batch (by simp [hand, hpc])
  | unanswered batch stored hpc houtcome =>
      have hbatch : P batch := hhand batch (by simp [hand, hpc])
      refine ⟨?_, ?_, fun batch' hbatch' => ?_⟩
      · cases stored <;> exact hqueued
      · cases stored with
        | true => exact hstore batch hbatch
        | false => exact hstored
      · cases hbatch'
        exact hbatch
  | store batch hpc houtcome =>
      exact ⟨hqueued, hstore batch (hhand batch (by simp [hand, hpc])),
        fun batch hnone => by cases hnone⟩
  | requeue batch hpc hopen =>
      refine ⟨fun batch' hmem => ?_, hstored, fun batch hnone => by cases hnone⟩
      rw [pushBatch, Fifo.push_queue_of_not_stopped hopen] at hmem
      rcases List.mem_append.mp hmem with hmem | hmem
      · exact hqueued batch' hmem
      · rw [List.mem_singleton.mp hmem]
        exact hhand batch (by simp [hand, hpc])

/-- The batch that the next step of the batching thread pushes, if it pushes one. -/
def pushesNext (t : BatcherThread) : Option PackedBatch :=
  match t.pc with
  | .holding frame => (batchFrame t.currentBatches frame).2
  | .flushing (batch :: _) => some batch
  | _ => none

/-- The batching thread stores nothing, and adds what it pushes to `batch_queue_`. -/
theorem batcherStep_pushes {q q' : PublisherQueues} {t t' : BatcherThread}
    (h : batcherStep q t = some (q', t')) :
    q'.batchQueue = (pushesNext t).elim q.batchQueue q.batchQueue.push ∧
      q'.stored = q.stored := by
  cases batcherStep_moves h with
  | leave hpc | wait hpc | ended hpc | finish hpc | pop _ _ hpc | flush _ _ hpc =>
      simp [pushesNext, hpc, pushBatch]
  | batch frame hpc =>
      simp only [pushesNext, hpc]
      cases (batchFrame t.currentBatches frame).2 with
      | none => exact ⟨rfl, rfl⟩
      | some batch => exact ⟨rfl, rfl⟩

/-- What the batching thread has open or is about to flush belongs to its keys. -/
structure BatcherTagged (t : BatcherThread) : Prop where
  currentBatches : OpenInvariant t.currentBatches
  flushing : ∀ batches, t.pc = .flushing batches → ∀ batch ∈ batches, batch.Tagged

/-- What the batching thread pushes is tagged, and what it keeps stays so. -/
theorem BatcherTagged.step {q q' : PublisherQueues} {t t' : BatcherThread}
    (ht : BatcherTagged t) (h : batcherStep q t = some (q', t')) :
    (∀ batch, pushesNext t = some batch → batch.Tagged) ∧ BatcherTagged t' := by
  have hflush : ∀ batch ∈ flush t.currentBatches, batch.Tagged :=
    fun batch hbatch => (handedOn_of_mem_flush ht.currentBatches hbatch).tagged
  cases batcherStep_moves h with
  | wait hpc | finish hpc | pop _ _ hpc =>
      exact ⟨by simp [pushesNext, hpc], ht.currentBatches, fun _ hbatches => by cases hbatches⟩
  | leave hpc | ended hpc =>
      refine ⟨by simp [pushesNext, hpc], ht.currentBatches, fun batches hbatches => ?_⟩
      cases hbatches
      exact hflush
  | batch frame hpc =>
      refine ⟨fun batch hbatch => ?_, ht.currentBatches.batchFrame frame,
        fun _ hbatches => by cases hbatches⟩
      simp only [pushesNext, hpc] at hbatch
      exact (batchFrame_handedOn ht.currentBatches (Option.mem_toList.mpr hbatch)).1.tagged
  | flush batch batches hpc =>
      have htagged := ht.flushing _ hpc
      refine ⟨fun batch' hbatch' => ?_, ht.currentBatches, fun batches' hbatches' => ?_⟩
      · simp only [pushesNext, hpc, Option.some.injEq] at hbatch'
        exact hbatch' ▸ htagged batch List.mem_cons_self
      · cases hbatches'
        exact fun batch' hmem => htagged batch' (List.mem_cons_of_mem _ hmem)

/-! ## A running publisher -/

/-- The invariant of a running publisher: every accepted frame is somewhere on its way,
in batches of its own stream and event, and none has been given up. -/
structure InFlight (s : Publisher n) : Prop where
  batchesOpen : s.batchQueue.stopped = false
  noneDiscarded : s.discarded = []
  balance : settled s.toPublisherQueues + batcherHand s.batcher + held s = ↑s.accepted
  batcher : BatcherTagged s.batcher
  queued : ∀ batch ∈ s.batchQueue.queue, batch.Tagged
  stored : ∀ batch ∈ s.stored, batch.Tagged
  inHand : ∀ k batch, hand (s.publishers k).pc = some batch → batch.Tagged

theorem inFlight_init : InFlight ({} : Publisher n) where
  batchesOpen := rfl
  noneDiscarded := rfl
  balance := orderly_init.balance
  batcher := ⟨.empty, fun _ hbatches => by cases hbatches⟩
  queued := List.forall_mem_nil _
  stored := List.forall_mem_nil _
  inHand _ _ hhand := by cases hhand

/-- Redis stores the entry of a command exactly when it answers it, and does not answer with
an error. -/
def Consistent (outcome : RedisOutcome) : Prop :=
  outcome.reply = .normal ∨ outcome.reply = .null false

/-- Everything but a stop, with such outcomes. -/
def Running (a : Action n) : Prop :=
  a ≠ .stop ∧ ∀ k outcome, a = .publisher k outcome → Consistent outcome

theorem InFlight.accept {s : Publisher n} (hs : InFlight s) (frame : DecodedFrame AVFrame) :
    InFlight { s with toPublisherQueues := Publisher.accept s.toPublisherQueues frame } := by
  refine ⟨hs.batchesOpen, hs.noneDiscarded, ?_, hs.batcher, hs.queued, hs.stored, hs.inHand⟩
  cases hstopped : s.frameQueue.stopped with
  | true =>
      rw [accept_of_stopped hstopped]
      exact hs.balance
  | false =>
      rcases settled_accept hstopped frame with ⟨hsettled, haccepted⟩
      calc settled (Publisher.accept s.toPublisherQueues frame) + batcherHand s.batcher + held s
          = settled s.toPublisherQueues + batcherHand s.batcher + held s + {frame} := by
            rw [hsettled]
            abel
        _ = ↑s.accepted + {frame} := by rw [hs.balance]
        _ = ↑(Publisher.accept s.toPublisherQueues frame).accepted := by
            rw [haccepted, ← Multiset.coe_add, Multiset.coe_singleton]

theorem InFlight.batch {s : Publisher n} (hs : InFlight s) {q : PublisherQueues}
    {t : BatcherThread} (hstep : batcherStep s.toPublisherQueues s.batcher = some (q, t)) :
    InFlight { s with toPublisherQueues := q, batcher := t } := by
  rcases batcherStep_frame hstep with ⟨-, hbatches, haccepted, hdiscarded, -⟩
  rcases batcherStep_pushes hstep with ⟨hqueue, hstored⟩
  rcases hs.batcher.step hstep with ⟨hpushed, hkept⟩
  have hbalance := batcherStep_balance hs.batchesOpen hstep
  refine ⟨hbatches.trans hs.batchesOpen, hdiscarded.trans hs.noneDiscarded, ?_, hkept, ?_, ?_,
    hs.inHand⟩
  · rw [haccepted, ← hs.balance]
    exact congrArg (· + held s) hbalance
  · rw [hqueue]
    cases hnext : pushesNext s.batcher with
    | none => exact hs.queued
    | some batch =>
        intro batch' hmem
        rcases Fifo.mem_of_mem_push hmem with hmem | rfl
        · exact hs.queued batch' hmem
        · exact hpushed batch' hnext
  · rw [hstored]
    exact hs.stored

theorem InFlight.publisher {s : Publisher n} (hs : InFlight s) {k : Fin (n + 1)}
    {outcome : RedisOutcome} (houtcome : Consistent outcome) {q : PublisherQueues}
    {t : PublisherThread}
    (hstep : publisherStep false outcome s.toPublisherQueues (s.publishers k) = some (q, t)) :
    InFlight { s with toPublisherQueues := q, publishers := Function.update s.publishers k t } := by
  rcases publisherStep_frame hstep with ⟨-, hbatches, haccepted, -⟩
  rcases publisherStep_forall hs.queued hs.stored (hs.inHand k) hstep with
    ⟨hqueued, hstored, hhand⟩
  have hanswer : outcome.reply ≠ .null true := by
    rcases houtcome with hreply | hreply <;> simp [hreply]
  have hbalance := publisherStep_balance hanswer hstep
  refine ⟨hbatches.trans hs.batchesOpen, ?_, ?_, hs.batcher, hqueued, hstored, ?_⟩
  · -- a batch would be given up in dry-run mode, after an error reply or by a stopped queue
    cases publisherStep_moves hstep with
    | giveUp batch _ hwhy =>
        rcases hwhy with ⟨hdry, -⟩ | ⟨herror, -⟩ | ⟨hstopped, -⟩
        · cases hdry
        · rcases houtcome with hreply | hreply <;> simp [hreply] at herror
        · rw [hs.batchesOpen] at hstopped
          cases hstopped
    | unanswered batch stored hpc houtcome => cases stored <;> exact hs.noneDiscarded
    | start | leave | wait | ended | pop | connected | refused | store | requeue =>
        exact hs.noneDiscarded
  · rw [haccepted, ← hs.balance]
    exact publisher_balance (s := s) (k := k) (t := t) hbalance
  · exact Pool.forall_update
      (fun t : PublisherThread => ∀ batch, hand t.pc = some batch → batch.Tagged) hhand hs.inHand

/-- Every step of a running publisher keeps all frames, in batches of their own stream and
event. -/
theorem inFlight_step (s : Publisher n) (a : Action n) (s' : Publisher n) (hs : InFlight s)
    (ha : Running a) (hstep : (machine false n).step s a = some s') : InFlight s' := by
  cases a with
  | accept frame =>
      cases hstep
      exact hs.accept frame
  | batcher =>
      rcases Option.map_eq_some_iff.mp hstep with ⟨⟨q, t⟩, hthread, rfl⟩
      exact hs.batch hthread
  | publisher k outcome =>
      rcases Option.map_eq_some_iff.mp hstep with ⟨⟨q, t⟩, hthread, rfl⟩
      exact hs.publisher (ha.2 k outcome rfl) hthread
  | stop => exact absurd rfl ha.1

end Publisher

end FrameProcessor
