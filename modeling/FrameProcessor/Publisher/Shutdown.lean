import FrameProcessor.Publisher.Threads

/-!
# components/publisher - Stopping the publisher

`Publisher::stop` stops the frame queue, waits for the batching thread, stops the batch
queue and destroys the publisher threads.  A queue that has been stopped is drained
before it reports its end, but both loops test the stop token first and the destructor
of a thread requests the stop before it joins: a thread that finds its token set leaves
whatever is still queued.

Main results:

- Theorem `Publisher.orderly_step`: the order in which queues and threads stop, and the
  balance of all accepted frames, hold at every step when Redis accepts every command.
- Theorem `Publisher.abandoned_step`: frames are abandoned only by the steps named in
  `KeepsEverything`.
- Theorem `Publisher.stop_flushes_iff`: a run that ends with the return of `stop` has sent
  every frame exactly when none of its steps abandons anything.
-/

namespace FrameProcessor

namespace Publisher

variable {n : Nat} {dryRun : Bool}

/-! ## The order of stopping -/

/-- The batching thread has left its loop. -/
def hasLeft (pc : BatcherPc) : Bool :=
  match pc with
  | .flushing _ => true
  | .done => true
  | _ => false

/-- The frames in the hands of the publisher threads. -/
def held (s : Publisher n) : Multiset (DecodedFrame AVFrame) :=
  Pool.held (fun t => framesOf (hand t.pc).toList) s.publishers

/-- `batch_queue_.stop()` has been called. -/
def Clearing (s : Publisher n) : Prop :=
  ∃ progress, s.stopPc = .clearing progress

/-- The invariant of the publisher under stopping, when Redis accepts every command. -/
structure Orderly (s : Publisher n) : Prop where
  framesStopped : s.frameQueue.stopped = true ↔ s.stopPc ≠ .running
  batcherToken : s.batcher.stopRequested = true → s.stopPc ≠ .running
  batcherLeft : hasLeft s.batcher.pc = true → s.frameQueue.stopped = true
  batcherDone : s.stopPc = .batcherJoined ∨ Clearing s → s.batcher.pc = .done
  batchesStopped : s.batchQueue.stopped = true ↔ Clearing s
  publisherToken : ∀ k, (s.publishers k).stopRequested = true → s.batchQueue.stopped = true
  publisherDone : ∀ k, isDone (s.publishers k) = true → s.batchQueue.stopped = true
  answered : ∀ k batch, (s.publishers k).pc ≠ .requeueing batch
  joined : ∀ progress, s.stopPc = .clearing progress → progress.Joined isDone s.publishers
  balance : settled s.toPublisherQueues + batcherHand s.batcher + held s = ↑s.accepted

theorem orderly_init : Orderly ({} : Publisher n) where
  framesStopped := by simp
  batcherToken h := by cases h
  batcherLeft h := by cases h
  batcherDone h := by
    rcases h with h | ⟨_, h⟩ <;> cases h
  batchesStopped := by simp [Clearing]
  publisherToken _ h := by cases h
  publisherDone _ h := by cases h
  answered _ _ h := by cases h
  joined _ h := by cases h
  balance := by
    have hheld : held ({} : Publisher n) = 0 := Pool.held_eq_zero fun _ => rfl
    have hhand : batcherHand {} = 0 := rfl
    rw [hheld, hhand]
    rfl

/-- While the batching thread runs, `batch_queue_` accepts. -/
theorem Orderly.batchesOpen {s : Publisher n} (hs : Orderly s) (hpc : s.batcher.pc ≠ .done) :
    s.batchQueue.stopped = false := by
  by_contra hstopped
  exact hpc (hs.batcherDone (Or.inr (hs.batchesStopped.mp (by simpa using hstopped))))

/-- Redis accepts every connection and every command. -/
def Accepts (a : Action n) : Prop :=
  ∀ k outcome, a = .publisher k outcome → outcome.connects = true ∧ outcome.reply = .normal

/-! ## What the threads leave alone -/

/-- A thread that has returned takes no step. -/
theorem batcherStep_running {q q' : PublisherQueues} {t t' : BatcherThread}
    (h : batcherStep q t = some (q', t')) : t.pc ≠ .done := by
  intro hdone
  simp [batcherStep, hdone] at h

theorem publisherStep_running {outcome : RedisOutcome} {q q' : PublisherQueues}
    {t t' : PublisherThread} (h : publisherStep dryRun outcome q t = some (q', t')) :
    isDone t = false := by
  unfold isDone
  split
  · next hdone => simp [publisherStep, hdone] at h
  · rfl

/-- The batching thread stops no queue, accepts and discards nothing, and keeps its token. -/
theorem batcherStep_frame {q q' : PublisherQueues} {t t' : BatcherThread}
    (h : batcherStep q t = some (q', t')) :
    q'.frameQueue.stopped = q.frameQueue.stopped ∧
      q'.batchQueue.stopped = q.batchQueue.stopped ∧ q'.accepted = q.accepted ∧
      q'.discarded = q.discarded ∧ t'.stopRequested = t.stopRequested := by
  cases batcherStep_moves h with
  | leave | wait | ended | finish => exact ⟨rfl, rfl, rfl, rfl, rfl⟩
  | pop frame rest hpc hqueue hstopped => exact ⟨hstopped, rfl, rfl, rfl, rfl⟩
  | batch frame hpc =>
      cases (batchFrame t.currentBatches frame).2 with
      | none => exact ⟨rfl, rfl, rfl, rfl, rfl⟩
      | some batch => exact ⟨rfl, Fifo.push_stopped _ _, rfl, rfl, rfl⟩
  | flush batch batches hpc => exact ⟨rfl, Fifo.push_stopped _ _, rfl, rfl, rfl⟩

/-- A publisher thread stops no queue, leaves the frame queue alone and keeps its token. -/
theorem publisherStep_frame {outcome : RedisOutcome} {q q' : PublisherQueues}
    {t t' : PublisherThread} (h : publisherStep dryRun outcome q t = some (q', t')) :
    q'.frameQueue = q.frameQueue ∧ q'.batchQueue.stopped = q.batchQueue.stopped ∧
      q'.accepted = q.accepted ∧ t'.stopRequested = t.stopRequested := by
  cases publisherStep_moves h with
  | start | leave | wait | ended | giveUp | connected | refused | store =>
      exact ⟨rfl, rfl, rfl, rfl⟩
  | pop batch rest hpc hqueue hstopped => exact ⟨rfl, hstopped, rfl, rfl⟩
  | unanswered batch stored hpc houtcome => cases stored <;> exact ⟨rfl, rfl, rfl, rfl⟩
  | requeue batch hpc hopen => exact ⟨rfl, Fifo.push_stopped _ _, rfl, rfl⟩

/-- Destroying the threads changes stop tokens only. -/
theorem clear_frame {publishers publishers' : Fin n → PublisherThread} {t t' : Teardown}
    (h : t.step requestStop isDone publishers = some (t', publishers')) (k : Fin n) :
    (publishers' k).pc = (publishers k).pc := by
  rcases Teardown.step_thread h k with hsame | hrequested
  · rw [hsame]
  · rw [hrequested, requestStop]

/-! ## The order is kept -/

theorem Orderly.accept {s : Publisher n} (hs : Orderly s) (frame : DecodedFrame AVFrame) :
    Orderly { s with toPublisherQueues := Publisher.accept s.toPublisherQueues frame } := by
  cases hstopped : s.frameQueue.stopped with
  | true =>
      rw [accept_of_stopped hstopped]
      exact hs
  | false =>
      have hflag : (Publisher.accept s.toPublisherQueues frame).frameQueue.stopped =
          s.frameQueue.stopped := Fifo.push_stopped _ _
      rcases settled_accept hstopped frame with ⟨hsettled, haccepted⟩
      refine ⟨?_, hs.batcherToken, ?_, hs.batcherDone, hs.batchesStopped, hs.publisherToken,
        hs.publisherDone, hs.answered, hs.joined, ?_⟩
      · rw [hflag]
        exact hs.framesStopped
      · rw [hflag]
        exact hs.batcherLeft
      · have hbalance := hs.balance
        calc settled (Publisher.accept s.toPublisherQueues frame) + batcherHand s.batcher + held s
            = settled s.toPublisherQueues + batcherHand s.batcher + held s + {frame} := by
              rw [hsettled]
              abel
          _ = ↑s.accepted + {frame} := by rw [hbalance]
          _ = ↑(Publisher.accept s.toPublisherQueues frame).accepted := by
              rw [haccepted, ← Multiset.coe_add, Multiset.coe_singleton]

theorem Orderly.batcher {s : Publisher n} (hs : Orderly s) {q : PublisherQueues}
    {t : BatcherThread} (hstep : batcherStep s.toPublisherQueues s.batcher = some (q, t)) :
    Orderly { s with toPublisherQueues := q, batcher := t } := by
  rcases batcherStep_frame hstep with ⟨hframes, hbatches, haccepted, -, htoken⟩
  have hrunning := batcherStep_running hstep
  have hbalance := batcherStep_balance (hs.batchesOpen hrunning) hstep
  refine ⟨?_, ?_, fun hleft => ?_, fun hphase => ?_, ?_, ?_, ?_, hs.answered, hs.joined, ?_⟩
  · rw [hframes]
    exact hs.framesStopped
  · rw [htoken]
    exact hs.batcherToken
  · -- the loop is left through a set token or at the end of the stopped queue
    rw [hframes]
    cases batcherStep_moves hstep with
    | leave hpc hset => exact hs.framesStopped.mpr (hs.batcherToken hset)
    | wait | pop | batch => cases hleft
    | ended hpc hempty hstopped => exact hstopped
    | flush batch batches hpc => exact hs.batcherLeft (by simp [hasLeft, hpc])
    | finish hpc => exact hs.batcherLeft (by simp [hasLeft, hpc])
  · exact absurd (hs.batcherDone hphase) hrunning
  · rw [hbatches]
    exact hs.batchesStopped
  · rw [hbatches]
    exact hs.publisherToken
  · rw [hbatches]
    exact hs.publisherDone
  · rw [haccepted, ← hs.balance]
    exact congrArg (· + held s) hbalance

/-- A publisher thread that only moves frames keeps the frames of the publisher. -/
theorem publisher_balance {s : Publisher n} {k : Fin (n + 1)} {q : PublisherQueues}
    {t : PublisherThread}
    (hbalance : settled q + framesOf (hand t.pc).toList =
      settled s.toPublisherQueues + framesOf (hand (s.publishers k).pc).toList) :
    settled q + batcherHand s.batcher +
        held { s with toPublisherQueues := q, publishers := Function.update s.publishers k t } =
      settled s.toPublisherQueues + batcherHand s.batcher + held s := by
  have hheld :
      held { s with toPublisherQueues := q, publishers := Function.update s.publishers k t } +
        framesOf (hand (s.publishers k).pc).toList = held s + framesOf (hand t.pc).toList :=
    Pool.held_update (fun t : PublisherThread => framesOf (hand t.pc).toList) s.publishers k t
  refine add_right_cancel (b := framesOf (hand (s.publishers k).pc).toList) ?_
  rw [add_assoc, hheld]
  calc settled q + batcherHand s.batcher + (held s + framesOf (hand t.pc).toList)
      = batcherHand s.batcher + held s + (settled q + framesOf (hand t.pc).toList) := by abel
    _ = batcherHand s.batcher + held s + (settled s.toPublisherQueues +
          framesOf (hand (s.publishers k).pc).toList) := by rw [hbalance]
    _ = settled s.toPublisherQueues + batcherHand s.batcher + held s +
          framesOf (hand (s.publishers k).pc).toList := by abel

/-- A thread whose connections and commands are accepted pushes no batch back. -/
theorem publisherStep_answered {dryRun : Bool} {outcome : RedisOutcome} {q q' : PublisherQueues}
    {t t' : PublisherThread} (hconnects : outcome.connects = true)
    (hreply : outcome.reply = .normal)
    (hstep : publisherStep dryRun outcome q t = some (q', t')) (batch : PackedBatch) :
    t'.pc ≠ .requeueing batch := by
  intro hpc'
  cases publisherStep_moves hstep with
  | start | leave | wait | ended | pop | giveUp | connected | store | requeue => cases hpc'
  | refused batch redisConn hpc hdry houtcome =>
      rw [hconnects] at houtcome
      cases houtcome
  | unanswered batch stored hpc houtcome =>
      rw [hreply] at houtcome
      cases houtcome

theorem Orderly.publisher {s : Publisher n} (hs : Orderly s) {k : Fin (n + 1)}
    {outcome : RedisOutcome} (hconnects : outcome.connects = true)
    (hreply : outcome.reply = .normal) {q : PublisherQueues} {t : PublisherThread}
    (hstep : publisherStep dryRun outcome s.toPublisherQueues (s.publishers k) = some (q, t)) :
    Orderly { s with toPublisherQueues := q, publishers := Function.update s.publishers k t } := by
  rcases publisherStep_frame hstep with ⟨hframes, hbatches, haccepted, htoken⟩
  have hbalance := publisherStep_balance (by simp [hreply]) hstep
  refine ⟨?_, hs.batcherToken, ?_, hs.batcherDone, ?_, ?_, ?_, ?_, fun progress hpc => ?_, ?_⟩
  · rw [hframes]
    exact hs.framesStopped
  · rw [hframes]
    exact hs.batcherLeft
  · rw [hbatches]
    exact hs.batchesStopped
  · rw [hbatches]
    have ht : t.stopRequested = true → s.batchQueue.stopped = true := by
      rw [htoken]
      exact hs.publisherToken k
    exact Pool.forall_update (fun t : PublisherThread => t.stopRequested = true → _) ht
      hs.publisherToken
  · rw [hbatches]
    refine Pool.forall_update (fun t : PublisherThread => isDone t = true → _) (fun hdone => ?_)
      hs.publisherDone
    cases publisherStep_moves hstep with
    | leave hpc hset => exact hs.publisherToken k hset
    | ended hpc hempty hstopped => exact hstopped
    | start | wait | pop | giveUp | connected | refused | unanswered | store | requeue =>
        cases hdone
  · exact Pool.forall_update (fun t : PublisherThread => ∀ batch, t.pc ≠ .requeueing batch)
      (publisherStep_answered hconnects hreply hstep) hs.answered
  · exact (hs.joined progress hpc).update (publisherStep_running hstep)
  · rw [haccepted, ← hs.balance]
    exact publisher_balance (s := s) (k := k) (t := t) hbalance

theorem Orderly.stop {s s' : Publisher n} (hs : Orderly s) (hstep : stopStep s = some s') :
    Orderly s' := by
  cases stopStep_moves hstep with
  | stopFrames hpc =>
      have hopen : ¬ Clearing s := by simp [Clearing, hpc]
      refine ⟨by simp, by simp, by simp, ?_, ?_, hs.publisherToken, hs.publisherDone,
        hs.answered, ?_, hs.balance⟩
      · simp [Clearing]
      · simpa [Clearing, hpc] using hs.batchesStopped
      · simp
  | requestBatcher hpc =>
      refine ⟨?_, by simp, hs.batcherLeft, ?_, ?_, hs.publisherToken, hs.publisherDone,
        hs.answered, by simp, hs.balance⟩
      · simpa [hpc] using hs.framesStopped
      · simp [Clearing]
      · simpa [Clearing, hpc] using hs.batchesStopped
  | joinBatcher hpc hdone =>
      refine ⟨?_, by simp, hs.batcherLeft, fun _ => hdone, ?_, hs.publisherToken,
        hs.publisherDone, hs.answered, by simp, hs.balance⟩
      · simpa [hpc] using hs.framesStopped
      · simpa [Clearing, hpc] using hs.batchesStopped
  | stopBatches hpc =>
      refine ⟨?_, by simp, hs.batcherLeft, fun _ => hs.batcherDone (Or.inl hpc), ?_, by simp,
        by simp, hs.answered, fun progress hprogress => ?_, hs.balance⟩
      · simpa [hpc] using hs.framesStopped
      · simp [Clearing]
      · cases hprogress
        exact Teardown.Joined.start _
  | clear progress progress' publishers' hpc hclear =>
      have hclearing : Clearing s := ⟨progress, hpc⟩
      have hstopped := hs.batchesStopped.mpr hclearing
      have hframe := clear_frame hclear
      refine ⟨?_, by simp, hs.batcherLeft, fun _ => hs.batcherDone (Or.inr hclearing), ?_,
        fun _ _ => hstopped, fun _ _ => hstopped, ?_, fun progress hprogress => ?_, ?_⟩
      · simpa [hpc] using hs.framesStopped
      · simpa [Clearing] using hstopped
      · intro k
        rw [hframe k]
        exact hs.answered k
      · cases hprogress
        exact (hs.joined _ hpc).step hclear
      · have hheld : Pool.held (fun t : PublisherThread => framesOf (hand t.pc).toList)
            publishers' = held s :=
          Finset.sum_congr rfl fun k _ =>
            congrArg (fun pc => framesOf (hand pc).toList) (hframe k)
        rw [← hs.balance, ← hheld]
        rfl

/-- Every step keeps the order of stopping and the balance of frames. -/
theorem orderly_step (s : Publisher n) (a : Action n) (s' : Publisher n) (hs : Orderly s)
    (ha : Accepts a) (hstep : (machine dryRun n).step s a = some s') : Orderly s' := by
  cases a with
  | accept frame =>
      cases hstep
      exact hs.accept frame
  | batcher =>
      rcases Option.map_eq_some_iff.mp hstep with ⟨⟨q, t⟩, hbatcher, rfl⟩
      exact hs.batcher hbatcher
  | publisher k outcome =>
      rcases Option.map_eq_some_iff.mp hstep with ⟨⟨q, t⟩, hthread, rfl⟩
      rcases ha k outcome rfl with ⟨hconnects, hreply⟩
      exact hs.publisher hconnects hreply hthread
  | stop => exact hs.stop hstep

/-! ## What is abandoned -/

/-- Frames that will never be sent: left in the frame queue by the batching thread, left in
`batch_queue_` by the last publisher thread, or given up with their batch. -/
def Abandoned (s : Publisher n) : Prop :=
  (hasLeft s.batcher.pc = true ∧ s.frameQueue.queue ≠ []) ∨
    ((∀ k, isDone (s.publishers k) = true) ∧ s.batchQueue.queue ≠ []) ∨ s.discarded ≠ []

/-- The step abandons nothing: the batching thread does not leave a non-empty frame queue
because of its stop token, nor the last publisher thread a non-empty `batch_queue_`, and no
batch is dropped in dry-run mode. -/
structure KeepsEverything (dryRun : Bool) (s : Publisher n) (a : Action n) : Prop where
  frames : a = .batcher → s.batcher.pc = .loopHead → s.batcher.stopRequested = true →
    s.frameQueue.queue = []
  batches : ∀ k outcome, a = .publisher k outcome → (s.publishers k).pc = .loopHead →
    (s.publishers k).stopRequested = true →
      s.batchQueue.queue = [] ∨ ∃ j ≠ k, isDone (s.publishers j) = false
  sent : ∀ k outcome batch, a = .publisher k outcome → (s.publishers k).pc = .popped batch →
    dryRun = false

/-- While `batch_queue_` accepts, some publisher thread runs. -/
theorem Orderly.not_allDone {s : Publisher n} (hs : Orderly s)
    (hopen : s.batchQueue.stopped = false) : ¬ ∀ k, isDone (s.publishers k) = true := by
  intro hall
  have hstopped := hs.publisherDone 0 (hall 0)
  rw [hopen] at hstopped
  cases hstopped

theorem abandoned_accept {s : Publisher n} (hs : Orderly s) (frame : DecodedFrame AVFrame) :
    Abandoned { s with toPublisherQueues := Publisher.accept s.toPublisherQueues frame } ↔
      Abandoned s := by
  cases hstopped : s.frameQueue.stopped with
  | true => rw [accept_of_stopped hstopped]
  | false =>
      have hin : hasLeft s.batcher.pc = false := by
        by_contra hleft
        have hclosed := hs.batcherLeft (by simpa using hleft)
        rw [hstopped] at hclosed
        cases hclosed
      simp [Abandoned, hin, Publisher.accept]

theorem abandoned_batcher {s : Publisher n} (hs : Orderly s) {q : PublisherQueues}
    {t : BatcherThread} (hstep : batcherStep s.toPublisherQueues s.batcher = some (q, t)) :
    Abandoned { s with toPublisherQueues := q, batcher := t } ↔
      Abandoned s ∨ ¬ KeepsEverything dryRun s .batcher := by
  rcases batcherStep_frame hstep with ⟨-, -, -, hdiscarded, -⟩
  have hrunning := hs.not_allDone (hs.batchesOpen (batcherStep_running hstep))
  have hkeeps : KeepsEverything dryRun s .batcher ↔
      (s.batcher.pc = .loopHead → s.batcher.stopRequested = true → s.frameQueue.queue = []) :=
    ⟨fun h => h.frames rfl, fun h => ⟨fun _ => h, nofun, nofun⟩⟩
  simp only [Abandoned, hrunning, hdiscarded, false_and, false_or, hkeeps]
  cases batcherStep_moves hstep with
  | leave hpc htoken => simp [hasLeft, hpc, htoken, or_comm]
  | wait hpc htoken => simp [hasLeft, hpc, htoken]
  | ended hpc hempty hstopped => simp [hasLeft, hpc, hempty]
  | pop frame rest hpc hqueue hstopped => simp [hasLeft, hpc]
  | batch frame hpc => simp [hasLeft, hpc]
  | flush batch batches hpc => simp [hasLeft, hpc, pushBatch]
  | finish hpc => simp [hasLeft, hpc]

/-- All threads have returned, after one of them has moved. -/
theorem allDone_update {s : Publisher n} {k : Fin (n + 1)} {t : PublisherThread} :
    (∀ j, isDone (Function.update s.publishers k t j) = true) ↔
      isDone t = true ∧ ∀ j ≠ k, isDone (s.publishers j) = true :=
  Function.forall_update_iff s.publishers fun _ t => isDone t = true

/-- What a step of a publisher thread must not do. -/
theorem keepsEverything_publisher_iff {s : Publisher n} {k : Fin (n + 1)} {outcome : RedisOutcome} :
    KeepsEverything dryRun s (.publisher k outcome) ↔
      ((s.publishers k).pc = .loopHead → (s.publishers k).stopRequested = true →
        s.batchQueue.queue = [] ∨ ∃ j ≠ k, isDone (s.publishers j) = false) ∧
      ∀ batch, (s.publishers k).pc = .popped batch → dryRun = false := by
  constructor
  · intro h
    exact ⟨h.batches k outcome rfl, fun batch => h.sent k outcome batch rfl⟩
  · rintro ⟨hbatches, hsent⟩
    refine ⟨nofun, ?_, ?_⟩
    · rintro k' outcome' heq
      cases heq
      exact hbatches
    · rintro k' outcome' batch heq
      cases heq
      exact hsent batch

theorem abandoned_publisher {s : Publisher n} {k : Fin (n + 1)} {outcome : RedisOutcome}
    (hs : Orderly s) (hreply : outcome.reply = .normal) {q : PublisherQueues}
    {t : PublisherThread}
    (hstep : publisherStep dryRun outcome s.toPublisherQueues (s.publishers k) = some (q, t)) :
    Abandoned
        { s with toPublisherQueues := q, publishers := Function.update s.publishers k t } ↔
      Abandoned s ∨ ¬ KeepsEverything dryRun s (.publisher k outcome) := by
  rcases publisherStep_frame hstep with ⟨hframes, -, -, -⟩
  have hrunning : ¬ ∀ j, isDone (s.publishers j) = true := by
    intro hall
    have hdone := hall k
    rw [publisherStep_running hstep] at hdone
    cases hdone
  simp only [Abandoned, hrunning, hframes, allDone_update, false_and, false_or,
    keepsEverything_publisher_iff]
  cases publisherStep_moves hstep with
  | start hpc => simp [isDone, hpc]
  | leave hpc htoken =>
      have hlast : (∃ j ≠ k, isDone (s.publishers j) = false) ↔
          ¬ ∀ j ≠ k, isDone (s.publishers j) = true := by simp
      have hdone : ∀ t : PublisherThread, t.pc = .done → (isDone t = true ↔ True) := by
        intro t ht
        simp [isDone, ht]
      simp only [hpc, htoken, hlast, hdone, true_and, reduceCtorEq, forall_const, false_implies,
        implies_true, and_true, not_or, not_not]
      rw [or_assoc, and_comm (a := s.batchQueue.queue ≠ []), or_comm (a := s.discarded ≠ [])]
  | wait hpc htoken => simp [isDone, hpc, htoken]
  | ended hpc hempty hstopped => simp [isDone, hpc, hempty]
  | pop batch rest hpc hqueue hstopped => simp [isDone, hpc]
  | giveUp batch hhand hwhy =>
      rcases hwhy with ⟨hdry, hpc⟩ | ⟨herror, -⟩ | ⟨-, hpc⟩
      · simp [discard, hpc, hdry]
      · rw [hreply] at herror
        cases herror
      · exact absurd hpc (hs.answered k batch)
  | connected batch redisConn hpc hdry => simp [isDone, hpc, hdry]
  | refused batch redisConn hpc hdry houtcome => simp [isDone, hpc, hdry]
  | unanswered batch stored hpc houtcome =>
      rw [hreply] at houtcome
      cases houtcome
  | store batch hpc houtcome => simp [isDone, hpc, store]
  | requeue batch hpc hopen => simp [isDone, hpc, pushBatch]

theorem abandoned_stop {s s' : Publisher n} (hstep : stopStep s = some s') :
    Abandoned s' ↔ Abandoned s := by
  cases stopStep_moves hstep with
  | stopFrames | requestBatcher | joinBatcher | stopBatches => rfl
  | clear progress progress' publishers' hpc hclear =>
      have hdone : ∀ k, isDone (publishers' k) = isDone (s.publishers k) := by
        intro k
        rw [isDone, isDone, clear_frame hclear k]
      simp only [Abandoned, hdone]

/-- A step abandons frames exactly when it is one of those named. -/
theorem abandoned_step (s : Publisher n) (a : Action n) (s' : Publisher n) (hs : Orderly s)
    (ha : Accepts a) (hstep : (machine dryRun n).step s a = some s') :
    Abandoned s' ↔ Abandoned s ∨ ¬ KeepsEverything dryRun s a := by
  cases a with
  | accept frame =>
      cases hstep
      have hkeeps : KeepsEverything dryRun s (.accept frame) := ⟨nofun, nofun, nofun⟩
      simp [abandoned_accept hs, hkeeps]
  | batcher =>
      rcases Option.map_eq_some_iff.mp hstep with ⟨⟨q, t⟩, hbatcher, rfl⟩
      exact abandoned_batcher hs hbatcher
  | publisher k outcome =>
      rcases Option.map_eq_some_iff.mp hstep with ⟨⟨q, t⟩, hthread, rfl⟩
      exact abandoned_publisher hs (ha k outcome rfl).2 hthread
  | stop =>
      have hkeeps : KeepsEverything dryRun s .stop := ⟨nofun, nofun, nofun⟩
      simp [abandoned_stop hstep, hkeeps]

/-! ## Everything is flushed -/

/-- Every frame accepted by the frame queue is contained in exactly one batch that was sent
and stored. -/
def Flushed (s : Publisher n) : Prop :=
  framesOf s.stored = ↑s.accepted

/-- When `stop` has returned, no thread holds anything. -/
theorem Orderly.settled_of_returned {s : Publisher n} (hs : Orderly s) (hreturned : Returned s) :
    (∀ k, isDone (s.publishers k) = true) ∧ s.batcher.pc = .done ∧
      settled s.toPublisherQueues = ↑s.accepted := by
  have hdone : ∀ k, isDone (s.publishers k) = true :=
    fun k => (hs.joined _ hreturned).finished rfl k
  have hbatcher := hs.batcherDone (Or.inr ⟨_, hreturned⟩)
  have hheld : held s = 0 := by
    refine Pool.held_eq_zero fun k => ?_
    have hk := hdone k
    unfold isDone at hk
    split at hk
    · next hpc => simp [hand, hpc]
    · cases hk
  have hbalance := hs.balance
  rw [hheld, batcherHand, hbatcher, add_zero, add_zero] at hbalance
  exact ⟨hdone, hbatcher, hbalance⟩

/-- When `stop` has returned, what has not been sent has been abandoned. -/
theorem Orderly.flushed_iff {s : Publisher n} (hs : Orderly s) (hreturned : Returned s) :
    Flushed s ↔ ¬ Abandoned s := by
  rcases hs.settled_of_returned hreturned with ⟨hdone, hbatcher, hsettled⟩
  have hsplit : (↑s.frameQueue.queue + framesOf s.batchQueue.queue + framesOf s.discarded) +
      framesOf s.stored = ↑s.accepted := by
    rw [← hsettled, settled]
    abel
  rw [Flushed, ← hsplit, eq_comm, add_eq_right, add_eq_zero, add_eq_zero, framesOf_eq_zero,
    framesOf_eq_zero, Multiset.coe_eq_zero]
  simp [Abandoned, hdone, hbatcher, hasLeft, and_assoc]

/-- For every interleaving in which `stop` returns and Redis accepts every command, from any
content of the queues and with any number of publisher threads: every accepted frame is
in exactly one batch sent exactly when no step of the run abandons anything. -/
theorem stop_flushes_iff {schedule : List (Action n)} (haccepts : ∀ a ∈ schedule, Accepts a)
    {s : Publisher n} (hrun : (machine dryRun n).exec {} schedule = some s)
    (hreturned : Returned s) :
    Flushed s ↔ (machine dryRun n).Meets (KeepsEverything dryRun) {} schedule := by
  have hguard := Machine.meets_of_forall (M := machine dryRun n) (s := {}) haccepts
  have horderly : Orderly s := Machine.exec_induction_of_meets
    (fun s a s' hs ha => orderly_step s a s' hs ha) orderly_init hguard hrun
  have habandoned := Machine.marked_iff_not_meets orderly_step abandoned_step orderly_init
    hguard hrun
  have hinit : ¬ Abandoned ({} : Publisher n) := by
    rintro (⟨hleft, -⟩ | ⟨-, hqueue⟩ | hdiscarded)
    · cases hleft
    · exact hqueue rfl
    · exact hdiscarded rfl
  rw [horderly.flushed_iff hreturned, habandoned]
  simp [hinit]

/-! ## One frame -/

/-- A step of the only publisher thread when Redis accepts. -/
def answeredStep : Action 0 :=
  .publisher (Fin.last 0) ⟨true, .normal⟩

/-- The frame is in its open batch, and both loops wait, when `stop` begins. -/
def drainedSchedule : List (Action 0) :=
  [.accept (blackFrame 2 2 2), .batcher, .batcher, .batcher, .batcher, .stop, .batcher, .batcher,
    .batcher, answeredStep, answeredStep, answeredStep, answeredStep, answeredStep, answeredStep,
    .stop, .stop, .stop, answeredStep, .stop, .stop]

/-- The frame is still in the frame queue when `stop` requests the batching thread's stop. -/
def hastySchedule : List (Action 0) :=
  [.accept (blackFrame 2 2 2), .stop, .stop, .batcher, .batcher, .stop, .stop, answeredStep,
    answeredStep, answeredStep, .stop, .stop]

theorem accepts_of_mem {schedule : List (Action 0)}
    (h : ∀ a ∈ schedule, a = answeredStep ∨ ∀ k outcome, a ≠ .publisher k outcome) :
    ∀ a ∈ schedule, Accepts a := by
  rintro a ha k outcome rfl
  rcases h _ ha with hanswered | hother
  · cases hanswered
    exact ⟨rfl, rfl⟩
  · exact absurd rfl (hother k outcome)

/-- A frame in an open batch is flushed, and nothing is abandoned. -/
theorem stop_flushes_open_batch :
    ∃ s, (machine false 0).exec {} drainedSchedule = some s ∧ Flushed s ∧
      (machine false 0).Meets (KeepsEverything false) {} drainedSchedule := by
  have haccepts : ∀ a ∈ drainedSchedule, Accepts a :=
    accepts_of_mem (by simp [drainedSchedule, answeredStep])
  have hrun : ∃ s, (machine false 0).exec {} drainedSchedule = some s ∧ Returned s ∧
      s.stored.flatMap PackedBatch.frames = s.accepted :=
    ⟨_, rfl, rfl, rfl⟩
  rcases hrun with ⟨s, hexec, hreturned, hsent⟩
  have hflushed : Flushed s := congrArg _ hsent
  exact ⟨s, hexec, hflushed, (stop_flushes_iff haccepts hexec hreturned).mp hflushed⟩

/-- The batching thread finds its stop token set and leaves the frame in the queue. -/
theorem stop_abandons_frame :
    ¬ ∀ (schedule : List (Action 0)) (s : Publisher 0), (∀ a ∈ schedule, Accepts a) →
      (machine false 0).exec {} schedule = some s → Returned s → Flushed s := by
  intro hall
  have haccepts : ∀ a ∈ hastySchedule, Accepts a :=
    accepts_of_mem (by simp [hastySchedule, answeredStep])
  have hrun : ∃ s, (machine false 0).exec {} hastySchedule = some s ∧ Returned s ∧
      s.stored = [] ∧ s.accepted.length = 1 :=
    ⟨_, rfl, rfl, rfl, rfl⟩
  rcases hrun with ⟨s, hexec, hreturned, hstored, haccepted⟩
  have hflushed := hall _ s haccepts hexec hreturned
  rw [Flushed, hstored] at hflushed
  have hcard := congrArg Multiset.card hflushed
  rw [framesOf_nil, Multiset.card_zero, Multiset.coe_card, haccepted] at hcard
  cases hcard

end Publisher

end FrameProcessor
