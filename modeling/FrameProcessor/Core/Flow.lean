import FrameProcessor.Core.Pipeline
import FrameProcessor.Publisher.Redelivery

/-!
# core/main - A pipeline that has not been stopped

As long as nobody calls a `stop`, no queue is stopped, every thread stays in its loop, and the
frames that the workers hand on are in the publisher's balance, whatever Redis answers: those
of a command without a reply may be there twice, those of a command with an error reply are
given up.

Main results:

- Theorems `Worker.InLoop.step`, `Publisher.BatcherInLoop.step` and `Publisher.InLoop.step`: a
  thread that has no reason to leave its loop stays in it.
- Theorem `Pipeline.machine_steps`: everything a step of the pipeline can do.
- Theorem `Pipeline.unstopped_step`: every step but one of a `stop` keeps the pipeline running.
-/

namespace FrameProcessor

/-! ## Threads in their loops -/

namespace Worker

variable {γ : Type*} {av : Avfilter γ}

/-- A worker thread that is in `worker_loop` and has no reason to leave it. -/
structure InLoop (w : WorkerThread γ) : Prop where
  token : w.stopRequested = false
  running : w.pc ≠ .done

theorem InLoop.step {q q' : WorkerQueues} {w w' : WorkerThread γ} (hw : InLoop w)
    (hopen : q.inQueue.stopped = false) (h : threadStep av q w = some (q', w')) : InLoop w' := by
  unfold threadStep at h
  split at h
  · cases h
    exact ⟨hw.token, by simp [hw.token]⟩
  · split at h
    · cases h
    · next inQueue hpop =>
      rcases Fifo.waitAndPop_cases hpop with ⟨_, hsome, -⟩ | ⟨-, -, -, hstopped⟩
      · cases hsome
      · rw [hopen] at hstopped
        cases hstopped
    · cases h
      exact ⟨hw.token, nofun⟩
  · cases h
    exact ⟨hw.token, nofun⟩
  · cases h
    exact ⟨hw.token, nofun⟩
  · cases h
    exact ⟨hw.token, nofun⟩
  · cases h

/-- In its loop, a worker thread is able to step unless it waits for a frame. -/
theorem InLoop.threadStep_isSome {q : WorkerQueues} {w : WorkerThread γ} (hw : InLoop w)
    (h : q.inQueue.queue ≠ [] ∨ hand w.pc ≠ 0) : (threadStep av q w).isSome = true := by
  cases hpc : w.pc with
  | loopHead => simp [threadStep, hpc]
  | popping =>
      cases hqueue : q.inQueue.queue with
      | nil => simp [hpc, hqueue, hand] at h
      | cons frame rest => simp [threadStep, hpc, Fifo.waitAndPop, hqueue]
  | processing frame => simp [threadStep, hpc]
  | pushing frame outputs =>
      cases outputs with
      | nil => simp [threadStep, hpc]
      | cons output outputs => simp [threadStep, hpc]
  | done => exact absurd hpc hw.running

/-- Whatever a worker thread does to `out_queue_` is a push. -/
theorem threadStep_delivers {q q' : WorkerQueues} {w w' : WorkerThread γ}
    (h : threadStep av q w = some (q', w')) :
    (q'.outQueue = q.outQueue ∧ q'.delivered = q.delivered) ∨
      ∃ frame output, q' = deliver q frame output := by
  rcases threadStep_cases h with ⟨rfl, -⟩ | ⟨frame, rest, -, -, -, rfl, -⟩ | ⟨frame, -, rfl, -⟩ |
    ⟨frame, output, outputs, -, rfl, -⟩
  · exact Or.inl ⟨rfl, rfl⟩
  · exact Or.inl ⟨rfl, rfl⟩
  · exact Or.inl ⟨rfl, rfl⟩
  · exact Or.inr ⟨frame, output, rfl⟩

end Worker

namespace Publisher

/-- The batching thread in `batching_loop`, with no reason to leave it. -/
structure BatcherInLoop (t : BatcherThread) : Prop where
  token : t.stopRequested = false
  running : t.pc = .loopHead ∨ t.pc = .popping ∨ ∃ frame, t.pc = .holding frame

theorem BatcherInLoop.step {q q' : PublisherQueues} {t t' : BatcherThread}
    (ht : BatcherInLoop t) (hopen : q.frameQueue.stopped = false)
    (h : batcherStep q t = some (q', t')) : BatcherInLoop t' := by
  have hflushing : ∀ batches, t.pc ≠ .flushing batches := by
    intro batches hpc
    rcases ht.running with hrunning | hrunning | ⟨frame, hrunning⟩ <;>
      · rw [hrunning] at hpc
        cases hpc
  cases batcherStep_moves h with
  | leave hpc htoken =>
      rw [ht.token] at htoken
      cases htoken
  | wait hpc htoken => exact ⟨ht.token, Or.inr (Or.inl rfl)⟩
  | ended hpc hempty hstopped =>
      rw [hopen] at hstopped
      cases hstopped
  | pop frame rest hpc hqueue hstopped => exact ⟨ht.token, Or.inr (Or.inr ⟨frame, rfl⟩)⟩
  | batch frame hpc => exact ⟨ht.token, Or.inl rfl⟩
  | flush batch batches hpc => exact absurd hpc (hflushing _)
  | finish hpc => exact absurd hpc (hflushing _)

/-- In its loop, the batching thread is able to step unless it waits for a frame. -/
theorem BatcherInLoop.batcherStep_isSome {q : PublisherQueues} {t : BatcherThread}
    (ht : BatcherInLoop t) (h : q.frameQueue.queue ≠ [] ∨ t.pc ≠ .popping) :
    (batcherStep q t).isSome = true := by
  rcases ht.running with hpc | hpc | ⟨frame, hpc⟩
  · simp [batcherStep, hpc]
  · cases hqueue : q.frameQueue.queue with
    | nil => simp [hpc, hqueue] at h
    | cons frame rest => simp [batcherStep, hpc, Fifo.waitAndPop, hqueue]
  · rcases hbatch : batchFrame t.currentBatches frame with ⟨currentBatches, full⟩
    cases full with
    | none => simp [batcherStep, hpc, hbatch]
    | some batch => simp [batcherStep, hpc, hbatch]

/-- A publisher thread that is in `publisher_loop` and has no reason to leave it. -/
structure InLoop (t : PublisherThread) : Prop where
  token : t.stopRequested = false
  running : t.pc ≠ .done

theorem InLoop.step {dryRun : Bool} {outcome : RedisOutcome} {q q' : PublisherQueues}
    {t t' : PublisherThread} (ht : InLoop t) (hopen : q.batchQueue.stopped = false)
    (h : publisherStep dryRun outcome q t = some (q', t')) : InLoop t' := by
  cases publisherStep_moves h with
  | leave hpc htoken =>
      rw [ht.token] at htoken
      cases htoken
  | ended hpc hempty hstopped =>
      rw [hopen] at hstopped
      cases hstopped
  | start | wait | pop | giveUp | connected | refused | unanswered | store | requeue =>
      exact ⟨ht.token, nofun⟩

/-- In its loop, a publisher thread is able to step unless it waits for a batch. -/
theorem InLoop.publisherStep_isSome {dryRun : Bool} (outcome : RedisOutcome)
    {q : PublisherQueues} {t : PublisherThread} (ht : InLoop t)
    (h : q.batchQueue.queue ≠ [] ∨ hand t.pc ≠ none) :
    (publisherStep dryRun outcome q t).isSome = true := by
  cases hpc : t.pc with
  | starting => simp [publisherStep, hpc]
  | loopHead => simp [publisherStep, hpc]
  | popping =>
      cases hqueue : q.batchQueue.queue with
      | nil => simp [hpc, hqueue, hand] at h
      | cons batch rest => simp [publisherStep, hpc, Fifo.waitAndPop, hqueue]
  | popped batch => cases dryRun <;> simp [publisherStep, hpc]
  | sending batch => cases hreply : outcome.reply <;> simp [publisherStep, hpc, hreply]
  | requeueing batch =>
      cases hstopped : q.batchQueue.stopped <;> simp [publisherStep, hpc, hstopped]
  | done => exact absurd hpc ht.running

end Publisher

/-! ## The pipeline -/

namespace Pipeline

variable {γ : Type*} {n m : Nat} {av : Avfilter γ}

/-- Everything a step can do. -/
inductive Steps (av : Avfilter γ) (dryRun : Bool) (s : Pipeline γ n m) :
    Action n m → Pipeline γ n m → Prop where
  | accept (frame : DecodedFrame AVFrame) :
      Steps av dryRun s (.accept frame) (s.setWorker
        { s.worker with toWorkerQueues := Worker.accept s.worker.toWorkerQueues frame })
  | worker (i : Fin n) (q : WorkerQueues) (w : WorkerThread γ)
      (hthread : Worker.threadStep av s.worker.toWorkerQueues (s.workers i) = some (q, w)) :
      Steps av dryRun s (.worker i) (s.setWorker
        { s.worker with toWorkerQueues := q, workers := Function.update s.workers i w })
  | stopWorker (w : Worker γ n) (hstop : Worker.stopStep s.worker = some w) :
      Steps av dryRun s .stopWorker (s.setWorker w)
  | batcher (q : PublisherQueues) (t : BatcherThread)
      (hthread : Publisher.batcherStep s.publisher.toPublisherQueues s.batcher = some (q, t)) :
      Steps av dryRun s .batcher
        (s.setPublisher { s.publisher with toPublisherQueues := q, batcher := t })
  | publisher (k : Fin (m + 1)) (outcome : RedisOutcome) (q : PublisherQueues)
      (t : PublisherThread)
      (hthread : Publisher.publisherStep dryRun outcome s.publisher.toPublisherQueues
        (s.publishers k) = some (q, t)) :
      Steps av dryRun s (.publisher k outcome) (s.setPublisher
        { s.publisher with
          toPublisherQueues := q
          publishers := Function.update s.publishers k t })
  | stopPublisher (p : Publisher m) (hstop : Publisher.stopStep s.publisher = some p) :
      Steps av dryRun s .stopPublisher (s.setPublisher p)

theorem machine_steps {dryRun : Bool} {s s' : Pipeline γ n m} {a : Action n m}
    (hstep : (machine av dryRun n m).step s a = some s') : Steps av dryRun s a s' := by
  cases a with
  | accept frame =>
      cases hstep
      exact .accept frame
  | worker i =>
      rcases Option.map_eq_some_iff.mp hstep with ⟨w, hworker, rfl⟩
      rcases Option.map_eq_some_iff.mp hworker with ⟨⟨q, w⟩, hthread, rfl⟩
      exact .worker i q w hthread
  | stopWorker =>
      rcases Option.map_eq_some_iff.mp hstep with ⟨w, hworker, rfl⟩
      exact .stopWorker w hworker
  | batcher =>
      rcases Option.map_eq_some_iff.mp hstep with ⟨p, hbatcher, rfl⟩
      rcases Option.map_eq_some_iff.mp hbatcher with ⟨⟨q, t⟩, hthread, rfl⟩
      exact .batcher q t hthread
  | publisher k outcome =>
      rcases Option.map_eq_some_iff.mp hstep with ⟨p, hpublisher, rfl⟩
      rcases Option.map_eq_some_iff.mp hpublisher with ⟨⟨q, t⟩, hthread, rfl⟩
      exact .publisher k outcome q t hthread
  | stopPublisher =>
      rcases Option.map_eq_some_iff.mp hstep with ⟨p, hpublisher, rfl⟩
      exact .stopPublisher p hpublisher

/-- Any step but one of a `stop`, whatever Redis answers. -/
def NoStop (a : Action n m) : Prop :=
  match a with
  | .stopWorker => False
  | .stopPublisher => False
  | _ => True

/-- What holds as long as nothing has been stopped. -/
structure Unstopped (Idle : γ → Prop) (s : Pipeline γ n m) : Prop where
  workersRun : s.workerStopPc = .running
  publisherRuns : s.publisherStopPc = .running
  ledger : Worker.Ledger Idle s.worker
  accounts : ∃ more, Publisher.Accounts s.publisher more
  workers : ∀ i, Worker.InLoop (s.workers i)
  batcher : Publisher.BatcherInLoop s.batcher
  publishers : ∀ k, Publisher.InLoop (s.publishers k)

theorem unstopped_init {Idle : γ → Prop} : Unstopped Idle ({} : Pipeline γ n m) where
  workersRun := rfl
  publisherRuns := rfl
  ledger := Worker.ledger_init
  accounts := ⟨0, Publisher.accounts_init⟩
  workers _ := ⟨rfl, nofun⟩
  batcher := ⟨rfl, Or.inl rfl⟩
  publishers _ := ⟨rfl, nofun⟩

variable {Idle : γ → Prop} {s : Pipeline γ n m}

theorem Unstopped.decodeOpen (hs : Unstopped Idle s) : s.decodeFrameQueue.stopped = false := by
  by_contra hstopped
  have hin : s.worker.inQueue.stopped = true := Bool.eq_true_of_not_eq_false hstopped
  exact hs.ledger.inStopped.mp hin hs.workersRun

theorem Unstopped.processedOpen (hs : Unstopped Idle s) : s.processedFrameQueue.stopped = false :=
  hs.ledger.outOpen hs.decodeOpen

theorem Unstopped.batchesOpen (hs : Unstopped Idle s) : s.batchQueue.stopped = false := by
  by_contra hstopped
  rcases hs.accounts with ⟨more, haccounts⟩
  have hbatches : s.publisher.batchQueue.stopped = true := Bool.eq_true_of_not_eq_false hstopped
  rcases haccounts.sequenced.batchesStopped hbatches with ⟨progress, hpc⟩
  have hruns := hs.publisherRuns
  rw [show s.publisherStopPc = .clearing progress from hpc] at hruns
  cases hruns

/-- What the workers have handed on is in the publisher's balance. -/
theorem Unstopped.kept (hs : Unstopped Idle s) :
    (↑(s.delivered.map Prod.snd) : Multiset (DecodedFrame AVFrame)) ≤
      Publisher.settled s.publisher.toPublisherQueues + Publisher.batcherHand s.batcher +
        Publisher.held s.publisher := by
  rcases hs.accounts with ⟨more, haccounts⟩
  have hbalance : Publisher.settled s.publisher.toPublisherQueues +
      Publisher.batcherHand s.batcher + Publisher.held s.publisher =
        ↑(s.delivered.map Prod.snd) + more := haccounts.balance
  rw [hbalance]
  exact Multiset.le_add_right _ _

theorem Unstopped.work (h : Worker.OneToOne av Idle) (hs : Unstopped Idle s) {i : Fin n}
    {q : WorkerQueues} {w : WorkerThread γ}
    (hstep : Worker.threadStep av s.worker.toWorkerQueues (s.workers i) = some (q, w)) :
    Unstopped Idle (s.setWorker
      { s.worker with toWorkerQueues := q, workers := Function.update s.workers i w }) := by
  have hloop := (hs.workers i).step hs.decodeOpen hstep
  have hloops := Pool.forall_update (i := i) Worker.InLoop hloop hs.workers
  have hledger := hs.ledger.worker h hstep
  refine ⟨hs.workersRun, hs.publisherRuns, hledger, ?_, hloops, hs.batcher, hs.publishers⟩
  rcases hs.accounts with ⟨more, haccounts⟩
  rcases Worker.threadStep_delivers hstep with ⟨hout, hdelivered⟩ | ⟨frame, output, rfl⟩
  · rw [publisher_setWorker, hout, hdelivered]
    exact ⟨more, haccounts⟩
  · rw [publisher_deliver]
    have haccept : (Publisher.machine false m).step s.publisher (.accept output) =
        some { s.publisher with
          toPublisherQueues := Publisher.accept s.publisher.toPublisherQueues output } :=
      rfl
    exact ⟨_, haccounts.step haccept⟩

/-- What a step of the publisher leaves running. -/
theorem Unstopped.publish (hs : Unstopped Idle s) {a : Publisher.Action m} {p : Publisher m}
    (hstep : (Publisher.machine false m).step s.publisher a = some p)
    (haccepted : p.accepted = s.publisher.accepted)
    (hframes : p.frameQueue.stopped = s.processedFrameQueue.stopped)
    (hruns : p.stopPc = .running) (hbatcher : Publisher.BatcherInLoop p.batcher)
    (hpublishers : ∀ k, Publisher.InLoop (p.publishers k)) :
    Unstopped Idle (s.setPublisher p) := by
  refine ⟨hs.workersRun, hruns, ?_, ?_, hs.workers, hbatcher, hpublishers⟩
  · rw [worker_setPublisher]
    exact hs.ledger.consume hframes
  · rw [publisher_setPublisher haccepted]
    rcases hs.accounts with ⟨more, haccounts⟩
    exact ⟨_, haccounts.step hstep⟩

/-- Every step but one of a `stop` keeps the pipeline running, whatever Redis answers. -/
theorem unstopped_step (h : Worker.OneToOne av Idle) (s : Pipeline γ n m) (a : Action n m)
    (s' : Pipeline γ n m) (hs : Unstopped Idle s) (ha : NoStop a)
    (hstep : (machine av false n m).step s a = some s') : Unstopped Idle s' := by
  cases machine_steps hstep with
  | accept frame =>
      exact ⟨hs.workersRun, hs.publisherRuns, hs.ledger.accept frame, hs.accounts, hs.workers,
        hs.batcher, hs.publishers⟩
  | worker i q w hthread => exact hs.work h hthread
  | batcher q t hthread =>
      rcases Publisher.batcherStep_frame hthread with ⟨hframes, -, haccepted, -, -⟩
      have hpublisher : (Publisher.machine false m).step s.publisher .batcher =
          some { s.publisher with toPublisherQueues := q, batcher := t } :=
        Option.map_eq_some_iff.mpr ⟨(q, t), hthread, rfl⟩
      exact hs.publish hpublisher haccepted hframes hs.publisherRuns
        (hs.batcher.step hs.processedOpen hthread) hs.publishers
  | publisher k outcome q t hthread =>
      rcases Publisher.publisherStep_frame hthread with ⟨hframes, -, haccepted, -⟩
      have hpublisher : (Publisher.machine false m).step s.publisher (.publisher k outcome) =
          some { s.publisher with
            toPublisherQueues := q
            publishers := Function.update s.publishers k t } :=
        Option.map_eq_some_iff.mpr ⟨(q, t), hthread, rfl⟩
      exact hs.publish hpublisher haccepted (congrArg Fifo.stopped hframes) hs.publisherRuns
        hs.batcher (Pool.forall_update Publisher.InLoop
          ((hs.publishers k).step hs.batchesOpen hthread) hs.publishers)
  | stopWorker w hstop => exact absurd ha id
  | stopPublisher p hstop => exact absurd ha id

/-- Nothing is stopped in the states that are reached without a `stop`. -/
theorem unstopped_of_run (h : Worker.OneToOne av Idle) {schedule : List (Action n m)}
    (hschedule : ∀ a ∈ schedule, NoStop a)
    (hrun : (machine av false n m).exec {} schedule = some s) : Unstopped Idle s :=
  Machine.exec_induction_of_meets (unstopped_step h) unstopped_init
    (Machine.meets_of_forall hschedule) hrun

end Pipeline

end FrameProcessor
