import FrameProcessor.Worker.Shutdown
import FrameProcessor.Publisher.Conservation

/-!
# core/main - The pipeline

`main` connects the components by two queues: the readers push decoded frames to
`decode_frame_queue`, the workers move them to `processed_frame_queue`, and the publisher
packs them into batches and sends the batches to Redis.  The pipeline puts the machine of
the worker pool and that of the publisher together: what is `out_queue_` of the one is the
frame queue of the other.

Main results:

- Theorem `Pipeline.flowing_step`: a step of the workers is for the publisher a push to its
  frame queue or nothing, and a step of the publisher leaves the workers their frames.
- Theorem `Pipeline.frames_conserved`: in a running pipeline every accepted frame is in one
  place, and is published under the stream and event it was captured with.
-/

namespace FrameProcessor

open Publisher (PackedBatch BatchKey)

/-- The queues and threads of the pipeline with `n` workers and `m + 1` publisher threads,
and its logs: the frames accepted by `decode_frame_queue`, the frames accepted by
`processed_frame_queue`, each with the frame it was made from, the batches whose entry
Redis has stored and those a thread has given up. -/
structure Pipeline (γ : Type*) (n m : Nat) where
  decodeFrameQueue : Fifo (DecodedFrame AVFrame) := {}
  processedFrameQueue : Fifo (DecodedFrame AVFrame) := {}
  batchQueue : Fifo PackedBatch := {}
  workers : Fin n → WorkerThread γ := fun _ => {}
  workerStopPc : WorkerStopPc := .running
  batcher : BatcherThread := {}
  publishers : Fin (m + 1) → PublisherThread := fun _ => {}
  publisherStopPc : PublisherStopPc := .running
  accepted : List (DecodedFrame AVFrame) := []
  delivered : List (DecodedFrame AVFrame × DecodedFrame AVFrame) := []
  stored : List PackedBatch := []
  discarded : List PackedBatch := []

namespace Pipeline

variable {γ : Type*} {n m : Nat}

/-! ## The two components -/

/-- `worker_manager`. -/
def worker (s : Pipeline γ n m) : Worker γ n where
  inQueue := s.decodeFrameQueue
  outQueue := s.processedFrameQueue
  accepted := s.accepted
  delivered := s.delivered
  workers := s.workers
  stopPc := s.workerStopPc

/-- The pipeline after a step of `worker_manager`. -/
def setWorker (s : Pipeline γ n m) (w : Worker γ n) : Pipeline γ n m :=
  { s with
    decodeFrameQueue := w.inQueue
    processedFrameQueue := w.outQueue
    workers := w.workers
    workerStopPc := w.stopPc
    accepted := w.accepted
    delivered := w.delivered }

/-- `publisher`, which has accepted what the workers have delivered. -/
def publisher (s : Pipeline γ n m) : Publisher m where
  frameQueue := s.processedFrameQueue
  batchQueue := s.batchQueue
  accepted := s.delivered.map Prod.snd
  stored := s.stored
  discarded := s.discarded
  batcher := s.batcher
  publishers := s.publishers
  stopPc := s.publisherStopPc

/-- The pipeline after a step of `publisher`. -/
def setPublisher (s : Pipeline γ n m) (p : Publisher m) : Pipeline γ n m :=
  { s with
    processedFrameQueue := p.frameQueue
    batchQueue := p.batchQueue
    stored := p.stored
    discarded := p.discarded
    batcher := p.batcher
    publishers := p.publishers
    publisherStopPc := p.stopPc }

@[simp]
theorem worker_setPublisher (s : Pipeline γ n m) (p : Publisher m) :
    (s.setPublisher p).worker = { s.worker with outQueue := p.frameQueue } :=
  rfl

theorem publisher_setPublisher {s : Pipeline γ n m} {p : Publisher m}
    (h : p.accepted = s.delivered.map Prod.snd) : (s.setPublisher p).publisher = p := by
  simp only [publisher, setPublisher, ← h]

theorem publisher_setWorker (s : Pipeline γ n m) (w : Worker γ n) :
    (s.setWorker w).publisher =
      { s.publisher with
        frameQueue := w.outQueue
        accepted := w.delivered.map Prod.snd } :=
  rfl

/-! ## Steps -/

/-- The steps of the threads of the pipeline. -/
inductive Action (n m : Nat) where
  /-- A reader pushes to `decode_frame_queue`. -/
  | accept (frame : DecodedFrame AVFrame)
  | worker (i : Fin n)
  /-- A step of `Worker::stop`. -/
  | stopWorker
  | batcher
  | publisher (k : Fin (m + 1)) (outcome : RedisOutcome)
  /-- A step of `Publisher::stop`. -/
  | stopPublisher

/-- The pipeline with every interleaving of its threads and every behaviour of Redis. -/
def machine (av : Avfilter γ) (dryRun : Bool) (n m : Nat) :
    Machine (Pipeline γ n m) (Action n m) where
  init s := s = {}
  step s
    | .accept frame => ((Worker.machine av n).step s.worker (.accept frame)).map s.setWorker
    | .worker i => ((Worker.machine av n).step s.worker (.worker i)).map s.setWorker
    | .stopWorker => ((Worker.machine av n).step s.worker .stop).map s.setWorker
    | .batcher => ((Publisher.machine dryRun m).step s.publisher .batcher).map s.setPublisher
    | .publisher k outcome =>
        ((Publisher.machine dryRun m).step s.publisher (.publisher k outcome)).map s.setPublisher
    | .stopPublisher => ((Publisher.machine dryRun m).step s.publisher .stop).map s.setPublisher

/-- A push of a worker is accepted by the publisher as a push to its frame queue. -/
theorem publisher_deliver (s : Pipeline γ n m) (frame output : DecodedFrame AVFrame)
    (workers : Fin n → WorkerThread γ) :
    (s.setWorker { s.worker with
      toWorkerQueues := Worker.deliver s.worker.toWorkerQueues frame output
      workers }).publisher =
      { s.publisher with
        toPublisherQueues := Publisher.accept s.publisher.toPublisherQueues output } := by
  rw [publisher_setWorker]
  cases hstopped : s.processedFrameQueue.stopped with
  | true => simp [Worker.deliver, Publisher.accept, worker, publisher, hstopped]
  | false => simp [Worker.deliver, Publisher.accept, worker, publisher, hstopped]

/-! ## A running pipeline -/

/-- Any step but a stop, where Redis stores the entry of a command exactly when it answers
it, and does not answer with an error. -/
def Running (a : Action n m) : Prop :=
  match a with
  | .stopWorker => False
  | .stopPublisher => False
  | .publisher _ outcome => Publisher.Consistent outcome
  | _ => True

/-- The invariant of a running pipeline, whose components keep theirs. -/
structure Flowing (Idle : γ → Prop) (s : Pipeline γ n m) : Prop where
  workersRun : s.workerStopPc = .running
  ledger : Worker.Ledger Idle s.worker
  inFlight : Publisher.InFlight s.publisher
  outputsMade : ∀ i, Worker.OutputsMade (s.workers i)
  madeFrom : ∀ pair ∈ s.delivered, Worker.MadeFrom pair.1 pair.2

theorem flowing_init {Idle : γ → Prop} : Flowing Idle ({} : Pipeline γ n m) where
  workersRun := rfl
  ledger := Worker.ledger_init
  inFlight := Publisher.inFlight_init
  outputsMade _ _ _ hpushing := by cases hpushing
  madeFrom := List.forall_mem_nil _

section Steps

variable {av : Avfilter γ} {Idle : γ → Prop} {s : Pipeline γ n m}

theorem Flowing.work (h : Worker.OneToOne av Idle) (hs : Flowing Idle s) {i : Fin n}
    {q : WorkerQueues} {w : WorkerThread γ}
    (hstep : Worker.threadStep av s.worker.toWorkerQueues (s.workers i) = some (q, w)) :
    Flowing Idle (s.setWorker
      { s.worker with toWorkerQueues := q, workers := Function.update s.workers i w }) := by
  rcases (hs.outputsMade i).threadStep hstep with ⟨hmade, heffect⟩
  have hmades := Pool.forall_update (i := i) Worker.OutputsMade hmade hs.outputsMade
  have hledger := hs.ledger.worker h hstep
  rcases heffect with ⟨hout, hdelivered⟩ | ⟨frame, output, hfrom, rfl⟩
  · refine ⟨hs.workersRun, hledger, ?_, hmades, ?_⟩
    · -- for the publisher nothing has happened
      rw [publisher_setWorker, hout, hdelivered]
      exact hs.inFlight
    · change ∀ pair ∈ q.delivered, _
      rw [hdelivered]
      exact hs.madeFrom
  · refine ⟨hs.workersRun, hledger, ?_, hmades, ?_⟩
    · rw [publisher_deliver]
      exact hs.inFlight.accept output
    · change ∀ pair ∈ (Worker.deliver s.worker.toWorkerQueues frame output).delivered, _
      intro pair hpair
      simp only [Worker.deliver] at hpair
      split at hpair
      · exact hs.madeFrom pair hpair
      · rcases List.mem_append.mp hpair with hpair | hpair
        · exact hs.madeFrom pair hpair
        · rw [List.mem_singleton.mp hpair]
          exact hfrom

/-- What a step of a publisher's thread leaves the workers. -/
theorem Flowing.publish (hs : Flowing Idle s) {p : Publisher m}
    (hinFlight : Publisher.InFlight p) (haccepted : p.accepted = s.publisher.accepted)
    (hstopped : p.frameQueue.stopped = s.processedFrameQueue.stopped) :
    Flowing Idle (s.setPublisher p) := by
  refine ⟨hs.workersRun, ?_, ?_, hs.outputsMade, hs.madeFrom⟩
  · rw [worker_setPublisher]
    exact hs.ledger.consume hstopped
  · rw [publisher_setPublisher haccepted]
    exact hinFlight

/-- Every step of a running pipeline keeps the frames. -/
theorem flowing_step (h : Worker.OneToOne av Idle) (s : Pipeline γ n m) (a : Action n m)
    (s' : Pipeline γ n m) (hs : Flowing Idle s) (ha : Running a)
    (hstep : (machine av false n m).step s a = some s') : Flowing Idle s' := by
  cases a with
  | accept frame =>
      cases hstep
      exact ⟨hs.workersRun, hs.ledger.accept frame, hs.inFlight, hs.outputsMade, hs.madeFrom⟩
  | worker i =>
      rcases Option.map_eq_some_iff.mp hstep with ⟨w, hworker, rfl⟩
      rcases Option.map_eq_some_iff.mp hworker with ⟨⟨q, w⟩, hthread, rfl⟩
      exact hs.work h hthread
  | batcher =>
      rcases Option.map_eq_some_iff.mp hstep with ⟨p, hbatcher, rfl⟩
      rcases Option.map_eq_some_iff.mp hbatcher with ⟨⟨q, t⟩, hthread, rfl⟩
      rcases Publisher.batcherStep_frame hthread with ⟨hstopped, -, haccepted, -, -⟩
      exact hs.publish (hs.inFlight.batch hthread) haccepted hstopped
  | publisher k outcome =>
      rcases Option.map_eq_some_iff.mp hstep with ⟨p, hpublisher, rfl⟩
      rcases Option.map_eq_some_iff.mp hpublisher with ⟨⟨q, t⟩, hthread, rfl⟩
      rcases Publisher.publisherStep_frame hthread with ⟨hframes, -, haccepted, -⟩
      refine hs.publish (hs.inFlight.publisher ha hthread) haccepted ?_
      exact congrArg Fifo.stopped hframes
  | stopWorker => exact absurd ha id
  | stopPublisher => exact absurd ha id

end Steps

/-! ## Where the frames are -/

/-- The accepted frames are each in one place, and published under the stream and event
they were captured with. -/
structure Conserved (redisQueueBaseName : String) (s : Pipeline γ n m) : Prop where
  /-- An accepted frame is in the decode queue or in the hands of a worker, or its output was
  handed on. -/
  captured : (↑s.decodeFrameQueue.queue + Worker.held s.worker + ↑(s.delivered.map Prod.fst) :
    Multiset (DecodedFrame AVFrame)) = ↑s.accepted
  /-- An output handed on is in the processed queue, in the batcher's hand, in an open batch,
  in the batch queue, in the hands of a publisher thread, or in one stored entry. -/
  handedOn : ↑s.processedFrameQueue.queue + Publisher.batcherHand s.batcher +
    Publisher.framesOf s.batchQueue.queue + Publisher.held s.publisher +
      Publisher.framesOf s.stored = ↑(s.delivered.map Prod.snd)
  /-- An output carries the configuration that its frame was captured with. -/
  madeFrom : ∀ source output, (source, output) ∈ s.delivered →
    output.sourceConfig = source.sourceConfig ∧ output.eventConfig = source.eventConfig
  /-- An open batch has frames of its key only. -/
  openBatches : ∀ (key : BatchKey) (batch : PackedBatch),
    s.batcher.currentBatches[key]? = some batch →
      ∀ frame ∈ batch.frames, Publisher.batchKey frame = key
  /-- A batch has frames of its stream and event only. -/
  batches : ∀ batch, batch ∈ s.batchQueue.queue ∨
    (∃ k, Publisher.hand (s.publishers k).pc = some batch) ∨ batch ∈ s.stored → batch.Tagged
  /-- A stored entry has the key of the stream and the name of the event of its frames, and
  their data. -/
  entries : ∀ batch ∈ s.stored, ∀ frame ∈ batch.frames,
    (Publisher.xadd redisQueueBaseName batch.toFrameBatch).key =
        s!"{redisQueueBaseName}:{frame.sourceConfig.id}" ∧
      (Publisher.xadd redisQueueBaseName batch.toFrameBatch).event = frame.eventConfig.name ∧
      (Publisher.xadd redisQueueBaseName batch.toFrameBatch).data =
        batch.frames.flatMap fun frame => Publisher.serializeFrame frame.frame

theorem Flowing.conserved {Idle : γ → Prop} {s : Pipeline γ n m} (hs : Flowing Idle s)
    (redisQueueBaseName : String) : Conserved redisQueueBaseName s := by
  have hbatches : ∀ batch, batch ∈ s.batchQueue.queue ∨
      (∃ k, Publisher.hand (s.publishers k).pc = some batch) ∨ batch ∈ s.stored →
        batch.Tagged := by
    rintro batch (hmem | ⟨k, hhand⟩ | hmem)
    · exact hs.inFlight.queued batch hmem
    · exact hs.inFlight.inHand k batch hhand
    · exact hs.inFlight.stored batch hmem
  constructor
  · have hopen : s.processedFrameQueue.stopped = false := by
      by_contra hstopped
      have hclearing : ∃ progress, s.workerStopPc = .clearing progress :=
        hs.ledger.outStopped.mp (Bool.eq_true_of_not_eq_false hstopped)
      rw [hs.workersRun] at hclearing
      rcases hclearing with ⟨progress, hpc⟩
      cases hpc
    have hbalance : (↑s.decodeFrameQueue.queue + ↑(s.delivered.map Prod.fst) +
        Worker.held s.worker : Multiset (DecodedFrame AVFrame)) = ↑s.accepted :=
      hs.ledger.balance hopen
    rw [← hbalance]
    abel
  · have hbalance : (↑s.processedFrameQueue.queue + Publisher.framesOf s.batchQueue.queue +
        Publisher.framesOf s.stored + Publisher.framesOf s.discarded +
        Publisher.batcherHand s.batcher + Publisher.held s.publisher :
        Multiset (DecodedFrame AVFrame)) = ↑(s.delivered.map Prod.snd) :=
      hs.inFlight.balance
    have hnone : s.discarded = [] := hs.inFlight.noneDiscarded
    rw [← hbalance, hnone, Publisher.framesOf_nil]
    abel
  · intro source output hpair
    have hfrom : output = { source with frame := output.frame } := hs.madeFrom _ hpair
    rw [hfrom]
    exact ⟨rfl, rfl⟩
  · intro key batch hbatch frame hframe
    have hopen := hs.inFlight.batcher.currentBatches key batch hbatch
    exact (hopen.tagged frame hframe).trans hopen.key_eq
  · exact hbatches
  · intro batch hmem frame hframe
    have hkey := hbatches batch (Or.inr (Or.inr hmem)) frame hframe
    have hid : frame.sourceConfig.id = batch.streamId := congrArg Prod.fst hkey
    have hname : frame.eventConfig.name = batch.eventName := congrArg Prod.snd hkey
    refine ⟨?_, hname.symm, batch.packed⟩
    rw [hid]
    rfl

/-- For any number of workers and publisher threads, every interleaving of their steps and
those of the batching thread, and Redis outcomes that are a success, a failed connection
or a missing reply with nothing stored: before any stop, in every state reached, each
accepted frame is in one place, with the tags it was captured with. -/
theorem frames_conserved {av : Avfilter γ} {Idle : γ → Prop} (h : Worker.OneToOne av Idle)
    (redisQueueBaseName : String) {schedule : List (Action n m)}
    (hrunning : ∀ a ∈ schedule, Running a) {s : Pipeline γ n m}
    (hrun : (machine av false n m).exec {} schedule = some s) :
    Conserved redisQueueBaseName s := by
  have hguard := (machine av false n m).meets_of_forall (s := {}) hrunning
  have hflowing := Machine.exec_induction_of_meets (flowing_step h) flowing_init hguard hrun
  exact hflowing.conserved redisQueueBaseName

/-- A small frame of the event `motion` of stream 1. -/
def tinyFrame (pts : Int64) (batchSize : Int32) : DecodedFrame AVFrame where
  frame := { (blackFrame 2 2 2).frame with pts }
  sourceConfig := (blackFrame 2 2 2).sourceConfig
  eventConfig := { id := 1, name := "motion", batchSize }

/-- One frame is batched; its first connection fails, so the batch goes back to the queue,
and then it is stored. -/
def retriedSchedule : List (Action 1 0) :=
  let worker : Action 1 0 := .worker (Fin.last 0)
  let refused : Action 1 0 := .publisher (Fin.last 0) ⟨false, .null false⟩
  let answered : Action 1 0 := .publisher (Fin.last 0) ⟨true, .normal⟩
  [.accept (tinyFrame 1 1), worker, worker, worker, worker, .batcher, .batcher, .batcher,
    refused, refused, refused, refused, refused, answered, answered, answered, answered]

/-- The frame of that run is in the stored entry and nowhere else. -/
theorem frames_conserved_retried :
    ∃ s, (machine Worker.passThrough false 1 0).exec {} retriedSchedule = some s ∧
      s.stored.length = 1 ∧ s.batchQueue.totalPushed = 2 ∧ Conserved "frames" s := by
  have hrun : ∃ s, (machine Worker.passThrough false 1 0).exec {} retriedSchedule = some s ∧
      s.stored.length = 1 ∧ s.batchQueue.totalPushed = 2 :=
    ⟨_, rfl, rfl, rfl⟩
  have hrunning : ∀ a ∈ retriedSchedule, Running a := by
    simp [retriedSchedule, Running, Publisher.Consistent]
  rcases hrun with ⟨s, hexec, hstored, hpushed⟩
  exact ⟨s, hexec, hstored, hpushed,
    frames_conserved Worker.passThrough_oneToOne "frames" hrunning hexec⟩

end Pipeline

end FrameProcessor
