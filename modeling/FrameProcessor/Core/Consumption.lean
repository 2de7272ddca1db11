import FrameProcessor.Core.Flow
import FrameProcessor.Foundations.Consumers
import FrameProcessor.Publisher.Termination
import FrameProcessor.Worker.Termination

/-!
# core/main - The consumers of the three queues

The pipeline has three queues, and each is emptied by its own threads: the workers take decoded
frames, the batching thread processed ones, and the publisher threads batches.  A worker is done
with a frame when it has delivered its output, the batching thread when it has packed it, and a
publisher thread with a batch when Redis has stored it.

Main results:

- Theorems `Worker.threadStep_consumes`, `Publisher.batcherStep_consumes` and
  `Publisher.publisherStep_consumes`: a step of each kind of thread is a pop, or brings it nearer to
  the next one.
- Theorems `Pipeline.decoding_serves`, `Pipeline.batching_serves` and
  `Pipeline.publishing_serves`: the threads of each queue are its consumers.
-/

namespace FrameProcessor

/-! ## One step of a consumer -/

namespace Worker

variable {γ : Type*} {av : Avfilter γ} {Idle : γ → Prop}

/-- What has been delivered stays so. -/
theorem threadStep_delivered_le {q q' : WorkerQueues} {w w' : WorkerThread γ}
    (h : threadStep av q w = some (q', w')) :
    (↑(q.delivered.map Prod.fst) : Multiset (DecodedFrame AVFrame)) ≤
      ↑(q'.delivered.map Prod.fst) := by
  rcases threadStep_delivers h with ⟨-, hdelivered⟩ | ⟨frame, output, rfl⟩
  · rw [hdelivered]
  · simp only [deliver]
    split
    · exact le_rfl
    · rw [List.map_append, ← Multiset.coe_add]
      exact Multiset.le_add_right _ _

/-- A step of a worker thread is a pop, or brings it nearer to the next one. -/
theorem threadStep_consumes (h : OneToOne av Idle) {q q' : WorkerQueues} {w w' : WorkerThread γ}
    (hsound : Sound Idle w) (hopen : q.outQueue.stopped = false)
    (hstep : threadStep av q w = some (q', w')) :
    (q'.inQueue.queue = q.inQueue.queue ∧ threadWork w' < threadWork w ∧
      hand w'.pc + ↑(q'.delivered.map Prod.fst) = hand w.pc + ↑(q.delivered.map Prod.fst)) ∨
    ∃ frame, q.inQueue.queue = frame :: q'.inQueue.queue ∧ hand w.pc = 0 ∧
      hand w'.pc = {frame} := by
  have hwork := threadStep_work hstep
  have hbalance := threadStep_balance h hsound hopen hstep
  have hstays : q'.inQueue.queue = q.inQueue.queue → threadWork w' < threadWork w ∧
      hand w'.pc + ↑(q'.delivered.map Prod.fst) = hand w.pc + ↑(q.delivered.map Prod.fst) := by
    intro hqueue
    rw [hqueue] at hwork
    simp only [settled, hqueue, add_assoc] at hbalance
    refine ⟨by omega, ?_⟩
    rw [add_comm, add_comm (hand w.pc)]
    exact add_left_cancel hbalance
  rcases threadStep_cases hstep with ⟨rfl, -⟩ | ⟨frame, rest, hpc, hqueue, -, rfl, rfl⟩ |
    ⟨frame, -, rfl, -⟩ | ⟨frame, output, outputs, -, rfl, -⟩
  · exact Or.inl ⟨rfl, hstays rfl⟩
  · exact Or.inr ⟨frame, hqueue, by simp [hpc, hand], rfl⟩
  · exact Or.inl ⟨rfl, hstays rfl⟩
  · exact Or.inl ⟨rfl, hstays rfl⟩

end Worker

namespace Publisher

variable {n : Nat}

/-- The frame that the batching thread has popped. -/
def poppedFrame (t : BatcherThread) : Multiset (DecodedFrame AVFrame) :=
  match t.pc with
  | .holding frame => {frame}
  | _ => 0

/-- The steps of the batching thread until it pops again. -/
def batcherTurn (t : BatcherThread) : Nat :=
  match t.pc with
  | .loopHead => 2
  | .popping => 1
  | .holding _ => 3
  | .flushing _ => 0
  | .done => 0

/-- In its loop, the batching thread holds the open batches and the frame it has popped. -/
theorem BatcherInLoop.batcherHand_eq {t : BatcherThread} (ht : BatcherInLoop t) :
    batcherHand t = poppedFrame t + openFrames t.currentBatches := by
  rcases ht.running with hpc | hpc | ⟨frame, hpc⟩ <;> simp [batcherHand, poppedFrame, hpc]

/-- A step of the batching thread is a pop, or brings it nearer to the next one. -/
theorem batcherStep_consumes {q q' : PublisherQueues} {t t' : BatcherThread}
    (ht : BatcherInLoop t) (hframes : q.frameQueue.stopped = false)
    (hbatches : q.batchQueue.stopped = false) (hstep : batcherStep q t = some (q', t')) :
    openFrames t.currentBatches + framesOf q.batchQueue.queue ≤
        openFrames t'.currentBatches + framesOf q'.batchQueue.queue ∧
      ((q'.frameQueue.queue = q.frameQueue.queue ∧ batcherTurn t' < batcherTurn t ∧
        poppedFrame t' + (openFrames t'.currentBatches + framesOf q'.batchQueue.queue) =
          poppedFrame t + (openFrames t.currentBatches + framesOf q.batchQueue.queue)) ∨
      ∃ frame, q.frameQueue.queue = frame :: q'.frameQueue.queue ∧ poppedFrame t = 0 ∧
        poppedFrame t' = {frame}) := by
  have hin := ht.step hframes hstep
  cases batcherStep_moves hstep with
  | leave hpc htoken | ended hpc hempty hstopped | finish hpc =>
      rcases hin.running with hrunning | hrunning | ⟨frame, hrunning⟩ <;> cases hrunning
  | flush batch batches hpc =>
      rcases ht.running with hrunning | hrunning | ⟨frame, hrunning⟩ <;>
        · rw [hrunning] at hpc
          cases hpc
  | wait hpc htoken =>
      exact ⟨le_rfl, Or.inl ⟨rfl, by simp [batcherTurn, hpc], by simp [poppedFrame, hpc]⟩⟩
  | pop frame rest hpc hqueue hstopped =>
      exact ⟨le_rfl, Or.inr ⟨frame, hqueue, by simp [poppedFrame, hpc], rfl⟩⟩
  | batch frame hpc =>
      have hbatch := batchFrame_frames t.currentBatches frame
      have hmoved : openFrames (batchFrame t.currentBatches frame).1 +
          framesOf ((batchFrame t.currentBatches frame).2.elim q (pushBatch q)).batchQueue.queue =
            {frame} + (openFrames t.currentBatches + framesOf q.batchQueue.queue) := by
        rw [← add_assoc, add_comm ({frame} : Multiset (DecodedFrame AVFrame)), ← hbatch]
        cases (batchFrame t.currentBatches frame).2 with
        | none => simp
        | some batch =>
            simp only [Option.elim_some, pushBatch, Fifo.push_queue_of_not_stopped hbatches,
              framesOf_append, framesOf_cons, framesOf_nil, Option.toList_some]
            abel
      have hqueue : ((batchFrame t.currentBatches frame).2.elim q (pushBatch q)).frameQueue =
          q.frameQueue := by
        cases (batchFrame t.currentBatches frame).2 <;> rfl
      refine ⟨?_, Or.inl ⟨by rw [hqueue], by simp [batcherTurn, hpc], ?_⟩⟩
      · rw [hmoved]
        exact le_add_of_nonneg_left (Multiset.zero_le _)
      · simpa [poppedFrame, hpc] using hmoved

/-- What Redis does while it can be reached. -/
def answered : RedisOutcome :=
  ⟨true, .normal⟩

/-- A publisher thread that has not failed to send its batch. -/
def KeepsBatch (t : PublisherThread) : Prop :=
  ∀ batch, t.pc ≠ .requeueing batch

/-- As long as Redis answers, no thread gets a batch to put back. -/
theorem publisherStep_keepsBatch {q q' : PublisherQueues} {t t' : PublisherThread}
    (hstep : publisherStep false answered q t = some (q', t')) : KeepsBatch t' := by
  intro batch hpc
  cases publisherStep_moves hstep with
  | refused _ _ _ _ houtcome => cases houtcome
  | unanswered _ _ _ houtcome => cases houtcome
  | start | leave | wait | ended | pop | giveUp | connected | store | requeue => cases hpc

/-- As long as Redis answers, a step of a publisher thread gives nothing up and takes nothing
out of the stream; a thread that has no batch to put back pops, or comes nearer to its next
pop. -/
theorem publisherStep_consumes {q q' : PublisherQueues} {t t' : PublisherThread}
    (hopen : q.batchQueue.stopped = false)
    (hstep : publisherStep false answered q t = some (q', t')) :
    q'.discarded = q.discarded ∧ (↑q.stored : Multiset PackedBatch) ≤ ↑q'.stored ∧
      (KeepsBatch t →
        (q'.batchQueue.queue = q.batchQueue.queue ∧ publisherWork t' < publisherWork t ∧
          (↑(hand t'.pc).toList + ↑q'.stored : Multiset PackedBatch) =
            ↑(hand t.pc).toList + ↑q.stored) ∨
        ∃ batch, q.batchQueue.queue = batch :: q'.batchQueue.queue ∧ hand t.pc = none ∧
          hand t'.pc = some batch) := by
  cases publisherStep_moves hstep with
  | start hpc | leave hpc | wait hpc | connected _ _ hpc =>
      refine ⟨rfl, le_rfl, fun _ => Or.inl ⟨rfl, ?_, ?_⟩⟩
      · simp [publisherWork, hpc]
      · simp [hand, hpc]
  | ended hpc hempty hstopped =>
      rw [hopen] at hstopped
      cases hstopped
  | pop batch rest hpc hqueue hstopped =>
      exact ⟨rfl, le_rfl, fun _ => Or.inr ⟨batch, hqueue, by simp [hand, hpc], rfl⟩⟩
  | giveUp batch hhand hwhy =>
      rcases hwhy with ⟨hdry, -⟩ | ⟨herror, -⟩ | ⟨hstopped, -⟩
      · cases hdry
      · cases herror
      · rw [hopen] at hstopped
        cases hstopped
  | refused batch redisConn hpc hdry houtcome => cases houtcome
  | unanswered batch stored hpc houtcome => cases houtcome
  | store batch hpc houtcome =>
      have hstored : (↑(Publisher.store q batch).stored : Multiset PackedBatch) =
          {batch} + ↑q.stored := by
        simp only [Publisher.store, ← Multiset.coe_add, Multiset.coe_singleton]
        exact add_comm _ _
      refine ⟨rfl, ?_, fun _ => Or.inl ⟨rfl, ?_, ?_⟩⟩
      · rw [hstored]
        exact le_add_of_nonneg_left (Multiset.zero_le _)
      · simp [publisherWork, hpc]
      · rw [hstored]
        simp [hand, hpc]
  | requeue batch hpc hopen' => exact ⟨rfl, le_rfl, fun hkeeps => absurd hpc (hkeeps batch)⟩

/-! ## The frames of batches -/

/-- The frames of a collection of batches. -/
def framesIn : Multiset PackedBatch →+ Multiset (DecodedFrame AVFrame) where
  toFun batches := batches.bind fun batch => ↑batch.frames
  map_zero' := Multiset.zero_bind _
  map_add' _ _ := Multiset.add_bind _ _ _

@[simp]
theorem framesIn_coe (batches : List PackedBatch) : framesIn ↑batches = framesOf batches :=
  Multiset.coe_bind _ _

theorem framesIn_le {batches batches' : Multiset PackedBatch} (h : batches ≤ batches') :
    framesIn batches ≤ framesIn batches' := by
  rcases Multiset.le_iff_exists_add.mp h with ⟨rest, rfl⟩
  rw [map_add]
  exact Multiset.le_add_right _ _

/-- The frames that are on their way to Redis, or there. -/
def inTransit (p : Publisher n) : Multiset (DecodedFrame AVFrame) :=
  framesOf p.batchQueue.queue + held p + framesOf p.stored

/-- The frames that the batching thread has packed: in an open batch, on their way to Redis, or
given up. -/
def packed (p : Publisher n) : Multiset (DecodedFrame AVFrame) :=
  openFrames p.batcher.currentBatches + inTransit p + framesOf p.discarded

/-- While the batching thread is in its loop, what is not packed is in its queue or its hand. -/
theorem packed_balance {p : Publisher n} (hloop : BatcherInLoop p.batcher) :
    settled p.toPublisherQueues + batcherHand p.batcher + held p =
      ↑p.frameQueue.queue + poppedFrame p.batcher + packed p := by
  rw [hloop.batcherHand_eq]
  simp only [settled, packed, inTransit]
  abel

/-- The batching thread packs the frame that it has popped. -/
theorem batcher_packs {p : Publisher n} {q : PublisherQueues} {t : BatcherThread}
    (hloop : BatcherInLoop p.batcher) (hframes : p.frameQueue.stopped = false)
    (hbatches : p.batchQueue.stopped = false)
    (hstep : batcherStep p.toPublisherQueues p.batcher = some (q, t)) :
    packed p ≤ packed { p with toPublisherQueues := q, batcher := t } ∧
      inTransit p ≤ inTransit { p with toPublisherQueues := q, batcher := t } ∧
      ((q.frameQueue.queue = p.frameQueue.queue ∧ batcherTurn t < batcherTurn p.batcher ∧
        poppedFrame t + packed { p with toPublisherQueues := q, batcher := t } =
          poppedFrame p.batcher + packed p) ∨
      ∃ frame, p.frameQueue.queue = frame :: q.frameQueue.queue ∧ poppedFrame p.batcher = 0 ∧
        poppedFrame t = {frame}) := by
  have hstored := (batcherStep_pushes hstep).2
  have hdiscarded := (batcherStep_frame hstep).2.2.2.1
  rcases batcherStep_consumes hloop hframes hbatches hstep with ⟨hmoved, hmoves⟩
  -- what of the packed frames the batching thread does not touch
  let rest := held p + framesOf p.stored + framesOf p.discarded
  have hbefore : packed p =
      openFrames p.batcher.currentBatches + framesOf p.batchQueue.queue + rest := by
    simp only [packed, inTransit, rest]
    abel
  have hafter : packed { p with toPublisherQueues := q, batcher := t } =
      openFrames t.currentBatches + framesOf q.batchQueue.queue + rest := by
    simp only [packed, inTransit, hstored, hdiscarded, rest]
    change openFrames t.currentBatches + (framesOf q.batchQueue.queue + held p +
      framesOf p.stored) + framesOf p.discarded = _
    abel
  refine ⟨?_, ?_, hmoves.imp (fun hworks => ⟨hworks.1, hworks.2.1, ?_⟩) id⟩
  · rw [hbefore, hafter]
    exact add_le_add_left hmoved rest
  · have hgrows : framesOf p.batchQueue.queue ≤ framesOf q.batchQueue.queue := by
      rw [(batcherStep_pushes hstep).1]
      cases pushesNext p.batcher with
      | none => exact le_rfl
      | some batch =>
          rw [Option.elim_some, Fifo.push_queue_of_not_stopped hbatches, framesOf_append]
          exact Multiset.le_add_right _ _
    simp only [inTransit, hstored]
    exact add_le_add_left (add_le_add_left hgrows _) _
  · rw [hbefore, hafter, ← add_assoc, ← add_assoc, hworks.2.2, add_assoc, add_assoc]

/-- A publisher thread only moves batches, as long as Redis answers. -/
theorem publisher_keeps {p : Publisher n} {k : Fin (n + 1)} {q : PublisherQueues}
    {t : PublisherThread} (hopen : p.batchQueue.stopped = false)
    (hstep : publisherStep false answered p.toPublisherQueues (p.publishers k) = some (q, t)) :
    inTransit { p with toPublisherQueues := q, publishers := Function.update p.publishers k t } =
        inTransit p ∧
      packed { p with toPublisherQueues := q, publishers := Function.update p.publishers k t } =
        packed p := by
  have hbalance := publisher_balance (s := p) (k := k) (t := t)
    (publisherStep_balance (by simp [answered]) hstep)
  have hframes := (publisherStep_frame hstep).1
  have hdiscarded := (publisherStep_consumes hopen hstep).1
  have htransit : inTransit { p with
      toPublisherQueues := q
      publishers := Function.update p.publishers k t } = inTransit p := by
    simp only [settled, hframes, hdiscarded] at hbalance
    refine add_left_cancel (a := ↑p.frameQueue.queue + framesOf p.discarded +
      batcherHand p.batcher) ?_
    unfold inTransit
    refine Eq.trans ?_ (hbalance.trans ?_) <;> abel
  refine ⟨htransit, ?_⟩
  unfold packed
  rw [htransit, hdiscarded]

end Publisher

/-! ## The threads of the pipeline -/

namespace Pipeline

variable {γ : Type*} {n m : Nat}

/-- The threads that move frames and the main thread, which stops them; the readers are the
environment. -/
inductive PipelineThread (n m : Nat) where
  | worker (i : Fin n)
  | batcher
  | publisher (k : Fin (m + 1))
  | main

/-- The thread that an action belongs to. -/
def owner : Action n m → Option (PipelineThread n m)
  | .worker i => some (.worker i)
  | .batcher => some .batcher
  | .publisher k _ => some (.publisher k)
  | .stopWorker => some .main
  | .stopPublisher => some .main
  | .accept _ => none

/-- Nothing is stopped, and Redis answers. -/
def Serving (a : Action n m) : Prop :=
  match a with
  | .stopWorker => False
  | .stopPublisher => False
  | .publisher _ outcome => outcome = Publisher.answered
  | _ => True

instance : DecidablePred (Serving (n := n) (m := m)) := fun a =>
  match a with
  | .accept _ | .worker _ | .batcher => .isTrue trivial
  | .stopWorker | .stopPublisher => .isFalse id
  | .publisher _ outcome => decEq outcome Publisher.answered

/-- The pipeline while Redis answers and nothing is stopped. -/
def servingMachine (av : Avfilter γ) (n m : Nat) : Machine (Pipeline γ n m) (Action n m) :=
  (machine av false n m).restrict fun _ a => Serving a

variable {av : Avfilter γ} {Idle : γ → Prop} {s s' : Pipeline γ n m}

/-- Everything a step can do while Redis answers and nothing is stopped. -/
inductive ServingSteps (av : Avfilter γ) (s : Pipeline γ n m) :
    Action n m → Pipeline γ n m → Prop where
  | accept (frame : DecodedFrame AVFrame) :
      ServingSteps av s (.accept frame) (s.setWorker
        { s.worker with toWorkerQueues := Worker.accept s.worker.toWorkerQueues frame })
  | worker (i : Fin n) (q : WorkerQueues) (w : WorkerThread γ)
      (hthread : Worker.threadStep av s.worker.toWorkerQueues (s.workers i) = some (q, w)) :
      ServingSteps av s (.worker i) (s.setWorker
        { s.worker with toWorkerQueues := q, workers := Function.update s.workers i w })
  | batcher (q : PublisherQueues) (t : BatcherThread)
      (hthread : Publisher.batcherStep s.publisher.toPublisherQueues s.batcher = some (q, t)) :
      ServingSteps av s .batcher
        (s.setPublisher { s.publisher with toPublisherQueues := q, batcher := t })
  | publisher (k : Fin (m + 1)) (q : PublisherQueues) (t : PublisherThread)
      (hthread : Publisher.publisherStep false Publisher.answered s.publisher.toPublisherQueues
        (s.publishers k) = some (q, t)) :
      ServingSteps av s (.publisher k Publisher.answered) (s.setPublisher
        { s.publisher with
          toPublisherQueues := q
          publishers := Function.update s.publishers k t })

theorem servingMachine_steps {a : Action n m} (h : (servingMachine av n m).step s a = some s') :
    ServingSteps av s a s' := by
  rcases Machine.restrict_step.mp h with ⟨hserving, hstep⟩
  cases machine_steps hstep with
  | accept frame => exact .accept frame
  | worker i q w hthread => exact .worker i q w hthread
  | batcher q t hthread => exact .batcher q t hthread
  | publisher k outcome q t hthread =>
      cases hserving
      exact .publisher k q t hthread
  | stopWorker | stopPublisher => exact absurd hserving id

theorem servingMachine_unstopped (h : Worker.OneToOne av Idle) (s : Pipeline γ n m)
    (a : Action n m) (s' : Pipeline γ n m) (hs : Unstopped Idle s)
    (hstep : (servingMachine av n m).step s a = some s') : Unstopped Idle s' := by
  rcases Machine.restrict_step.mp hstep with ⟨hserving, hstep⟩
  refine unstopped_step h s a s' hs ?_ hstep
  cases a with
  | accept | worker | batcher | publisher => trivial
  | stopWorker | stopPublisher => exact hserving

/-! ## Decoded frames -/

/-- The workers as consumers of `decode_frame_queue`. -/
def decoding (γ : Type*) (n m : Nat) :
    Consumers (Pipeline γ n m) (PipelineThread n m) (Fin n) (DecodedFrame AVFrame) :=
  .ofPool .worker (fun _ _ => PipelineThread.worker.inj) (fun s => s.decodeFrameQueue.queue)
    (fun s => s.workers) (fun w => Worker.hand w.pc) (fun s => ↑(s.delivered.map Prod.fst))
    Worker.threadWork

theorem decoding_moves (h : Worker.OneToOne av Idle) (hs : Unstopped Idle s) {a : Action n m}
    (hstep : (servingMachine av n m).step s a = some s') :
    (decoding γ n m).Moves s (owner a) s' := by
  cases servingMachine_steps hstep with
  | accept frame =>
      refine .pushes [frame] (fun k => nofun) ?_ (fun _ => rfl) (fun _ => rfl) le_rfl
      exact Fifo.push_queue_of_not_stopped hs.decodeOpen frame
  | worker i q w hthread =>
      have hdelivered := Worker.threadStep_delivered_le hthread
      have hopen : s.worker.outQueue.stopped = false := hs.processedOpen
      rcases Worker.threadStep_consumes h (hs.ledger.sound i) hopen hthread with
        ⟨hqueue, hwork, hkept⟩ | ⟨frame, hqueue, hempty, hpopped⟩
      · exact .works_of_update i rfl hqueue hwork hdelivered hkept
      · exact .pops_of_update i frame rfl hqueue hempty hpopped hdelivered
  | batcher q t hthread =>
      exact .of_same (fun _ => nofun) rfl (fun _ => rfl) (fun _ => rfl) le_rfl
  | publisher k q t hthread =>
      exact .of_same (fun _ => nofun) rfl (fun _ => rfl) (fun _ => rfl) le_rfl

theorem decoding_serves (h : Worker.OneToOne av Idle) :
    (decoding γ n m).Serves (servingMachine av n m) owner (Unstopped Idle) where
  invariant := servingMachine_unstopped h
  moves _ _ _ hs hstep := decoding_moves h hs hstep
  canStep s i hs hsome := by
    have hthread : (Worker.threadStep av s.worker.toWorkerQueues (s.workers i)).isSome = true :=
      (hs.workers i).threadStep_isSome hsome
    refine .restrict (.worker i) rfl trivial ?_
    simpa [machine, Worker.machine, worker] using hthread

/-! ## Processed frames -/

/-- The batching thread as the consumer of `processed_frame_queue`. -/
def batching (γ : Type*) (n m : Nat) :
    Consumers (Pipeline γ n m) (PipelineThread n m) Unit (DecodedFrame AVFrame) :=
  .ofPool (fun _ => .batcher) (fun _ _ _ => rfl) (fun s => s.processedFrameQueue.queue)
    (fun s _ => s.batcher) Publisher.poppedFrame (fun s => Publisher.packed s.publisher)
    Publisher.batcherTurn

/-- A worker pushes a frame to `processed_frame_queue`, or nothing. -/
theorem work_pushes (hs : Unstopped Idle s) {i : Fin n} {q : WorkerQueues} {w : WorkerThread γ}
    (hthread : Worker.threadStep av s.worker.toWorkerQueues (s.workers i) = some (q, w)) :
    ∃ added, q.outQueue.queue = s.processedFrameQueue.queue ++ added := by
  rcases Worker.threadStep_delivers hthread with ⟨hout, -⟩ | ⟨frame, output, rfl⟩
  · rw [hout]
    exact ⟨[], (List.append_nil _).symm⟩
  · exact ⟨[output], Fifo.push_queue_of_not_stopped hs.processedOpen output⟩

theorem batching_moves (hs : Unstopped Idle s) {a : Action n m}
    (hstep : (servingMachine av n m).step s a = some s') :
    (batching γ n m).Moves s (owner a) s' := by
  cases servingMachine_steps hstep with
  | accept frame =>
      exact .of_same (fun _ => nofun) rfl (fun _ => rfl) (fun _ => rfl) le_rfl
  | worker i q w hthread =>
      rcases work_pushes hs hthread with ⟨added, hadded⟩
      exact .pushes added (fun k => nofun) hadded (fun _ => rfl) (fun _ => rfl) le_rfl
  | batcher q t hthread =>
      have hframes : s.publisher.frameQueue.stopped = false := hs.processedOpen
      have hbatches : s.publisher.batchQueue.stopped = false := hs.batchesOpen
      rcases Publisher.batcher_packs hs.batcher hframes hbatches hthread with
        ⟨hpacked, -, ⟨hqueue, hwork, hkept⟩ | ⟨frame, hqueue, hempty, hpopped⟩⟩
      · exact .works_of_update () (funext fun _ => rfl) hqueue hwork hpacked hkept
      · exact .pops_of_update () frame (funext fun _ => rfl) hqueue hempty hpopped hpacked
  | publisher k q t hthread =>
      have hbatches : s.publisher.batchQueue.stopped = false := hs.batchesOpen
      have hframes := (Publisher.publisherStep_frame hthread).1
      refine .pushes [] (fun k => nofun) ?_ (fun _ => rfl) (fun _ => rfl) ?_
      · rw [List.append_nil]
        exact congrArg Fifo.queue hframes
      · exact (Publisher.publisher_keeps hbatches hthread).2.ge

theorem batching_serves (h : Worker.OneToOne av Idle) :
    (batching γ n m).Serves (servingMachine av n m) owner (Unstopped Idle) where
  invariant := servingMachine_unstopped h
  moves _ _ _ hs hstep := batching_moves hs hstep
  canStep s _ hs hsome := by
    have hthread :
        (Publisher.batcherStep s.publisher.toPublisherQueues s.batcher).isSome = true := by
      refine hs.batcher.batcherStep_isSome (hsome.imp id fun hholds hpc => hholds ?_)
      simp [batching, Consumers.ofPool, Publisher.poppedFrame, hpc]
    refine .restrict .batcher rfl trivial ?_
    simpa [machine, Publisher.machine, publisher] using hthread

/-! ## Batches -/

/-- Nothing is stopped, and no publisher thread has a batch to put back. -/
def Settled (Idle : γ → Prop) (s : Pipeline γ n m) : Prop :=
  Unstopped Idle s ∧ ∀ k, Publisher.KeepsBatch (s.publishers k)

/-- The publisher threads as consumers of `batch_queue_`. -/
def publishing (γ : Type*) (n m : Nat) :
    Consumers (Pipeline γ n m) (PipelineThread n m) (Fin (m + 1)) Publisher.PackedBatch :=
  .ofPool .publisher (fun _ _ => PipelineThread.publisher.inj) (fun s => s.batchQueue.queue)
    (fun s => s.publishers) (fun t => ↑(Publisher.hand t.pc).toList) (fun s => ↑s.stored)
    Publisher.publisherWork

/-- The batching thread pushes a batch to `batch_queue_`, or nothing. -/
theorem batcher_pushes (hs : Unstopped Idle s) {q : PublisherQueues} {t : BatcherThread}
    (hthread : Publisher.batcherStep s.publisher.toPublisherQueues s.batcher = some (q, t)) :
    ∃ added, q.batchQueue.queue = s.batchQueue.queue ++ added := by
  rw [(Publisher.batcherStep_pushes hthread).1]
  cases Publisher.pushesNext s.batcher with
  | none => exact ⟨[], (List.append_nil _).symm⟩
  | some batch => exact ⟨[batch], Fifo.push_queue_of_not_stopped hs.batchesOpen batch⟩

theorem publishing_moves (hs : Settled Idle s) {a : Action n m}
    (hstep : (servingMachine av n m).step s a = some s') :
    (publishing γ n m).Moves s (owner a) s' := by
  cases servingMachine_steps hstep with
  | accept frame =>
      exact .of_same (fun _ => nofun) rfl (fun _ => rfl) (fun _ => rfl) le_rfl
  | worker i q w hthread =>
      exact .of_same (fun _ => nofun) rfl (fun _ => rfl) (fun _ => rfl) le_rfl
  | batcher q t hthread =>
      rcases batcher_pushes hs.1 hthread with ⟨added, hadded⟩
      have hstored : q.stored = s.stored := (Publisher.batcherStep_pushes hthread).2
      refine .pushes added (fun k => nofun) hadded (fun _ => rfl) (fun _ => rfl) ?_
      exact (congrArg Multiset.ofList hstored).ge
  | publisher k q t hthread =>
      have hbatches : s.publisher.batchQueue.stopped = false := hs.1.batchesOpen
      rcases Publisher.publisherStep_consumes hbatches hthread with ⟨-, hstored, hmoves⟩
      rcases hmoves (hs.2 k) with ⟨hqueue, hwork, hkept⟩ | ⟨batch, hqueue, hempty, hpopped⟩
      · exact .works_of_update k rfl hqueue hwork hstored hkept
      · refine .pops_of_update k batch rfl hqueue ?_ ?_ hstored
        · rw [hempty, Option.toList_none, Multiset.coe_nil]
        · rw [hpopped, Option.toList_some, Multiset.coe_singleton]

/-- As long as Redis answers, a thread that has taken a step has no batch to put back. -/
theorem keepsBatch_step {a : Action n m}
    (hstep : (servingMachine av n m).step s a = some s') (k : Fin (m + 1))
    (hk : owner a = some (.publisher k) ∨ Publisher.KeepsBatch (s.publishers k)) :
    Publisher.KeepsBatch (s'.publishers k) := by
  cases servingMachine_steps hstep with
  | accept frame => exact hk.resolve_left nofun
  | worker i q w hthread => exact hk.resolve_left nofun
  | batcher q t hthread => exact hk.resolve_left nofun
  | publisher j q t hthread =>
      change Publisher.KeepsBatch (Function.update s.publishers j t k)
      by_cases hj : k = j
      · rw [hj, Function.update_self]
        exact Publisher.publisherStep_keepsBatch hthread
      · rw [Function.update_of_ne hj]
        refine hk.resolve_left fun howner => hj ?_
        cases howner
        rfl

/-- A publisher thread in its loop is able to step unless it waits for a batch. -/
theorem publisher_canStep (hs : Unstopped Idle s) {k : Fin (m + 1)}
    (hsome : s.batchQueue.queue ≠ [] ∨ Publisher.hand (s.publishers k).pc ≠ none) :
    (servingMachine av n m).CanStep owner (.publisher k) s := by
  have hthread : (Publisher.publisherStep false Publisher.answered s.publisher.toPublisherQueues
      (s.publishers k)).isSome = true :=
    (hs.publishers k).publisherStep_isSome Publisher.answered hsome
  refine .restrict (.publisher k Publisher.answered) rfl rfl ?_
  simpa [machine, Publisher.machine, publisher] using hthread

theorem publishing_serves (h : Worker.OneToOne av Idle) :
    (publishing γ n m).Serves (servingMachine av n m) owner (Settled Idle) where
  invariant s a s' hs hstep :=
    ⟨servingMachine_unstopped h s a s' hs.1 hstep,
      fun k => keepsBatch_step hstep k (Or.inr (hs.2 k))⟩
  moves _ _ _ hs hstep := publishing_moves hs hstep
  canStep s k hs hsome := by
    refine publisher_canStep hs.1 (hsome.imp id fun hholds hnone => hholds ?_)
    simp [publishing, Consumers.ofPool, hnone]

end Pipeline

end FrameProcessor
