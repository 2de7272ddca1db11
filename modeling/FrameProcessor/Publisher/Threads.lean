import FrameProcessor.Foundations.Machine
import FrameProcessor.Foundations.Pool
import FrameProcessor.Foundations.Teardown
import FrameProcessor.Utils.Fifo
import FrameProcessor.Publisher.Batching

/-!
# components/publisher - The publisher's threads

The batching thread, the publisher threads with their Redis connections, the two queues
and the thread that calls `Publisher::stop`, as one machine.  Each action is one atomic
step of one thread; a step of a publisher thread carries what Redis would answer to it.
The constructor starts the threads only when a Redis host is configured, and at least
one publisher thread; this is the machine of a publisher that is enabled.

Main results:

- Theorems `Publisher.batcherStep_moves`, `Publisher.publisherStep_moves` and
  `Publisher.stopStep_moves`: everything a step of each kind of thread can do.
- Theorems `Publisher.publisherStep_balance` and `Publisher.batcherStep_balance`: frames only
  move between the queues, the threads' hands, Redis and the discarded batches.
-/

namespace FrameProcessor

/-! ## Redis -/

/-- The reply of `redisCommand`.  Without a reply the command may have been executed or
not; an error reply is an ordinary reply whose type is `REDIS_REPLY_ERROR`, and the entry
is not stored. -/
inductive RedisReply where
  | null (stored : Bool)
  | error
  | normal
deriving DecidableEq

/-- What Redis does if a thread connects or sends a command next. -/
structure RedisOutcome where
  connects : Bool
  reply : RedisReply
deriving DecidableEq

/-- `redis_conn`: a null pointer, or a `RedisConnection` without or with a context. -/
inductive RedisConn where
  | null
  | invalid
  | valid
deriving DecidableEq

/-- The constructor of `RedisConnection`, which frees the context of a failed attempt. -/
def RedisConn.connect (connects : Bool) : RedisConn :=
  if connects then .valid else .invalid

/-- An entry of a Redis stream as `XADD` writes it. -/
structure RedisEntry where
  key : String
  event : String
  data : Bytes
deriving DecidableEq

/-! ## Threads -/

/-- Where the batching thread is in `batching_loop`. -/
inductive BatcherPc where
  /-- About to test the stop token. -/
  | loopHead
  /-- In `wait_and_pop`. -/
  | popping
  /-- Has popped the frame. -/
  | holding (frame : DecodedFrame AVFrame)
  /-- Has left the loop; the partial batches still to be pushed. -/
  | flushing (batches : List Publisher.PackedBatch)
  | done

/-- The batching thread with its stop token and its open batches. -/
structure BatcherThread where
  pc : BatcherPc := .loopHead
  stopRequested : Bool := false
  currentBatches : Publisher.CurrentBatches := ∅

/-- Where a publisher thread is in `publisher_loop`. -/
inductive PublisherPc where
  /-- About to connect for the first time. -/
  | starting
  /-- About to test the stop token. -/
  | loopHead
  /-- In `wait_and_pop`. -/
  | popping
  /-- Has popped the batch. -/
  | popped (batch : Publisher.PackedBatch)
  /-- Has a valid connection for the batch. -/
  | sending (batch : Publisher.PackedBatch)
  /-- About to push the batch back. -/
  | requeueing (batch : Publisher.PackedBatch)
  | done

/-- What happens to the batches of a publisher thread. -/
inductive PublisherEvent where
  | popped (batch : Publisher.PackedBatch)
  /-- The batch's `XADD` got a normal reply. -/
  | stored (batch : Publisher.PackedBatch)
  /-- `batch_queue_` has accepted the batch again. -/
  | requeued (batch : Publisher.PackedBatch)

/-- A publisher thread with its stop token, its connection and its events so far. -/
structure PublisherThread where
  pc : PublisherPc := .starting
  stopRequested : Bool := false
  redisConn : RedisConn := .null
  history : List PublisherEvent := []

/-- Where the stopping thread is in `Publisher::stop`. -/
inductive PublisherStopPc where
  | running
  /-- `processed_frame_queue_->stop()` has been called. -/
  | framesStopped
  /-- The stop of the batching thread has been requested. -/
  | joiningBatcher
  /-- The batching thread has been joined. -/
  | batcherJoined
  /-- `batch_queue_.stop()` has been called, `publisher_threads_.clear()` is under way. -/
  | clearing (progress : Teardown)
deriving DecidableEq

/-- The two queues and what they, Redis and the threads have done: the frames accepted by
`processed_frame_queue_`, the batches whose entry Redis has stored, and the batches a
thread has given up. -/
structure PublisherQueues where
  frameQueue : Fifo (DecodedFrame AVFrame) := {}
  batchQueue : Fifo Publisher.PackedBatch := {}
  accepted : List (DecodedFrame AVFrame) := []
  stored : List Publisher.PackedBatch := []
  discarded : List Publisher.PackedBatch := []

/-- An enabled `Publisher` with `n + 1` publisher threads. -/
structure Publisher (n : Nat) extends PublisherQueues where
  batcher : BatcherThread := {}
  publishers : Fin (n + 1) → PublisherThread := fun _ => {}
  stopPc : PublisherStopPc := .running

namespace Publisher

variable {n : Nat}

/-- The command that a publisher thread sends for a batch. -/
def xadd (redisQueueBaseName : String) (batch : FrameBatch) : RedisEntry where
  key := s!"{redisQueueBaseName}:{batch.streamId}"
  event := batch.eventName
  data := batch.dataBuffer

/-! ## Steps -/

/-- A push to `processed_frame_queue_`. -/
def accept (q : PublisherQueues) (frame : DecodedFrame AVFrame) : PublisherQueues :=
  { q with
    frameQueue := q.frameQueue.push frame
    accepted := if q.frameQueue.stopped then q.accepted else q.accepted ++ [frame] }

/-- A push to `batch_queue_`. -/
def pushBatch (q : PublisherQueues) (batch : PackedBatch) : PublisherQueues :=
  { q with batchQueue := q.batchQueue.push batch }

/-- Redis stores the entry of a batch. -/
def store (q : PublisherQueues) (batch : PackedBatch) : PublisherQueues :=
  { q with stored := q.stored ++ [batch] }

/-- A thread moves on with a batch in hand. -/
def discard (q : PublisherQueues) (batch : PackedBatch) : PublisherQueues :=
  { q with discarded := q.discarded ++ [batch] }

/-- One step of the batching thread. -/
def batcherStep (q : PublisherQueues) (t : BatcherThread) :
    Option (PublisherQueues × BatcherThread) :=
  match t.pc with
  | .loopHead =>
      some (q, { t with
        pc := if t.stopRequested then .flushing (flush t.currentBatches) else .popping })
  | .popping =>
      match q.frameQueue.waitAndPop with
      | none => none
      | some (none, frameQueue) =>
          some ({ q with frameQueue }, { t with pc := .flushing (flush t.currentBatches) })
      | some (some frame, frameQueue) =>
          some ({ q with frameQueue }, { t with pc := .holding frame })
  | .holding frame =>
      match batchFrame t.currentBatches frame with
      | (currentBatches, some batch) =>
          some (pushBatch q batch, { t with pc := .loopHead, currentBatches })
      | (currentBatches, none) => some (q, { t with pc := .loopHead, currentBatches })
  | .flushing [] => some (q, { t with pc := .done })
  | .flushing (batch :: batches) => some (pushBatch q batch, { t with pc := .flushing batches })
  | .done => none

/-- One step of a publisher thread.  `is_valid()` tests the context that `get()` returns,
so the null test between them never succeeds. -/
def publisherStep (dryRun : Bool) (outcome : RedisOutcome) (q : PublisherQueues)
    (t : PublisherThread) : Option (PublisherQueues × PublisherThread) :=
  match t.pc with
  | .starting => some (q, { t with pc := .loopHead, redisConn := .connect outcome.connects })
  | .loopHead => some (q, { t with pc := if t.stopRequested then .done else .popping })
  | .popping =>
      match q.batchQueue.waitAndPop with
      | none => none
      | some (none, batchQueue) => some ({ q with batchQueue }, { t with pc := .done })
      | some (some batch, batchQueue) =>
          some ({ q with batchQueue },
            { t with pc := .popped batch, history := t.history ++ [.popped batch] })
  | .popped batch =>
      if dryRun then some (discard q batch, { t with pc := .loopHead })
      else
        let redisConn :=
          if t.redisConn = .valid then t.redisConn else .connect outcome.connects
        some (q, { t with
          pc := if redisConn = .valid then .sending batch else .requeueing batch
          redisConn })
  | .sending batch =>
      match outcome.reply with
      | .null stored =>
          some (if stored then store q batch else q,
            { t with pc := .requeueing batch, redisConn := .null })
      | .error => some (discard q batch, { t with pc := .loopHead })
      | .normal =>
          some (store q batch, { t with pc := .loopHead, history := t.history ++ [.stored batch] })
  | .requeueing batch =>
      if q.batchQueue.stopped then some (discard q batch, { t with pc := .loopHead })
      else
        some (pushBatch q batch,
          { t with pc := .loopHead, history := t.history ++ [.requeued batch] })
  | .done => none

/-- The stop request of `~jthread` for a publisher thread. -/
def requestStop (t : PublisherThread) : PublisherThread :=
  { t with stopRequested := true }

/-- Whether a publisher thread has returned. -/
def isDone (t : PublisherThread) : Bool :=
  match t.pc with
  | .done => true
  | _ => false

/-- One step of `Publisher::stop`. -/
def stopStep (s : Publisher n) : Option (Publisher n) :=
  match s.stopPc with
  | .running => some { s with frameQueue := s.frameQueue.stop, stopPc := .framesStopped }
  | .framesStopped =>
      some { s with batcher := { s.batcher with stopRequested := true }, stopPc := .joiningBatcher }
  | .joiningBatcher =>
      match s.batcher.pc with
      | .done => some { s with stopPc := .batcherJoined }
      | _ => none
  | .batcherJoined =>
      some { s with batchQueue := s.batchQueue.stop, stopPc := .clearing (.requesting 0) }
  | .clearing progress =>
      (progress.step requestStop isDone s.publishers).map fun (progress', publishers') =>
        { s with publishers := publishers', stopPc := .clearing progress' }

/-- The steps of the threads that share a publisher's queues. -/
inductive Action (n : Nat) where
  /-- A worker pushes to `processed_frame_queue_`. -/
  | accept (frame : DecodedFrame AVFrame)
  | batcher
  | publisher (k : Fin (n + 1)) (outcome : RedisOutcome)
  | stop

/-- An enabled publisher from its construction on, with every interleaving of its
threads and every behaviour of Redis. -/
def machine (dryRun : Bool) (n : Nat) : Machine (Publisher n) (Action n) where
  init s := s = {}
  step s
    | .accept frame =>
        some { s with toPublisherQueues := Publisher.accept s.toPublisherQueues frame }
    | .batcher =>
        (batcherStep s.toPublisherQueues s.batcher).map fun (q, t) =>
          { s with toPublisherQueues := q, batcher := t }
    | .publisher k outcome =>
        (publisherStep dryRun outcome s.toPublisherQueues (s.publishers k)).map fun (q, t) =>
          { s with toPublisherQueues := q, publishers := Function.update s.publishers k t }
    | .stop => stopStep s

/-- `Publisher::stop` has returned. -/
def Returned (s : Publisher n) : Prop :=
  s.stopPc = .clearing (.requesting (n + 1))

/-! ## What a step can do -/

/-- The batch a publisher thread has popped and not yet handed on. -/
def hand (pc : PublisherPc) : Option PackedBatch :=
  match pc with
  | .popped batch => some batch
  | .sending batch => some batch
  | .requeueing batch => some batch
  | _ => none

/-- The frames in the hands of the batching thread. -/
def batcherHand (t : BatcherThread) : Multiset (DecodedFrame AVFrame) :=
  match t.pc with
  | .loopHead => openFrames t.currentBatches
  | .popping => openFrames t.currentBatches
  | .holding frame => {frame} + openFrames t.currentBatches
  | .flushing batches => framesOf batches
  | .done => 0

/-- What a step of the batching thread does. -/
inductive BatcherMoves (q : PublisherQueues) (t : BatcherThread) :
    PublisherQueues → BatcherThread → Prop where
  | leave (hpc : t.pc = .loopHead) (htoken : t.stopRequested = true) :
      BatcherMoves q t q { t with pc := .flushing (flush t.currentBatches) }
  | wait (hpc : t.pc = .loopHead) (htoken : t.stopRequested = false) :
      BatcherMoves q t q { t with pc := .popping }
  | ended (hpc : t.pc = .popping) (hempty : q.frameQueue.queue = [])
      (hstopped : q.frameQueue.stopped = true) :
      BatcherMoves q t q { t with pc := .flushing (flush t.currentBatches) }
  | pop (frame : DecodedFrame AVFrame) (rest : Fifo (DecodedFrame AVFrame))
      (hpc : t.pc = .popping) (hqueue : q.frameQueue.queue = frame :: rest.queue)
      (hstopped : rest.stopped = q.frameQueue.stopped) :
      BatcherMoves q t { q with frameQueue := rest } { t with pc := .holding frame }
  | batch (frame : DecodedFrame AVFrame) (hpc : t.pc = .holding frame) :
      BatcherMoves q t ((batchFrame t.currentBatches frame).2.elim q (pushBatch q))
        { t with pc := .loopHead, currentBatches := (batchFrame t.currentBatches frame).1 }
  | flush (batch : PackedBatch) (batches : List PackedBatch)
      (hpc : t.pc = .flushing (batch :: batches)) :
      BatcherMoves q t (pushBatch q batch) { t with pc := .flushing batches }
  | finish (hpc : t.pc = .flushing []) : BatcherMoves q t q { t with pc := .done }

theorem batcherStep_moves {q q' : PublisherQueues} {t t' : BatcherThread}
    (h : batcherStep q t = some (q', t')) : BatcherMoves q t q' t' := by
  unfold batcherStep at h
  split at h
  · next hpc =>
    cases h
    by_cases htoken : t.stopRequested = true
    · rw [if_pos htoken]
      exact .leave hpc htoken
    · rw [if_neg htoken]
      exact .wait hpc (by simpa using htoken)
  · next hpc =>
    split at h
    · cases h
    · next frameQueue hpop =>
      cases h
      rcases Fifo.waitAndPop_cases hpop with ⟨_, hsome, -⟩ | ⟨-, rfl, hempty, hstopped⟩
      · cases hsome
      · exact .ended hpc hempty hstopped
    · next frame frameQueue hpop =>
      cases h
      rcases Fifo.waitAndPop_cases hpop with ⟨_, hsome, hqueue, hstopped⟩ | ⟨hnone, -⟩
      · cases hsome
        exact .pop frame frameQueue hpc hqueue hstopped
      · cases hnone
  · next frame hpc =>
    have hmove := BatcherMoves.batch (q := q) frame hpc
    split at h
    · next currentBatches batch hbatch =>
      cases h
      simpa [hbatch] using hmove
    · next currentBatches hbatch =>
      cases h
      simpa [hbatch] using hmove
  · next hpc =>
    cases h
    exact .finish hpc
  · next batch batches hpc =>
    cases h
    exact .flush batch batches hpc
  · cases h

/-- What a step of a publisher thread does. -/
inductive PublisherMoves (dryRun : Bool) (outcome : RedisOutcome) (q : PublisherQueues)
    (t : PublisherThread) : PublisherQueues → PublisherThread → Prop where
  | start (hpc : t.pc = .starting) :
      PublisherMoves dryRun outcome q t q
        { t with pc := .loopHead, redisConn := .connect outcome.connects }
  | leave (hpc : t.pc = .loopHead) (htoken : t.stopRequested = true) :
      PublisherMoves dryRun outcome q t q { t with pc := .done }
  | wait (hpc : t.pc = .loopHead) (htoken : t.stopRequested = false) :
      PublisherMoves dryRun outcome q t q { t with pc := .popping }
  | ended (hpc : t.pc = .popping) (hempty : q.batchQueue.queue = [])
      (hstopped : q.batchQueue.stopped = true) :
      PublisherMoves dryRun outcome q t q { t with pc := .done }
  | pop (batch : PackedBatch) (rest : Fifo PackedBatch) (hpc : t.pc = .popping)
      (hqueue : q.batchQueue.queue = batch :: rest.queue)
      (hstopped : rest.stopped = q.batchQueue.stopped) :
      PublisherMoves dryRun outcome q t { q with batchQueue := rest }
        { t with pc := .popped batch, history := t.history ++ [.popped batch] }
  | giveUp (batch : PackedBatch) (hhand : hand t.pc = some batch)
      (hwhy : (dryRun = true ∧ t.pc = .popped batch) ∨
        (outcome.reply = .error ∧ t.pc = .sending batch) ∨
        (q.batchQueue.stopped = true ∧ t.pc = .requeueing batch)) :
      PublisherMoves dryRun outcome q t (discard q batch) { t with pc := .loopHead }
  | connected (batch : PackedBatch) (redisConn : RedisConn) (hpc : t.pc = .popped batch)
      (hdry : dryRun = false) :
      PublisherMoves dryRun outcome q t q { t with pc := .sending batch, redisConn }
  | refused (batch : PackedBatch) (redisConn : RedisConn) (hpc : t.pc = .popped batch)
      (hdry : dryRun = false) (houtcome : outcome.connects = false) :
      PublisherMoves dryRun outcome q t q { t with pc := .requeueing batch, redisConn }
  | unanswered (batch : PackedBatch) (stored : Bool) (hpc : t.pc = .sending batch)
      (houtcome : outcome.reply = .null stored) :
      PublisherMoves dryRun outcome q t (if stored then store q batch else q)
        { t with pc := .requeueing batch, redisConn := .null }
  | store (batch : PackedBatch) (hpc : t.pc = .sending batch)
      (houtcome : outcome.reply = .normal) :
      PublisherMoves dryRun outcome q t (store q batch)
        { t with pc := .loopHead, history := t.history ++ [.stored batch] }
  | requeue (batch : PackedBatch) (hpc : t.pc = .requeueing batch)
      (hopen : q.batchQueue.stopped = false) :
      PublisherMoves dryRun outcome q t (pushBatch q batch)
        { t with pc := .loopHead, history := t.history ++ [.requeued batch] }

theorem publisherStep_moves {dryRun : Bool} {outcome : RedisOutcome} {q q' : PublisherQueues}
    {t t' : PublisherThread} (h : publisherStep dryRun outcome q t = some (q', t')) :
    PublisherMoves dryRun outcome q t q' t' := by
  unfold publisherStep at h
  split at h
  · next hpc =>
    cases h
    exact .start hpc
  · next hpc =>
    cases h
    by_cases htoken : t.stopRequested = true
    · rw [if_pos htoken]
      exact .leave hpc htoken
    · rw [if_neg htoken]
      exact .wait hpc (by simpa using htoken)
  · next hpc =>
    split at h
    · cases h
    · next batchQueue hpop =>
      cases h
      rcases Fifo.waitAndPop_cases hpop with ⟨_, hsome, -⟩ | ⟨-, rfl, hempty, hstopped⟩
      · cases hsome
      · exact .ended hpc hempty hstopped
    · next batch batchQueue hpop =>
      cases h
      rcases Fifo.waitAndPop_cases hpop with ⟨_, hsome, hqueue, hstopped⟩ | ⟨hnone, -⟩
      · cases hsome
        exact .pop batch batchQueue hpc hqueue hstopped
      · cases hnone
  · next batch hpc =>
    split at h
    · next hdry =>
      cases h
      exact .giveUp batch (by simp [hand, hpc]) (Or.inl ⟨hdry, hpc⟩)
    · next hdry =>
      have hdry' : dryRun = false := by simpa using hdry
      cases h
      by_cases hvalid : (if t.redisConn = .valid then t.redisConn
          else RedisConn.connect outcome.connects) = .valid
      · simp only [hvalid, if_pos]
        exact .connected batch .valid hpc hdry'
      · simp only [hvalid, if_neg, not_false_eq_true]
        refine .refused batch _ hpc hdry' ?_
        by_contra hconnects
        have hyes : outcome.connects = true := by simpa using hconnects
        split at hvalid
        · next hconn => exact hvalid hconn
        · exact hvalid (by simp [RedisConn.connect, hyes])
  · next batch hpc =>
    split at h
    · next stored hreply =>
      cases h
      exact .unanswered batch stored hpc hreply
    · next hreply =>
      cases h
      exact .giveUp batch (by simp [hand, hpc]) (Or.inr (Or.inl ⟨hreply, hpc⟩))
    · next hreply =>
      cases h
      exact .store batch hpc hreply
  · next batch hpc =>
    split at h
    · next hstopped =>
      cases h
      exact .giveUp batch (by simp [hand, hpc]) (Or.inr (Or.inr ⟨hstopped, hpc⟩))
    · next hopen =>
      cases h
      exact .requeue batch hpc (by simpa using hopen)
  · cases h

/-- What a step of the stopping thread does. -/
inductive StopMoves (s : Publisher n) : Publisher n → Prop where
  | stopFrames (hpc : s.stopPc = .running) :
      StopMoves s { s with frameQueue := s.frameQueue.stop, stopPc := .framesStopped }
  | requestBatcher (hpc : s.stopPc = .framesStopped) :
      StopMoves s
        { s with batcher := { s.batcher with stopRequested := true }, stopPc := .joiningBatcher }
  | joinBatcher (hpc : s.stopPc = .joiningBatcher) (hdone : s.batcher.pc = .done) :
      StopMoves s { s with stopPc := .batcherJoined }
  | stopBatches (hpc : s.stopPc = .batcherJoined) :
      StopMoves s
        { s with batchQueue := s.batchQueue.stop, stopPc := .clearing (.requesting 0) }
  | clear (progress progress' : Teardown) (publishers' : Fin (n + 1) → PublisherThread)
      (hpc : s.stopPc = .clearing progress)
      (hclear : progress.step requestStop isDone s.publishers = some (progress', publishers')) :
      StopMoves s { s with publishers := publishers', stopPc := .clearing progress' }

theorem stopStep_moves {s s' : Publisher n} (h : stopStep s = some s') : StopMoves s s' := by
  unfold stopStep at h
  split at h
  · next hpc =>
    cases h
    exact .stopFrames hpc
  · next hpc =>
    cases h
    exact .requestBatcher hpc
  · next hpc =>
    split at h
    · next hdone =>
      cases h
      exact .joinBatcher hpc hdone
    · cases h
  · next hpc =>
    cases h
    exact .stopBatches hpc
  · next progress hpc =>
    rcases Option.map_eq_some_iff.mp h with ⟨⟨progress', publishers'⟩, hclear, rfl⟩
    exact .clear progress progress' publishers' hpc hclear

/-! ## Where frames are -/

/-- The frames that no thread holds: waiting in a queue, stored by Redis or given up. -/
def settled (q : PublisherQueues) : Multiset (DecodedFrame AVFrame) :=
  ↑q.frameQueue.queue + framesOf q.batchQueue.queue + framesOf q.stored + framesOf q.discarded

/-- A push to the stopped frame queue changes nothing. -/
theorem accept_of_stopped {q : PublisherQueues} (h : q.frameQueue.stopped = true)
    (frame : DecodedFrame AVFrame) : accept q frame = q := by
  simp [accept, h, Fifo.push_of_stopped]

/-- A push to the frame queue that is accepted adds one frame. -/
theorem settled_accept {q : PublisherQueues} (h : q.frameQueue.stopped = false)
    (frame : DecodedFrame AVFrame) :
    settled (accept q frame) = settled q + {frame} ∧
      (accept q frame).accepted = q.accepted ++ [frame] := by
  simp only [settled, accept, h, Fifo.push_queue_of_not_stopped, Bool.false_eq_true, if_false,
    ← Multiset.coe_add, Multiset.coe_singleton, and_true]
  abel

@[simp]
theorem settled_store (q : PublisherQueues) (batch : PackedBatch) :
    settled (store q batch) = settled q + ↑batch.frames := by
  simp only [settled, store, framesOf_append, framesOf_cons, framesOf_nil]
  abel

@[simp]
theorem settled_discard (q : PublisherQueues) (batch : PackedBatch) :
    settled (discard q batch) = settled q + ↑batch.frames := by
  simp only [settled, discard, framesOf_append, framesOf_cons, framesOf_nil]
  abel

theorem settled_pushBatch {q : PublisherQueues} (hopen : q.batchQueue.stopped = false)
    (batch : PackedBatch) : settled (pushBatch q batch) = settled q + ↑batch.frames := by
  simp only [settled, pushBatch, Fifo.push_queue_of_not_stopped hopen, framesOf_append,
    framesOf_cons, framesOf_nil]
  abel

/-- While `batch_queue_` accepts, the batching thread only moves frames. -/
theorem batcherStep_balance {q q' : PublisherQueues} {t t' : BatcherThread}
    (hopen : q.batchQueue.stopped = false) (h : batcherStep q t = some (q', t')) :
    settled q' + batcherHand t' = settled q + batcherHand t := by
  cases batcherStep_moves h with
  | leave hpc htoken => simp [batcherHand, hpc, flush_eq, openFrames]
  | wait hpc htoken => simp [batcherHand, hpc]
  | ended hpc hempty hstopped => simp [batcherHand, hpc, flush_eq, openFrames]
  | pop frame rest hpc hqueue hstopped =>
      simp only [settled, batcherHand, hpc, hqueue, ← Multiset.cons_coe,
        ← Multiset.singleton_add]
      abel
  | batch frame hpc =>
      have hbatch := batchFrame_frames t.currentBatches frame
      simp only [batcherHand, hpc]
      rw [add_comm ({frame} : Multiset (DecodedFrame AVFrame)), ← hbatch]
      cases (batchFrame t.currentBatches frame).2 with
      | none => simp
      | some batch =>
          simp only [Option.elim_some, Option.toList_some, framesOf_cons, framesOf_nil,
            settled_pushBatch hopen]
          abel
  | flush batch batches hpc =>
      simp only [batcherHand, hpc, settled_pushBatch hopen, framesOf_cons]
      abel
  | finish hpc => simp [batcherHand, hpc]

/-- When no entry is stored without a reply, a publisher thread only moves frames. -/
theorem publisherStep_balance {dryRun : Bool} {outcome : RedisOutcome} {q q' : PublisherQueues}
    {t t' : PublisherThread} (hanswer : outcome.reply ≠ .null true)
    (h : publisherStep dryRun outcome q t = some (q', t')) :
    settled q' + framesOf (hand t'.pc).toList = settled q + framesOf (hand t.pc).toList := by
  cases publisherStep_moves h with
  | start hpc => simp [hand, hpc]
  | leave hpc htoken => simp [hand, hpc]
  | wait hpc htoken => simp [hand, hpc]
  | ended hpc hempty hstopped => simp [hand, hpc]
  | pop batch rest hpc hqueue hstopped =>
      simp only [settled, hand, hpc, hqueue, framesOf_cons, Option.toList_some,
        Option.toList_none, framesOf_nil]
      abel
  | giveUp batch hhand hwhy =>
      rw [hhand, settled_discard]
      simp [hand]
  | connected batch redisConn hpc hdry => simp [hand, hpc]
  | refused batch redisConn hpc hdry houtcome => simp [hand, hpc]
  | unanswered batch stored hpc houtcome =>
      cases stored with
      | true => exact absurd houtcome hanswer
      | false => simp [hand, hpc]
  | store batch hpc houtcome => simp [hand, hpc]
  | requeue batch hpc hopen => simp [hand, hpc, settled_pushBatch hopen]

end Publisher

end FrameProcessor
