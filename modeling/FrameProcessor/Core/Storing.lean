import FrameProcessor.Core.DisabledPublisher
import FrameProcessor.Core.ServicesStop

/-!
# core/main - When a frame can be stored at all

Three settings decide whether anything that the readers accept can get to Redis: there must be
a publisher, it must not be a dry run, and there must be a worker.  Without one of them, or
without a frame to read, the pipeline runs as ever and stores nothing, whatever its threads and
Redis do.  With all of them one frame that is read again and again fills a batch.

Main results:

- Theorem `Pipeline.publisher_sees`: what a step of the pipeline is for its publisher.
- Theorems `Pipeline.stored_of_noWorkers`, `Pipeline.stored_of_unread`,
  `Pipeline.stored_of_dryRun` and `Pipeline.stored_of_disabled`: no run stores anything.
- Theorem `Pipeline.Waiting.fills`: a frame that is read again and again fills a batch.
- Theorem `Pipeline.stores_frame_iff`: with all of them, some run stores a frame.
-/

namespace FrameProcessor

namespace Publisher

variable {m : Nat} {dryRun : Bool}

/-! ## Nothing to store -/

/-- A publisher that holds nothing stores nothing without a reply. -/
theorem resent_eq_zero {s : Publisher m} (h : held s = 0) (a : Action m) : resent s a = 0 := by
  cases a with
  | publisher k outcome =>
      refine resentBy_eq_zero fun batch hpc => ?_
      have hhand : framesOf (hand (s.publishers k).pc).toList = 0 := Pool.held_eq_zero_iff.mp h k
      rw [hpc, framesOf_eq_zero] at hhand
      cases hhand
  | accept | batcher | stop => rfl

/-- The publisher has accepted nothing, so there is nothing in it. -/
structure Empty (s : Publisher m) : Prop where
  accounts : Accounts s 0
  accepted : s.accepted = []

theorem Empty.all {s : Publisher m} (hs : Empty s) :
    settled s.toPublisherQueues = 0 ∧ held s = 0 := by
  have hbalance := hs.accounts.balance
  rw [hs.accepted] at hbalance
  simp only [Multiset.coe_nil, add_zero, add_eq_zero] at hbalance
  exact ⟨hbalance.1.1, hbalance.2⟩

theorem Empty.stored {s : Publisher m} (hs : Empty s) : s.stored = [] := by
  have hsettled := hs.all.1
  simp only [settled, add_eq_zero] at hsettled
  exact framesOf_eq_zero.mp hsettled.1.2

/-- No step but a push is an acceptance. -/
theorem machine_accepted {s s' : Publisher m} {a : Action m} (ha : ∀ frame, a ≠ .accept frame)
    (hstep : (machine dryRun m).step s a = some s') : s'.accepted = s.accepted := by
  cases a with
  | accept frame => exact absurd rfl (ha frame)
  | batcher =>
      rcases Option.map_eq_some_iff.mp hstep with ⟨⟨q, t⟩, hbatcher, rfl⟩
      exact (batcherStep_frame hbatcher).2.2.1
  | publisher k outcome =>
      rcases Option.map_eq_some_iff.mp hstep with ⟨⟨q, t⟩, hthread, rfl⟩
      exact (publisherStep_frame hthread).2.2.1
  | stop =>
      cases stopStep_moves hstep with
      | stopFrames | requestBatcher | joinBatcher | stopBatches | clear => rfl

/-- As long as nothing is accepted, nothing comes into being. -/
theorem Empty.step {s s' : Publisher m} {a : Action m} (hs : Empty s)
    (ha : ∀ frame, a ≠ .accept frame) (hstep : (machine dryRun m).step s a = some s') :
    Empty s' := by
  have haccounts := hs.accounts.step hstep
  rw [resent_eq_zero hs.all.2, add_zero] at haccounts
  exact ⟨haccounts, (machine_accepted ha hstep).trans hs.accepted⟩

/-- Nor when the frame queue is stopped. -/
theorem Empty.stopFrames {s : Publisher m} (hs : Empty s) :
    Empty { s with frameQueue := s.frameQueue.stop } where
  accounts := ⟨⟨hs.accounts.sequenced.batcherDone, hs.accounts.sequenced.batchesStopped,
    hs.accounts.sequenced.joined⟩, hs.accounts.balance⟩
  accepted := hs.accepted

/-! ## Batches that fill -/

/-- The number of frames in the open batch of a stream and event. -/
def openCount (current : CurrentBatches) (key : BatchKey) : Nat :=
  (current[key]?.map fun batch => batch.frameCount).getD 0

theorem extendBatch_frameCount (current : CurrentBatches) (frame : DecodedFrame AVFrame) :
    (extendBatch current frame).frameCount = openCount current (batchKey frame) + 1 := by
  unfold extendBatch openCount
  cases current[batchKey frame]? with
  | none => simp [PackedBatch.single, FrameBatch.append, newBatch]
  | some batch => simp [PackedBatch.add, FrameBatch.append]

/-- A frame completes its batch, or leaves it open with one frame more and not full. -/
theorem batchFrame_fills (current : CurrentBatches) (frame : DecodedFrame AVFrame) :
    (∃ current' batch, batchFrame current frame = (current', some batch)) ∨
    ∃ current', batchFrame current frame = (current', none) ∧
      openCount current' (batchKey frame) = openCount current (batchKey frame) + 1 ∧
      (openCount current' (batchKey frame) : Int) < frame.eventConfig.batchSize.toInt := by
  have hcount := extendBatch_frameCount current frame
  by_cases hfull :
      ((extendBatch current frame).frameCount : Int) ≥ frame.eventConfig.batchSize.toInt
  · exact Or.inl ⟨_, _, by rw [batchFrame, if_pos hfull]⟩
  · have hopen : openCount (current.insert (batchKey frame) (extendBatch current frame))
        (batchKey frame) = (extendBatch current frame).frameCount := by
      simp [openCount]
    exact Or.inr ⟨_, by rw [batchFrame, if_neg hfull], by rw [hopen, hcount],
      by rw [hopen]; omega⟩

/-! ## Dry runs -/

/-- Nothing has been stored, and no publisher thread is about to send a command. -/
structure Dry (s : Publisher m) : Prop where
  stored : s.stored = []
  notSending : ∀ k batch, (s.publishers k).pc ≠ .sending batch

theorem dry_init : Dry ({} : Publisher m) where
  stored := rfl
  notSending _ _ h := by cases h

/-- A publisher thread of a dry run never sends a command. -/
theorem publisherStep_dry {outcome : RedisOutcome} {q q' : PublisherQueues}
    {t t' : PublisherThread} (ht : ∀ batch, t.pc ≠ .sending batch)
    (h : publisherStep true outcome q t = some (q', t')) :
    q'.stored = q.stored ∧ ∀ batch, t'.pc ≠ .sending batch := by
  cases publisherStep_moves h with
  | start | leave | wait | ended | pop | giveUp | requeue => exact ⟨rfl, nofun⟩
  | connected _ _ _ hdry | refused _ _ _ hdry => cases hdry
  | unanswered batch _ hpc | store batch hpc => exact absurd hpc (ht batch)

theorem Dry.step {s s' : Publisher m} {a : Action m} (hs : Dry s)
    (hstep : (machine true m).step s a = some s') : Dry s' := by
  cases a with
  | accept frame =>
      cases hstep
      exact ⟨hs.stored, hs.notSending⟩
  | batcher =>
      rcases Option.map_eq_some_iff.mp hstep with ⟨⟨q, t⟩, hbatcher, rfl⟩
      refine ⟨?_, hs.notSending⟩
      have hstored : q.stored = s.stored := by
        cases batcherStep_moves hbatcher with
        | leave | wait | ended | pop | flush | finish => rfl
        | batch frame hpc => cases (batchFrame s.batcher.currentBatches frame).2 <;> rfl
      exact hstored.trans hs.stored
  | publisher k outcome =>
      rcases Option.map_eq_some_iff.mp hstep with ⟨⟨q, t⟩, hthread, rfl⟩
      rcases publisherStep_dry (hs.notSending k) hthread with ⟨hstored, hpc⟩
      refine ⟨hstored.trans hs.stored, ?_⟩
      exact Pool.forall_update (fun t : PublisherThread => ∀ batch, t.pc ≠ .sending batch) hpc
        hs.notSending
  | stop =>
      cases stopStep_moves hstep with
      | stopFrames | requestBatcher | joinBatcher | stopBatches => exact ⟨hs.stored, hs.notSending⟩
      | clear progress progress' publishers' hpc hclear =>
          refine ⟨hs.stored, fun k batch hsending => hs.notSending k batch ?_⟩
          rw [← clear_frame hclear k]
          exact hsending

end Publisher

namespace Pipeline

variable {γ : Type*} {n m : Nat} {av : Avfilter γ} {dryRun : Bool} {s s' : Pipeline γ n m}

/-! ## Runs that store nothing -/

/-- A step of the pipeline is for the publisher nothing, a stop of its frame queue, or a step of
its own, which is a push only when a worker has a frame in hand. -/
theorem publisher_sees {a : Action n m} (hstep : (machine av dryRun n m).step s a = some s') :
    s'.publisher = s.publisher ∨
    s'.publisher = { s.publisher with frameQueue := s.publisher.frameQueue.stop } ∨
    ∃ b, (Publisher.machine dryRun m).step s.publisher b = some s'.publisher ∧
      ∀ frame, b = .accept frame → ∃ i, Worker.hand (s.workers i).pc ≠ 0 := by
  cases machine_steps hstep with
  | accept frame => exact Or.inl rfl
  | worker i q w hthread =>
      rcases Worker.threadStep_cases hthread with ⟨rfl, -⟩ | ⟨frame, rest, -, -, -, rfl, -⟩ |
        ⟨frame, -, rfl, -⟩ | ⟨frame, output, outputs, hpc, rfl, -⟩
      · exact Or.inl rfl
      · exact Or.inl rfl
      · exact Or.inl rfl
      · rw [publisher_deliver]
        refine Or.inr (Or.inr ⟨.accept output, rfl, fun _ _ => ⟨i, ?_⟩⟩)
        rw [hpc]
        exact Multiset.singleton_ne_zero frame
  | stopWorker w hstop =>
      rcases Worker.stopStep_cases hstop with ⟨-, rfl⟩ | ⟨-, rfl⟩ | ⟨_, _, _, -, -, rfl⟩
      · exact Or.inl rfl
      · exact Or.inr (Or.inl rfl)
      · exact Or.inl rfl
  | batcher q t hthread =>
      have haccepted := (Publisher.batcherStep_frame hthread).2.2.1
      rw [publisher_setPublisher haccepted]
      exact Or.inr (Or.inr ⟨.batcher, Option.map_eq_some_iff.mpr ⟨(q, t), hthread, rfl⟩,
        fun _ => nofun⟩)
  | publisher k outcome q t hthread =>
      have haccepted := (Publisher.publisherStep_frame hthread).2.2.1
      rw [publisher_setPublisher haccepted]
      exact Or.inr (Or.inr ⟨.publisher k outcome,
        Option.map_eq_some_iff.mpr ⟨(q, t), hthread, rfl⟩, fun _ => nofun⟩)
  | stopPublisher p hstop =>
      rw [publisher_setPublisher (stopPublisher_frame hstop).1]
      exact Or.inr (Or.inr ⟨.stop, hstop, fun _ => nofun⟩)

/-- As long as no worker has a frame in hand, nothing gets to the publisher. -/
theorem empty_step {a : Action n m} (hs : Publisher.Empty s.publisher)
    (hhands : ∀ i, Worker.hand (s.workers i).pc = 0)
    (hstep : (machine av dryRun n m).step s a = some s') : Publisher.Empty s'.publisher := by
  rcases publisher_sees hstep with hsame | hstopped | ⟨b, hpublisher, hpush⟩
  · exact hsame ▸ hs
  · exact hstopped ▸ hs.stopFrames
  · refine hs.step (fun frame hb => ?_) hpublisher
    rcases hpush frame hb with ⟨i, hi⟩
    exact hi (hhands i)

/-- Without workers nothing is stored. -/
theorem stored_of_noWorkers {schedule : List (Action 0 m)} {t : Pipeline γ 0 m}
    (hrun : (machine av dryRun 0 m).exec {} schedule = some t) : t.stored = [] := by
  have hempty : Publisher.Empty t.publisher :=
    Machine.exec_induction (P := fun s => Publisher.Empty s.publisher)
      (fun _ _ _ hs hstep => empty_step hs (fun i => i.elim0) hstep)
      ⟨Publisher.accounts_init, rfl⟩ hrun
  exact hempty.stored

/-- Nothing has been read, so no worker has a frame. -/
structure Unread (s : Pipeline γ n m) : Prop where
  queue : s.decodeFrameQueue.queue = []
  hands : ∀ i, Worker.hand (s.workers i).pc = 0
  publisher : Publisher.Empty s.publisher

theorem unread_init : Unread ({} : Pipeline γ n m) where
  queue := rfl
  hands _ := rfl
  publisher := ⟨Publisher.accounts_init, rfl⟩

theorem Unread.step {a : Action n m} (hs : Unread s) (ha : ∀ frame, a ≠ .accept frame)
    (hstep : (machine av dryRun n m).step s a = some s') : Unread s' := by
  have hpublisher := empty_step hs.publisher hs.hands hstep
  cases machine_steps hstep with
  | accept frame => exact absurd rfl (ha frame)
  | worker i q w hthread =>
      rcases Worker.threadStep_cases hthread with ⟨rfl, -, pc, rfl, hpc⟩ |
        ⟨frame, rest, -, hqueue, -⟩ | ⟨frame, hpc, -⟩ | ⟨frame, output, outputs, hpc, -⟩
      · refine ⟨hs.queue, ?_, hpublisher⟩
        refine Pool.forall_update (fun w : WorkerThread γ => Worker.hand w.pc = 0) ?_ hs.hands
        rcases hpc with rfl | rfl | rfl <;> rfl
      · exact absurd (hqueue.symm.trans hs.queue) (List.cons_ne_nil _ _)
      · have hhand := hs.hands i
        rw [hpc] at hhand
        exact absurd hhand (Multiset.singleton_ne_zero frame)
      · have hhand := hs.hands i
        rw [hpc] at hhand
        exact absurd hhand (Multiset.singleton_ne_zero frame)
  | stopWorker w hstop =>
      rcases Worker.stopStep_cases hstop with ⟨-, rfl⟩ | ⟨-, rfl⟩ | ⟨_, _, _, -, hclear, rfl⟩
      · exact ⟨hs.queue, hs.hands, hpublisher⟩
      · exact ⟨hs.queue, hs.hands, hpublisher⟩
      · refine ⟨hs.queue, fun i => ?_, hpublisher⟩
        exact (congrArg Worker.hand (Worker.clear_frame hclear i).1).trans (hs.hands i)
  | batcher | publisher | stopPublisher => exact ⟨hs.queue, hs.hands, hpublisher⟩

/-- The step is no push of a reader, or one of a frame of `Read`. -/
def Pushes (Read : DecodedFrame AVFrame → Prop) : Action n m → Prop
  | .accept frame => Read frame
  | _ => True

instance (Read : DecodedFrame AVFrame → Prop) [DecidablePred Read] :
    DecidablePred (Pushes Read : Action n m → Prop)
  | .accept frame => inferInstanceAs (Decidable (Read frame))
  | .worker _ | .stopWorker | .batcher | .publisher _ _ | .stopPublisher =>
      inferInstanceAs (Decidable True)

theorem Pushes.mono {Read Read' : DecodedFrame AVFrame → Prop} {a : Action n m}
    (h : Pushes Read a) (hread : ∀ frame, Read frame → Read' frame) : Pushes Read' a := by
  cases a with
  | accept frame => exact hread frame h
  | worker | stopWorker | batcher | publisher | stopPublisher => trivial

/-- Without a frame to read nothing is stored. -/
theorem stored_of_unread {Read : DecodedFrame AVFrame → Prop} [DecidablePred Read]
    (hnone : ∀ frame, ¬ Read frame) {schedule : List (Action n m)} {t : Pipeline γ n m}
    (hrun : ((machine av dryRun n m).restrict fun _ => Pushes Read).exec {} schedule = some t) :
    t.stored = [] := by
  have hunread : Unread t := by
    refine Machine.exec_induction (P := Unread) ?_ unread_init hrun
    intro s a s' hs hstep
    rcases Machine.restrict_step.mp hstep with ⟨hpushes, hstep⟩
    refine hs.step ?_ hstep
    rintro frame rfl
    exact hnone frame hpushes
  exact hunread.publisher.stored

/-- In a dry run nothing is stored. -/
theorem stored_of_dryRun {schedule : List (Action n m)} {t : Pipeline γ n m}
    (hrun : (machine av true n m).exec {} schedule = some t) : t.stored = [] := by
  have hdry : Publisher.Dry t.publisher := by
    refine Machine.exec_induction (P := fun s => Publisher.Dry s.publisher) ?_
      Publisher.dry_init hrun
    intro s a s' hs hstep
    rcases publisher_sees hstep with hsame | hstopped | ⟨b, hpublisher, -⟩
    · exact hsame ▸ hs
    · rw [hstopped]
      exact ⟨hs.stored, hs.notSending⟩
    · exact hs.step hpublisher
  exact hdry.stored

/-- Without a publisher nothing is stored. -/
theorem stored_of_disabled {schedule : List (Action n m)} {t : Pipeline γ n m}
    (hrun : (startedMachine false av dryRun n m).exec {} schedule = some t) : t.stored = [] := by
  refine Machine.exec_induction (P := fun s => s.stored = []) ?_ rfl hrun
  intro s a s' hs hstep
  cases a with
  | accept frame =>
      cases hstep
      exact hs
  | worker i | stopWorker =>
      rcases Option.map_eq_some_iff.mp hstep with ⟨p, -, rfl⟩
      exact hs
  | batcher | publisher => cases hstep
  | stopPublisher =>
      cases hstep
      exact hs

/-! ## A run that stores a frame -/

open Machine (alone)

variable {Idle : γ → Prop}

/-- The batching thread that runs alone. -/
theorem exec_batcher (s : Pipeline γ n m) (k : Nat) :
    (machine av dryRun n m).exec s (List.replicate k .batcher) =
      (alone (fun p => Publisher.batcherStep p.1 p.2) k
          (s.publisher.toPublisherQueues, s.batcher)).map fun p =>
        s.setPublisher { s.publisher with toPublisherQueues := p.1, batcher := p.2 } := by
  refine Machine.exec_replicate
    (fun s : Pipeline γ n m => (s.publisher.toPublisherQueues, s.batcher))
    (fun s p => s.setPublisher { s.publisher with
      toPublisherQueues := p.1, batcher := p.2 })
    (fun p => Publisher.batcherStep p.1 p.2) ?_ ?_ ?_ ?_ k s
  · exact fun s => rfl
  · exact fun s p p' => rfl
  · intro s p hstep
    have haccepted := (Publisher.batcherStep_frame hstep).2.2.1
    have hview := publisher_setPublisher (s := s)
      (p := { s.publisher with toPublisherQueues := p.1, batcher := p.2 }) haccepted
    exact Prod.ext (congrArg Publisher.toPublisherQueues hview) rfl
  · intro s
    change ((Publisher.batcherStep _ _).map _).map _ = _
    rw [Option.map_map]
    rfl

/-- A publisher thread that runs alone. -/
theorem exec_publisher (s : Pipeline γ n m) (k : Fin (m + 1)) (outcome : RedisOutcome)
    (steps : Nat) :
    (machine av dryRun n m).exec s (List.replicate steps (.publisher k outcome)) =
      (alone (fun p => Publisher.publisherStep dryRun outcome p.1 p.2) steps
          (s.publisher.toPublisherQueues, s.publishers k)).map fun p =>
        s.setPublisher { s.publisher with
          toPublisherQueues := p.1, publishers := Function.update s.publishers k p.2 } := by
  refine Machine.exec_replicate
    (fun s : Pipeline γ n m => (s.publisher.toPublisherQueues, s.publishers k))
    (fun s p => s.setPublisher { s.publisher with
      toPublisherQueues := p.1, publishers := Function.update s.publishers k p.2 })
    (fun p => Publisher.publisherStep dryRun outcome p.1 p.2) ?_ ?_ ?_ ?_ steps s
  · intro s
    simp only [Function.update_eq_self]
    rfl
  · intro s p p'
    change s.setPublisher { s.publisher with
      toPublisherQueues := p'.1
      publishers := Function.update (Function.update s.publishers k p.2) k p'.2 } = _
    rw [Function.update_idem]
  · intro s p hstep
    have haccepted := (Publisher.publisherStep_frame hstep).2.2.1
    have hview := publisher_setPublisher (s := s)
      (p := { s.publisher with
        toPublisherQueues := p.1, publishers := Function.update s.publishers k p.2 }) haccepted
    refine Prod.ext (congrArg Publisher.toPublisherQueues hview) ?_
    change Function.update s.publishers k p.2 k = p.2
    rw [Function.update_self]
  · intro s
    change ((Publisher.publisherStep _ _ _ _).map _).map _ = _
    rw [Option.map_map]
    rfl

/-- What the batching thread does with a frame: it hands a batch on, or its open batches grow. -/
inductive Batched (frame : DecodedFrame AVFrame) (t : BatcherThread) (q' : PublisherQueues)
    (t' : BatcherThread) : Prop
  | full (batch : Publisher.PackedBatch) (hbatches : q'.batchQueue.queue = [batch])
  | opened (hbatches : q'.batchQueue = {})
      (hgrown : Publisher.openCount t'.currentBatches (Publisher.batchKey frame) =
        Publisher.openCount t.currentBatches (Publisher.batchKey frame) + 1)
      (hopen : (Publisher.openCount t'.currentBatches (Publisher.batchKey frame) : Int) <
        frame.eventConfig.batchSize.toInt)

/-- Three steps of the batching thread alone take a frame from its queue. -/
theorem batcher_alone {q : PublisherQueues} {t : BatcherThread} {frame : DecodedFrame AVFrame}
    (hpc : t.pc = .loopHead) (htoken : t.stopRequested = false)
    (hframes : q.frameQueue.queue = [frame]) (hbatches : q.batchQueue = {}) :
    ∃ q' t', alone (fun p => Publisher.batcherStep p.1 p.2) 3 (q, t) = some (q', t') ∧
      t'.pc = .loopHead ∧ t'.stopRequested = false ∧ q'.frameQueue.queue = [] ∧
      q'.frameQueue.stopped = q.frameQueue.stopped ∧ Batched frame t q' t' := by
  have hpop := Fifo.waitAndPop_cons hframes
  rcases Publisher.batchFrame_fills t.currentBatches frame with
    ⟨current, batch, hfull⟩ | ⟨current, hopened, hgrown, hopen⟩
  · simp only [alone, Publisher.batcherStep, hpc, htoken, hpop, hfull, Option.bind_some,
      Bool.false_eq_true, if_false]
    exact ⟨_, _, rfl, rfl, rfl, rfl, rfl,
      .full batch (by simp [Publisher.pushBatch, hbatches, Fifo.push])⟩
  · simp only [alone, Publisher.batcherStep, hpc, htoken, hpop, hopened, Option.bind_some,
      Bool.false_eq_true, if_false]
    exact ⟨_, _, rfl, rfl, rfl, rfl, rfl, .opened hbatches hgrown hopen⟩

/-- Five steps of a publisher thread alone, which connects and gets a reply, store a batch. -/
theorem publisher_alone {q : PublisherQueues} {batch : Publisher.PackedBatch}
    (hbatches : q.batchQueue.queue = [batch]) :
    ∃ q' t', alone (fun p => Publisher.publisherStep false ⟨true, .normal⟩ p.1 p.2) 5 (q, {}) =
      some (q', t') ∧ q'.stored = q.stored ++ [batch] := by
  simp only [alone, Publisher.publisherStep, Fifo.waitAndPop_cons hbatches, RedisConn.connect,
    Option.bind_some, Bool.false_eq_true, if_false, if_true]
  exact ⟨_, _, rfl, rfl⟩

/-- Nothing waits in the queues, and the threads that the run uses are about to look for work. -/
structure Waiting (Idle : γ → Prop) (i : Fin n) (k : Fin (m + 1)) (s : Pipeline γ n m) : Prop where
  ready : Ready Idle i s
  processedEmpty : s.processedFrameQueue.queue = []
  batches : s.batchQueue = {}
  batcherPc : s.batcher.pc = .loopHead
  batcherToken : s.batcher.stopRequested = false
  publisher : s.publishers k = {}

theorem waiting_init (i : Fin n) (k : Fin (m + 1)) :
    Waiting Idle i k ({} : Pipeline γ n m) where
  ready := ready_init i
  processedEmpty := rfl
  batches := rfl
  batcherPc := rfl
  batcherToken := rfl
  publisher := rfl

/-- A frame is read, a worker processes it, and the batching thread takes it. -/
def batchRound (i : Fin n) (frame : DecodedFrame AVFrame) : List (Action n m) :=
  (.accept frame :: List.replicate 5 (.worker i)) ++ List.replicate 3 .batcher

theorem pushes_batchRound {i : Fin n} {frame : DecodedFrame AVFrame} :
    ∀ a ∈ (batchRound i frame : List (Action n m)), Pushes (· = frame) a := by
  refine List.forall_mem_append.mpr ⟨List.forall_mem_cons.mpr ⟨rfl, ?_⟩, ?_⟩
  · intro a ha
    rw [List.eq_of_mem_replicate ha]
    trivial
  · intro a ha
    rw [List.eq_of_mem_replicate ha]
    trivial

/-- After a round there is a batch for the publisher threads, or one more frame in an open
batch that is not full. -/
theorem Waiting.round (h : Worker.OneToOne av Idle) {i : Fin n} {k : Fin (m + 1)}
    (hs : Waiting Idle i k s) (frame : DecodedFrame AVFrame) :
    ∃ t, (machine av false n m).exec s (batchRound i frame) = some t ∧ t.publishers k = {} ∧
      Batched frame s.batcher t.publisher.toPublisherQueues t.batcher ∧
      (t.batchQueue = {} → Waiting Idle i k t) := by
  rcases hs.ready.round h feeds_machine frame with ⟨w, procFrame, hworker, hready, hout⟩
  let worked := s.setWorker w
  have hframes : worked.publisher.frameQueue.queue = [{ frame with frame := procFrame }] := by
    change w.outQueue.queue = _
    rw [hout, hs.processedEmpty]
    rfl
  rcases batcher_alone (q := worked.publisher.toPublisherQueues) hs.batcherPc hs.batcherToken
    hframes hs.batches with ⟨q, t, hbatcher, hpc, htoken, hempty, hopen, hbatched⟩
  let batched := worked.setPublisher { worked.publisher with toPublisherQueues := q, batcher := t }
  have hrun : (machine av false n m).exec worked (List.replicate 3 .batcher) = some batched := by
    rw [exec_batcher]
    exact congrArg (Option.map _) hbatcher
  refine ⟨batched, (Machine.exec_append_eq_some _).mpr ⟨worked, hworker, hrun⟩, hs.publisher, ?_,
    fun hbatches => ?_⟩
  · cases hbatched with
    | full batch hbatches => exact .full batch hbatches
    | opened hbatches hgrown hlacks => exact .opened hbatches hgrown hlacks
  · exact ⟨⟨hready.decodeEmpty, hready.decodeOpen, hopen.trans hready.processedOpen,
      hready.looping⟩, hempty, hbatches, hpc, htoken, hs.publisher⟩

/-- A frame that is read again and again fills a batch: an open batch grows with every round, and
is handed on when it has the size that the event asks for. -/
theorem Waiting.fills (h : Worker.OneToOne av Idle) {i : Fin n} {k : Fin (m + 1)}
    (hs : Waiting Idle i k s) (frame : DecodedFrame AVFrame) :
    ∃ schedule t batch, (machine av false n m).exec s schedule = some t ∧
      (∀ a ∈ schedule, Pushes (· = frame) a) ∧ t.publishers k = {} ∧
      t.batchQueue.queue = [batch] := by
  have hmissing : frame.eventConfig.batchSize.toInt ≤
      Publisher.openCount s.batcher.currentBatches (Publisher.batchKey frame) +
        frame.eventConfig.batchSize.toInt.toNat := by
    have hsize := Int.self_le_toNat frame.eventConfig.batchSize.toInt
    omega
  generalize frame.eventConfig.batchSize.toInt.toNat = missing at hmissing
  -- The induction is on how many frames the open batch lacks.
  induction missing generalizing s with
  | zero =>
      rcases hs.round h frame with ⟨t, hrun, hpublisher, hbatched, -⟩
      cases hbatched with
      | full batch hbatches => exact ⟨_, t, batch, hrun, pushes_batchRound, hpublisher, hbatches⟩
      | opened _ hgrown hopen => omega
  | succ missing ih =>
      rcases hs.round h frame with ⟨t, hrun, hpublisher, hbatched, hwaiting⟩
      cases hbatched with
      | full batch hbatches => exact ⟨_, t, batch, hrun, pushes_batchRound, hpublisher, hbatches⟩
      | opened hbatches hgrown hopen =>
          rcases ih (hwaiting hbatches) (by omega) with
            ⟨schedule, u, batch, hrest, hpushes, hpublisher', hqueue⟩
          refine ⟨batchRound i frame ++ schedule, u, batch,
            (Machine.exec_append_eq_some _).mpr ⟨t, hrun, hrest⟩, ?_, hpublisher', hqueue⟩
          exact List.forall_mem_append.mpr ⟨pushes_batchRound, hpushes⟩

/-- With a worker, a Redis server and a frame to read, a frame can be stored. -/
theorem exists_stored (h : Worker.OneToOne av Idle) (hn : 0 < n) (frame : DecodedFrame AVFrame) :
    ∃ schedule t, (machine av false n m).exec {} schedule = some t ∧
      (∀ a ∈ schedule, Pushes (· = frame) a) ∧ t.stored ≠ [] := by
  let i : Fin n := ⟨0, hn⟩
  let k : Fin (m + 1) := ⟨0, Nat.succ_pos m⟩
  rcases (waiting_init i k).fills h frame with
    ⟨schedule, s, batch, hrun, hpushes, hstart, hbatches⟩
  rcases publisher_alone (q := s.publisher.toPublisherQueues) hbatches with
    ⟨q, p, hpublisher, hstored⟩
  let t := s.setPublisher
    { s.publisher with toPublisherQueues := q, publishers := Function.update s.publishers k p }
  have hrun' : (machine av false n m).exec s
      (List.replicate 5 (.publisher k ⟨true, .normal⟩)) = some t := by
    rw [exec_publisher, hstart]
    exact congrArg (Option.map _) hpublisher
  refine ⟨schedule ++ List.replicate 5 (.publisher k ⟨true, .normal⟩), t,
    (Machine.exec_append_eq_some _).mpr ⟨s, hrun, hrun'⟩, ?_, ?_⟩
  · refine List.forall_mem_append.mpr ⟨hpushes, fun a ha => ?_⟩
    rw [List.eq_of_mem_replicate ha]
    trivial
  · change q.stored ≠ []
    rw [hstored]
    exact List.append_ne_nil_of_right_ne_nil _ (List.cons_ne_nil _ _)

/-! ## What storing needs -/

/-- The pipeline that has been constructed, with readers that push only the frames of `Read`. -/
def readingMachine (Read : DecodedFrame AVFrame → Prop) [DecidablePred Read] (isEnabled : Bool)
    (av : Avfilter γ) (dryRun : Bool) (n m : Nat) : Machine (Pipeline γ n m) (Action n m) :=
  (startedMachine isEnabled av dryRun n m).restrict fun _ => Pushes Read

/-- A frame can be stored exactly when there is a publisher, the run is no dry run, there is a
worker, and there is a frame to read. -/
theorem stores_frame_iff (h : Worker.OneToOne av Idle) (Read : DecodedFrame AVFrame → Prop)
    [DecidablePred Read] (isEnabled dryRun : Bool) (n m : Nat) :
    (∃ schedule t, (readingMachine Read isEnabled av dryRun n m).exec {} schedule = some t ∧
      t.stored ≠ []) ↔ isEnabled = true ∧ dryRun = false ∧ 0 < n ∧ ∃ frame, Read frame := by
  constructor
  · rintro ⟨schedule, t, hread, hstored⟩
    have hrun := Machine.exec_of_restrict hread
    have henabled : isEnabled = true := by
      by_contra hdisabled
      rw [Bool.not_eq_true] at hdisabled
      rw [hdisabled] at hrun
      exact hstored (stored_of_disabled hrun)
    subst henabled
    rw [readingMachine, startedMachine_enabled] at hread
    rw [startedMachine_enabled] at hrun
    refine ⟨rfl, ?_, ?_, ?_⟩
    · by_contra hdry
      rw [Bool.not_eq_false] at hdry
      rw [hdry] at hrun
      exact hstored (stored_of_dryRun hrun)
    · by_contra hnone
      have hzero : n = 0 := by omega
      subst hzero
      exact hstored (stored_of_noWorkers hrun)
    · by_contra hnone
      exact hstored (stored_of_unread (not_exists.mp hnone) hread)
  · rintro ⟨rfl, rfl, hworker, frame, hframe⟩
    rcases exists_stored h hworker frame with ⟨schedule, t, hrun, hpushes, hstored⟩
    refine ⟨schedule, t, ?_, hstored⟩
    rw [readingMachine, startedMachine_enabled, Machine.exec_restrict, hrun]
    intro a ha
    exact (hpushes a ha).mono fun _ heq => heq ▸ hframe

end Pipeline

end FrameProcessor
