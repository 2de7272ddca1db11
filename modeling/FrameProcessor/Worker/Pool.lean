import FrameProcessor.Foundations.Machine
import FrameProcessor.Foundations.Pool
import FrameProcessor.Foundations.Teardown
import FrameProcessor.Utils.Fifo
import FrameProcessor.Worker.Processing

/-!
# components/worker - The worker pool

The threads of a `Worker`, the two queues they share and the thread that calls
`Worker::stop`, as one machine.  Each action is one atomic step of one thread: a queue
operation, a test of the stop token, the thread-local processing of a frame, or one
step of `stop`.  The readers and the batcher are the environment: they push to
`in_queue_` and pop from `out_queue_` at any time.

Main results:

- Theorem `Worker.threadStep_cases`: everything a step of a worker thread can do.
- Theorem `Worker.threadStep_balance`: while `out_queue_` accepts, a thread only moves
  frames between `in_queue_`, its hand and the delivered ones.
-/

namespace FrameProcessor

/-- Where a worker thread is in `worker_loop`. -/
inductive WorkerPc where
  /-- About to test the stop token. -/
  | loopHead
  /-- In `wait_and_pop`. -/
  | popping
  /-- Has popped the frame. -/
  | processing (frame : DecodedFrame AVFrame)
  /-- Has the outputs of the frame that are not pushed yet. -/
  | pushing (frame : DecodedFrame AVFrame) (outputs : List (DecodedFrame AVFrame))
  | done

/-- A worker thread with its stop token and its graph cache. -/
structure WorkerThread (γ : Type*) where
  pc : WorkerPc := .loopHead
  stopRequested : Bool := false
  contexts : Worker.StreamContexts γ := fun _ => none

/-- Where the stopping thread is in `Worker::stop`. -/
inductive WorkerStopPc where
  | running
  /-- `in_queue_->stop()` has been called. -/
  | inStopped
  /-- `out_queue_->stop()` has been called, `workers_.clear()` is under way. -/
  | clearing (progress : Teardown)
deriving DecidableEq

/-- The two queues, with what they have accepted: the frames of `in_queue_`, and for
`out_queue_` each frame together with the frame it was made from. -/
structure WorkerQueues where
  inQueue : Fifo (DecodedFrame AVFrame) := {}
  outQueue : Fifo (DecodedFrame AVFrame) := {}
  accepted : List (DecodedFrame AVFrame) := []
  delivered : List (DecodedFrame AVFrame × DecodedFrame AVFrame) := []

/-- A `Worker` with `n` threads. -/
structure Worker (γ : Type*) (n : Nat) extends WorkerQueues where
  workers : Fin n → WorkerThread γ := fun _ => {}
  stopPc : WorkerStopPc := .running

namespace Worker

variable {γ : Type*} {n : Nat}

/-! ## Steps -/

/-- A push to `in_queue_`. -/
def accept (q : WorkerQueues) (frame : DecodedFrame AVFrame) : WorkerQueues :=
  { q with
    inQueue := q.inQueue.push frame
    accepted := if q.inQueue.stopped then q.accepted else q.accepted ++ [frame] }

/-- A push of the output of a frame to `out_queue_`. -/
def deliver (q : WorkerQueues) (frame output : DecodedFrame AVFrame) : WorkerQueues :=
  { q with
    outQueue := q.outQueue.push output
    delivered := if q.outQueue.stopped then q.delivered else q.delivered ++ [(frame, output)] }

/-- One step of a thread in `worker_loop`; `none` while it sleeps in `wait_and_pop` and
once it has returned. -/
def threadStep (av : Avfilter γ) (q : WorkerQueues) (w : WorkerThread γ) :
    Option (WorkerQueues × WorkerThread γ) :=
  match w.pc with
  | .loopHead => some (q, { w with pc := if w.stopRequested then .done else .popping })
  | .popping =>
      match q.inQueue.waitAndPop with
      | none => none
      | some (none, inQueue) => some ({ q with inQueue }, { w with pc := .done })
      | some (some frame, inQueue) => some ({ q with inQueue }, { w with pc := .processing frame })
  | .processing frame =>
      let (outputs, contexts) := processFrame av w.contexts frame
      some (q, { w with pc := .pushing frame outputs, contexts })
  | .pushing _ [] => some (q, { w with pc := .loopHead })
  | .pushing frame (output :: outputs) =>
      some (deliver q frame output, { w with pc := .pushing frame outputs })
  | .done => none

/-- The stop request of `~jthread`. -/
def requestStop (w : WorkerThread γ) : WorkerThread γ :=
  { w with stopRequested := true }

/-- Whether a thread has returned. -/
def isDone (w : WorkerThread γ) : Bool :=
  match w.pc with
  | .done => true
  | _ => false

/-- One step of `Worker::stop`. -/
def stopStep (s : Worker γ n) : Option (Worker γ n) :=
  match s.stopPc with
  | .running => some { s with inQueue := s.inQueue.stop, stopPc := .inStopped }
  | .inStopped =>
      some { s with outQueue := s.outQueue.stop, stopPc := .clearing (.requesting 0) }
  | .clearing progress =>
      (progress.step requestStop isDone s.workers).map fun (progress', workers') =>
        { s with workers := workers', stopPc := .clearing progress' }

/-- The steps of the threads that share a worker's queues. -/
inductive Action (n : Nat) where
  /-- A reader pushes to `in_queue_`. -/
  | accept (frame : DecodedFrame AVFrame)
  /-- The batcher pops from `out_queue_`. -/
  | consume
  | worker (i : Fin n)
  | stop

/-- A worker pool after `start`, with every interleaving of its threads. -/
def machine (av : Avfilter γ) (n : Nat) : Machine (Worker γ n) (Action n) where
  init s := s = {}
  step s
    | .accept frame => some { s with toWorkerQueues := Worker.accept s.toWorkerQueues frame }
    | .consume => s.outQueue.waitAndPop.map fun (_, outQueue) => { s with outQueue }
    | .worker i =>
        (threadStep av s.toWorkerQueues (s.workers i)).map fun (q, w) =>
          { s with toWorkerQueues := q, workers := Function.update s.workers i w }
    | .stop => stopStep s

/-- `Worker::stop` has returned. -/
def Returned (s : Worker γ n) : Prop :=
  s.stopPc = .clearing (.requesting n)

/-! ## What a thread holds -/

/-- The frame a thread has popped and not yet handed on. -/
def hand (pc : WorkerPc) : Multiset (DecodedFrame AVFrame) :=
  match pc with
  | .processing frame => {frame}
  | .pushing frame (_ :: _) => {frame}
  | _ => 0

/-- Everything a step of a worker thread can do: move on with nothing in hand, pop a
frame, process it, or push one output. -/
theorem threadStep_cases {av : Avfilter γ} {q q' : WorkerQueues} {w w' : WorkerThread γ}
    (h : threadStep av q w = some (q', w')) :
    (q' = q ∧ hand w.pc = 0 ∧ ∃ pc, w' = { w with pc } ∧
      (pc = .loopHead ∨ pc = .popping ∨ pc = .done)) ∨
    (∃ frame rest, w.pc = .popping ∧ q.inQueue.queue = frame :: rest.queue ∧
      rest.stopped = q.inQueue.stopped ∧ q' = { q with inQueue := rest } ∧
      w' = { w with pc := .processing frame }) ∨
    (∃ frame, w.pc = .processing frame ∧ q' = q ∧
      w' = { w with
        pc := .pushing frame (processFrame av w.contexts frame).1
        contexts := (processFrame av w.contexts frame).2 }) ∨
    (∃ frame output outputs, w.pc = .pushing frame (output :: outputs) ∧
      q' = deliver q frame output ∧ w' = { w with pc := .pushing frame outputs }) := by
  unfold threadStep at h
  split at h
  · next hpc =>
    cases h
    refine Or.inl ⟨rfl, by simp [hpc, hand], _, rfl, ?_⟩
    cases w.stopRequested <;> simp
  · next hpc =>
    split at h
    · cases h
    · next inQueue hpop =>
      cases h
      rcases Fifo.waitAndPop_cases hpop with ⟨_, hsome, -⟩ | ⟨-, rfl, -, -⟩
      · cases hsome
      · exact Or.inl ⟨rfl, by simp [hpc, hand], _, rfl, by simp⟩
    · next frame inQueue hpop =>
      cases h
      rcases Fifo.waitAndPop_cases hpop with ⟨_, hsome, hqueue, hstopped⟩ | ⟨hnone, -⟩
      · cases hsome
        exact Or.inr (Or.inl ⟨frame, inQueue, hpc, hqueue, hstopped, rfl, rfl⟩)
      · cases hnone
  · next frame hpc =>
    cases h
    exact Or.inr (Or.inr (Or.inl ⟨frame, hpc, rfl, rfl⟩))
  · next frame hpc =>
    cases h
    exact Or.inl ⟨rfl, by simp [hpc, hand], _, rfl, by simp⟩
  · next frame output outputs hpc =>
    cases h
    exact Or.inr (Or.inr (Or.inr ⟨frame, output, outputs, hpc, rfl, rfl⟩))
  · cases h

/-- What a thread has still to push was made from the frame it popped. -/
def OutputsMade (w : WorkerThread γ) : Prop :=
  ∀ frame outputs, w.pc = .pushing frame outputs → ∀ output ∈ outputs, MadeFrom frame output

/-- A step changes `out_queue_` only to push an output of the frame in hand. -/
theorem OutputsMade.threadStep {av : Avfilter γ} {q q' : WorkerQueues} {w w' : WorkerThread γ}
    (hmade : OutputsMade w) (hstep : threadStep av q w = some (q', w')) :
    OutputsMade w' ∧ ((q'.outQueue = q.outQueue ∧ q'.delivered = q.delivered) ∨
      ∃ frame output, MadeFrom frame output ∧ q' = deliver q frame output) := by
  rcases threadStep_cases hstep with ⟨rfl, -, pc, rfl, hpc⟩ | ⟨frame, rest, -, -, -, rfl, rfl⟩ |
    ⟨frame, -, rfl, rfl⟩ | ⟨frame, output, outputs, hpc, rfl, rfl⟩
  · refine ⟨fun frame outputs hpushing => ?_, Or.inl ⟨rfl, rfl⟩⟩
    rcases hpc with rfl | rfl | rfl <;> cases hpushing
  · refine ⟨fun frame outputs hpushing => ?_, Or.inl ⟨rfl, rfl⟩⟩
    cases hpushing
  · refine ⟨fun _ _ hpushing => ?_, Or.inl ⟨rfl, rfl⟩⟩
    cases hpushing
    exact fun output => madeFrom_of_mem_processFrame
  · have hmade := hmade _ _ hpc
    refine ⟨fun _ _ hpushing => ?_, Or.inr ⟨frame, output, ?_, rfl⟩⟩
    · cases hpushing
      exact fun output' hmem => hmade output' (List.mem_cons_of_mem _ hmem)
    · exact hmade output List.mem_cons_self

/-! ## The ledger -/

/-- With graphs that never fail: the cached graphs are idle and at most one output of a
frame is still to be pushed. -/
structure Sound (Idle : γ → Prop) (w : WorkerThread γ) : Prop where
  contexts : ContextsIdle Idle w.contexts
  outputs : ∀ frame outputs, w.pc = .pushing frame outputs → outputs.length ≤ 1

/-- The frames of `in_queue_` and those whose output `out_queue_` has accepted. -/
def settled (q : WorkerQueues) : Multiset (DecodedFrame AVFrame) :=
  ↑q.inQueue.queue + ↑(q.delivered.map Prod.fst)

@[simp]
theorem deliver_settled {q : WorkerQueues} (hopen : q.outQueue.stopped = false)
    (frame output : DecodedFrame AVFrame) :
    settled (deliver q frame output) = settled q + {frame} := by
  simp [settled, deliver, hopen, ← Multiset.coe_add, add_assoc]

variable {av : Avfilter γ} {Idle : γ → Prop}

theorem Sound.threadStep (h : OneToOne av Idle) {q q' : WorkerQueues} {w w' : WorkerThread γ}
    (hsound : Sound Idle w) (hstep : threadStep av q w = some (q', w')) : Sound Idle w' := by
  rcases threadStep_cases hstep with ⟨-, -, pc, rfl, hpc⟩ | ⟨frame, rest, -, -, -, -, rfl⟩ |
    ⟨frame, -, -, rfl⟩ | ⟨frame, output, outputs, hpc, -, rfl⟩
  · refine ⟨hsound.contexts, fun frame outputs hpushing => ?_⟩
    rcases hpc with rfl | rfl | rfl <;> cases hpushing
  · exact ⟨hsound.contexts, fun _ _ hpushing => by cases hpushing⟩
  · rcases processFrame_oneToOne h hsound.contexts frame with ⟨procFrame, houtputs, hidle⟩
    refine ⟨hidle, fun _ _ hpushing => ?_⟩
    cases hpushing
    rw [houtputs]
    exact le_rfl
  · refine ⟨hsound.contexts, fun _ _ hpushing => ?_⟩
    cases hpushing
    have hlength := hsound.outputs _ _ hpc
    simp only [List.length_cons] at hlength
    omega

/-- While `out_queue_` accepts, a thread only moves frames between `in_queue_`, its hand
and the delivered ones. -/
theorem threadStep_balance (h : OneToOne av Idle) {q q' : WorkerQueues} {w w' : WorkerThread γ}
    (hsound : Sound Idle w) (hopen : q.outQueue.stopped = false)
    (hstep : threadStep av q w = some (q', w')) :
    settled q' + hand w'.pc = settled q + hand w.pc := by
  rcases threadStep_cases hstep with ⟨rfl, hhand, pc, rfl, hpc⟩ |
    ⟨frame, rest, hpc, hqueue, -, rfl, rfl⟩ | ⟨frame, hpc, rfl, rfl⟩ |
    ⟨frame, output, outputs, hpc, rfl, rfl⟩
  · rw [hhand]
    rcases hpc with rfl | rfl | rfl <;> rfl
  · simp only [settled, hand, hpc, hqueue, ← Multiset.cons_coe]
    rw [← Multiset.singleton_add]
    abel
  · rcases processFrame_oneToOne h hsound.contexts frame with ⟨procFrame, houtputs, -⟩
    simp [hand, hpc, houtputs]
  · have hlength := hsound.outputs _ _ hpc
    have hnil : outputs = [] := by
      apply List.length_eq_zero_iff.mp
      simp only [List.length_cons] at hlength
      omega
    subst hnil
    simp [hand, hpc, hopen]

end Worker

end FrameProcessor
