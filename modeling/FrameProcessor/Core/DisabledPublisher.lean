import FrameProcessor.Core.Pipeline
import FrameProcessor.Utils.Environment

/-!
# core/main - The pipeline without a publisher

`Publisher::Publisher` starts no thread when `FP_REDIS_HOST` is not set or empty, and
`Publisher::stop` then returns at once.  The workers do not know and push to
`processed_frame_queue` as ever; nobody pops from it.

Main results:

- Theorem `Publisher.construct_disabled`: without a Redis host the publisher is disabled.
- Theorem `Pipeline.held_eq_delivered`: with a disabled publisher the queue holds every frame
  that was ever pushed.
- Theorem `Pipeline.bounded_iff`: the queue of a pipeline with a disabled publisher stays
  below a bound if and only if there are no workers.
-/

namespace FrameProcessor

/-- The environment variables of a publisher. -/
structure PublisherEnvironment where
  queueWarningThreshold : Option Bytes := none
  redisHost : Option Bytes := none
  publisherThreads : Option Bytes := none
  redisPort : Option Bytes := none
  redisQueueBaseName : Option Bytes := none

/-- What the constructor leaves: its settings and how many publisher threads run; the batching
thread runs exactly when the publisher is enabled. -/
structure PublisherSettings where
  redisHost : Bytes
  redisPort : Option Int32 := none
  redisQueueBaseName : Bytes := []
  isEnabled : Bool := false
  publisherThreads : Nat := 0

namespace Publisher

/-- `Publisher::Publisher`, which reads the number of threads twice. -/
def construct (env : PublisherEnvironment) : Except StdException PublisherSettings := do
  let _ ← stoi (getEnv env.queueWarningThreshold "1000")
  let redisHost := getEnv env.redisHost ""
  let _ ← stoi (getEnv env.publisherThreads "4")
  if redisHost.isEmpty then pure { redisHost }
  else
    let redisPort ← stoi (getEnv env.redisPort "6379")
    let threads ← stoi (getEnv env.publisherThreads "4")
    pure
      { redisHost
        redisPort := some redisPort
        redisQueueBaseName := getEnv env.redisQueueBaseName "fp_batches"
        isEnabled := true
        publisherThreads := max 1 threads.toInt.toNat }

/-- `FP_REDIS_HOST` is not set, or empty. -/
def NoRedisHost (env : PublisherEnvironment) : Prop :=
  env.redisHost = none ∨ env.redisHost = some []

/-- Without a Redis host the publisher is disabled. -/
theorem construct_disabled {env : PublisherEnvironment} (hhost : NoRedisHost env)
    {settings : PublisherSettings} (h : construct env = .ok settings) :
    settings.isEnabled = false := by
  have hempty : (getEnv env.redisHost "").isEmpty = true := by
    rcases hhost with hnone | hsome
    · rw [hnone]
      rfl
    · rw [hsome]
      rfl
  rcases bind_eq_ok h with ⟨threshold, -, hrest⟩
  rcases bind_eq_ok hrest with ⟨threads, -, hsettings⟩
  rw [if_pos hempty] at hsettings
  rw [← Except.ok.inj hsettings]

end Publisher

namespace Pipeline

variable {γ : Type*} {n m : Nat}

/-! ## Steps with and without a publisher -/

/-- The pipeline after the publisher has been constructed: a disabled publisher has no
threads, and its `stop` does nothing. -/
def startedMachine (isEnabled : Bool) (av : Avfilter γ) (dryRun : Bool) (n m : Nat) :
    Machine (Pipeline γ n m) (Action n m) where
  init s := s = {}
  step s a :=
    if isEnabled then (machine av dryRun n m).step s a
    else
      match a with
      | .batcher | .publisher _ _ => none
      | .stopPublisher => some s
      | .accept frame => (machine av dryRun n m).step s (.accept frame)
      | .worker i => (machine av dryRun n m).step s (.worker i)
      | .stopWorker => (machine av dryRun n m).step s .stopWorker

/-- With a publisher that is enabled this is the machine of the pipeline. -/
theorem startedMachine_enabled (av : Avfilter γ) (dryRun : Bool) :
    startedMachine true av dryRun n m = machine av dryRun n m := by
  simp only [startedMachine, if_true]
  rfl

variable {av : Avfilter γ} {Idle : γ → Prop} {dryRun : Bool} {s s' : Pipeline γ n m}

/-- With a disabled publisher a step leaves the frames of `processed_frame_queue` and the
frames handed on as they are, or a worker hands on one more. -/
theorem disabled_cases {a : Action n m}
    (hstep : (startedMachine false av dryRun n m).step s a = some s') :
    (s'.processedFrameQueue.queue = s.processedFrameQueue.queue ∧ s'.delivered = s.delivered) ∨
    ∃ (_ : Fin n) (frame output : DecodedFrame AVFrame),
      s'.worker.toWorkerQueues = Worker.deliver s.worker.toWorkerQueues frame output := by
  cases a with
  | accept frame =>
      cases hstep
      exact Or.inl ⟨rfl, rfl⟩
  | worker i =>
      rcases Option.map_eq_some_iff.mp hstep with ⟨p, hpool, rfl⟩
      rcases Option.map_eq_some_iff.mp hpool with ⟨⟨q, w⟩, hthread, rfl⟩
      rcases Worker.threadStep_cases hthread with ⟨rfl, -⟩ | ⟨frame, rest, -, -, -, rfl, -⟩ |
        ⟨frame, -, rfl, -⟩ | ⟨frame, output, outputs, -, rfl, -⟩
      · exact Or.inl ⟨rfl, rfl⟩
      · exact Or.inl ⟨rfl, rfl⟩
      · exact Or.inl ⟨rfl, rfl⟩
      · exact Or.inr ⟨i, frame, output, rfl⟩
  | stopWorker =>
      rcases Option.map_eq_some_iff.mp hstep with ⟨p, hstop, rfl⟩
      rcases Worker.stopStep_cases hstop with ⟨-, rfl⟩ | ⟨-, rfl⟩ | ⟨_, _, _, -, -, rfl⟩
      · exact Or.inl ⟨rfl, rfl⟩
      · exact Or.inl ⟨rfl, rfl⟩
      · exact Or.inl ⟨rfl, rfl⟩
  | batcher | publisher => cases hstep
  | stopPublisher =>
      cases hstep
      exact Or.inl ⟨rfl, rfl⟩

/-- `processed_frame_queue` holds every frame that the workers have handed on. -/
def HoldsAll (s : Pipeline γ n m) : Prop :=
  s.processedFrameQueue.queue = s.delivered.map Prod.snd

/-- What a worker hands on is pushed exactly when it is logged. -/
theorem deliver_holds {q : WorkerQueues} (hq : q.outQueue.queue = q.delivered.map Prod.snd)
    (frame output : DecodedFrame AVFrame) :
    (Worker.deliver q frame output).outQueue.queue =
      (Worker.deliver q frame output).delivered.map Prod.snd := by
  simp only [Worker.deliver]
  cases hstopped : q.outQueue.stopped with
  | true => simpa [Fifo.push_of_stopped hstopped] using hq
  | false => simp [Fifo.push_queue_of_not_stopped hstopped, hq]

theorem holdsAll_step {a : Action n m} (hs : HoldsAll s)
    (hstep : (startedMachine false av dryRun n m).step s a = some s') : HoldsAll s' := by
  rcases disabled_cases hstep with ⟨hqueue, hdelivered⟩ | ⟨-, frame, output, hqueues⟩
  · unfold HoldsAll
    rw [hqueue, hdelivered]
    exact hs
  · have hbefore : s.worker.outQueue.queue = s.worker.delivered.map Prod.snd := hs
    change s'.worker.toWorkerQueues.outQueue.queue =
      s'.worker.toWorkerQueues.delivered.map Prod.snd
    rw [hqueues]
    exact deliver_holds hbefore frame output

/-- In every run with a disabled publisher the queue holds every frame handed on. -/
theorem held_eq_delivered {schedule : List (Action n m)} {t : Pipeline γ n m}
    (hrun : (startedMachine false av dryRun n m).exec {} schedule = some t) :
    t.processedFrameQueue.queue = t.delivered.map Prod.snd := by
  have hstart : HoldsAll ({} : Pipeline γ n m) := rfl
  exact Machine.exec_induction (fun _ _ _ hs hstep => holdsAll_step hs hstep) hstart hrun

/-! ## No workers -/

/-- Without workers nothing is handed on. -/
theorem noWorkers_step {s s' : Pipeline γ 0 m} {a : Action 0 m} (hs : s.delivered = [])
    (hstep : (startedMachine false av dryRun 0 m).step s a = some s') : s'.delivered = [] := by
  rcases disabled_cases hstep with ⟨-, hdelivered⟩ | ⟨i, -⟩
  · exact hdelivered.trans hs
  · exact i.elim0

/-! ## A worker and frames without end -/

open Machine (alone)

/-- Readers and workers take the steps that they take in the pipeline. -/
structure Feeds (av : Avfilter γ) (M : Machine (Pipeline γ n m) (Action n m)) : Prop where
  accept : ∀ s frame, M.step s (.accept frame) = some (s.setWorker
    { s.worker with toWorkerQueues := Worker.accept s.worker.toWorkerQueues frame })
  worker : ∀ s i, M.step s (.worker i) =
    (Worker.threadStep av s.worker.toWorkerQueues (s.workers i)).map fun p => s.setWorker
      { s.worker with toWorkerQueues := p.1, workers := Function.update s.workers i p.2 }

theorem feeds_machine : Feeds av (machine av dryRun n m) where
  accept _ _ := rfl
  worker _ _ := Option.map_map ..

theorem feeds_disabled : Feeds av (startedMachine false av dryRun n m) where
  accept _ _ := rfl
  worker _ _ := Option.map_map ..

variable {M : Machine (Pipeline γ n m) (Action n m)}

/-- A worker that runs alone. -/
theorem Feeds.exec_worker (hM : Feeds av M) (s : Pipeline γ n m) (i : Fin n) (k : Nat) :
    M.exec s (List.replicate k (.worker i)) =
      (alone (fun p => Worker.threadStep av p.1 p.2) k
          (s.worker.toWorkerQueues, s.workers i)).map fun p =>
        s.setWorker { s.worker with
          toWorkerQueues := p.1, workers := Function.update s.workers i p.2 } := by
  refine Machine.exec_replicate
    (fun s : Pipeline γ n m => (s.worker.toWorkerQueues, s.workers i))
    (fun s p => s.setWorker { s.worker with
      toWorkerQueues := p.1, workers := Function.update s.workers i p.2 })
    (fun p => Worker.threadStep av p.1 p.2) ?_ ?_ ?_ (fun s => hM.worker s i) k s
  · intro s
    simp only [Function.update_eq_self]
    rfl
  · intro s p p'
    change s.setWorker { s.worker with
      toWorkerQueues := p'.1
      workers := Function.update (Function.update s.workers i p.2) i p'.2 } = _
    rw [Function.update_idem]
  · intro s p _
    refine Prod.ext rfl ?_
    change Function.update s.workers i p.2 i = p.2
    rw [Function.update_self]

/-- A worker thread at the head of its loop that nobody has asked to stop. -/
structure Looping (Idle : γ → Prop) (w : WorkerThread γ) : Prop where
  pc : w.pc = .loopHead
  stopRequested : w.stopRequested = false
  contexts : Worker.ContextsIdle Idle w.contexts

/-- Five steps of a worker alone take a frame from one queue to the other. -/
theorem worker_alone (h : Worker.OneToOne av Idle) {q : WorkerQueues} {w : WorkerThread γ}
    (hw : Looping Idle w) {frame : DecodedFrame AVFrame} (hin : q.inQueue.queue = [frame])
    (hout : q.outQueue.stopped = false) :
    ∃ q' w' procFrame, alone (fun p => Worker.threadStep av p.1 p.2) 5 (q, w) = some (q', w') ∧
      Looping Idle w' ∧ q'.inQueue.queue = [] ∧ q'.inQueue.stopped = q.inQueue.stopped ∧
      q'.outQueue.stopped = false ∧
      q'.outQueue.queue = q.outQueue.queue ++ [{ frame with frame := procFrame }] := by
  rcases Worker.processFrame_oneToOne h hw.contexts frame with ⟨procFrame, houtputs, hidle⟩
  simp only [alone, Worker.threadStep, hw.pc, hw.stopRequested, Fifo.waitAndPop_cons hin, houtputs,
    Option.bind_some, Bool.false_eq_true, if_false]
  refine ⟨_, _, procFrame, rfl, ⟨rfl, rfl, hidle⟩, rfl, rfl, ?_, ?_⟩
  · simp [Worker.deliver, hout]
  · simp [Worker.deliver, Fifo.push_queue_of_not_stopped hout]

/-- A pipeline whose decoded frames are all with the workers, one of which is at the head of
its loop. -/
structure Ready (Idle : γ → Prop) (i : Fin n) (s : Pipeline γ n m) : Prop where
  decodeEmpty : s.decodeFrameQueue.queue = []
  decodeOpen : s.decodeFrameQueue.stopped = false
  processedOpen : s.processedFrameQueue.stopped = false
  looping : Looping Idle (s.workers i)

theorem ready_init (i : Fin n) : Ready Idle i ({} : Pipeline γ n m) where
  decodeEmpty := rfl
  decodeOpen := rfl
  processedOpen := rfl
  looping := ⟨rfl, rfl, nofun⟩

/-- One more frame is read and handed on. -/
theorem Ready.round (h : Worker.OneToOne av Idle) (hM : Feeds av M) {i : Fin n}
    (hs : Ready Idle i s) (frame : DecodedFrame AVFrame) :
    ∃ w procFrame, M.exec s (.accept frame :: List.replicate 5 (.worker i)) =
        some (s.setWorker w) ∧ Ready Idle i (s.setWorker w) ∧
      w.outQueue.queue = s.processedFrameQueue.queue ++ [{ frame with frame := procFrame }] := by
  let accepted := s.setWorker
    { s.worker with toWorkerQueues := Worker.accept s.worker.toWorkerQueues frame }
  have hqueue : accepted.decodeFrameQueue.queue = [frame] := by
    change (s.decodeFrameQueue.push frame).queue = [frame]
    rw [Fifo.push_queue_of_not_stopped hs.decodeOpen, hs.decodeEmpty]
    rfl
  have hopen : accepted.decodeFrameQueue.stopped = false := by
    change (s.decodeFrameQueue.push frame).stopped = false
    rw [Fifo.push_stopped]
    exact hs.decodeOpen
  rcases worker_alone h (q := accepted.worker.toWorkerQueues) hs.looping hqueue
    hs.processedOpen with
    ⟨q, w, procFrame, hsteps, hlooping, hempty, hstopped, hprocessed, hout⟩
  let worked : Worker γ n :=
    { accepted.worker with toWorkerQueues := q, workers := Function.update s.workers i w }
  refine ⟨worked, procFrame, ?_, ⟨hempty, hstopped.trans hopen, hprocessed, ?_⟩, hout⟩
  · refine (Machine.exec_cons_eq_some _).mpr ⟨accepted, hM.accept s frame, ?_⟩
    rw [hM.exec_worker]
    exact congrArg (Option.map _) hsteps
  · change Looping Idle (Function.update s.workers i w i)
    rw [Function.update_self]
    exact hlooping

/-- Runs that hand on any number of frames. -/
theorem exists_run (h : Worker.OneToOne av Idle) (i : Fin n) (frame : DecodedFrame AVFrame)
    (k : Nat) :
    ∃ schedule t, (startedMachine false av dryRun n m).exec {} schedule = some t ∧
      Ready Idle i t ∧ t.processedFrameQueue.queue.length = k := by
  induction k with
  | zero => exact ⟨[], {}, rfl, ready_init i, rfl⟩
  | succ k ih =>
      rcases ih with ⟨schedule, s, hrun, hready, hlength⟩
      rcases hready.round h feeds_disabled frame with ⟨w, procFrame, hround, hready', hout⟩
      refine ⟨_, s.setWorker w, (Machine.exec_append_eq_some _).mpr ⟨s, hrun, hround⟩, hready', ?_⟩
      change w.outQueue.queue.length = k + 1
      rw [hout, List.length_append, hlength]
      rfl

/-! ## The bound -/

/-- No run has more than so many frames in `processed_frame_queue` at any time. -/
def Bounded (M : Machine (Pipeline γ n m) (Action n m)) (bound : Nat) : Prop :=
  ∀ schedule t, M.exec {} schedule = some t → t.processedFrameQueue.queue.length ≤ bound

/-- The queue has no bound when there is a worker. -/
theorem not_bounded (h : Worker.OneToOne av Idle) (i : Fin n) (bound : Nat) :
    ¬Bounded (startedMachine false av dryRun n m) bound := by
  intro hbounded
  rcases exists_run h i (blackFrame 2 2 2) (bound + 1) with
    ⟨schedule, t, hrun, -, hlength⟩
  have hle := hbounded schedule t hrun
  omega

/-- Without a Redis host the number of frames in `processed_frame_queue` has a bound for all
runs if and only if there are no workers. -/
theorem bounded_iff (h : Worker.OneToOne av Idle) {env : PublisherEnvironment}
    (hhost : Publisher.NoRedisHost env) {settings : PublisherSettings}
    (hsettings : Publisher.construct env = .ok settings) (dryRun : Bool) (n m : Nat) :
    (∃ bound, Bounded (startedMachine settings.isEnabled av dryRun n m) bound) ↔ n = 0 := by
  rw [Publisher.construct_disabled hhost hsettings]
  constructor
  · intro ⟨bound, hbounded⟩
    by_contra hworkers
    exact not_bounded h ⟨0, Nat.pos_of_ne_zero hworkers⟩ bound hbounded
  · intro hnone
    subst hnone
    refine ⟨0, fun schedule t hrun => ?_⟩
    have hnothing : t.delivered = [] :=
      Machine.exec_induction (fun _ _ _ hs hstep => noWorkers_step hs hstep) rfl hrun
    rw [held_eq_delivered hrun, hnothing]
    exact le_rfl

/-- With no variable set and no workers nothing is held. -/
theorem noWorkers_bounded :
    ∃ settings, Publisher.construct {} = .ok settings ∧
      ∃ bound,
        Bounded (startedMachine settings.isEnabled Worker.passThrough false 0 0) bound := by
  have hconstruct : Publisher.construct {} = .ok { redisHost := [] } := rfl
  exact ⟨_, hconstruct, (bounded_iff Worker.passThrough_oneToOne (Or.inl rfl) hconstruct
    false 0 0).mpr rfl⟩

/-- With no variable set and one worker there is no bound. -/
theorem oneWorker_not_bounded :
    ∃ settings, Publisher.construct {} = .ok settings ∧
      ¬∃ bound,
        Bounded (startedMachine settings.isEnabled Worker.passThrough false 1 0) bound := by
  have hconstruct : Publisher.construct {} = .ok { redisHost := [] } := rfl
  refine ⟨_, hconstruct, ?_⟩
  intro ⟨bound, hbounded⟩
  exact not_bounded Worker.passThrough_oneToOne (Fin.last 0) bound hbounded

end Pipeline

end FrameProcessor
