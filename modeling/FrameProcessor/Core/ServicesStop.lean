import FrameProcessor.Core.Consumption
import FrameProcessor.Foundations.Projection

/-!
# core/main - The services stop

At the shutdown `app_logic` calls `Worker::stop` and, when it has returned, `Publisher::stop`.
The two components share a queue, and that interferes with the second call: `Worker::stop` stops
the queue between them, so the batching thread may have flushed and ended before
`Publisher::stop` is called.  The pipeline shows the worker pool at all times, and the
publisher from the call of its `stop` on.

Main results:

- Theorem `Pipeline.InSequence.step`: every step keeps the order of the two calls.
- Definitions `Pipeline.workerView` and `Pipeline.publisherView`: the pipeline as its components.
- Theorem `Pipeline.services_stop`: in every fair behaviour both calls return.
-/

namespace FrameProcessor

namespace Pipeline

variable {γ : Type*} {n m : Nat} {av : Avfilter γ} {dryRun : Bool} {s s' : Pipeline γ n m}

/-! ## The order of the calls -/

/-- `app_logic` calls `Publisher::stop` when `Worker::stop` has returned. -/
def CallsInTurn (s : Pipeline γ n m) (a : Action n m) : Prop :=
  match a with
  | .stopPublisher => s.workerStopPc = .clearing (.requesting n)
  | _ => True

instance (s : Pipeline γ n m) (a : Action n m) : Decidable (CallsInTurn s a) :=
  match a with
  | .stopPublisher => decEq s.workerStopPc (.clearing (.requesting n))
  | .accept _ | .worker _ | .stopWorker | .batcher | .publisher _ _ => .isTrue trivial

/-- The pipeline as `app_logic` stops it. -/
def stoppingMachine (av : Avfilter γ) (dryRun : Bool) (n m : Nat) :
    Machine (Pipeline γ n m) (Action n m) :=
  (machine av dryRun n m).restrict CallsInTurn

/-- What the order of the calls leaves. -/
structure InSequence (s : Pipeline γ n m) : Prop where
  processedStopped : ∀ progress, s.workerStopPc = .clearing progress →
    s.processedFrameQueue.stopped = true
  workersFirst : s.publisherStopPc ≠ .running → s.workerStopPc = .clearing (.requesting n)

theorem stoppingMachine_steps {a : Action n m}
    (h : (stoppingMachine av dryRun n m).step s a = some s') :
    Steps av dryRun s a s' ∧ CallsInTurn s a := by
  rcases Machine.restrict_step.mp h with ⟨hturn, hstep⟩
  exact ⟨machine_steps hstep, hturn⟩

theorem inSequence_init : InSequence ({} : Pipeline γ n m) where
  processedStopped _ hpc := by cases hpc
  workersFirst hcalled := absurd rfl hcalled

/-- `Worker::stop` does nothing once it has returned. -/
theorem stopWorker_of_returned {w w' : Worker γ n} (hreturned : Worker.Returned w) :
    Worker.stopStep w ≠ some w' := by
  have hpc : w.stopPc = .clearing (.requesting n) := hreturned
  simp [Worker.stopStep, hpc, Teardown.step]

/-- A step of `Publisher::stop` stops no queue that was not, and takes no frame in. -/
theorem stopPublisher_frame {p p' : Publisher m} (h : Publisher.stopStep p = some p') :
    p'.accepted = p.accepted ∧ p'.stopPc ≠ .running ∧
      (p.frameQueue.stopped = true → p'.frameQueue = p.frameQueue) := by
  cases Publisher.stopStep_moves h with
  | stopFrames hpc =>
      refine ⟨rfl, nofun, fun hstopped => ?_⟩
      simp only [Fifo.stop, ← hstopped]
  | requestBatcher | joinBatcher | stopBatches | clear => exact ⟨rfl, nofun, fun _ => rfl⟩

/-- Every step keeps the order of the two calls. -/
theorem InSequence.step (s : Pipeline γ n m) (a : Action n m) (s' : Pipeline γ n m)
    (hs : InSequence s) (hstep : (stoppingMachine av dryRun n m).step s a = some s') :
    InSequence s' := by
  rcases stoppingMachine_steps hstep with ⟨hsteps, hturn⟩
  cases hsteps with
  | accept frame => exact ⟨hs.processedStopped, hs.workersFirst⟩
  | worker i q w hthread =>
      have hstopped := (Worker.threadStep_frame hthread).2.1
      exact ⟨fun progress hpc => hstopped.trans (hs.processedStopped progress hpc), hs.workersFirst⟩
  | stopWorker w hstop =>
      have hnot : s.publisherStopPc = .running := by
        by_contra hcalled
        have hreturned : Worker.Returned s.worker := hs.workersFirst hcalled
        exact stopWorker_of_returned hreturned hstop
      refine ⟨fun progress hpc => ?_, fun hcalled => absurd hnot hcalled⟩
      rcases Worker.stopStep_cases hstop with ⟨-, rfl⟩ | ⟨-, rfl⟩ |
        ⟨progress', -, -, hpc', -, rfl⟩
      · cases hpc
      · rfl
      · exact hs.processedStopped progress' hpc'
  | batcher q t hthread =>
      have hstopped := (Publisher.batcherStep_frame hthread).1
      exact ⟨fun progress hpc => hstopped.trans (hs.processedStopped progress hpc), hs.workersFirst⟩
  | publisher k outcome q t hthread =>
      have hstopped := congrArg Fifo.stopped (Publisher.publisherStep_frame hthread).1
      exact ⟨fun progress hpc => hstopped.trans (hs.processedStopped progress hpc), hs.workersFirst⟩
  | stopPublisher p hstop =>
      have hstopped := hs.processedStopped _ hturn
      refine ⟨fun progress hpc => ?_, fun _ => hturn⟩
      exact (congrArg Fifo.stopped ((stopPublisher_frame hstop).2.2 hstopped)).trans hstopped

/-! ## The components -/

/-- A pipeline whose publisher has kept its frame queue shows the same worker pool. -/
theorem worker_of_sameQueue {p : Publisher m} (h : p.frameQueue = s.processedFrameQueue) :
    (s.setPublisher p).worker = s.worker := by
  rw [worker_setPublisher, h]
  rfl

/-- A step of the batching thread is for the workers a pop from `out_queue_`, or nothing. -/
theorem batcher_consumes {q : PublisherQueues} {t : BatcherThread}
    (hthread : Publisher.batcherStep s.publisher.toPublisherQueues s.batcher = some (q, t)) :
    (Worker.machine av n).Elapses s.worker
      (match s.batcher.pc with
        | .popping => some .consume
        | _ => none)
      (s.setPublisher { s.publisher with toPublisherQueues := q, batcher := t }).worker := by
  have hsame : s.batcher.pc ≠ .popping → q.frameQueue = s.processedFrameQueue := by
    intro hpc
    cases Publisher.batcherStep_moves hthread with
    | ended hpopping | pop _ _ hpopping => exact absurd hpopping hpc
    | batch frame _ => cases (Publisher.batchFrame s.batcher.currentBatches frame).2 <;> rfl
    | leave | wait | flush | finish => rfl
  cases hpc : s.batcher.pc with
  | popping =>
      simp only [Publisher.batcherStep, hpc] at hthread
      split at hthread
      · cases hthread
      · next frameQueue hpop =>
        cases hthread
        exact Option.map_eq_some_iff.mpr ⟨(none, frameQueue), hpop, rfl⟩
      · next frame frameQueue hpop =>
        cases hthread
        exact Option.map_eq_some_iff.mpr ⟨(some frame, frameQueue), hpop, rfl⟩
  | loopHead | holding | flushing | done =>
      exact worker_of_sameQueue (hsame (by simp [hpc]))

/-- The worker pool that a pipeline shows. -/
def workerView (av : Avfilter γ) (dryRun : Bool) (n m : Nat) :
    Projection (stoppingMachine av dryRun n m) (Worker.machine av n) InSequence where
  view := worker
  act s
    | .accept frame => some (.accept frame)
    | .worker i => some (.worker i)
    | .stopWorker => some .stop
    | .batcher =>
        match s.batcher.pc with
        | .popping => some .consume
        | _ => none
    | .publisher _ _ => none
    | .stopPublisher => none
  invariant := InSequence.step
  elapses s a s' hs hstep := by
    rcases stoppingMachine_steps hstep with ⟨hsteps, hturn⟩
    cases hsteps with
    | accept frame => rfl
    | worker i q w hthread =>
        exact Option.map_eq_some_iff.mpr ⟨(q, w), hthread, rfl⟩
    | stopWorker w hstop => exact hstop
    | batcher q t hthread => exact batcher_consumes hthread
    | publisher k outcome q t hthread =>
        exact worker_of_sameQueue (Publisher.publisherStep_frame hthread).1
    | stopPublisher p hstop =>
        exact worker_of_sameQueue ((stopPublisher_frame hstop).2.2 (hs.processedStopped _ hturn))

/-- A step of a worker is for the publisher a push to its frame queue, or nothing. -/
theorem worker_accepts {i : Fin n} {q : WorkerQueues} {w : WorkerThread γ}
    (hthread : Worker.threadStep av s.worker.toWorkerQueues (s.workers i) = some (q, w)) :
    (Publisher.machine dryRun m).Elapses s.publisher
      (match (s.workers i).pc with
        | .pushing _ (output :: _) => some (.accept output)
        | _ => none)
      (s.setWorker { s.worker with
        toWorkerQueues := q
        workers := Function.update s.workers i w }).publisher := by
  have hsame : q.outQueue = s.processedFrameQueue → q.delivered = s.delivered →
      (s.setWorker { s.worker with
        toWorkerQueues := q
        workers := Function.update s.workers i w }).publisher = s.publisher := by
    intro hout hdelivered
    rw [publisher_setWorker, hout, hdelivered]
    rfl
  rcases Worker.threadStep_cases hthread with ⟨rfl, hhand, -⟩ | ⟨frame, rest, hpc, -, -, rfl, -⟩ |
    ⟨frame, hpc, rfl, -⟩ | ⟨frame, output, outputs, hpc, rfl, -⟩
  · split
    · next _ output _ hpc => simp [hpc, Worker.hand] at hhand
    · exact hsame rfl rfl
  · rw [hpc]
    exact hsame rfl rfl
  · rw [hpc]
    exact hsame rfl rfl
  · rw [hpc, publisher_deliver]
    rfl

/-- `Publisher::stop` has been called. -/
def PublisherCalled (s : Pipeline γ n m) : Prop :=
  InSequence s ∧ s.publisherStopPc ≠ .running

/-- The publisher that a pipeline shows once its `stop` has been called. -/
def publisherView (av : Avfilter γ) (dryRun : Bool) (n m : Nat) :
    Projection (stoppingMachine av dryRun n m) (Publisher.machine dryRun m) PublisherCalled where
  view := publisher
  act s
    | .accept _ => none
    | .worker i =>
        match (s.workers i).pc with
        | .pushing _ (output :: _) => some (.accept output)
        | _ => none
    | .stopWorker => none
    | .batcher => some .batcher
    | .publisher k outcome => some (.publisher k outcome)
    | .stopPublisher => some .stop
  invariant s a s' hs hstep := by
    refine ⟨InSequence.step s a s' hs.1 hstep, ?_⟩
    cases (stoppingMachine_steps hstep).1 with
    | accept | worker | stopWorker | batcher | publisher => exact hs.2
    | stopPublisher p hstop => exact (stopPublisher_frame hstop).2.1
  elapses s a s' hs hstep := by
    rcases stoppingMachine_steps hstep with ⟨hsteps, hturn⟩
    cases hsteps with
    | accept frame => rfl
    | worker i q w hthread => exact worker_accepts hthread
    | stopWorker w hstop =>
        have hreturned : Worker.Returned s.worker := hs.1.workersFirst hs.2
        exact absurd hstop (stopWorker_of_returned hreturned)
    | batcher q t hthread =>
        have haccepted := (Publisher.batcherStep_frame hthread).2.2.1
        rw [publisher_setPublisher haccepted]
        exact Option.map_eq_some_iff.mpr ⟨(q, t), hthread, rfl⟩
    | publisher k outcome q t hthread =>
        have haccepted := (Publisher.publisherStep_frame hthread).2.2.1
        rw [publisher_setPublisher haccepted]
        exact Option.map_eq_some_iff.mpr ⟨(q, t), hthread, rfl⟩
    | stopPublisher p hstop =>
        rw [publisher_setPublisher (stopPublisher_frame hstop).1]
        exact hstop

/-! ## Fairness -/

/-- A behaviour that is fair to the threads of the pipeline is fair to those of the worker
pool. -/
theorem workerView_fair (b : Behaviour (stoppingMachine av dryRun n m))
    (hs : InSequence (b.state 0)) (hfair : ∀ t, b.Fair owner t) (t : Worker.PoolThread n) :
    ((workerView av dryRun n m).behaviour b hs).Fair Worker.owner t := by
  cases t with
  | worker i =>
      refine (workerView av dryRun n m).fair b hs (hfair (.worker i)) ?_ ?_
      · rintro s - ⟨a, w, howner, hstep⟩
        cases a with
        | worker j =>
            cases howner
            exact ⟨.worker i, _, rfl,
              Machine.restrict_step.mpr ⟨trivial, Option.map_eq_some_iff.mpr ⟨w, hstep, rfl⟩⟩⟩
        | accept | consume | stop => cases howner
      · intro s a s' _ _ _ howner
        cases a with
        | worker j =>
            cases howner
            exact ⟨.worker i, rfl, rfl⟩
        | accept | stopWorker | batcher | publisher | stopPublisher => cases howner
  | stopper =>
      refine (workerView av dryRun n m).fair b hs (hfair .main) ?_ ?_
      · rintro s - ⟨a, w, howner, hstep⟩
        cases a with
        | stop =>
            exact ⟨.stopWorker, _, rfl,
              Machine.restrict_step.mpr ⟨trivial, Option.map_eq_some_iff.mpr ⟨w, hstep, rfl⟩⟩⟩
        | accept | consume | worker => cases howner
      · rintro s a s' - ⟨c, w, hownerc, hstepc⟩ hstep howner
        cases a with
        | stopWorker => exact ⟨.stop, rfl, rfl⟩
        | stopPublisher =>
            -- then `Worker::stop` has returned, and cannot step
            have hreturned : Worker.Returned s.worker := (stoppingMachine_steps hstep).2
            cases c with
            | stop => exact absurd hstepc (stopWorker_of_returned hreturned)
            | accept | consume | worker => cases hownerc
        | accept | worker | batcher | publisher => cases howner

/-- A behaviour that is fair to the threads of the pipeline is fair to those of the
publisher. -/
theorem publisherView_fair (b : Behaviour (stoppingMachine av dryRun n m))
    (hs : PublisherCalled (b.state 0)) (hfair : ∀ t, b.Fair owner t)
    (t : Publisher.PublishingThread m) :
    ((publisherView av dryRun n m).behaviour b hs).Fair Publisher.owner t := by
  cases t with
  | batcher =>
      refine (publisherView av dryRun n m).fair b hs (hfair .batcher) ?_ ?_
      · rintro s - ⟨a, p, howner, hstep⟩
        cases a with
        | batcher =>
            exact ⟨.batcher, _, rfl,
              Machine.restrict_step.mpr ⟨trivial, Option.map_eq_some_iff.mpr ⟨p, hstep, rfl⟩⟩⟩
        | accept | publisher | stop => cases howner
      · intro s a s' _ _ _ howner
        cases a with
        | batcher => exact ⟨.batcher, rfl, rfl⟩
        | accept | worker | stopWorker | publisher | stopPublisher => cases howner
  | publisher k =>
      refine (publisherView av dryRun n m).fair b hs (hfair (.publisher k)) ?_ ?_
      · rintro s - ⟨a, p, howner, hstep⟩
        cases a with
        | publisher j outcome =>
            cases howner
            exact ⟨.publisher k outcome, _, rfl,
              Machine.restrict_step.mpr ⟨trivial, Option.map_eq_some_iff.mpr ⟨p, hstep, rfl⟩⟩⟩
        | accept | batcher | stop => cases howner
      · intro s a s' _ _ _ howner
        cases a with
        | publisher j outcome =>
            cases howner
            exact ⟨.publisher k outcome, rfl, rfl⟩
        | accept | worker | stopWorker | batcher | stopPublisher => cases howner
  | stopper =>
      refine (publisherView av dryRun n m).fair b hs (hfair .main) ?_ ?_
      · rintro s hs ⟨a, p, howner, hstep⟩
        cases a with
        | stop =>
            exact ⟨.stopPublisher, _, rfl, Machine.restrict_step.mpr
              ⟨hs.1.workersFirst hs.2, Option.map_eq_some_iff.mpr ⟨p, hstep, rfl⟩⟩⟩
        | accept | batcher | publisher => cases howner
      · intro s a s' hs _ hstep howner
        cases a with
        | stopPublisher => exact ⟨.stop, rfl, rfl⟩
        | stopWorker =>
            have hreturned : Worker.Returned s.worker := hs.1.workersFirst hs.2
            cases (stoppingMachine_steps hstep).1 with
            | stopWorker w hstop => exact absurd hstop (stopWorker_of_returned hreturned)
        | accept | worker | batcher | publisher => cases howner

/-! ## Both calls return -/

/-- Once `Publisher::stop` has been called, what it has come to holds. -/
structure Underway (s : Pipeline γ n m) : Prop where
  inSequence : InSequence s
  stopping : s.publisherStopPc ≠ .running → Publisher.Stopping s.publisher

theorem Underway.step (s : Pipeline γ n m) (a : Action n m) (s' : Pipeline γ n m)
    (hs : Underway s) (hstep : (stoppingMachine av dryRun n m).step s a = some s') :
    Underway s' := by
  refine ⟨hs.inSequence.step s a s' hstep, fun hcalled' => ?_⟩
  by_cases hcalled : s.publisherStopPc = .running
  · rcases stoppingMachine_steps hstep with ⟨hsteps, hturn⟩
    cases hsteps with
    | accept | worker | stopWorker | batcher | publisher => exact absurd hcalled hcalled'
    | stopPublisher p hstop =>
        rw [publisher_setPublisher (stopPublisher_frame hstop).1]
        have hnot : ∀ pc, s.publisherStopPc = pc → pc = .running := fun pc hpc => hpc ▸ hcalled
        cases Publisher.stopStep_moves hstop with
        | stopFrames hpc => exact .of_early rfl nofun nofun nofun
        | requestBatcher hpc => cases hnot _ hpc
        | joinBatcher hpc => cases hnot _ hpc
        | stopBatches hpc => cases hnot _ hpc
        | clear _ _ _ hpc => cases hnot _ hpc
  · have helapses := (publisherView av dryRun n m).elapses s a s' ⟨hs.inSequence, hcalled⟩ hstep
    have hstopping := hs.stopping hcalled
    unfold Machine.Elapses at helapses
    split at helapses
    · rw [show s'.publisher = s.publisher from helapses]
      exact hstopping
    · exact hstopping.step helapses

theorem underway_of_reachable (h : (stoppingMachine av dryRun n m).Reachable s) : Underway s := by
  refine Machine.reachable_induction (P := Underway) ?_ Underway.step h
  rintro s rfl
  exact ⟨inSequence_init, fun hcalled => absurd rfl hcalled⟩

/-- When `Worker::stop` has returned, `Publisher::stop` is called. -/
theorem publisher_called (b : Behaviour (stoppingMachine av dryRun n m))
    (hfair : ∀ t, b.Fair owner t) :
    b.LeadsTo (fun s => InSequence s ∧ Worker.Returned s.worker) PublisherCalled := by
  refine Behaviour.leadsTo_of_rank (fun _ => 0) (fun _ => .main) ?_ ?_ b hfair
  · rintro s a s' ⟨hs, hreturned⟩ - hstep
    have hs' := hs.step s a s' hstep
    rcases stoppingMachine_steps hstep with ⟨hsteps, hturn⟩
    cases hsteps with
    | accept | worker | batcher | publisher =>
        exact Or.inr ⟨⟨hs', hreturned⟩, Or.inr ⟨rfl, rfl, nofun⟩⟩
    | stopWorker w hstop => exact absurd hstop (stopWorker_of_returned hreturned)
    | stopPublisher p hstop => exact Or.inl ⟨hs', (stopPublisher_frame hstop).2.1⟩
  · rintro s ⟨hs, hreturned⟩ hgoal
    have hrunning : s.publisherStopPc = .running := by
      by_contra hcalled
      exact hgoal ⟨hs, hcalled⟩
    refine .restrict .stopPublisher rfl hreturned ?_
    simp [machine, Publisher.machine, Publisher.stopStep, publisher, hrunning]

/-- Whatever the filter graphs and Redis answer and the readers push: in every fair behaviour in
which `Worker::stop` is called, it returns, `Publisher::stop` is called, and it returns too. -/
theorem services_stop (av : Avfilter γ) (dryRun : Bool) (n m : Nat)
    (b : Behaviour (stoppingMachine av dryRun n m))
    (hstart : (stoppingMachine av dryRun n m).Reachable (b.state 0))
    (hfair : ∀ t, b.Fair owner t) :
    b.LeadsTo (fun s => s.workerStopPc ≠ .running)
      (fun s => Worker.Returned s.worker ∧ Publisher.Returned s.publisher) := by
  intro i hcalled
  have hsequence : ∀ s : Pipeline γ n m, s = {} →
      InSequence s ∧ (Worker.machine av n).Reachable s.worker := by
    rintro s rfl
    exact ⟨inSequence_init, .of_init _ rfl⟩
  rcases (workerView av dryRun n m).reachable hsequence hstart with ⟨hinit, hworker⟩
  -- the call of `Worker::stop`, as the worker pool sees it
  let pool := (workerView av dryRun n m).behaviour b hinit
  have hstopping : Worker.Stopping (pool.state i) :=
    Worker.stopping_of_called (pool.reachable hworker i) hcalled
  rcases Worker.stopping_leadsTo pool (workerView_fair b hinit hfair) i hstopping with
    ⟨j, hij, hreturned⟩
  rcases publisher_called b hfair j ⟨(workerView av dryRun n m).invariant_state b hinit j,
    hreturned⟩ with ⟨k, hjk, hk⟩
  -- the call of `Publisher::stop`, as the publisher sees it
  have hunderway : Underway (b.state k) := underway_of_reachable (b.reachable hstart k)
  let sender := (publisherView av dryRun n m).behaviour (b.drop k) hk
  have hsending : Publisher.Stopping (sender.state 0) := hunderway.stopping hk.2
  rcases Publisher.stopping_leadsTo sender
    (publisherView_fair (b.drop k) hk fun t => (hfair t).drop k) 0 hsending with ⟨l, -, hdone⟩
  have hlast : Underway (b.state (k + l)) := underway_of_reachable (b.reachable hstart _)
  refine ⟨k + l, (hij.trans hjk).trans (Nat.le_add_right k l), ?_, hdone⟩
  refine hlast.inSequence.workersFirst fun hrunning => ?_
  have hpc : (b.state (k + l)).publisherStopPc = .clearing (.requesting (m + 1)) := hdone
  rw [hrunning] at hpc
  cases hpc

/-- A pipeline that has been stopped, and whose threads have ended, does nothing by itself. -/
theorem not_canStep_of_ended (hworkers : ∀ i, (s.workers i).pc = .done)
    (hbatcher : s.batcher.pc = .done) (hpublishers : ∀ k, (s.publishers k).pc = .done)
    (hworker : Worker.Returned s.worker) (hpublisher : Publisher.Returned s.publisher)
    (t : PipelineThread n m) : ¬ (stoppingMachine av dryRun n m).CanStep owner t s := by
  rintro ⟨a, s', howner, hstep⟩
  cases (stoppingMachine_steps hstep).1 with
  | accept frame => cases howner
  | worker i q w hthread => simp [Worker.threadStep, hworkers i] at hthread
  | stopWorker w hstop => exact stopWorker_of_returned hworker hstop
  | batcher q t hthread => exact Publisher.batcherStep_running hthread hbatcher
  | publisher k outcome q t hthread => simp [Publisher.publisherStep, hpublishers k] at hthread
  | stopPublisher p hstop =>
      have hpc : s.publisher.stopPc = .clearing (.requesting (m + 1)) := hpublisher
      simp [Publisher.stopStep, hpc, Teardown.step] at hstop

/-- `Worker::stop` returns, and the batching thread ends. -/
def endsEarlySchedule : List (Action 1 0) :=
  [.stopWorker, .stopWorker, .stopWorker, .worker (Fin.last 0), .stopWorker,
    .batcher, .batcher, .batcher]

/-- Then `Publisher::stop` is called. -/
def lateStopSchedule : List (Action 1 0) :=
  let sender : Action 1 0 := .publisher (Fin.last 0) ⟨false, .null false⟩
  [.stopPublisher, .stopPublisher, .stopPublisher, .stopPublisher, .stopPublisher, sender, sender,
    .stopPublisher]

/-- A publisher whose batching thread has ended before its `stop` is called. -/
theorem services_stop_endsEarly :
    ∃ b : Behaviour (stoppingMachine Worker.passThrough false 1 0),
      (b.state 0).batcher.pc = .done ∧ (b.state 0).publisherStopPc = .running ∧
        ∃ j, Worker.Returned (b.state j).worker ∧ Publisher.Returned (b.state j).publisher := by
  have hrun : ∃ s, (stoppingMachine Worker.passThrough false 1 0).exec {} endsEarlySchedule =
      some s ∧ s.batcher.pc = .done ∧ s.publisherStopPc = .running ∧
        s.workerStopPc = .clearing (.requesting 1) ∧ ∃ t,
          (stoppingMachine Worker.passThrough false 1 0).exec s lateStopSchedule = some t ∧
            (t.workers 0).pc = .done ∧ t.batcher.pc = .done ∧ (t.publishers 0).pc = .done ∧
            Worker.Returned t.worker ∧ Publisher.Returned t.publisher :=
    ⟨_, rfl, rfl, rfl, rfl, _, rfl, rfl, rfl, rfl, rfl, rfl⟩
  rcases hrun with ⟨s, hbefore, hended, hrunning, hreturned, t, hafter, hworker, hbatcher,
    hpublisher, hworkerReturned, hpublisherReturned⟩
  have hworkers : ∀ i, (t.workers i).pc = .done := by
    intro i
    rw [Fin.fin_one_eq_zero i]
    exact hworker
  have hpublishers : ∀ k, (t.publishers k).pc = .done := by
    intro k
    rw [Fin.fin_one_eq_zero k]
    exact hpublisher
  rcases Machine.exists_behaviour hafter (not_canStep_of_ended hworkers hbatcher hpublishers
    hworkerReturned hpublisherReturned) with ⟨b, hzero, -, hfair⟩
  have hstart : (stoppingMachine Worker.passThrough false 1 0).Reachable (b.state 0) := by
    rw [hzero]
    exact ⟨{}, endsEarlySchedule, rfl, hbefore⟩
  have hcalled : (b.state 0).workerStopPc ≠ .running := by
    rw [hzero, hreturned]
    nofun
  rcases services_stop Worker.passThrough false 1 0 b hstart hfair 0 hcalled with ⟨j, -, hdone⟩
  exact ⟨b, by rw [hzero, hended], by rw [hzero, hrunning], j, hdone⟩

end Pipeline

end FrameProcessor
