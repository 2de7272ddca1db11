import FrameProcessor.Foundations.Fairness
import FrameProcessor.Worker.Shutdown

/-!
# components/worker - `Worker::stop` returns

`Worker::stop` joins its threads, which may still be anywhere in their loops and have any
number of frames before them.  Once `in_queue_` is stopped it accepts no more frames, so the
work that is left can only shrink, and no thread sleeps in `wait_and_pop` for ever.  What the
filter graphs answer does not matter: the drain loop takes at most five frames from them.

Main results:

- Theorem `Worker.work_lt`: every step of a worker or of `stop` reduces the work that is left.
- Theorem `Worker.helper_canStep`: until `stop` has returned, it can go on, or the thread it
  waits for can.
- Theorem `Worker.pool_stop_returns`: in every fair behaviour `stop` returns.
-/

namespace FrameProcessor

namespace Worker

variable {γ : Type*} {n : Nat} {av : Avfilter γ}

/-! ## The threads -/

/-- The threads of the pool and the one that calls `stop`; readers and batcher are the
environment. -/
inductive PoolThread (n : Nat) where
  | worker (i : Fin n)
  | stopper

/-- The thread that an action belongs to. -/
def owner : Action n → Option (PoolThread n)
  | .worker i => some (.worker i)
  | .stop => some .stopper
  | _ => none

/-! ## The work that is left -/

/-- The steps that a thread may still take before it pops again and finds nothing. -/
def threadWork (w : WorkerThread γ) : Nat :=
  match w.pc with
  | .loopHead => 2
  | .popping => 1
  | .processing _ => 9
  | .pushing _ outputs => outputs.length + 3
  | .done => 0

/-- The steps that `stop` still has to take. -/
def stopWork (n : Nat) (pc : WorkerStopPc) : Nat :=
  match pc with
  | .running => 2 * n + 2
  | .inStopped => 2 * n + 1
  | .clearing progress => progress.remaining n

/-- The work that is left once `in_queue_` accepts no more. -/
def work (s : Worker γ n) : Nat :=
  9 * s.inQueue.queue.length + Pool.held threadWork s.workers + stopWork n s.stopPc

/-- The drain loop takes at most as many frames as it has rounds. -/
theorem drain_length (av : Avfilter γ) (budget : Nat) (noRequest : Bool) (graph : γ) :
    (drain av budget noRequest graph).1.length ≤ budget := by
  induction budget generalizing noRequest graph with
  | zero => exact Nat.le_refl 0
  | succ budget ih =>
      unfold drain
      split
      · next procFrame graph' _ => exact Nat.succ_le_succ (ih true graph')
      · exact Nat.zero_le _

/-- A frame yields at most five outputs. -/
theorem processFrame_length (av : Avfilter γ) (contexts : StreamContexts γ)
    (frame : DecodedFrame AVFrame) : (processFrame av contexts frame).1.length ≤ 5 := by
  unfold processFrame
  split
  · exact Nat.zero_le 5
  · next ctx _ =>
    cases av.cloneFrame frame.frame with
    | none => exact Nat.zero_le 5
    | some frameToProcess =>
        rcases hadd : av.addFrame ctx.graph frameToProcess with ⟨added, graph⟩
        cases added with
        | false => simp [hadd]
        | true => simpa [hadd] using drain_length av 5 false graph

/-- A step of a worker reduces what is left for the worker and in the queue. -/
theorem threadStep_work {q q' : WorkerQueues} {w w' : WorkerThread γ}
    (h : threadStep av q w = some (q', w')) :
    9 * q'.inQueue.queue.length + threadWork w' < 9 * q.inQueue.queue.length + threadWork w := by
  unfold threadStep at h
  split at h
  · next hpc =>
    cases h
    cases w.stopRequested <;> simp [threadWork, hpc]
  · next hpc =>
    split at h
    · cases h
    · next inQueue hpop =>
      cases h
      rcases Fifo.waitAndPop_cases hpop with ⟨_, hsome, -⟩ | ⟨-, rfl, hempty, -⟩
      · cases hsome
      · simp [threadWork, hpc]
    · next frame inQueue hpop =>
      cases h
      rcases Fifo.waitAndPop_cases hpop with ⟨_, hsome, hqueue, -⟩ | ⟨hnone, -⟩
      · cases hsome
        simp only [threadWork, hpc, hqueue, List.length_cons]
        omega
      · cases hnone
  · next frame hpc =>
    have hmoved : q' = q ∧ w'.pc = .pushing frame (processFrame av w.contexts frame).1 := by
      cases h
      exact ⟨rfl, rfl⟩
    have hlength := processFrame_length av w.contexts frame
    simp only [threadWork, hpc, hmoved.1, hmoved.2]
    omega
  · next frame hpc =>
    cases h
    simp [threadWork, hpc]
  · next frame output outputs hpc =>
    cases h
    simp [threadWork, hpc, deliver]
  · cases h

/-- A stop request leaves a thread its work. -/
theorem clear_work {workers workers' : Fin n → WorkerThread γ} {t t' : Teardown}
    (h : t.step requestStop isDone workers = some (t', workers')) :
    Pool.held threadWork workers' = Pool.held threadWork workers := by
  unfold Pool.held
  refine Finset.sum_congr rfl fun i _ => ?_
  simp only [threadWork, (clear_frame h i).1]

/-- A step of `stop` reduces what `stop` has left. -/
theorem stopStep_work {s s' : Worker γ n} (h : stopStep s = some s') : work s' < work s := by
  rcases stopStep_cases h with ⟨hpc, rfl⟩ | ⟨hpc, rfl⟩ |
    ⟨progress, progress', workers', hpc, hclear, rfl⟩
  · simp [work, stopWork, hpc]
  · simp [work, stopWork, hpc, Teardown.remaining]
  · have hless := Teardown.remaining_lt hclear
    simp only [work, stopWork, hpc, clear_work hclear]
    omega

/-- Every step of a worker or of `stop` reduces the work that is left. -/
theorem work_lt {s s' : Worker γ n} {a : Action n} {t : PoolThread n} (hown : owner a = some t)
    (hstep : (machine av n).step s a = some s') : work s' < work s := by
  cases a with
  | accept frame => cases hown
  | consume => cases hown
  | worker i =>
      rcases Option.map_eq_some_iff.mp hstep with ⟨⟨q, w⟩, hthread, rfl⟩
      have hless := threadStep_work hthread
      have hheld := Pool.held_update threadWork s.workers i w
      simp only [work]
      omega
  | stop => exact stopStep_work hstep

/-! ## Nobody is stuck -/

/-- `stop` has been called, and is where it can be. -/
structure Stopping (s : Worker γ n) : Prop where
  inStopped : s.inQueue.stopped = true
  called : s.stopPc ≠ .running
  inRange : ∀ progress, s.stopPc = .clearing progress → progress.InRange n

/-- The thread that `stop` depends on: itself, or the thread it is joining. -/
def helper (s : Worker γ n) : PoolThread n :=
  match s.stopPc with
  | .clearing (.joining k) =>
      if h : k < n then
        if isDone (s.workers ⟨k, h⟩) then .stopper else .worker ⟨k, h⟩
      else .stopper
  | _ => .stopper

/-- Once `in_queue_` is stopped, a thread that has not returned can step. -/
theorem threadStep_isSome (av : Avfilter γ) {q : WorkerQueues} {w : WorkerThread γ}
    (hstopped : q.inQueue.stopped = true) (hdone : isDone w = false) :
    (threadStep av q w).isSome = true := by
  cases hpc : w.pc with
  | loopHead => simp [threadStep, hpc]
  | popping =>
      cases hpop : q.inQueue.waitAndPop with
      | none =>
          have hopen := (Fifo.waitAndPop_eq_none.mp hpop).2
          rw [hstopped] at hopen
          cases hopen
      | some popped =>
          rcases popped with ⟨result, inQueue⟩
          cases result with
          | none => simp [threadStep, hpc, hpop]
          | some frame => simp [threadStep, hpc, hpop]
  | processing frame => simp [threadStep, hpc]
  | pushing frame outputs =>
      cases outputs with
      | nil => simp [threadStep, hpc]
      | cons output outputs => simp [threadStep, hpc]
  | done => simp [isDone, hpc] at hdone

/-- Until `stop` has returned, it can go on, or the thread it waits for can. -/
theorem helper_canStep {s : Worker γ n} (hs : Stopping s) (hreturned : ¬ Returned s) :
    (machine av n).CanStep owner (helper s) s := by
  cases hpc : s.stopPc with
  | running => exact absurd hpc hs.called
  | inStopped =>
      have hhelper : helper s = .stopper := by simp [helper, hpc]
      rw [hhelper]
      exact .of_isSome .stop rfl (by simp [machine, stopStep, hpc])
  | clearing progress =>
      have hend : ¬ progress.Finished n := by
        rintro rfl
        exact hreturned hpc
      rcases Teardown.step_or_waits requestStop isDone
        (hs.inRange progress hpc) hend s.workers with ⟨progress', workers', hclear⟩ | ⟨k, rfl, hk⟩
      · have hhelper : helper s = .stopper := by
          rcases Teardown.step_cases hclear with ⟨k, rfl, -⟩ | ⟨k, rfl, -, -, hdone⟩
          · simp [helper, hpc]
          · simp [helper, hpc, hdone]
        rw [hhelper]
        exact .of_isSome .stop rfl (by simp [machine, stopStep, hpc, hclear])
      · have hhelper : helper s = .worker k := by
          simp only [helper, hpc, k.isLt, hk, ↓reduceDIte, Fin.eta, Bool.false_eq_true,
            ↓reduceIte]
        rw [hhelper]
        have hthread := threadStep_isSome av hs.inStopped hk
        exact .of_isSome (.worker k) rfl (by simpa [machine] using hthread)

/-- `stop` stays called, and `in_queue_` stopped. -/
theorem Stopping.step {s s' : Worker γ n} {a : Action n} (hs : Stopping s)
    (hstep : (machine av n).step s a = some s') : Stopping s' := by
  cases a with
  | accept frame =>
      cases hstep
      rw [accept_of_stopped hs.inStopped]
      exact hs
  | consume =>
      rcases Option.map_eq_some_iff.mp hstep with ⟨⟨result, outQueue⟩, hpop, rfl⟩
      exact ⟨hs.inStopped, hs.called, hs.inRange⟩
  | worker i =>
      rcases Option.map_eq_some_iff.mp hstep with ⟨⟨q, w⟩, hthread, rfl⟩
      exact ⟨(threadStep_frame hthread).1.trans hs.inStopped, hs.called, hs.inRange⟩
  | stop =>
      rcases stopStep_cases hstep with ⟨hpc, -⟩ | ⟨hpc, rfl⟩ |
        ⟨progress, progress', workers', hpc, hclear, rfl⟩
      · exact absurd hpc hs.called
      · refine ⟨hs.inStopped, nofun, fun progress hprogress => ?_⟩
        cases hprogress
        exact Teardown.inRange_start
      · refine ⟨hs.inStopped, nofun, fun progress hprogress => ?_⟩
        cases hprogress
        exact Teardown.InRange.step hclear

/-- A step that belongs to no thread of the pool leaves its work and its threads alone. -/
theorem environment_step {s s' : Worker γ n} {a : Action n} (hs : Stopping s)
    (hown : owner a = none) (hstep : (machine av n).step s a = some s') :
    work s' = work s ∧ helper s' = helper s := by
  cases a with
  | accept frame =>
      cases hstep
      rw [accept_of_stopped hs.inStopped]
      exact ⟨rfl, rfl⟩
  | consume =>
      rcases Option.map_eq_some_iff.mp hstep with ⟨⟨result, outQueue⟩, hpop, rfl⟩
      exact ⟨rfl, rfl⟩
  | worker i => cases hown
  | stop => cases hown

/-- What holds when `stop` is called, and ever after. -/
theorem stopping_of_called {s : Worker γ n} (h : (machine av n).Reachable s)
    (hcalled : s.stopPc ≠ .running) : Stopping s := by
  have hinv : s.stopPc = .running ∨ Stopping s := by
    refine Machine.reachable_induction (M := machine av n)
      (P := fun s => s.stopPc = .running ∨ Stopping s) ?_ ?_ h
    · rintro s rfl
      exact Or.inl rfl
    · rintro s a s' (hrunning | hs) hstep
      · cases a with
        | accept frame =>
            cases hstep
            exact Or.inl hrunning
        | consume =>
            rcases Option.map_eq_some_iff.mp hstep with ⟨⟨result, outQueue⟩, hpop, rfl⟩
            exact Or.inl hrunning
        | worker i =>
            rcases Option.map_eq_some_iff.mp hstep with ⟨⟨q, w⟩, hthread, rfl⟩
            exact Or.inl hrunning
        | stop =>
            rcases stopStep_cases hstep with ⟨-, rfl⟩ | ⟨hpc, -⟩ | ⟨_, _, _, hpc, -, -⟩
            · exact Or.inr ⟨rfl, nofun, nofun⟩
            · rw [hrunning] at hpc
              cases hpc
            · rw [hrunning] at hpc
              cases hpc
      · exact Or.inr (hs.step hstep)
  exact hinv.resolve_left hcalled

/-! ## The call returns -/

/-- A call that has begun returns. -/
theorem stopping_leadsTo (b : Behaviour (machine av n)) (hfair : ∀ t, b.Fair owner t) :
    b.LeadsTo Stopping Returned := by
  refine Behaviour.leadsTo_of_rank work helper ?_ ?_ b hfair
  · intro s a s' hs _ hstep
    refine Or.inr ⟨hs.step hstep, ?_⟩
    cases hown : owner a with
    | none =>
        rcases environment_step hs hown hstep with ⟨hwork, hhelper⟩
        exact Or.inr ⟨hwork, hhelper, nofun⟩
    | some t => exact Or.inl (work_lt hown hstep)
  · exact fun s hs hreturned => helper_canStep hs hreturned

/-- Whatever the filter graphs answer, whatever the readers push and the batcher pops: in
every fair behaviour a call of `Worker::stop` returns. -/
theorem pool_stop_returns (av : Avfilter γ) (n : Nat) (b : Behaviour (machine av n))
    (hstart : (machine av n).Reachable (b.state 0)) (hfair : ∀ t, b.Fair owner t) :
    b.LeadsTo (fun s => s.stopPc ≠ .running) Returned := by
  intro i hcalled
  exact stopping_leadsTo b hfair i (stopping_of_called (b.reachable hstart i) hcalled)

/-- Once every thread has been joined, none can step. -/
theorem not_canStep_of_done {s : Worker γ n} (hreturned : Returned s)
    (hdone : ∀ i, (s.workers i).pc = .done) (t : PoolThread n) :
    ¬ (machine av n).CanStep owner t s := by
  rw [Machine.not_canStep_iff]
  intro a hown
  cases a with
  | accept frame => cases hown
  | consume => cases hown
  | worker i => simp [machine, threadStep, hdone i]
  | stop =>
      have hpc : s.stopPc = .clearing (.requesting n) := hreturned
      simp [machine, stopStep, hpc, Teardown.step]

/-- The only worker processes a frame and a second one waits when `stop` is called. -/
theorem pool_stop_returns_one :
    ∃ b : Behaviour (machine passThrough 1),
      (∃ frame, ((b.state 0).workers 0).pc = .processing frame) ∧
        (b.state 0).inQueue.queue ≠ [] ∧ (b.state 0).stopPc = .inStopped ∧
        ∃ j, Returned (b.state j) := by
  have hcall : ∃ s : Worker (List AVFrame) 1,
      (machine passThrough 1).exec {} [.accept (blackFrame 2 2 2), .accept (blackFrame 2 2 2),
        workerStep, workerStep, .stop] = some s ∧
      (s.workers 0).pc = .processing (blackFrame 2 2 2) ∧ s.inQueue.queue ≠ [] ∧
      s.stopPc = .inStopped ∧
      ∃ t, (machine passThrough 1).exec s [.stop, .stop, workerStep, workerStep, workerStep,
          workerStep, .stop] = some t ∧ Returned t ∧ (t.workers 0).pc = .done :=
    ⟨_, rfl, rfl, List.cons_ne_nil _ _, rfl, _, rfl, rfl, rfl⟩
  rcases hcall with ⟨s, hcall, hprocessing, hwaiting, hstopped, t, hrun, hreturned, hdone⟩
  have hsettled : ∀ k, ¬ (machine passThrough 1).CanStep owner k t := by
    refine not_canStep_of_done hreturned fun i => ?_
    rw [Subsingleton.elim i 0]
    exact hdone
  rcases Machine.exists_behaviour hrun hsettled with ⟨b, hzero, -, hfair⟩
  have hstart : (machine passThrough 1).Reachable (b.state 0) := by
    rw [hzero]
    exact ⟨{}, _, rfl, hcall⟩
  have hcalled : (b.state 0).stopPc ≠ .running := by
    rw [hzero, hstopped]
    nofun
  rcases pool_stop_returns passThrough 1 b hstart hfair 0 hcalled with ⟨j, -, hend⟩
  exact ⟨b, hzero ▸ ⟨_, hprocessing⟩, hzero ▸ hwaiting, hzero ▸ hstopped, j, hend⟩

end Worker

end FrameProcessor
