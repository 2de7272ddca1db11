import FrameProcessor.Worker.Pool

/-!
# components/worker - Stopping the pool

`Worker::stop` stops `in_queue_`, then `out_queue_`, then destroys the threads.  Its
comment promises that all queued frames are processed and none is lost.  Two things can
break that: a push to `out_queue_` after it has been stopped is dropped, and a thread
whose stop token is set leaves its loop without looking at `in_queue_`.  Both need a
frame on its way at the moment `out_queue_` is stopped.

Main results:

- Theorem `Worker.ledger_step`: until `out_queue_` is stopped, every accepted frame is in
  `in_queue_`, in the hands of one worker, or its output has been accepted.
- Theorem `Worker.lost_step`: frames are lost by one step only, the one that stops
  `out_queue_`, and only when the pool is not quiet then.
- Theorem `Worker.stop_losesNoFrame_iff`: a run that ends with the return of `stop` has
  delivered every frame exactly when the pool was idle as it stopped `out_queue_`.
-/

namespace FrameProcessor

namespace Worker

variable {γ : Type*} {n : Nat} {av : Avfilter γ} {Idle : γ → Prop}

/-! ## Where frames are -/

/-- Everything the threads of the pool hold. -/
def held (s : Worker γ n) : Multiset (DecodedFrame AVFrame) :=
  Pool.held (fun w => hand w.pc) s.workers

/-- The invariant of the pool under stopping. -/
structure Ledger (Idle : γ → Prop) (s : Worker γ n) : Prop where
  sound : ∀ i, Sound Idle (s.workers i)
  inStopped : s.inQueue.stopped = true ↔ s.stopPc ≠ .running
  outStopped : s.outQueue.stopped = true ↔ ∃ progress, s.stopPc = .clearing progress
  balance : s.outQueue.stopped = false → settled s.toWorkerQueues + held s = ↑s.accepted
  drained : s.outQueue.stopped = true →
    (s.delivered.map Prod.fst).Perm s.accepted → s.inQueue.queue = []

theorem ledger_init : Ledger Idle ({} : Worker γ n) where
  sound i := by
    constructor
    · intro key ctx hctx
      cases hctx
    · intro frame outputs hpushing
      cases hpushing
  inStopped := by simp
  outStopped := by simp
  balance _ := by simp [settled, held, Pool.held, hand]
  drained h := by cases h

/-- `out_queue_` is stopped after `in_queue_`. -/
theorem Ledger.outOpen {s : Worker γ n} (hs : Ledger Idle s) (hopen : s.inQueue.stopped = false) :
    s.outQueue.stopped = false := by
  by_contra hstopped
  rcases hs.outStopped.mp (by simpa using hstopped) with ⟨progress, hpc⟩
  have hin := hs.inStopped.mpr (by simp [hpc])
  rw [hopen] at hin
  cases hin

/-! ## What the steps do -/

/-- A push to the stopped `in_queue_` changes nothing. -/
theorem accept_of_stopped {q : WorkerQueues} (h : q.inQueue.stopped = true)
    (frame : DecodedFrame AVFrame) : Worker.accept q frame = q := by
  simp [Worker.accept, h, Fifo.push_of_stopped]

/-- A push to `in_queue_` that is accepted adds one frame. -/
theorem accept_settled {q : WorkerQueues} (h : q.inQueue.stopped = false)
    (frame : DecodedFrame AVFrame) :
    settled (Worker.accept q frame) = settled q + {frame} ∧
      (Worker.accept q frame).accepted = q.accepted ++ [frame] := by
  simp only [settled, Worker.accept, h, Fifo.push_queue_of_not_stopped, Bool.false_eq_true,
    if_false, ← Multiset.coe_add, Multiset.coe_singleton, and_true]
  abel

/-- A worker thread leaves the flags of both queues and `accepted` alone; once
`out_queue_` is stopped it delivers nothing, and it never fills `in_queue_`. -/
theorem threadStep_frame {q q' : WorkerQueues} {w w' : WorkerThread γ}
    (h : threadStep av q w = some (q', w')) :
    q'.inQueue.stopped = q.inQueue.stopped ∧ q'.outQueue.stopped = q.outQueue.stopped ∧
      q'.accepted = q.accepted ∧ (q.outQueue.stopped = true → q'.delivered = q.delivered) ∧
      (q.inQueue.queue = [] → q'.inQueue.queue = []) := by
  rcases threadStep_cases h with ⟨rfl, -⟩ | ⟨frame, rest, -, hqueue, hstopped, rfl, -⟩ |
    ⟨frame, -, rfl, -⟩ | ⟨frame, output, outputs, -, rfl, -⟩
  · exact ⟨rfl, rfl, rfl, fun _ => rfl, id⟩
  · refine ⟨hstopped, rfl, rfl, fun _ => rfl, fun hempty => ?_⟩
    rw [hqueue] at hempty
    cases hempty
  · exact ⟨rfl, rfl, rfl, fun _ => rfl, id⟩
  · refine ⟨rfl, Fifo.push_stopped _ _, rfl, fun hstopped => ?_, id⟩
    simp [deliver, hstopped]

/-- Everything a step of the stopping thread can do. -/
theorem stopStep_cases {s s' : Worker γ n} (h : stopStep s = some s') :
    (s.stopPc = .running ∧ s' = { s with inQueue := s.inQueue.stop, stopPc := .inStopped }) ∨
    (s.stopPc = .inStopped ∧
      s' = { s with outQueue := s.outQueue.stop, stopPc := .clearing (.requesting 0) }) ∨
    (∃ progress progress' workers', s.stopPc = .clearing progress ∧
      progress.step requestStop isDone s.workers = some (progress', workers') ∧
      s' = { s with workers := workers', stopPc := .clearing progress' }) := by
  unfold stopStep at h
  split at h
  · next hpc =>
    cases h
    exact Or.inl ⟨hpc, rfl⟩
  · next hpc =>
    cases h
    exact Or.inr (Or.inl ⟨hpc, rfl⟩)
  · next progress hpc =>
    rcases Option.map_eq_some_iff.mp h with ⟨⟨progress', workers'⟩, hstep, rfl⟩
    exact Or.inr (Or.inr ⟨progress, progress', workers', hpc, hstep, rfl⟩)

/-- Destroying the threads changes stop tokens only. -/
theorem clear_frame {workers workers' : Fin n → WorkerThread γ} {t t' : Teardown}
    (h : t.step requestStop isDone workers = some (t', workers')) (i : Fin n) :
    (workers' i).pc = (workers i).pc ∧ (workers' i).contexts = (workers i).contexts := by
  rcases Teardown.step_thread h i with hsame | hrequested
  · rw [hsame]
    exact ⟨rfl, rfl⟩
  · rw [hrequested]
    exact ⟨rfl, rfl⟩

/-- The pool holds the same when every thread is where it was. -/
theorem held_congr {s s' : Worker γ n} (h : ∀ i, (s'.workers i).pc = (s.workers i).pc) :
    held s' = held s := by
  unfold held Pool.held
  exact Finset.sum_congr rfl fun i _ => congrArg hand (h i)

/-- Moving one thread changes what the pool holds by what the thread holds. -/
theorem held_update (s : Worker γ n) (i : Fin n) (w : WorkerThread γ) (q : WorkerQueues) :
    held { s with toWorkerQueues := q, workers := Function.update s.workers i w } +
        hand (s.workers i).pc = held s + hand w.pc :=
  Pool.held_update (fun w : WorkerThread γ => hand w.pc) s.workers i w

/-! ## The ledger is kept -/

/-- Nothing is waiting in `in_queue_` and no thread holds a frame. -/
def Quiet (s : Worker γ n) : Prop :=
  s.inQueue.queue = [] ∧ ∀ i, hand (s.workers i).pc = 0

/-- While `out_queue_` accepts, everything has been delivered exactly when the pool is
quiet. -/
theorem Ledger.delivered_iff {s : Worker γ n} (hs : Ledger Idle s)
    (hopen : s.outQueue.stopped = false) :
    (s.delivered.map Prod.fst).Perm s.accepted ↔ Quiet s := by
  have hbalance := hs.balance hopen
  have hsplit : (↑s.inQueue.queue + held s) + ↑(s.delivered.map Prod.fst) =
      (↑s.accepted : Multiset (DecodedFrame AVFrame)) := by
    rw [← hbalance, settled]
    abel
  rw [← Multiset.coe_eq_coe, ← hsplit, eq_comm, add_eq_right, add_eq_zero, Multiset.coe_eq_zero,
    held, Pool.held_eq_zero_iff]
  rfl

theorem Ledger.accept {s : Worker γ n} (hs : Ledger Idle s) (frame : DecodedFrame AVFrame) :
    Ledger Idle { s with toWorkerQueues := Worker.accept s.toWorkerQueues frame } := by
  cases hin : s.inQueue.stopped with
  | true =>
      rw [accept_of_stopped hin]
      exact hs
  | false =>
      have hout := hs.outOpen hin
      rcases accept_settled hin frame with ⟨hsettled, haccepted⟩
      refine ⟨hs.sound, ?_, hs.outStopped, fun _ => ?_, fun hstopped => ?_⟩
      · simpa [Worker.accept] using hs.inStopped
      · have hbalance := hs.balance hout
        calc settled (Worker.accept s.toWorkerQueues frame) + held s
            = settled s.toWorkerQueues + held s + {frame} := by
              rw [hsettled]
              abel
          _ = ↑s.accepted + {frame} := by rw [hbalance]
          _ = ↑(Worker.accept s.toWorkerQueues frame).accepted := by
              rw [haccepted, ← Multiset.coe_add, Multiset.coe_singleton]
      · exact absurd hstopped (by simpa [Worker.accept] using hout)

theorem Ledger.worker (h : OneToOne av Idle) {s : Worker γ n} (hs : Ledger Idle s) {i : Fin n}
    {q : WorkerQueues} {w : WorkerThread γ}
    (hstep : threadStep av s.toWorkerQueues (s.workers i) = some (q, w)) :
    Ledger Idle { s with toWorkerQueues := q, workers := Function.update s.workers i w } := by
  rcases threadStep_frame hstep with ⟨hin, hout, haccepted, hdelivered, hempty⟩
  refine ⟨?_, ?_, ?_, fun hopen => ?_, fun hstopped hperm => ?_⟩
  · exact Pool.forall_update (Sound Idle) ((hs.sound i).threadStep h hstep) hs.sound
  · rw [hin]
    exact hs.inStopped
  · rw [hout]
    exact hs.outStopped
  · rw [hout] at hopen
    have hbalance := hs.balance hopen
    have hmoved := threadStep_balance h (hs.sound i) hopen hstep
    have hheld := held_update s i w q
    refine add_right_cancel (b := hand (s.workers i).pc) ?_
    rw [haccepted, ← hbalance, add_assoc, hheld]
    calc settled q + (held s + hand w.pc)
        = held s + (settled q + hand w.pc) := by abel
      _ = held s + (settled s.toWorkerQueues + hand (s.workers i).pc) := by rw [hmoved]
      _ = settled s.toWorkerQueues + held s + hand (s.workers i).pc := by abel
  · rw [hout] at hstopped
    rw [hdelivered hstopped, haccepted] at hperm
    exact hempty (hs.drained hstopped hperm)

theorem Ledger.stop {s s' : Worker γ n} (hs : Ledger Idle s) (hstep : stopStep s = some s') :
    Ledger Idle s' := by
  rcases stopStep_cases hstep with ⟨hpc, rfl⟩ | ⟨hpc, rfl⟩ |
    ⟨progress, progress', workers', hpc, hclear, rfl⟩
  · have hout : s.outQueue.stopped = false := by simpa [hpc] using hs.outStopped
    exact ⟨hs.sound, by simp, by simpa using hout, hs.balance, by simp [hout]⟩
  · have hin : s.inQueue.stopped = true := by simp [hs.inStopped, hpc]
    have hout : s.outQueue.stopped = false := by simpa [hpc] using hs.outStopped
    refine ⟨hs.sound, by simpa using hin, by simp, by simp, fun _ hperm => ?_⟩
    exact ((hs.delivered_iff hout).mp hperm).1
  · have hframe := clear_frame hclear
    refine ⟨fun i => ?_, ?_, ?_, fun hopen => ?_, hs.drained⟩
    · constructor
      · rw [(hframe i).2]
        exact (hs.sound i).contexts
      · rw [(hframe i).1]
        exact (hs.sound i).outputs
    · simpa [hpc] using hs.inStopped
    · simpa [hpc] using hs.outStopped
    · rw [held_congr fun i => (hframe i).1]
      exact hs.balance hopen

/-- What others pop from `out_queue_` does not matter. -/
theorem Ledger.consume {s : Worker γ n} (hs : Ledger Idle s)
    {outQueue : Fifo (DecodedFrame AVFrame)} (hstopped : outQueue.stopped = s.outQueue.stopped) :
    Ledger Idle { s with outQueue } := by
  refine ⟨hs.sound, hs.inStopped, ?_, ?_, ?_⟩
  · rw [hstopped]
    exact hs.outStopped
  · rw [hstopped]
    exact hs.balance
  · rw [hstopped]
    exact hs.drained

/-- Every step keeps the ledger. -/
theorem ledger_step (h : OneToOne av Idle) (s : Worker γ n) (a : Action n) (s' : Worker γ n)
    (hs : Ledger Idle s) (hstep : (machine av n).step s a = some s') : Ledger Idle s' := by
  cases a with
  | accept frame =>
      cases hstep
      exact hs.accept frame
  | consume =>
      rcases Option.map_eq_some_iff.mp hstep with ⟨⟨result, outQueue⟩, hpop, rfl⟩
      exact hs.consume (Fifo.waitAndPop_stopped hpop)
  | worker i =>
      rcases Option.map_eq_some_iff.mp hstep with ⟨⟨q, w⟩, hthread, rfl⟩
      exact hs.worker h hthread
  | stop => exact hs.stop hstep

/-! ## No frame is lost -/

/-- What the comment of `Worker::stop` promises: all queued frames are processed and no
frame is lost. -/
structure LosesNoFrame (s : Worker γ n) : Prop where
  drained : s.inQueue.queue = []
  delivered : (s.delivered.map Prod.fst).Perm s.accepted

/-- The step that stops `out_queue_` finds the pool quiet. -/
def QuietAtOutStop (s : Worker γ n) (a : Action n) : Prop :=
  a = .stop → s.stopPc = .inStopped → Quiet s

/-- Frames whose output can no longer be delivered. -/
def Lost (s : Worker γ n) : Prop :=
  s.outQueue.stopped = true ∧ ¬ (s.delivered.map Prod.fst).Perm s.accepted

/-- Once `out_queue_` is stopped, neither log changes. -/
theorem logs_frozen {s s' : Worker γ n} {a : Action n} (hs : Ledger Idle s)
    (hstopped : s.outQueue.stopped = true) (hstep : (machine av n).step s a = some s') :
    s'.accepted = s.accepted ∧ s'.delivered = s.delivered ∧ s'.outQueue.stopped = true := by
  rcases hs.outStopped.mp hstopped with ⟨progress, hpc⟩
  cases a with
  | accept frame =>
      cases hstep
      have hin : s.inQueue.stopped = true := hs.inStopped.mpr (by simp [hpc])
      rw [accept_of_stopped hin]
      exact ⟨rfl, rfl, hstopped⟩
  | consume =>
      rcases Option.map_eq_some_iff.mp hstep with ⟨⟨result, outQueue⟩, hpop, rfl⟩
      exact ⟨rfl, rfl, (Fifo.waitAndPop_stopped hpop).trans hstopped⟩
  | worker i =>
      rcases Option.map_eq_some_iff.mp hstep with ⟨⟨q, w⟩, hthread, rfl⟩
      rcases threadStep_frame hthread with ⟨-, hout, haccepted, hdelivered, -⟩
      exact ⟨haccepted, hdelivered hstopped, hout.trans hstopped⟩
  | stop =>
      rcases stopStep_cases hstep with ⟨hrunning, -⟩ | ⟨hin, -⟩ | ⟨_, _, _, -, -, rfl⟩
      · rw [hpc] at hrunning
        cases hrunning
      · rw [hpc] at hin
        cases hin
      · exact ⟨rfl, rfl, hstopped⟩

/-- Only the step that stops `out_queue_` stops it. -/
theorem outQueue_open_of_step {s s' : Worker γ n} {a : Action n}
    (hopen : s.outQueue.stopped = false) (ha : a = .stop → s.stopPc ≠ .inStopped)
    (hstep : (machine av n).step s a = some s') :
    s'.outQueue.stopped = false := by
  cases a with
  | accept frame =>
      cases hstep
      exact hopen
  | consume =>
      rcases Option.map_eq_some_iff.mp hstep with ⟨⟨result, outQueue⟩, hpop, rfl⟩
      exact (Fifo.waitAndPop_stopped hpop).trans hopen
  | worker i =>
      rcases Option.map_eq_some_iff.mp hstep with ⟨⟨q, w⟩, hthread, rfl⟩
      exact (threadStep_frame hthread).2.1.trans hopen
  | stop =>
      rcases stopStep_cases hstep with ⟨-, rfl⟩ | ⟨hin, -⟩ | ⟨_, _, _, hclearing, -, rfl⟩
      · exact hopen
      · exact absurd hin (ha rfl)
      · exact hopen

/-- A step loses frames exactly when it stops `out_queue_` while the pool is not quiet. -/
theorem lost_step (s : Worker γ n) (a : Action n) (s' : Worker γ n) (hs : Ledger Idle s)
    (hstep : (machine av n).step s a = some s') :
    Lost s' ↔ Lost s ∨ ¬ QuietAtOutStop s a := by
  cases hout : s.outQueue.stopped with
  | true =>
      rcases logs_frozen hs hout hstep with ⟨haccepted, hdelivered, hstopped⟩
      rcases hs.outStopped.mp hout with ⟨progress, hpc⟩
      simp [Lost, QuietAtOutStop, haccepted, hdelivered, hstopped, hout, hpc]
  | false =>
      by_cases hstops : a = .stop ∧ s.stopPc = .inStopped
      · rcases hstops with ⟨rfl, hpc⟩
        rcases stopStep_cases hstep with ⟨hrunning, -⟩ | ⟨-, rfl⟩ | ⟨_, _, _, hclearing, -, -⟩
        · rw [hpc] at hrunning
          cases hrunning
        · simp [Lost, QuietAtOutStop, hout, hpc, hs.delivered_iff hout]
        · rw [hpc] at hclearing
          cases hclearing
      · have hopen := outQueue_open_of_step hout
          (fun ha hpc => hstops ⟨ha, hpc⟩) hstep
        have hquiet : QuietAtOutStop s a := fun ha hpc => absurd ⟨ha, hpc⟩ hstops
        simp [Lost, hout, hopen, hquiet]

/-- For every interleaving in which `stop` returns, from any content of the queue and any
number of threads: no frame is lost exactly when the pool was quiet as `out_queue_` was
stopped. -/
theorem stop_losesNoFrame_iff (h : OneToOne av Idle) {schedule : List (Action n)}
    {s : Worker γ n} (hrun : (machine av n).exec {} schedule = some s) (hreturned : Returned s) :
    LosesNoFrame s ↔ (machine av n).Meets QuietAtOutStop {} schedule := by
  have hledger : Ledger Idle s :=
    Machine.exec_induction (ledger_step h) ledger_init hrun
  have hstopped : s.outQueue.stopped = true := hledger.outStopped.mpr ⟨_, hreturned⟩
  have hlost := Machine.marked_iff_not_meets (fun s a s' hs _ => ledger_step h s a s' hs)
    (fun s a s' hs _ => lost_step s a s' hs) ledger_init
    (Machine.meets_of_forall fun _ _ => trivial) hrun
  have hinit : ¬ Lost ({} : Worker γ n) := by
    rintro ⟨hstopped, -⟩
    cases hstopped
  constructor
  · intro hgood
    by_contra hmeets
    exact (hlost.mpr (Or.inr hmeets)).2 hgood.delivered
  · intro hmeets
    have hperm : (s.delivered.map Prod.fst).Perm s.accepted := by
      by_contra hperm
      rcases hlost.mp ⟨hstopped, hperm⟩ with hlost | hbad
      · exact hinit hlost
      · exact hbad hmeets
    exact ⟨hledger.drained hstopped hperm, hperm⟩

/-! ## One worker and one frame -/

/-- A library whose graphs hand every frame through. -/
def passThrough : Avfilter (List AVFrame) where
  configure _ _ _ := some []
  cloneFrame frame := some frame
  addFrame buffered frame := (true, buffered ++ [frame])
  getFrame
    | [], _ => (.again, [])
    | frame :: buffered, _ => (.frame frame, buffered)

theorem passThrough_oneToOne : OneToOne passThrough (fun buffered => buffered = []) where
  configure _ _ _ := ⟨[], rfl, rfl⟩
  cloneFrame _ := rfl
  addFrame graph frame hidle := by
    subst hidle
    exact ⟨[frame], rfl, frame, [], rfl, [], rfl, rfl⟩

/-- A step of the only worker. -/
def workerStep : Action 1 :=
  .worker (Fin.last 0)

/-- The worker handles the frame, then `stop` runs to its end. -/
def quietSchedule : List (Action 1) :=
  [.accept (blackFrame 2 2 2), workerStep, workerStep, workerStep, workerStep, workerStep, .stop,
    .stop, workerStep, workerStep, .stop, .stop]

/-- `stop` begins while the worker is about to pop the frame. -/
def hastySchedule : List (Action 1) :=
  [workerStep, .accept (blackFrame 2 2 2), .stop, .stop, workerStep, workerStep, workerStep,
    workerStep, .stop, workerStep, .stop]

/-- A frame handled before `stop` begins is not lost, and the pool was quiet. -/
theorem stop_losesNoFrame_quiet :
    ∃ s, (machine passThrough 1).exec {} quietSchedule = some s ∧ LosesNoFrame s ∧
      (machine passThrough 1).Meets QuietAtOutStop {} quietSchedule := by
  have hrun : ∃ s, (machine passThrough 1).exec {} quietSchedule = some s ∧ Returned s ∧
      s.inQueue.queue = [] ∧ s.delivered.map Prod.fst = s.accepted :=
    ⟨_, rfl, rfl, rfl, rfl⟩
  rcases hrun with ⟨s, hexec, hreturned, hdrained, hdelivered⟩
  have hgood : LosesNoFrame s := ⟨hdrained, hdelivered ▸ List.Perm.refl _⟩
  exact ⟨s, hexec, hgood, (stop_losesNoFrame_iff passThrough_oneToOne hexec hreturned).mp hgood⟩

/-- A frame still in `in_queue_` when `stop` begins is processed, but `out_queue_` no
longer takes its output. -/
theorem stop_loses_frame :
    ¬ ∀ (schedule : List (Action 1)) (s : Worker (List AVFrame) 1),
      (machine passThrough 1).exec {} schedule = some s → Returned s → LosesNoFrame s := by
  intro hall
  have hrun : ∃ s, (machine passThrough 1).exec {} hastySchedule = some s ∧ Returned s ∧
      s.accepted.length = 1 ∧ s.delivered.length = 0 :=
    ⟨_, rfl, rfl, rfl, rfl⟩
  rcases hrun with ⟨s, hexec, hreturned, haccepted, hdelivered⟩
  have hlength := (hall _ s hexec hreturned).delivered.length_eq
  rw [List.length_map, haccepted, hdelivered] at hlength
  cases hlength

end Worker

end FrameProcessor
