import FrameProcessor.Foundations.Fairness
import FrameProcessor.Publisher.Shutdown

/-!
# components/publisher - `Publisher::stop` returns

`Publisher::stop` waits for the batching thread and then for the publisher threads.  While
`batch_queue_` is open a publisher thread may go on for ever: it puts a batch that Redis does
not take back into the queue and pops it again.  The batching thread does not depend on that,
and once `batch_queue_` is stopped a batch that goes back is dropped, so the publisher threads
run out of work, whatever Redis answers.

Main results:

- Theorems `Publisher.batchingWork_lt` and `Publisher.sendingWork_lt`: what the two halves of
  `stop` wait for gets less with every step of the threads concerned.
- Theorem `Publisher.stop_returns`: in every fair behaviour `stop` returns.
-/

namespace FrameProcessor

namespace Publisher

variable {n : Nat} {dryRun : Bool}

/-! ## The threads -/

/-- The threads of a publisher and the one that calls `stop`; the workers are the
environment. -/
inductive PublishingThread (n : Nat) where
  | batcher
  | publisher (k : Fin (n + 1))
  | stopper

/-- The thread that an action belongs to. -/
def owner : Action n → Option (PublishingThread n)
  | .accept _ => none
  | .batcher => some .batcher
  | .publisher k _ => some (.publisher k)
  | .stop => some .stopper

/-- `stop` has been called, and what it has come to holds. -/
structure Stopping (s : Publisher n) : Prop where
  framesStopped : s.frameQueue.stopped = true
  called : s.stopPc ≠ .running
  batcherDone : s.stopPc = .batcherJoined ∨ Clearing s → s.batcher.pc = .done
  batchesStopped : Clearing s → s.batchQueue.stopped = true
  inRange : ∀ progress, s.stopPc = .clearing progress → progress.InRange (n + 1)

/-! ## Until the batching thread has been joined -/

/-- The steps that the batching thread may still take before it pops again. -/
def batcherWork (t : BatcherThread) : Nat :=
  match t.pc with
  | .loopHead => (openFrames t.currentBatches).card + 3
  | .popping => (openFrames t.currentBatches).card + 2
  | .holding _ => (openFrames t.currentBatches).card + 5
  | .flushing batches => batches.length + 1
  | .done => 0

/-- The steps of `stop` until `batch_queue_` is stopped. -/
def joinWork (pc : PublisherStopPc) : Nat :=
  match pc with
  | .running => 4
  | .framesStopped => 3
  | .joiningBatcher => 2
  | .batcherJoined => 1
  | .clearing _ => 0

/-- The work that is left for the batching thread and for `stop` up to its join. -/
def batchingWork (s : Publisher n) : Nat :=
  4 * s.frameQueue.queue.length + batcherWork s.batcher + joinWork s.stopPc

/-- There are at most as many batches as frames in them. -/
theorem length_le_card_framesOf (batches : List PackedBatch) :
    batches.length ≤ (framesOf batches).card := by
  induction batches with
  | nil => exact Nat.le_refl 0
  | cons batch batches ih =>
      have hpos := List.length_pos_iff.mpr batch.nonempty
      rw [framesOf_cons, Multiset.card_add, Multiset.coe_card, List.length_cons]
      omega

/-- The flush has at most as many batches to push as there are open frames. -/
theorem flush_length (current : CurrentBatches) :
    (flush current).length ≤ (openFrames current).card := by
  rw [flush_eq]
  exact length_le_card_framesOf _

/-- A step of the batching thread reduces what is left for it. -/
theorem batcherStep_work {q q' : PublisherQueues} {t t' : BatcherThread}
    (h : batcherStep q t = some (q', t')) :
    4 * q'.frameQueue.queue.length + batcherWork t' <
      4 * q.frameQueue.queue.length + batcherWork t := by
  have hflush := flush_length t.currentBatches
  cases batcherStep_moves h with
  | leave hpc htoken =>
      simp only [batcherWork, hpc]
      omega
  | wait hpc htoken => simp [batcherWork, hpc]
  | ended hpc hempty hstopped =>
      simp only [batcherWork, hpc]
      omega
  | pop frame rest hpc hqueue hstopped =>
      simp only [batcherWork, hpc, hqueue, List.length_cons]
      omega
  | batch frame hpc =>
      have hframes := congrArg Multiset.card (batchFrame_frames t.currentBatches frame)
      have hqueue : ((batchFrame t.currentBatches frame).2.elim q (pushBatch q)).frameQueue =
          q.frameQueue := by
        cases (batchFrame t.currentBatches frame).2 <;> rfl
      simp only [Multiset.card_add, Multiset.card_singleton] at hframes
      simp only [batcherWork, hpc, hqueue]
      omega
  | flush batch batches hpc => simp [batcherWork, hpc, pushBatch]
  | finish hpc => simp [batcherWork, hpc]

/-- The thread that the first half of `stop` depends on. -/
def joinHelper (s : Publisher n) : PublishingThread n :=
  match s.stopPc, s.batcher.pc with
  | .joiningBatcher, .done => .stopper
  | .joiningBatcher, _ => .batcher
  | _, _ => .stopper

/-- Once its queue is stopped, the batching thread can step until it has returned. -/
theorem batcherStep_isSome {q : PublisherQueues} {t : BatcherThread}
    (hstopped : q.frameQueue.stopped = true) (hdone : t.pc ≠ .done) :
    (batcherStep q t).isSome = true := by
  cases hpc : t.pc with
  | loopHead => simp [batcherStep, hpc]
  | popping =>
      cases hpop : q.frameQueue.waitAndPop with
      | none =>
          have hopen := (Fifo.waitAndPop_eq_none.mp hpop).2
          rw [hstopped] at hopen
          cases hopen
      | some popped =>
          rcases popped with ⟨result, frameQueue⟩
          cases result with
          | none => simp [batcherStep, hpc, hpop]
          | some frame => simp [batcherStep, hpc, hpop]
  | holding frame =>
      rcases hbatch : batchFrame t.currentBatches frame with ⟨currentBatches, full⟩
      cases full with
      | none => simp [batcherStep, hpc, hbatch]
      | some batch => simp [batcherStep, hpc, hbatch]
  | flushing batches =>
      cases batches with
      | nil => simp [batcherStep, hpc]
      | cons batch batches => simp [batcherStep, hpc]
  | done => exact absurd hpc hdone

/-- Until the publisher threads are destroyed, `stop` or the batching thread can go on. -/
theorem joinHelper_canStep {s : Publisher n} (hs : Stopping s) (hclearing : ¬ Clearing s) :
    (machine dryRun n).CanStep owner (joinHelper s) s := by
  cases hpc : s.stopPc with
  | running => exact absurd hpc hs.called
  | framesStopped =>
      have hhelper : joinHelper s = .stopper := by simp [joinHelper, hpc]
      rw [hhelper]
      exact .of_isSome .stop rfl (by simp [machine, stopStep, hpc])
  | joiningBatcher =>
      by_cases hdone : s.batcher.pc = .done
      · have hhelper : joinHelper s = .stopper := by simp [joinHelper, hpc, hdone]
        rw [hhelper]
        exact .of_isSome .stop rfl (by simp [machine, stopStep, hpc, hdone])
      · have hhelper : joinHelper s = .batcher := by
          unfold joinHelper
          rw [hpc]
          split <;> simp_all
        rw [hhelper]
        have hstep := batcherStep_isSome hs.framesStopped hdone
        exact .of_isSome .batcher rfl (by simpa [machine] using hstep)
  | batcherJoined =>
      have hhelper : joinHelper s = .stopper := by simp [joinHelper, hpc]
      rw [hhelper]
      exact .of_isSome .stop rfl (by simp [machine, stopStep, hpc])
  | clearing progress => exact absurd ⟨progress, hpc⟩ hclearing

/-! ## Until the publisher threads have been joined -/

/-- The steps that a publisher thread may still take before it pops again, once no batch goes
back. -/
def publisherWork (t : PublisherThread) : Nat :=
  match t.pc with
  | .starting => 3
  | .loopHead => 2
  | .popping => 1
  | .popped _ => 5
  | .sending _ => 4
  | .requeueing _ => 3
  | .done => 0

/-- The steps of `stop` that destroy the publisher threads. -/
def clearWork (n : Nat) (pc : PublisherStopPc) : Nat :=
  match pc with
  | .clearing progress => progress.remaining (n + 1)
  | _ => 0

/-- The work that is left for the publisher threads and for `stop` after its join. -/
def sendingWork (s : Publisher n) : Nat :=
  5 * s.batchQueue.queue.length + Pool.held publisherWork s.publishers + clearWork n s.stopPc

/-- Once `batch_queue_` is stopped, a step of a publisher thread reduces what is left for it. -/
theorem publisherStep_work {outcome : RedisOutcome} {q q' : PublisherQueues}
    {t t' : PublisherThread} (hstopped : q.batchQueue.stopped = true)
    (h : publisherStep dryRun outcome q t = some (q', t')) :
    5 * q'.batchQueue.queue.length + publisherWork t' <
      5 * q.batchQueue.queue.length + publisherWork t := by
  cases publisherStep_moves h with
  | start hpc => simp [publisherWork, hpc]
  | leave hpc htoken => simp [publisherWork, hpc]
  | wait hpc htoken => simp [publisherWork, hpc]
  | ended hpc hempty hstopped => simp [publisherWork, hpc]
  | pop batch rest hpc hqueue hstopped =>
      simp only [publisherWork, hpc, hqueue, List.length_cons]
      omega
  | giveUp batch hhand hwhy =>
      rcases hwhy with ⟨-, hpc⟩ | ⟨-, hpc⟩ | ⟨-, hpc⟩ <;> simp [publisherWork, hpc, discard]
  | connected batch redisConn hpc hdry => simp [publisherWork, hpc]
  | refused batch redisConn hpc hdry houtcome => simp [publisherWork, hpc]
  | unanswered batch stored hpc houtcome => cases stored <;> simp [publisherWork, hpc, store]
  | store batch hpc houtcome => simp [publisherWork, hpc, Publisher.store]
  | requeue batch hpc hopen =>
      rw [hstopped] at hopen
      cases hopen

/-- Destroying the threads leaves them their work. -/
theorem clear_work {publishers publishers' : Fin (n + 1) → PublisherThread} {t t' : Teardown}
    (h : t.step requestStop isDone publishers = some (t', publishers')) :
    Pool.held publisherWork publishers' = Pool.held publisherWork publishers := by
  unfold Pool.held
  refine Finset.sum_congr rfl fun k _ => ?_
  simp only [publisherWork, clear_frame h k]

/-- The thread that the second half of `stop` depends on. -/
def clearHelper (s : Publisher n) : PublishingThread n :=
  match s.stopPc with
  | .clearing (.joining k) =>
      if h : k < n + 1 then
        if isDone (s.publishers ⟨k, h⟩) then .stopper else .publisher ⟨k, h⟩
      else .stopper
  | _ => .stopper

/-- Once its queue is stopped, a publisher thread can step until it has returned, whatever
Redis answers. -/
theorem publisherStep_isSome (dryRun : Bool) (outcome : RedisOutcome) {q : PublisherQueues}
    {t : PublisherThread} (hstopped : q.batchQueue.stopped = true) (hdone : isDone t = false) :
    (publisherStep dryRun outcome q t).isSome = true := by
  cases hpc : t.pc with
  | starting => simp [publisherStep, hpc]
  | loopHead => simp [publisherStep, hpc]
  | popping =>
      cases hpop : q.batchQueue.waitAndPop with
      | none =>
          have hopen := (Fifo.waitAndPop_eq_none.mp hpop).2
          rw [hstopped] at hopen
          cases hopen
      | some popped =>
          rcases popped with ⟨result, batchQueue⟩
          cases result with
          | none => simp [publisherStep, hpc, hpop]
          | some batch => simp [publisherStep, hpc, hpop]
  | popped batch =>
      cases dryRun with
      | true => simp [publisherStep, hpc]
      | false => simp [publisherStep, hpc]
  | sending batch =>
      cases hreply : outcome.reply with
      | null stored => simp [publisherStep, hpc, hreply]
      | error => simp [publisherStep, hpc, hreply]
      | normal => simp [publisherStep, hpc, hreply]
  | requeueing batch => simp [publisherStep, hpc, hstopped]
  | done => simp [isDone, hpc] at hdone

/-- Until `stop` has returned, it can go on, or the publisher thread it waits for can. -/
theorem clearHelper_canStep {s : Publisher n} (hs : Stopping s) (hclearing : Clearing s)
    (hreturned : ¬ Returned s) : (machine dryRun n).CanStep owner (clearHelper s) s := by
  rcases hclearing with ⟨progress, hpc⟩
  have hend : ¬ progress.Finished (n + 1) := by
    rintro rfl
    exact hreturned hpc
  rcases Teardown.step_or_waits requestStop isDone
    (hs.inRange progress hpc) hend s.publishers with
    ⟨progress', publishers', hclear⟩ | ⟨k, rfl, hk⟩
  · have hhelper : clearHelper s = .stopper := by
      rcases Teardown.step_cases hclear with ⟨k, rfl, -⟩ | ⟨k, rfl, -, -, hdone⟩
      · simp [clearHelper, hpc]
      · simp [clearHelper, hpc, hdone]
    rw [hhelper]
    exact .of_isSome .stop rfl (by simp [machine, stopStep, hpc, hclear])
  · have hhelper : clearHelper s = .publisher k := by
      simp only [clearHelper, hpc, k.isLt, hk, ↓reduceDIte, Fin.eta, Bool.false_eq_true,
        ↓reduceIte]
    rw [hhelper]
    have hstopped := hs.batchesStopped ⟨_, hpc⟩
    have hstep := publisherStep_isSome dryRun ⟨true, .normal⟩ hstopped hk
    exact .of_isSome (.publisher k ⟨true, .normal⟩) rfl (by simpa [machine] using hstep)

/-! ## Steps -/

/-- While the batching thread has not been joined, only its queue has been stopped. -/
theorem Stopping.of_early {s : Publisher n} (hframes : s.frameQueue.stopped = true)
    (hcalled : s.stopPc ≠ .running) (hjoined : s.stopPc ≠ .batcherJoined)
    (hclearing : ∀ progress, s.stopPc ≠ .clearing progress) : Stopping s where
  framesStopped := hframes
  called := hcalled
  batcherDone hphase := by
    rcases hphase with h | ⟨progress, h⟩
    · exact absurd h hjoined
    · exact absurd h (hclearing progress)
  batchesStopped := fun ⟨progress, h⟩ => absurd h (hclearing progress)
  inRange progress h := absurd h (hclearing progress)

/-- What `stop` has come to stays. -/
theorem Stopping.step {s s' : Publisher n} {a : Action n} (hs : Stopping s)
    (hstep : (machine dryRun n).step s a = some s') : Stopping s' := by
  cases a with
  | accept frame =>
      cases hstep
      rw [accept_of_stopped hs.framesStopped]
      exact hs
  | batcher =>
      rcases Option.map_eq_some_iff.mp hstep with ⟨⟨q, t⟩, hbatcher, rfl⟩
      rcases batcherStep_frame hbatcher with ⟨hframes, hbatches, -⟩
      refine ⟨hframes.trans hs.framesStopped, hs.called, fun hphase => ?_, fun hclearing => ?_,
        hs.inRange⟩
      · exact absurd (hs.batcherDone hphase) (batcherStep_running hbatcher)
      · exact hbatches.trans (hs.batchesStopped hclearing)
  | publisher k outcome =>
      rcases Option.map_eq_some_iff.mp hstep with ⟨⟨q, t⟩, hpublisher, rfl⟩
      rcases publisherStep_frame hpublisher with ⟨hframes, hbatches, -⟩
      refine ⟨?_, hs.called, hs.batcherDone, fun hclearing => ?_, hs.inRange⟩
      · exact (congrArg Fifo.stopped hframes).trans hs.framesStopped
      · exact hbatches.trans (hs.batchesStopped hclearing)
  | stop =>
      cases stopStep_moves hstep with
      | stopFrames hpc => exact absurd hpc hs.called
      | requestBatcher hpc => exact .of_early hs.framesStopped nofun nofun nofun
      | joinBatcher hpc hdone =>
          refine ⟨hs.framesStopped, nofun, fun _ => hdone, ?_, nofun⟩
          rintro ⟨_, hclearing⟩
          cases hclearing
      | stopBatches hpc =>
          refine ⟨hs.framesStopped, nofun, fun _ => hs.batcherDone (Or.inl hpc), fun _ => rfl, ?_⟩
          intro progress hprogress
          cases hprogress
          exact Teardown.inRange_start
      | clear progress progress' publishers' hpc hclear =>
          have hclearing : Clearing s := ⟨progress, hpc⟩
          refine ⟨hs.framesStopped, nofun, fun _ => hs.batcherDone (Or.inr hclearing),
            fun _ => hs.batchesStopped hclearing, ?_⟩
          intro progress hprogress
          cases hprogress
          exact Teardown.InRange.step hclear

/-- What holds when `stop` is called, and ever after. -/
theorem stopping_of_called {s : Publisher n} (h : (machine dryRun n).Reachable s)
    (hcalled : s.stopPc ≠ .running) : Stopping s := by
  have hinv : s.stopPc = .running ∨ Stopping s := by
    refine Machine.reachable_induction (M := machine dryRun n)
      (P := fun s => s.stopPc = .running ∨ Stopping s) ?_ ?_ h
    · rintro s rfl
      exact Or.inl rfl
    · rintro s a s' (hrunning | hs) hstep
      · cases a with
        | accept frame =>
            cases hstep
            exact Or.inl hrunning
        | batcher =>
            rcases Option.map_eq_some_iff.mp hstep with ⟨⟨q, t⟩, hbatcher, rfl⟩
            exact Or.inl hrunning
        | publisher k outcome =>
            rcases Option.map_eq_some_iff.mp hstep with ⟨⟨q, t⟩, hpublisher, rfl⟩
            exact Or.inl hrunning
        | stop =>
            have hnot : ∀ pc, s.stopPc = pc → pc ≠ .running → False := by
              intro pc hpc hne
              exact hne (hpc.symm.trans hrunning)
            cases stopStep_moves hstep with
            | stopFrames hpc => exact Or.inr (.of_early rfl nofun nofun nofun)
            | requestBatcher hpc => exact (hnot _ hpc nofun).elim
            | joinBatcher hpc hdone => exact (hnot _ hpc nofun).elim
            | stopBatches hpc => exact (hnot _ hpc nofun).elim
            | clear progress progress' publishers' hpc hclear => exact (hnot _ hpc nofun).elim
      · exact Or.inr (hs.step hstep)
  exact hinv.resolve_left hcalled

/-- Before the publisher threads are destroyed, every step reduces the work of the batching
thread and of `stop`, or is a step of another thread and leaves it alone. -/
theorem batchingWork_lt {s s' : Publisher n} {a : Action n} (hs : Stopping s)
    (hclearing : ¬ Clearing s) (hstep : (machine dryRun n).step s a = some s') :
    batchingWork s' < batchingWork s ∨
      (batchingWork s' = batchingWork s ∧ joinHelper s' = joinHelper s ∧
        owner a ≠ some (joinHelper s)) := by
  cases a with
  | accept frame =>
      cases hstep
      rw [accept_of_stopped hs.framesStopped]
      exact Or.inr ⟨rfl, rfl, nofun⟩
  | batcher =>
      rcases Option.map_eq_some_iff.mp hstep with ⟨⟨q, t⟩, hbatcher, rfl⟩
      have hless := batcherStep_work hbatcher
      left
      simp only [batchingWork]
      omega
  | publisher k outcome =>
      rcases Option.map_eq_some_iff.mp hstep with ⟨⟨q, t⟩, hpublisher, rfl⟩
      have hframes := (publisherStep_frame hpublisher).1
      refine Or.inr ⟨?_, rfl, ?_⟩
      · simp only [batchingWork, hframes]
      · unfold joinHelper
        split <;> nofun
  | stop =>
      left
      cases stopStep_moves hstep with
      | stopFrames hpc => exact absurd hpc hs.called
      | requestBatcher hpc =>
          simp only [batchingWork, batcherWork, joinWork, hpc]
          omega
      | joinBatcher hpc hdone =>
          simp only [batchingWork, joinWork, hpc]
          omega
      | stopBatches hpc =>
          simp only [batchingWork, joinWork, hpc]
          omega
      | clear progress progress' publishers' hpc hclear => exact absurd ⟨progress, hpc⟩ hclearing

/-- Once `batch_queue_` is stopped, every step reduces the work of the publisher threads and
of `stop`, or belongs to no thread and leaves it alone. -/
theorem sendingWork_lt {s s' : Publisher n} {a : Action n} (hs : Stopping s)
    (hclearing : Clearing s) (hstep : (machine dryRun n).step s a = some s') :
    Clearing s' ∧ (sendingWork s' < sendingWork s ∨
      (sendingWork s' = sendingWork s ∧ clearHelper s' = clearHelper s ∧
        owner a ≠ some (clearHelper s))) := by
  cases a with
  | accept frame =>
      cases hstep
      rw [accept_of_stopped hs.framesStopped]
      exact ⟨hclearing, Or.inr ⟨rfl, rfl, nofun⟩⟩
  | batcher =>
      rcases Option.map_eq_some_iff.mp hstep with ⟨⟨q, t⟩, hbatcher, rfl⟩
      exact absurd (hs.batcherDone (Or.inr hclearing)) (batcherStep_running hbatcher)
  | publisher k outcome =>
      rcases Option.map_eq_some_iff.mp hstep with ⟨⟨q, t⟩, hpublisher, rfl⟩
      have hless := publisherStep_work (hs.batchesStopped hclearing) hpublisher
      have hheld := Pool.held_update publisherWork s.publishers k t
      refine ⟨hclearing, Or.inl ?_⟩
      simp only [sendingWork]
      omega
  | stop =>
      rcases hclearing with ⟨progress₀, hpc₀⟩
      cases stopStep_moves hstep with
      | stopFrames hpc | requestBatcher hpc | joinBatcher hpc hdone | stopBatches hpc =>
          rw [hpc₀] at hpc
          cases hpc
      | clear progress progress' publishers' hpc hclear =>
          have hless := Teardown.remaining_lt hclear
          refine ⟨⟨progress', rfl⟩, Or.inl ?_⟩
          simp only [sendingWork, clearWork, hpc, clear_work hclear]
          omega

/-! ## The call returns -/

/-- A call that has begun returns. -/
theorem stopping_leadsTo (b : Behaviour (machine dryRun n)) (hfair : ∀ t, b.Fair owner t) :
    b.LeadsTo Stopping Returned := by
  have hjoin : b.LeadsTo Stopping (fun s => Stopping s ∧ Clearing s) := by
    refine Behaviour.leadsTo_of_rank batchingWork joinHelper ?_ ?_ b hfair
    · intro s a s' hs hclearing hstep
      have hclearing' : ¬ Clearing s := fun h => hclearing ⟨hs, h⟩
      exact Or.inr ⟨hs.step hstep, batchingWork_lt hs hclearing' hstep⟩
    · intro s hs hclearing
      exact joinHelper_canStep hs fun h => hclearing ⟨hs, h⟩
  have hclear : b.LeadsTo (fun s => Stopping s ∧ Clearing s) Returned := by
    refine Behaviour.leadsTo_of_rank sendingWork clearHelper ?_ ?_ b hfair
    · rintro s a s' ⟨hs, hclearing⟩ - hstep
      rcases sendingWork_lt hs hclearing hstep with ⟨hclearing', hwork⟩
      exact Or.inr ⟨⟨hs.step hstep, hclearing'⟩, hwork⟩
    · rintro s ⟨hs, hclearing⟩ hreturned
      exact clearHelper_canStep hs hclearing hreturned
  exact hjoin.trans hclear

/-- Whatever Redis answers and the workers push: in every fair behaviour a call of
`Publisher::stop` returns. -/
theorem stop_returns (dryRun : Bool) (n : Nat) (b : Behaviour (machine dryRun n))
    (hstart : (machine dryRun n).Reachable (b.state 0)) (hfair : ∀ t, b.Fair owner t) :
    b.LeadsTo (fun s => s.stopPc ≠ .running) Returned := by
  intro i hcalled
  exact stopping_leadsTo b hfair i (stopping_of_called (b.reachable hstart i) hcalled)

/-- Once every thread has been joined, none can step. -/
theorem not_canStep_of_done {s : Publisher n} (hreturned : Returned s)
    (hbatcher : s.batcher.pc = .done) (hdone : ∀ k, (s.publishers k).pc = .done)
    (t : PublishingThread n) : ¬ (machine dryRun n).CanStep owner t s := by
  rw [Machine.not_canStep_iff]
  intro a hown
  cases a with
  | accept frame => cases hown
  | batcher => simp [machine, batcherStep, hbatcher]
  | publisher k outcome => simp [machine, publisherStep, hdone k]
  | stop =>
      have hpc : s.stopPc = .clearing (.requesting (n + 1)) := hreturned
      simp [machine, stopStep, hpc, Teardown.step]

/-- The only publisher thread has popped a batch, which it cannot send, and the batching thread
holds a second frame when `stop` is called. -/
theorem stop_returns_one :
    ∃ b : Behaviour (machine false 0), (b.state 0).batcher.pc = .holding singleFrame ∧
      (∃ batch, ((b.state 0).publishers 0).pc = .popped batch) ∧
        (b.state 0).stopPc = .framesStopped ∧ ∃ j, Returned (b.state j) := by
  let thread : Action 0 := .publisher (Fin.last 0) ⟨false, .null false⟩
  have hcall : ∃ s : Publisher 0,
      (machine false 0).exec {} [.accept singleFrame, .batcher, .batcher, .batcher, thread, thread,
        thread, .accept singleFrame, .batcher, .batcher, .stop] = some s ∧
      s.batcher.pc = .holding singleFrame ∧ (s.publishers 0).pc = .popped (.single singleFrame) ∧
      s.stopPc = .framesStopped ∧
      ∃ t, (machine false 0).exec s [.stop, .batcher, .batcher, .batcher, .stop, .stop, .stop,
          thread, thread, thread, .stop] = some t ∧
        Returned t ∧ t.batcher.pc = .done ∧ (t.publishers 0).pc = .done :=
    ⟨_, rfl, rfl, rfl, rfl, _, rfl, rfl, rfl, rfl⟩
  rcases hcall with ⟨s, hcall, hholding, hpopped, hstopped, t, hrun, hreturned, hbatcher, hdone⟩
  have hsettled : ∀ k, ¬ (machine false 0).CanStep owner k t := by
    refine not_canStep_of_done hreturned hbatcher fun k => ?_
    have hk : k = 0 := by omega
    rw [hk]
    exact hdone
  rcases Machine.exists_behaviour hrun hsettled with ⟨b, hzero, -, hfair⟩
  have hstart : (machine false 0).Reachable (b.state 0) := by
    rw [hzero]
    exact ⟨{}, _, rfl, hcall⟩
  have hcalled : (b.state 0).stopPc ≠ .running := by
    rw [hzero, hstopped]
    nofun
  rcases stop_returns false 0 b hstart hfair 0 hcalled with ⟨j, -, hend⟩
  exact ⟨b, hzero ▸ hholding, hzero ▸ ⟨_, hpopped⟩, hzero ▸ hstopped, j, hend⟩

end Publisher

end FrameProcessor
