import FrameProcessor.Publisher.Threads

/-!
# components/publisher - Delivery to Redis

A publisher thread that has popped a batch must not pop another before Redis has stored
it or `batch_queue_` has it back.  A refused connection and a missing reply push the
batch back.  An error reply is freed like a normal one, although Redis has not stored
the entry, and the batch is gone.

Main results:

- Theorem `Publisher.delivering_step`: every step that gets no error reply keeps the
  events of every thread in order.
- Theorem `Publisher.storedInRedis_of_reachable`: what a thread records as stored is in
  Redis.
- Theorem `Publisher.batches_accounted`: in every run without an error reply, every batch
  is stored or back in the queue before its thread pops the next.
-/

namespace FrameProcessor

namespace Publisher

variable {n : Nat}

/-! ## The events of one thread -/

/-- Between two pops of a thread, the batch of the first is stored by Redis, or accepted
again by `batch_queue_` as it was. -/
def Accounted (history : List PublisherEvent) : Prop :=
  ∀ before between after batch batch',
    history = before ++ .popped batch :: (between ++ .popped batch' :: after) →
      .stored batch ∈ between ∨ .requeued batch ∈ between

/-- An event may follow a pop only if it settles the batch popped. -/
def Settles (event next : PublisherEvent) : Prop :=
  ∀ batch, event = .popped batch → next = .stored batch ∨ next = .requeued batch

/-- If every pop is settled by the next event, every batch is accounted for. -/
theorem accounted_of_isChain {history : List PublisherEvent} (h : history.IsChain Settles) :
    Accounted history := by
  rintro before between after batch batch' rfl
  have hchain := (List.isChain_append.mp h).2.1
  cases between with
  | nil =>
      rw [List.nil_append, List.isChain_cons_cons] at hchain
      rcases hchain.1 batch rfl with hnext | hnext <;> cases hnext
  | cons next between =>
      rw [List.cons_append, List.isChain_cons_cons] at hchain
      rcases hchain.1 batch rfl with hnext | hnext
      · exact Or.inl (hnext ▸ List.mem_cons_self)
      · exact Or.inr (hnext ▸ List.mem_cons_self)

/-- The events of a thread so far: all earlier pops are settled, and the last event is a
pop exactly if the thread still has that batch in hand. -/
structure Delivering (t : PublisherThread) : Prop where
  chain : t.history.IsChain Settles
  last : ∀ batch, t.history.getLast? = some (.popped batch) ↔ hand t.pc = some batch

/-- An event that settles the batch in hand. -/
theorem Delivering.settle {t t' : PublisherThread} (h : Delivering t) {batch : PackedBatch}
    (hhand : hand t.pc = some batch) {event : PublisherEvent}
    (hevent : event = .stored batch ∨ event = .requeued batch)
    (hhistory : t'.history = t.history ++ [event]) (hfree : hand t'.pc = none) :
    Delivering t' := by
  constructor
  · rw [hhistory, List.isChain_append]
    refine ⟨h.chain, List.isChain_singleton _, fun last hlast next hnext => ?_⟩
    rintro batch' rfl
    -- the last event was the pop of the batch in hand
    have hsame := (h.last batch').mp hlast
    rw [hhand] at hsame
    cases hsame
    cases hnext
    exact hevent
  · intro batch'
    rw [hhistory, hfree, List.getLast?_concat]
    rcases hevent with rfl | rfl <;> simp

/-- A pop, when the thread has nothing in hand. -/
theorem Delivering.pop {t t' : PublisherThread} (h : Delivering t) (hfree : hand t.pc = none)
    {batch : PackedBatch} (hhistory : t'.history = t.history ++ [.popped batch])
    (hhand : hand t'.pc = some batch) : Delivering t' := by
  constructor
  · rw [hhistory, List.isChain_append]
    refine ⟨h.chain, List.isChain_singleton _, fun last hlast next _ => ?_⟩
    rintro batch' rfl
    have hsome := (h.last batch').mp hlast
    rw [hfree] at hsome
    cases hsome
  · intro batch'
    rw [hhistory, hhand, List.getLast?_concat]
    simp

/-- A step that neither takes nor hands on a batch. -/
theorem Delivering.move {t t' : PublisherThread} (h : Delivering t)
    (hhistory : t'.history = t.history) (hhand : hand t'.pc = hand t.pc) : Delivering t' := by
  constructor
  · rw [hhistory]
    exact h.chain
  · rw [hhistory, hhand]
    exact h.last

/-! ## The events of a run -/

/-- The step does not get an error reply from Redis. -/
def NoErrorReply (s : Publisher n) (a : Action n) : Prop :=
  ∀ k outcome batch, a = .publisher k outcome → (s.publishers k).pc = .sending batch →
    outcome.reply ≠ .error

/-- A publisher thread that is not in dry-run mode, gets no error reply and shares an open
queue settles every batch before it pops the next. -/
theorem publisherStep_delivering {outcome : RedisOutcome} {q q' : PublisherQueues}
    {t t' : PublisherThread} (h : Delivering t) (hopen : q.batchQueue.stopped = false)
    (hreply : ∀ batch, t.pc = .sending batch → outcome.reply ≠ .error)
    (hstep : publisherStep false outcome q t = some (q', t')) :
    Delivering t' ∧ q'.batchQueue.stopped = false := by
  cases publisherStep_moves hstep with
  | start hpc => exact ⟨h.move rfl (by simp [hand, hpc]), hopen⟩
  | leave hpc htoken => exact ⟨h.move rfl (by simp [hand, hpc]), hopen⟩
  | wait hpc htoken => exact ⟨h.move rfl (by simp [hand, hpc]), hopen⟩
  | ended hpc hempty hstopped => exact ⟨h.move rfl (by simp [hand, hpc]), hopen⟩
  | pop batch rest hpc hqueue hstopped =>
      exact ⟨h.pop (by simp [hand, hpc]) rfl rfl, hstopped.trans hopen⟩
  | giveUp batch hhand hwhy =>
      rcases hwhy with ⟨hdry, -⟩ | ⟨herror, hpc⟩ | ⟨hstopped, -⟩
      · cases hdry
      · exact absurd herror (hreply batch hpc)
      · rw [hopen] at hstopped
        cases hstopped
  | connected batch redisConn hpc hdry => exact ⟨h.move rfl (by simp [hand, hpc]), hopen⟩
  | refused batch redisConn hpc hdry houtcome =>
      exact ⟨h.move rfl (by simp [hand, hpc]), hopen⟩
  | unanswered batch stored hpc houtcome =>
      refine ⟨h.move rfl (by simp [hand, hpc]), ?_⟩
      split
      · exact hopen
      · exact hopen
  | store batch hpc houtcome =>
      exact ⟨h.settle (by simp [hand, hpc]) (Or.inl rfl) rfl rfl, hopen⟩
  | requeue batch hpc hopen' =>
      refine ⟨h.settle (by simp [hand, hpc]) (Or.inr rfl) rfl rfl, ?_⟩
      rw [pushBatch, Fifo.push_stopped]
      exact hopen

/-- The batching thread leaves the flag of `batch_queue_` alone. -/
theorem batcherStep_batchStopped {q q' : PublisherQueues} {t t' : BatcherThread}
    (h : batcherStep q t = some (q', t')) : q'.batchQueue.stopped = q.batchQueue.stopped := by
  cases batcherStep_moves h with
  | leave hpc htoken => rfl
  | wait hpc htoken => rfl
  | ended hpc hempty hstopped => rfl
  | pop frame rest hpc hqueue hstopped => rfl
  | batch frame hpc => cases (batchFrame t.currentBatches frame).2 <;> simp [pushBatch]
  | flush batch batches hpc => simp [pushBatch]
  | finish hpc => rfl

/-- `batch_queue_` is open and every thread accounts for its batches. -/
structure AllDelivering (s : Publisher n) : Prop where
  isOpen : s.batchQueue.stopped = false
  threads : ∀ k, Delivering (s.publishers k)

theorem allDelivering_init : AllDelivering ({} : Publisher n) where
  isOpen := rfl
  threads _ := ⟨List.isChain_nil, by simp [hand]⟩

/-- Every step that does not stop the publisher and gets no error reply keeps the events of
every thread in order. -/
theorem delivering_step (s : Publisher n) (a : Action n) (s' : Publisher n)
    (hs : AllDelivering s) (ha : a ≠ .stop ∧ NoErrorReply s a)
    (hstep : (machine false n).step s a = some s') : AllDelivering s' := by
  cases a with
  | accept frame =>
      cases hstep
      exact ⟨hs.isOpen, hs.threads⟩
  | batcher =>
      rcases Option.map_eq_some_iff.mp hstep with ⟨⟨q, t⟩, hbatcher, rfl⟩
      exact ⟨(batcherStep_batchStopped hbatcher).trans hs.isOpen, hs.threads⟩
  | publisher k outcome =>
      rcases Option.map_eq_some_iff.mp hstep with ⟨⟨q, t⟩, hthread, rfl⟩
      rcases publisherStep_delivering (hs.threads k) hs.isOpen
        (fun batch => ha.2 k outcome batch rfl) hthread with ⟨hdelivering, hopen⟩
      exact ⟨hopen, Pool.forall_update _ hdelivering hs.threads⟩
  | stop => exact absurd rfl ha.1

/-- In every run that is not asked to stop, with any number of publisher threads and any
behaviour of Redis but error replies: every batch a thread has popped is stored by Redis
or back in `batch_queue_` before that thread pops its next one. -/
theorem batches_accounted {schedule : List (Action n)} {s : Publisher n}
    (hrun : (machine false n).exec {} schedule = some s) (hrunning : ∀ a ∈ schedule, a ≠ .stop)
    (hreplies : (machine false n).Meets NoErrorReply {} schedule) (k : Fin (n + 1)) :
    Accounted (s.publishers k).history := by
  have hguard := (Machine.meets_of_forall hrunning).and hreplies
  have hall := Machine.exec_induction_of_meets delivering_step allDelivering_init hguard hrun
  exact accounted_of_isChain (hall.threads k).chain

/-! ## Stored means stored -/

/-- A step of a publisher thread keeps what Redis has stored, and records a batch as
stored only when Redis stores it. -/
theorem publisherStep_stored {dryRun : Bool} {outcome : RedisOutcome} {q q' : PublisherQueues}
    {t t' : PublisherThread} (h : publisherStep dryRun outcome q t = some (q', t')) :
    q.stored ⊆ q'.stored ∧
      ∀ batch, .stored batch ∈ t'.history → .stored batch ∈ t.history ∨ batch ∈ q'.stored := by
  cases publisherStep_moves h with
  | start | leave | wait | ended | giveUp | connected | refused =>
      exact ⟨List.Subset.refl _, fun _ hmem => Or.inl hmem⟩
  | pop batch rest hpc hqueue hstopped =>
      exact ⟨List.Subset.refl _, fun _ hmem => Or.inl (by simpa using hmem)⟩
  | unanswered batch stored hpc houtcome =>
      refine ⟨?_, fun _ hmem => Or.inl hmem⟩
      split
      · exact List.subset_append_left _ _
      · exact List.Subset.refl _
  | store batch hpc houtcome =>
      refine ⟨List.subset_append_left _ _, fun batch' hmem => ?_⟩
      rcases List.mem_append.mp hmem with hmem | hmem
      · exact Or.inl hmem
      · cases List.mem_singleton.mp hmem
        exact Or.inr (List.mem_append_right _ List.mem_cons_self)
  | requeue batch hpc hopen =>
      exact ⟨List.Subset.refl _, fun _ hmem => Or.inl (by simpa using hmem)⟩

/-- The batching thread stores nothing. -/
theorem batcherStep_stored {q q' : PublisherQueues} {t t' : BatcherThread}
    (h : batcherStep q t = some (q', t')) : q'.stored = q.stored := by
  cases batcherStep_moves h with
  | batch frame hpc => cases (batchFrame t.currentBatches frame).2 <;> rfl
  | _ => rfl

/-- Every batch that a thread has recorded as stored is in Redis. -/
def StoredInRedis (s : Publisher n) : Prop :=
  ∀ k batch, .stored batch ∈ (s.publishers k).history → batch ∈ s.stored

theorem storedInRedis_step {dryRun : Bool} (s : Publisher n) (a : Action n) (s' : Publisher n)
    (hs : StoredInRedis s) (hstep : (machine dryRun n).step s a = some s') : StoredInRedis s' := by
  cases a with
  | accept frame =>
      cases hstep
      exact hs
  | batcher =>
      rcases Option.map_eq_some_iff.mp hstep with ⟨⟨q, t⟩, hbatcher, rfl⟩
      intro k batch hmem
      rw [batcherStep_stored hbatcher]
      exact hs k batch hmem
  | publisher k outcome =>
      rcases Option.map_eq_some_iff.mp hstep with ⟨⟨q, t⟩, hthread, rfl⟩
      rcases publisherStep_stored hthread with ⟨hkept, hnew⟩
      intro j batch hmem
      by_cases hj : j = k
      · subst hj
        rcases hnew batch (by simpa using hmem) with hold | hstored
        · exact hkept (hs j batch hold)
        · exact hstored
      · exact hkept (hs j batch (by simpa [hj] using hmem))
  | stop =>
      cases stopStep_moves hstep with
      | stopFrames | requestBatcher | joinBatcher | stopBatches => exact hs
      | clear progress progress' publishers' hpc hclear =>
          intro k batch hmem
          have hhistory : (publishers' k).history = (s.publishers k).history := by
            rcases Teardown.step_thread hclear k with hsame | hrequested
            · rw [hsame]
            · rw [hrequested, requestStop]
          exact hs k batch (hhistory ▸ hmem)

/-- In every reachable state, the batches recorded as stored are in Redis. -/
theorem storedInRedis_of_reachable {dryRun : Bool} {s : Publisher n}
    (h : (machine dryRun n).Reachable s) : StoredInRedis s := by
  refine Machine.reachable_induction ?_ storedInRedis_step h
  rintro s rfl k batch hmem
  cases hmem

/-! ## Two batches and one reply -/

/-- Two frames become two batches, which a single publisher thread pops; the command for
the first gets the given reply. -/
def twoBatches (reply : RedisReply) : List (Action 0) :=
  let thread (reply : RedisReply) : Action 0 := .publisher 0 ⟨true, reply⟩
  [.accept singleFrame, .accept singleFrame, .batcher, .batcher, .batcher, .batcher, .batcher,
    .batcher, thread .normal, thread .normal, thread .normal, thread .normal, thread reply,
    thread .normal, thread .normal]

/-- After a normal reply the first batch is accounted for. -/
theorem batches_accounted_normal :
    ∃ s, (machine false 0).exec {} (twoBatches .normal) = some s ∧
      Accounted (s.publishers 0).history := by
  have hrunning : ∀ a ∈ twoBatches .normal, a ≠ .stop := by
    rintro a ha rfl
    simp [twoBatches] at ha
  have hreplies : ∀ a ∈ twoBatches .normal, ∀ k outcome,
      a = .publisher k outcome → outcome.reply ≠ .error := by
    rintro a ha k outcome rfl herror
    simp only [twoBatches, List.mem_cons, reduceCtorEq, Action.publisher.injEq, false_or,
      List.not_mem_nil, or_false, or_self] at ha
    rw [ha.2] at herror
    cases herror
  have hmeets : (machine false 0).Meets NoErrorReply {} (twoBatches .normal) :=
    (Machine.meets_of_forall hreplies).mono fun _ _ h k outcome _ ha _ => h k outcome ha
  have hrun : ∃ s, (machine false 0).exec {} (twoBatches .normal) = some s := ⟨_, rfl⟩
  rcases hrun with ⟨s, hexec⟩
  exact ⟨s, hexec, batches_accounted hexec hrunning hmeets 0⟩

/-- After an error reply the thread pops the next batch, and the first is nowhere. -/
theorem batches_lost_on_error_reply :
    ¬ ∀ (schedule : List (Action 0)) (s : Publisher 0),
      (machine false 0).exec {} schedule = some s → (∀ a ∈ schedule, a ≠ .stop) →
        ∀ k, Accounted (s.publishers k).history := by
  intro hall
  have hrun : ∃ s, (machine false 0).exec {} (twoBatches .error) = some s ∧
      ∃ batch batch', (s.publishers 0).history = [.popped batch, .popped batch'] :=
    ⟨_, rfl, _, _, rfl⟩
  rcases hrun with ⟨s, hexec, batch, batch', hhistory⟩
  have hrunning : ∀ a ∈ twoBatches .error, a ≠ .stop := by
    rintro a ha rfl
    simp [twoBatches] at ha
  have haccounted := hall _ s hexec hrunning 0 [] [] [] batch batch' hhistory
  simp at haccounted

end Publisher

end FrameProcessor
