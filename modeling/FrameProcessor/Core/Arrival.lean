import FrameProcessor.Core.Consumption

/-!
# core/main - Every frame arrives

A frame comes to rest in two places: in an entry that Redis has stored, or in an open batch,
which may wait for ever for further frames of its stream and event.  When every processing graph
can be built and fed and yields one frame for each, Redis answers and nothing is stopped, every
frame comes to rest, however many frames the readers push behind it and whatever Redis did before.

Main results:

- Theorem `Pipeline.puts_back`: at some time no publisher thread has a batch to put back any more.
- Theorem `Pipeline.transit_stored`: what is on its way to Redis is stored at some time.
- Theorem `Pipeline.frames_arrive`: every accepted frame is delivered at some time, and everything
  delivered is stored or in an open batch at some time.
-/

namespace FrameProcessor

namespace Pipeline

open Publisher (framesOf framesIn openFrames inTransit packed)

variable {γ : Type*} {n m : Nat} {av : Avfilter γ} {Idle : γ → Prop}

/-! ## Batches that could not be sent -/

/-- One thread more has put its batch back. -/
theorem puts_back_one (h : Worker.OneToOne av Idle) (b : Behaviour (servingMachine av n m))
    (hfair : ∀ t, b.Fair owner t) (failed : Finset (Fin (m + 1))) (k : Fin (m + 1)) :
    b.LeadsTo
      (fun s => Unstopped Idle s ∧ ∀ j, j ∉ insert k failed → Publisher.KeepsBatch (s.publishers j))
      (fun s => Unstopped Idle s ∧ ∀ j, j ∉ failed → Publisher.KeepsBatch (s.publishers j)) := by
  have hdone : ∀ s : Pipeline γ n m, Publisher.KeepsBatch (s.publishers k) →
      (∀ j, j ∉ insert k failed → Publisher.KeepsBatch (s.publishers j)) →
      ∀ j, j ∉ failed → Publisher.KeepsBatch (s.publishers j) := by
    intro s hk hothers j hj
    by_cases hjk : j = k
    · rw [hjk]
      exact hk
    · exact hothers j (by simp [hjk, hj])
  refine Behaviour.leadsTo_of_rank (fun _ => 0) (fun _ => .publisher k) ?_ ?_ b hfair
  · rintro s a s' ⟨hs, hothers⟩ - hstep
    have hs' := servingMachine_unstopped h s a s' hs hstep
    have hkept := keepsBatch_step hstep
    have hothers' := fun j hj => hkept j (Or.inr (hothers j hj))
    by_cases howner : owner a = some (.publisher k)
    · exact Or.inl ⟨hs', hdone s' (hkept k (Or.inl howner)) hothers'⟩
    · exact Or.inr ⟨⟨hs', hothers'⟩, Or.inr ⟨rfl, rfl, howner⟩⟩
  · rintro s ⟨hs, hothers⟩ hgoal
    refine publisher_canStep hs (Or.inr fun hnone => hgoal ⟨hs, hdone s ?_ hothers⟩)
    intro batch hpc
    simp [hpc, Publisher.hand] at hnone

/-- At some time no publisher thread has a batch to put back any more. -/
theorem puts_back (h : Worker.OneToOne av Idle) (b : Behaviour (servingMachine av n m))
    (hfair : ∀ t, b.Fair owner t) : b.LeadsTo (Unstopped Idle) (Settled Idle) := by
  have hall : ∀ failed : Finset (Fin (m + 1)), b.LeadsTo
      (fun s => Unstopped Idle s ∧ ∀ j, j ∉ failed → Publisher.KeepsBatch (s.publishers j))
      (Settled Idle) := by
    intro failed
    induction failed using Finset.induction_on with
    | empty => exact .of_imp fun s hs => ⟨hs.1, fun k => hs.2 k (Finset.notMem_empty k)⟩
    | insert k failed hk ih => exact (puts_back_one h b hfair failed k).trans ih
  refine Behaviour.LeadsTo.trans (.of_imp fun s hs => ⟨hs, fun j hj => ?_⟩) (hall Finset.univ)
  exact absurd (Finset.mem_univ j) hj

/-! ## The way of a frame -/

section Way

variable (b : Behaviour (servingMachine av n m))

/-- Nothing is stopped at any time. -/
theorem unstopped_state (h : Worker.OneToOne av Idle) (hstart : Unstopped Idle (b.state 0))
    (i : ℕ) : Unstopped Idle (b.state i) :=
  b.invariant (servingMachine_unstopped h) (Nat.zero_le i) hstart

/-- What holds between the states of every step holds between those of any two instants. -/
theorem mono_state {β : Type*} [Preorder β] (h : Worker.OneToOne av Idle)
    (hstart : Unstopped Idle (b.state 0)) (f : Pipeline γ n m → β)
    (hstep : ∀ s a s', Unstopped Idle s → (servingMachine av n m).step s a = some s' → f s ≤ f s') :
    Monotone fun i => f (b.state i) := by
  refine monotone_nat_of_le_succ fun i => ?_
  have hpass := b.elapses i
  unfold Machine.Elapses at hpass
  split at hpass
  · rw [hpass]
  · exact hstep _ _ _ (unstopped_state b h hstart i) hpass

/-- What is on its way to Redis stays on its way, or arrives. -/
theorem inTransit_step {s s' : Pipeline γ n m} (hs : Unstopped Idle s) {a : Action n m}
    (hstep : (servingMachine av n m).step s a = some s') :
    inTransit s.publisher ≤ inTransit s'.publisher := by
  have hbatches : s.publisher.batchQueue.stopped = false := hs.batchesOpen
  cases servingMachine_steps hstep with
  | accept frame => exact le_rfl
  | worker i q w hthread => exact le_rfl
  | batcher q t hthread =>
      have hframes : s.publisher.frameQueue.stopped = false := hs.processedOpen
      exact (Publisher.batcher_packs hs.batcher hframes hbatches hthread).2.1
  | publisher k q t hthread => exact (Publisher.publisher_keeps hbatches hthread).1.ge

/-- Nothing is given up. -/
theorem discarded_step {s s' : Pipeline γ n m} (hs : Unstopped Idle s) {a : Action n m}
    (hstep : (servingMachine av n m).step s a = some s') : s'.discarded = s.discarded := by
  cases servingMachine_steps hstep with
  | accept frame => rfl
  | worker i q w hthread => rfl
  | batcher q t hthread => exact (Publisher.batcherStep_frame hthread).2.2.2.1
  | publisher k q t hthread =>
      have hbatches : s.publisher.batchQueue.stopped = false := hs.batchesOpen
      exact (Publisher.publisherStep_consumes hbatches hthread).1

variable (h : Worker.OneToOne av Idle) (hstart : Unstopped Idle (b.state 0))
  (hfair : ∀ t, b.Fair owner t)

include h hstart hfair

/-- Every accepted frame is delivered at some time. -/
theorem accepted_delivered [NeZero n] (i : ℕ) :
    ∃ j, i ≤ j ∧ (↑(b.state i).accepted : Multiset (DecodedFrame AVFrame)) ≤
      ↑((b.state j).delivered.map Prod.fst) := by
  have hs := unstopped_state b h hstart i
  rcases Consumers.finishes (decoding_serves h) b hfair hs with ⟨j, hij, harrived⟩
  refine ⟨j, hij, le_trans (le_of_eq ?_) harrived⟩
  have hbalance := hs.ledger.balance hs.processedOpen
  refine hbalance.symm.trans ?_
  exact add_right_comm _ _ _

/-- Everything delivered is packed at some time. -/
theorem delivered_packed (i : ℕ) :
    ∃ j, i ≤ j ∧ (↑((b.state i).delivered.map Prod.snd) : Multiset (DecodedFrame AVFrame)) ≤
      packed (b.state j).publisher := by
  have hs := unstopped_state b h hstart i
  rcases Consumers.finishes (batching_serves h) b hfair hs with ⟨j, hij, harrived⟩
  refine ⟨j, hij, le_trans (hs.kept.trans (le_of_eq ?_)) harrived⟩
  have hbalance := Publisher.packed_balance (p := (b.state i).publisher) hs.batcher
  refine hbalance.trans ?_
  simp only [batching, Consumers.ofPool, Finset.univ_unique, Finset.sum_singleton]
  rfl

/-- What is on its way to Redis is stored at some time. -/
theorem transit_stored (i : ℕ) :
    ∃ j, i ≤ j ∧ inTransit (b.state i).publisher ≤ framesOf (b.state j).stored := by
  have hmono := mono_state b h hstart (fun s => inTransit s.publisher)
    fun s a s' hs hstep => inTransit_step hs hstep
  rcases puts_back h b hfair i (unstopped_state b h hstart i) with ⟨j, hij, hsettled⟩
  rcases Consumers.finishes (publishing_serves h) b hfair hsettled with ⟨k, hjk, harrived⟩
  refine ⟨k, hij.trans hjk, (hmono hij).trans ?_⟩
  have hframes := Publisher.framesIn_le harrived
  simp only [publishing, Consumers.ofPool, map_add, map_sum, Publisher.framesIn_coe] at hframes
  refine le_trans (le_of_eq ?_) hframes
  rfl

end Way

/-- For any number of workers and publisher threads, with graphs that yield one frame for each,
whatever Redis did before, in every fair behaviour in which Redis answers and nothing is stopped,
at every instant: each accepted frame has been delivered at some later instant, and everything
delivered by then is, at a later instant again, in a stored entry or in an open batch, up to what
had been given up when the behaviour began. -/
theorem frames_arrive [NeZero n] (h : Worker.OneToOne av Idle)
    (b : Behaviour (servingMachine av n m)) {schedule : List (Action n m)}
    (hschedule : ∀ a ∈ schedule, NoStop a)
    (hrun : (machine av false n m).exec {} schedule = some (b.state 0))
    (hfair : ∀ t, b.Fair owner t) (i : ℕ) :
    ∃ j k, i ≤ j ∧ j ≤ k ∧
      (↑(b.state i).accepted : Multiset (DecodedFrame AVFrame)) ≤
        ↑((b.state j).delivered.map Prod.fst) ∧
      (↑((b.state j).delivered.map Prod.snd) : Multiset (DecodedFrame AVFrame)) ≤
        framesOf (b.state k).stored + openFrames (b.state k).batcher.currentBatches +
          framesOf (b.state 0).discarded := by
  have hstart : Unstopped Idle (b.state 0) := unstopped_of_run h hschedule hrun
  rcases accepted_delivered b h hstart hfair i with ⟨j, hij, haccepted⟩
  rcases delivered_packed b h hstart hfair j with ⟨l, hjl, hpacked⟩
  have htransit := mono_state b h hstart (fun s => inTransit s.publisher)
    fun s a s' hs hstep => inTransit_step hs hstep
  have hdiscarded : ∀ k, (b.state k).discarded = (b.state 0).discarded := by
    intro k
    have hkept := b.invariant
      (P := fun s => Unstopped Idle s ∧ s.discarded = (b.state 0).discarded)
      (fun s a s' hs hstep => ⟨servingMachine_unstopped h s a s' hs.1 hstep,
        (discarded_step hs.1 hstep).trans hs.2⟩) (Nat.zero_le k) ⟨hstart, rfl⟩
    exact hkept.2
  -- from the packing on, a frame is in transit, in an open batch or given up
  have hcover : ∀ k, l ≤ k → (↑((b.state j).delivered.map Prod.snd) : Multiset _) ≤
      inTransit (b.state k).publisher + (openFrames (b.state k).batcher.currentBatches +
        framesOf (b.state 0).discarded) := by
    intro k hlk
    have hfinished := (batching_serves h).finished_mono b hlk (unstopped_state b h hstart l)
    refine (hpacked.trans hfinished).trans (le_of_eq ?_)
    rw [← hdiscarded k, add_left_comm, ← add_assoc]
    rfl
  rcases exists_le_of_arrives htransit hcover (transit_stored b h hstart hfair) with
    ⟨k, hlk, hrest⟩
  refine ⟨j, k, hij, hjl.trans hlk, haccepted, ?_⟩
  rwa [add_assoc]

/-- A pipeline whose threads all wait for something does nothing by itself. -/
theorem not_canStep_of_waiting {s : Pipeline γ n m}
    (hworkers : ∀ i, (s.workers i).pc = .popping) (hdecode : s.decodeFrameQueue.waitAndPop = none)
    (hbatcher : s.batcher.pc = .popping) (hprocessed : s.processedFrameQueue.waitAndPop = none)
    (hpublishers : ∀ k, (s.publishers k).pc = .popping) (hbatches : s.batchQueue.waitAndPop = none)
    (t : PipelineThread n m) : ¬ (servingMachine av n m).CanStep owner t s := by
  rintro ⟨a, s', howner, hstep⟩
  cases servingMachine_steps hstep with
  | accept frame => cases howner
  | worker i q w hthread =>
      have hnone : s.worker.inQueue.waitAndPop = none := hdecode
      simp [Worker.threadStep, hworkers i, hnone] at hthread
  | batcher q t hthread =>
      have hnone : s.publisher.frameQueue.waitAndPop = none := hprocessed
      simp [Publisher.batcherStep, hbatcher, hnone] at hthread
  | publisher k q t hthread =>
      have hnone : s.publisher.batchQueue.waitAndPop = none := hbatches
      simp [Publisher.publisherStep, hpublishers k, hnone] at hthread

/-- The connection for the only batch is refused. -/
def refusedSchedule : List (Action 1 0) :=
  let worker : Action 1 0 := .worker (Fin.last 0)
  let refused : Action 1 0 := .publisher (Fin.last 0) ⟨false, .null false⟩
  [.accept (tinyFrame 1 1), worker, worker, worker, worker, .batcher, .batcher, .batcher,
    refused, refused, refused, refused]

/-- From then on Redis answers, until every thread waits. -/
def answeredSchedule : List (Action 1 0) :=
  let worker : Action 1 0 := .worker (Fin.last 0)
  let answered : Action 1 0 := .publisher (Fin.last 0) Publisher.answered
  [answered, answered, answered, answered, answered, answered, worker, worker, .batcher]

/-- The frame of the refused batch arrives. -/
theorem frames_arrive_refused :
    ∃ b : Behaviour (servingMachine Worker.passThrough 1 0),
      (b.state 0).accepted.length = 1 ∧ (b.state 0).stored = [] ∧ ∃ j k, j ≤ k ∧
        (↑(b.state 0).accepted : Multiset (DecodedFrame AVFrame)) ≤
          ↑((b.state j).delivered.map Prod.fst) ∧
        (↑((b.state j).delivered.map Prod.snd) : Multiset (DecodedFrame AVFrame)) ≤
          framesOf (b.state k).stored + openFrames (b.state k).batcher.currentBatches +
            framesOf (b.state 0).discarded := by
  have hrun : ∃ s, (machine Worker.passThrough false 1 0).exec {} refusedSchedule = some s ∧
      s.accepted.length = 1 ∧ s.stored = [] ∧ ∃ t,
        (servingMachine Worker.passThrough 1 0).exec s answeredSchedule = some t ∧
          (t.workers 0).pc = .popping ∧ t.decodeFrameQueue.waitAndPop = none ∧
          t.batcher.pc = .popping ∧ t.processedFrameQueue.waitAndPop = none ∧
          (t.publishers 0).pc = .popping ∧ t.batchQueue.waitAndPop = none :=
    ⟨_, rfl, rfl, rfl, _, rfl, rfl, rfl, rfl, rfl, rfl, rfl⟩
  rcases hrun with ⟨s, hbefore, haccepted, hstored, t, hafter, hworker, hdecode, hbatcher,
    hprocessed, hpublisher, hbatches⟩
  have hworkers : ∀ i, (t.workers i).pc = .popping := by
    intro i
    rw [Fin.fin_one_eq_zero i]
    exact hworker
  have hpublishers : ∀ k, (t.publishers k).pc = .popping := by
    intro k
    rw [Fin.fin_one_eq_zero k]
    exact hpublisher
  rcases Machine.exists_behaviour hafter (not_canStep_of_waiting hworkers hdecode hbatcher
    hprocessed hpublishers hbatches) with ⟨b, hzero, -, hfair⟩
  have hschedule : ∀ a ∈ refusedSchedule, NoStop a := by
    simp [refusedSchedule, NoStop]
  rcases frames_arrive Worker.passThrough_oneToOne b hschedule (by rw [hzero, hbefore]) hfair 0 with
    ⟨j, k, -, hjk, hdelivered, harrived⟩
  exact ⟨b, by rw [hzero, haccepted], by rw [hzero, hstored], j, k, hjk, hdelivered, harrived⟩

end Pipeline

end FrameProcessor
