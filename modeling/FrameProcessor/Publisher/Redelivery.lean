import FrameProcessor.Foundations.Contributions
import FrameProcessor.Publisher.Shutdown

/-!
# components/publisher - Frames that are stored more than once

A command without a reply may have been executed.  The publisher thread does not know and puts
the batch back, so its frames are in the Redis stream and on their way to it again.  This is the
only way a frame is ever in two places: whatever Redis answers, in dry-run mode or not, before
and during `Publisher::stop`, what the publisher holds, has stored and has given up is what it
has accepted, and once more what was stored without a reply.

Main results:

- Theorem `Publisher.publisherStep_resends`: a step of a publisher thread adds to the frames
  exactly what it stores without a reply.
- Theorem `Publisher.Sequenced.step`: every step keeps the order in which `stop` proceeds, whatever
  Redis answers.
- Theorem `Publisher.accounts_of_replies`: where every command that is executed gets a reply, no
  frame is ever in two places.
- Theorem `Publisher.frames_accounted`: the balance of every run, and what is left of it when
  `stop` has returned.
-/

namespace FrameProcessor

namespace Publisher

variable {n : Nat} {dryRun : Bool}

/-! ## What is stored without a reply -/

/-- The frames that a publisher thread stores and keeps in hand. -/
def resentBy (t : PublisherThread) (outcome : RedisOutcome) : Multiset (DecodedFrame AVFrame) :=
  match t.pc, outcome.reply with
  | .sending batch, .null true => ↑batch.frames
  | _, _ => 0

/-- The frames that an action stores and leaves in a thread's hand. -/
def resent (s : Publisher n) : Action n → Multiset (DecodedFrame AVFrame)
  | .publisher k outcome => resentBy (s.publishers k) outcome
  | _ => 0

theorem resentBy_eq_zero {t : PublisherThread} {outcome : RedisOutcome}
    (h : ∀ batch, t.pc = .sending batch → outcome.reply ≠ .null true) :
    resentBy t outcome = 0 := by
  unfold resentBy
  split
  · next batch hpc hreply => exact absurd hreply (h batch hpc)
  · rfl

/-- The reply matters only to a thread that has sent a command. -/
theorem publisherStep_reply {outcome outcome' : RedisOutcome} {q : PublisherQueues}
    {t : PublisherThread} (hpc : ∀ batch, t.pc ≠ .sending batch)
    (hconnects : outcome'.connects = outcome.connects) :
    publisherStep dryRun outcome' q t = publisherStep dryRun outcome q t := by
  unfold publisherStep
  cases hcase : t.pc with
  | sending batch => exact absurd hcase (hpc batch)
  | starting | popped => simp only [hconnects]
  | loopHead | popping | requeueing | done => rfl

/-- A step of a publisher thread adds to the frames exactly what it stores without a reply. -/
theorem publisherStep_resends {outcome : RedisOutcome} {q q' : PublisherQueues}
    {t t' : PublisherThread} (h : publisherStep dryRun outcome q t = some (q', t')) :
    settled q' + framesOf (hand t'.pc).toList =
      settled q + framesOf (hand t.pc).toList + resentBy t outcome := by
  by_cases hsending : ∃ batch, t.pc = .sending batch
  · rcases hsending with ⟨batch, hpc⟩
    by_cases hreply : outcome.reply = .null true
    · simp only [publisherStep, hpc, hreply] at h
      cases h
      simp only [resentBy, hpc, hreply, hand, if_true, settled_store, Option.toList_some,
        framesOf_cons, framesOf_nil]
      abel
    · rw [resentBy_eq_zero fun _ _ => hreply, add_zero]
      exact publisherStep_balance hreply h
  · have hpc : ∀ batch, t.pc ≠ .sending batch := fun batch hpc => hsending ⟨batch, hpc⟩
    rw [resentBy_eq_zero fun batch hbatch => absurd hbatch (hpc batch), add_zero]
    -- with another reply the thread would have done the same
    have hother : publisherStep dryRun { outcome with reply := .normal } q t =
        publisherStep dryRun outcome q t := publisherStep_reply hpc rfl
    exact publisherStep_balance (by simp) (hother.trans h)

/-- What a thread adds, the publisher has more. -/
theorem publisher_resends {s : Publisher n} {k : Fin (n + 1)} {q : PublisherQueues}
    {t : PublisherThread} {more : Multiset (DecodedFrame AVFrame)}
    (hmore : settled q + framesOf (hand t.pc).toList =
      settled s.toPublisherQueues + framesOf (hand (s.publishers k).pc).toList + more) :
    settled q + batcherHand s.batcher +
        held { s with toPublisherQueues := q, publishers := Function.update s.publishers k t } =
      settled s.toPublisherQueues + batcherHand s.batcher + held s + more := by
  have hheld :
      held { s with toPublisherQueues := q, publishers := Function.update s.publishers k t } +
        framesOf (hand (s.publishers k).pc).toList = held s + framesOf (hand t.pc).toList :=
    Pool.held_update (fun t : PublisherThread => framesOf (hand t.pc).toList) s.publishers k t
  refine add_right_cancel (b := framesOf (hand (s.publishers k).pc).toList) ?_
  rw [add_assoc, hheld]
  calc settled q + batcherHand s.batcher + (held s + framesOf (hand t.pc).toList)
      = batcherHand s.batcher + held s + (settled q + framesOf (hand t.pc).toList) := by abel
    _ = batcherHand s.batcher + held s + (settled s.toPublisherQueues +
          framesOf (hand (s.publishers k).pc).toList + more) := by rw [hmore]
    _ = settled s.toPublisherQueues + batcherHand s.batcher + held s + more +
          framesOf (hand (s.publishers k).pc).toList := by abel

/-! ## How far stop has come -/

/-- The batching thread has ended before `batch_queue_` is stopped, and every thread that has
been joined has ended. -/
structure Sequenced (s : Publisher n) : Prop where
  batcherDone : s.stopPc = .batcherJoined ∨ Clearing s → s.batcher.pc = .done
  batchesStopped : s.batchQueue.stopped = true → Clearing s
  joined : ∀ progress, s.stopPc = .clearing progress → progress.Joined isDone s.publishers

theorem sequenced_init : Sequenced ({} : Publisher n) where
  batcherDone h := by
    rcases h with h | ⟨_, h⟩ <;> cases h
  batchesStopped h := by cases h
  joined _ h := by cases h

/-- Every step keeps the order in which `stop` proceeds, whatever Redis answers. -/
theorem Sequenced.step {s s' : Publisher n} {a : Action n} (hs : Sequenced s)
    (hstep : (machine dryRun n).step s a = some s') : Sequenced s' := by
  cases a with
  | accept frame =>
      cases hstep
      exact ⟨hs.batcherDone, hs.batchesStopped, hs.joined⟩
  | batcher =>
      rcases Option.map_eq_some_iff.mp hstep with ⟨⟨q, t⟩, hbatcher, rfl⟩
      have hbatches := (batcherStep_frame hbatcher).2.1
      refine ⟨fun hphase => ?_, fun hstopped => hs.batchesStopped (hbatches ▸ hstopped), hs.joined⟩
      exact absurd (hs.batcherDone hphase) (batcherStep_running hbatcher)
  | publisher k outcome =>
      rcases Option.map_eq_some_iff.mp hstep with ⟨⟨q, t⟩, hthread, rfl⟩
      have hbatches := (publisherStep_frame hthread).2.1
      refine ⟨hs.batcherDone, fun hstopped => hs.batchesStopped (hbatches ▸ hstopped), ?_⟩
      exact fun progress hpc => (hs.joined progress hpc).update (publisherStep_running hthread)
  | stop =>
      cases stopStep_moves hstep with
      | stopFrames hpc =>
          refine ⟨?_, fun hstopped => ?_, nofun⟩
          · rintro (h | ⟨_, h⟩) <;> cases h
          · rcases hs.batchesStopped hstopped with ⟨_, h⟩
            rw [hpc] at h
            cases h
      | requestBatcher hpc =>
          refine ⟨?_, fun hstopped => ?_, nofun⟩
          · rintro (h | ⟨_, h⟩) <;> cases h
          · rcases hs.batchesStopped hstopped with ⟨_, h⟩
            rw [hpc] at h
            cases h
      | joinBatcher hpc hdone =>
          refine ⟨fun _ => hdone, fun hstopped => ?_, nofun⟩
          rcases hs.batchesStopped hstopped with ⟨_, h⟩
          rw [hpc] at h
          cases h
      | stopBatches hpc =>
          refine ⟨fun _ => hs.batcherDone (Or.inl hpc), fun _ => ⟨_, rfl⟩, ?_⟩
          intro progress hprogress
          cases hprogress
          exact Teardown.Joined.start _
      | clear progress progress' publishers' hpc hclear =>
          refine ⟨fun _ => hs.batcherDone (Or.inr ⟨progress, hpc⟩), fun _ => ⟨progress', rfl⟩, ?_⟩
          intro progress hprogress
          cases hprogress
          exact (hs.joined _ hpc).step hclear

/-! ## The balance of a run -/

/-- What the publisher holds, has stored and has given up is what it has accepted, and `more`. -/
structure Accounts (s : Publisher n) (more : Multiset (DecodedFrame AVFrame)) : Prop where
  sequenced : Sequenced s
  balance : settled s.toPublisherQueues + batcherHand s.batcher + held s = ↑s.accepted + more

theorem accounts_init : Accounts ({} : Publisher n) 0 where
  sequenced := sequenced_init
  balance := orderly_init.balance

/-- Every step keeps the balance up to what it stores without a reply. -/
theorem Accounts.step {s s' : Publisher n} {more : Multiset (DecodedFrame AVFrame)}
    {a : Action n} (hs : Accounts s more) (hstep : (machine dryRun n).step s a = some s') :
    Accounts s' (more + resent s a) := by
  refine ⟨hs.sequenced.step hstep, ?_⟩
  cases a with
  | accept frame =>
      cases hstep
      simp only [resent, add_zero]
      cases hstopped : s.frameQueue.stopped with
      | true =>
          rw [accept_of_stopped hstopped]
          exact hs.balance
      | false =>
          rcases settled_accept hstopped frame with ⟨hsettled, haccepted⟩
          calc settled (Publisher.accept s.toPublisherQueues frame) + batcherHand s.batcher +
                held s
              = settled s.toPublisherQueues + batcherHand s.batcher + held s + {frame} := by
                rw [hsettled]
                abel
            _ = ↑s.accepted + more + {frame} := by rw [hs.balance]
            _ = ↑(Publisher.accept s.toPublisherQueues frame).accepted + more := by
                rw [haccepted, ← Multiset.coe_add, Multiset.coe_singleton]
                abel
  | batcher =>
      rcases Option.map_eq_some_iff.mp hstep with ⟨⟨q, t⟩, hbatcher, rfl⟩
      have hopen : s.batchQueue.stopped = false := by
        by_contra hstopped
        have hclearing := hs.sequenced.batchesStopped (by simpa using hstopped)
        exact batcherStep_running hbatcher (hs.sequenced.batcherDone (Or.inr hclearing))
      have hbalance := batcherStep_balance hopen hbatcher
      have haccepted := (batcherStep_frame hbatcher).2.2.1
      simp only [resent, add_zero]
      rw [haccepted, ← hs.balance]
      exact congrArg (· + held s) hbalance
  | publisher k outcome =>
      rcases Option.map_eq_some_iff.mp hstep with ⟨⟨q, t⟩, hthread, rfl⟩
      have haccepted := (publisherStep_frame hthread).2.2.1
      have hmore := publisher_resends (s := s) (k := k) (t := t) (publisherStep_resends hthread)
      rw [haccepted, resent, ← add_assoc, ← hs.balance]
      exact hmore
  | stop =>
      simp only [resent, add_zero]
      cases stopStep_moves hstep with
      | stopFrames | requestBatcher | joinBatcher | stopBatches => exact hs.balance
      | clear progress progress' publishers' hpc hclear =>
          have hheld : Pool.held (fun t : PublisherThread => framesOf (hand t.pc).toList)
              publishers' = held s :=
            Finset.sum_congr rfl fun k _ =>
              congrArg (fun pc => framesOf (hand pc).toList) (clear_frame hclear k)
          rw [← hs.balance, ← hheld]
          rfl

/-- When `stop` has returned, no thread holds a frame. -/
theorem Sequenced.hands_empty {s : Publisher n} (hs : Sequenced s) (hreturned : Returned s) :
    batcherHand s.batcher = 0 ∧ held s = 0 := by
  constructor
  · rw [batcherHand, hs.batcherDone (Or.inr ⟨_, hreturned⟩)]
  · refine Pool.held_eq_zero fun k => ?_
    have hk : isDone (s.publishers k) = true := (hs.joined _ hreturned).finished rfl k
    unfold isDone at hk
    split at hk
    · next hpc => simp [hand, hpc]
    · cases hk

/-- The balance of every run. -/
theorem accounts_exec {schedule : List (Action n)} {s : Publisher n}
    (hrun : (machine dryRun n).exec {} schedule = some s) :
    Accounts s ((machine dryRun n).total resent {} schedule) := by
  have haccounts : Accounts s (0 + (machine dryRun n).total resent {} schedule) :=
    Machine.exec_balance (fun _ _ _ _ hs hstep => hs.step hstep) accounts_init hrun
  rwa [zero_add] at haccounts

/-- Where every command that is executed gets a reply, no frame is ever in two places. -/
theorem accounts_of_replies {schedule : List (Action n)} {s : Publisher n}
    (hreplies : ∀ a ∈ schedule, ∀ k outcome, a = .publisher k outcome →
      outcome.reply ≠ .null true)
    (hrun : (machine dryRun n).exec {} schedule = some s) : Accounts s 0 := by
  have hnone : (machine dryRun n).Meets (fun s a => resent s a = 0) {} schedule := by
    refine (Machine.meets_of_forall hreplies).mono fun s a ha => ?_
    cases a with
    | publisher k outcome => exact resentBy_eq_zero fun _ _ => ha k outcome rfl
    | accept | batcher | stop => rfl
  rw [← Machine.total_eq_zero_of_meets hnone]
  exact accounts_exec hrun

/-- In every run, with any number of publisher threads and whatever Redis answers: the frames
in the queues and in the threads' hands, stored and given up are those accepted and, once more,
those stored by commands without a reply; when `stop` has returned no thread holds any. -/
theorem frames_accounted (dryRun : Bool) {schedule : List (Action n)} {s : Publisher n}
    (hrun : (machine dryRun n).exec {} schedule = some s) :
    settled s.toPublisherQueues + batcherHand s.batcher + held s =
        ↑s.accepted + (machine dryRun n).total resent {} schedule ∧
      (Returned s → settled s.toPublisherQueues =
        ↑s.accepted + (machine dryRun n).total resent {} schedule) := by
  have haccounts := accounts_exec hrun
  refine ⟨haccounts.balance, fun hreturned => ?_⟩
  rcases haccounts.sequenced.hands_empty hreturned with ⟨hbatcher, hheld⟩
  have hbalance := haccounts.balance
  rwa [hbatcher, hheld, add_zero, add_zero] at hbalance

/-- The first command for a frame is executed without a reply, the second gets one. -/
def twiceSchedule : List (Action 0) :=
  let thread (reply : RedisReply) : Action 0 := .publisher (Fin.last 0) ⟨true, reply⟩
  [.accept singleFrame, .batcher, .batcher, .batcher, thread .normal, thread .normal,
    thread .normal, thread .normal, thread (.null true), thread .normal, thread .normal,
    thread .normal, thread .normal, thread .normal]

/-- One frame is accepted and stored twice. -/
theorem frames_accounted_twice :
    ∃ s, (machine false 0).exec {} twiceSchedule = some s ∧ s.accepted.length = 1 ∧
      (framesOf s.stored).card = 2 ∧
      Multiset.card ((machine false 0).total resent {} twiceSchedule) = 1 := by
  have hrun : ∃ s, (machine false 0).exec {} twiceSchedule = some s ∧ s.accepted.length = 1 ∧
      (s.stored.flatMap PackedBatch.frames).length = 2 ∧ s.frameQueue.queue = [] ∧
      s.batchQueue.queue = [] ∧ s.discarded = [] ∧ s.batcher.pc = .loopHead ∧
      s.batcher.currentBatches = ∅ ∧ (s.publishers 0).pc = .loopHead :=
    ⟨_, rfl, rfl, rfl, rfl, rfl, rfl, rfl, rfl, rfl⟩
  rcases hrun with ⟨s, hexec, haccepted, hstored, hframes, hbatches, hdiscarded, hpc, hopen,
    hpublisher⟩
  have hbatcher : batcherHand s.batcher = 0 := by
    rw [batcherHand, hpc, hopen]
    rfl
  have hheld : held s = 0 := by
    refine Pool.held_eq_zero fun k => ?_
    have hk : k = 0 := by omega
    rw [hk, hpublisher]
    rfl
  have hcard : (framesOf s.stored).card = 2 := hstored
  have hbalance := congrArg Multiset.card (frames_accounted false hexec).1
  rw [settled, hframes, hbatches, hdiscarded, hbatcher, hheld] at hbalance
  simp only [Multiset.coe_nil, framesOf_nil, zero_add, add_zero, Multiset.card_add, hcard,
    Multiset.coe_card, haccepted] at hbalance
  exact ⟨s, hexec, haccepted, hcard, by omega⟩

end Publisher

end FrameProcessor
