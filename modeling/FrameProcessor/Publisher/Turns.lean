import FrameProcessor.Foundations.Turns
import FrameProcessor.Publisher.Conservation

/-!
# components/publisher - Which batches are stored first

The batching thread keeps the frames of a stream and event in the order in which it pops
them.  Several threads send the batches, and a batch that could not be sent goes back to
the end of the queue, so a batch can be stored before an earlier one.  To follow this the
batches are numbered in the order in which the batching thread handed them on; no thread
sees the numbers.

Main results:

- Theorem `Publisher.Batched.step`: the batching thread keeps the frames of a key in order.
- Theorem `Publisher.StoredInTurn.publisherStep`: so does a step of a publisher thread that
  stores no batch while an earlier one of the key is still on its way.
- Theorem `Publisher.storedFrames_sublist`: the frames stored under a key are some of those
  accepted, in the same order.
-/

namespace FrameProcessor

/-- What is recorded about the numbers of batches. -/
structure BatchNumbers (n : Nat) where
  /-- The batches that the batching thread handed on; a batch has its position as number. -/
  formed : List Publisher.PackedBatch := []
  /-- The batches in `batch_queue_`. -/
  waiting : List (Nat × Publisher.PackedBatch) := []
  /-- The number of the batch that a publisher thread popped last. -/
  inHand : Fin (n + 1) → Nat := fun _ => 0
  /-- The stored batches. -/
  stored : List (Nat × Publisher.PackedBatch) := []

namespace Publisher

variable {n : Nat}

/-! ## The batching thread -/

/-- The frames of a key that the batching thread has popped and not handed on yet. -/
def batcherFrames (key : BatchKey) (t : BatcherThread) : List (DecodedFrame AVFrame) :=
  match t.pc with
  | .loopHead => openOf t.currentBatches key
  | .popping => openOf t.currentBatches key
  | .holding frame =>
      openOf t.currentBatches key ++ [frame].filter fun frame => batchKey frame == key
  | .flushing batches => (batchesOf key batches).flatMap PackedBatch.frames
  | .done => []

/-- The flush pushes the frames of the open batch of a key. -/
theorem flush_frames {current : CurrentBatches} (h : OpenInvariant current) (key : BatchKey) :
    (batchesOf key (flush current)).flatMap PackedBatch.frames = openOf current key := by
  rw [batchesOf_flush h, openOf]
  cases current[key]? with
  | none => rfl
  | some batch => simp

/-- A step of the batching thread passes the frames of a key on in order. -/
theorem batcherStep_frames {q q' : PublisherQueues} {t t' : BatcherThread}
    (ht : BatcherTagged t) (key : BatchKey) (h : batcherStep q t = some (q', t')) :
    (batchesOf key (pushesNext t).toList).flatMap PackedBatch.frames ++ batcherFrames key t' ++
        q'.frameQueue.queue.filter (fun frame => batchKey frame == key) =
      batcherFrames key t ++ q.frameQueue.queue.filter fun frame => batchKey frame == key := by
  cases batcherStep_moves h with
  | wait hpc => simp [pushesNext, batcherFrames, hpc, batchesOf]
  | finish hpc => simp [pushesNext, batcherFrames, hpc, batchesOf]
  | leave hpc | ended hpc =>
      simp only [pushesNext, batcherFrames, hpc, Option.toList_none]
      rw [flush_frames ht.currentBatches]
      rfl
  | pop frame rest hpc hqueue hstopped =>
      simp only [pushesNext, batcherFrames, hpc, hqueue, Option.toList_none]
      rw [List.append_assoc, List.append_assoc, ← List.filter_append]
      rfl
  | batch frame hpc =>
      have hbatch := batchFrame_filter ht.currentBatches frame key
      have hframes : ((batchFrame t.currentBatches frame).2.elim q (pushBatch q)).frameQueue =
          q.frameQueue := by
        cases (batchFrame t.currentBatches frame).2 <;> rfl
      simp only [pushesNext, batcherFrames, hpc, hframes]
      rw [hbatch]
  | flush batch batches hpc =>
      simp only [pushesNext, batcherFrames, hpc, Option.toList_some, pushBatch]
      rw [← List.flatMap_append, batchesOf, batchesOf, ← List.filter_append]
      rfl

/-- The frames of a key that were accepted are, in order, those of the batches handed on,
those the batching thread has, and those in its queue. -/
structure Batched (key : BatchKey) (s : Publisher n) (formed : List PackedBatch) : Prop where
  tagged : BatcherTagged s.batcher
  frames : (batchesOf key formed).flatMap PackedBatch.frames ++ batcherFrames key s.batcher ++
      s.frameQueue.queue.filter (fun frame => batchKey frame == key) =
    s.accepted.filter fun frame => batchKey frame == key

theorem batched_init (key : BatchKey) : Batched key ({} : Publisher n) [] where
  tagged := inFlight_init.batcher
  frames := by simp [batchesOf, batcherFrames, openOf]

theorem Batched.accept {key : BatchKey} {s : Publisher n} {formed : List PackedBatch}
    (h : Batched key s formed) (frame : DecodedFrame AVFrame) :
    Batched key { s with toPublisherQueues := Publisher.accept s.toPublisherQueues frame }
      formed := by
  refine ⟨h.tagged, ?_⟩
  cases hstopped : s.frameQueue.stopped with
  | true =>
      rw [accept_of_stopped hstopped]
      exact h.frames
  | false =>
      simp only [Publisher.accept, hstopped, Fifo.push_queue_of_not_stopped, Bool.false_eq_true,
        if_false, List.filter_append]
      rw [← List.append_assoc, h.frames]

/-- The batching thread keeps the frames of a key in order. -/
theorem Batched.step {key : BatchKey} {s : Publisher n} {formed : List PackedBatch}
    (h : Batched key s formed) {q : PublisherQueues} {t : BatcherThread}
    (hstep : batcherStep s.toPublisherQueues s.batcher = some (q, t)) :
    Batched key { s with toPublisherQueues := q, batcher := t }
      (formed ++ (pushesNext s.batcher).toList) := by
  have hframes := batcherStep_frames h.tagged key hstep
  have haccepted := (batcherStep_frame hstep).2.2.1
  refine ⟨(h.tagged.step hstep).2, ?_⟩
  rw [haccepted, ← h.frames, batchesOf, List.filter_append, List.flatMap_append,
    List.append_assoc, List.append_assoc, List.append_assoc, ← hframes, List.append_assoc]
  rfl

/-- What others do with the frame queue, apart from its frames, does not matter. -/
theorem Batched.frameQueue {key : BatchKey} {s : Publisher n} {formed : List PackedBatch}
    (h : Batched key s formed) {frameQueue : Fifo (DecodedFrame AVFrame)}
    (hqueue : frameQueue.queue = s.frameQueue.queue) :
    Batched key { s with frameQueue } formed := by
  refine ⟨h.tagged, ?_⟩
  rw [← h.frames, ← hqueue]

/-- A step of `Publisher::stop`. -/
theorem Batched.stop {key : BatchKey} {s s' : Publisher n} {formed : List PackedBatch}
    (h : Batched key s formed) (hstep : stopStep s = some s') : Batched key s' formed := by
  cases stopStep_moves hstep with
  | requestBatcher => exact ⟨⟨h.tagged.currentBatches, h.tagged.flushing⟩, h.frames⟩
  | stopFrames | joinBatcher | stopBatches | clear => exact ⟨h.tagged, h.frames⟩

/-! ## The publisher threads -/

/-- The numbers after a step of the batching thread. -/
def batcherNumbers (s : Publisher n) (numbers : BatchNumbers n) : BatchNumbers n :=
  match pushesNext s.batcher with
  | none => numbers
  | some batch =>
      { numbers with
        formed := numbers.formed ++ [batch]
        waiting :=
          if s.batchQueue.stopped then numbers.waiting
          else numbers.waiting ++ [(numbers.formed.length, batch)] }

/-- The numbers after a step of a publisher thread. -/
def publisherNumbers (s : Publisher n) (numbers : BatchNumbers n) (k : Fin (n + 1))
    (outcome : RedisOutcome) : BatchNumbers n :=
  match (s.publishers k).pc with
  | .popping =>
      match numbers.waiting with
      | [] => numbers
      | (number, _) :: waiting =>
          { numbers with waiting, inHand := Function.update numbers.inHand k number }
  | .sending batch =>
      if outcome.reply = .normal ∨ outcome.reply = .null true then
        { numbers with stored := numbers.stored ++ [(numbers.inHand k, batch)] }
      else numbers
  | .requeueing batch =>
      if s.batchQueue.stopped then numbers
      else { numbers with waiting := numbers.waiting ++ [(numbers.inHand k, batch)] }
  | _ => numbers

@[simp]
theorem batcherNumbers_formed (s : Publisher n) (numbers : BatchNumbers n) :
    (batcherNumbers s numbers).formed = numbers.formed ++ (pushesNext s.batcher).toList := by
  unfold batcherNumbers
  cases pushesNext s.batcher with
  | none => simp
  | some batch => rfl

@[simp]
theorem publisherNumbers_formed (s : Publisher n) (numbers : BatchNumbers n) (k : Fin (n + 1))
    (outcome : RedisOutcome) : (publisherNumbers s numbers k outcome).formed = numbers.formed := by
  unfold publisherNumbers
  split
  · split <;> rfl
  · split <;> rfl
  · split <;> rfl
  · rfl

/-- What a step of a publisher thread does to the batches and to their numbers. -/
inductive NumberMoves (s : Publisher n) (numbers : BatchNumbers n) (k : Fin (n + 1))
    (outcome : RedisOutcome) (q : PublisherQueues) (t : PublisherThread) :
    BatchNumbers n → Prop where
  | keep (hqueue : q.batchQueue = s.batchQueue) (hstored : q.stored = s.stored)
      (hhand : ∀ batch, hand t.pc = some batch → hand (s.publishers k).pc = some batch) :
      NumberMoves s numbers k outcome q t numbers
  | pop (number : Nat) (batch : PackedBatch) (waiting : List (Nat × PackedBatch))
      (hwaiting : numbers.waiting = (number, batch) :: waiting)
      (hqueue : waiting.map Prod.snd = q.batchQueue.queue) (hstored : q.stored = s.stored)
      (hhand : hand t.pc = some batch) :
      NumberMoves s numbers k outcome q t
        { numbers with waiting, inHand := Function.update numbers.inHand k number }
  | store (batch : PackedBatch) (hpc : (s.publishers k).pc = .sending batch)
      (hreply : (outcome.reply = .normal ∧ hand t.pc = none) ∨
        (outcome.reply = .null true ∧ hand t.pc = some batch))
      (hqueue : q = Publisher.store s.toPublisherQueues batch) :
      NumberMoves s numbers k outcome q t
        { numbers with stored := numbers.stored ++ [(numbers.inHand k, batch)] }
  | requeue (batch : PackedBatch) (hpc : (s.publishers k).pc = .requeueing batch)
      (hopen : s.batchQueue.stopped = false) (hqueue : q = pushBatch s.toPublisherQueues batch)
      (hfree : hand t.pc = none) :
      NumberMoves s numbers k outcome q t
        { numbers with waiting := numbers.waiting ++ [(numbers.inHand k, batch)] }

theorem publisherNumbers_moves {dryRun : Bool} {outcome : RedisOutcome} {s : Publisher n}
    {numbers : BatchNumbers n} (hwaiting : numbers.waiting.map Prod.snd = s.batchQueue.queue)
    {k : Fin (n + 1)} {q : PublisherQueues} {t : PublisherThread}
    (hstep : publisherStep dryRun outcome s.toPublisherQueues (s.publishers k) = some (q, t)) :
    NumberMoves s numbers k outcome q t (publisherNumbers s numbers k outcome) := by
  cases publisherStep_moves hstep with
  | start hpc | leave hpc | wait hpc =>
      simp only [publisherNumbers, hpc]
      exact .keep rfl rfl fun batch hnone => by cases hnone
  | ended hpc hempty hstopped =>
      have hnone : numbers.waiting = [] := by
        rw [← List.map_eq_nil_iff, hwaiting]
        exact hempty
      simp only [publisherNumbers, hpc, hnone]
      exact .keep rfl rfl fun batch hnone => by cases hnone
  | pop batch rest hpc hqueue hstopped =>
      rw [hqueue] at hwaiting
      rcases List.map_eq_cons_iff.mp hwaiting with ⟨⟨number, first⟩, waiting, hfirst, rfl, hrest⟩
      simp only [publisherNumbers, hpc, hfirst]
      exact .pop number first waiting hfirst hrest rfl rfl
  | giveUp batch hhand hwhy =>
      have hnumbers : publisherNumbers s numbers k outcome = numbers := by
        rcases hwhy with ⟨-, hpc⟩ | ⟨herror, hpc⟩ | ⟨hstopped, hpc⟩
        · simp [publisherNumbers, hpc]
        · simp [publisherNumbers, hpc, herror]
        · simp [publisherNumbers, hpc, hstopped]
      rw [hnumbers]
      exact .keep rfl rfl fun batch hnone => by cases hnone
  | connected batch redisConn hpc hdry | refused batch redisConn hpc hdry houtcome =>
      simp only [publisherNumbers, hpc]
      refine .keep rfl rfl fun batch' hbatch' => ?_
      rw [hpc]
      exact hbatch'
  | unanswered batch stored hpc houtcome =>
      have hhand : hand (s.publishers k).pc = some batch := by
        rw [hpc]
        rfl
      cases stored with
      | false =>
          have hnumbers : publisherNumbers s numbers k outcome = numbers := by
            simp [publisherNumbers, hpc, houtcome]
          rw [hnumbers]
          exact .keep rfl rfl fun batch' hbatch' => hhand.trans hbatch'
      | true =>
          simp only [publisherNumbers, hpc, houtcome, or_true, if_true]
          exact .store batch hpc (Or.inr ⟨houtcome, rfl⟩) rfl
  | store batch hpc houtcome =>
      simp only [publisherNumbers, hpc, houtcome, true_or, if_true]
      exact .store batch hpc (Or.inl ⟨houtcome, rfl⟩) rfl
  | requeue batch hpc hopen =>
      simp only [publisherNumbers, hpc, hopen, Bool.false_eq_true, if_false]
      exact .requeue batch hpc hopen rfl rfl

/-- The batch of a number waits in `batch_queue_` or is in the hands of a thread. -/
def OnTheWay (s : Publisher n) (numbers : BatchNumbers n) (number : Nat) (batch : PackedBatch) :
    Prop :=
  (number, batch) ∈ numbers.waiting ∨
    ∃ k, hand (s.publishers k).pc = some batch ∧ number = numbers.inHand k

/-- The step of a publisher thread stores no batch of a key while an earlier one waits or is
in the hands of another thread, and stores none without a reply. -/
structure StoresInTurn (key : BatchKey) (s : Publisher n) (numbers : BatchNumbers n)
    (k : Fin (n + 1)) (outcome : RedisOutcome) : Prop where
  waiting : ∀ batch, (s.publishers k).pc = .sending batch → batch.key = key →
    outcome.reply = .normal → ∀ entry ∈ numbers.waiting, entry.2.key = key →
      numbers.inHand k < entry.1
  others : ∀ batch, (s.publishers k).pc = .sending batch → batch.key = key →
    outcome.reply = .normal → ∀ j, j ≠ k → ∀ batch', hand (s.publishers j).pc = some batch' →
      batch'.key = key → numbers.inHand k < numbers.inHand j
  answered : ∀ batch, (s.publishers k).pc = .sending batch → batch.key = key →
    outcome.reply ≠ .null true

/-- The stored batches of a key. -/
def storedOf (key : BatchKey) (numbers : BatchNumbers n) : List (Nat × PackedBatch) :=
  numbers.stored.filter fun entry => entry.2.key == key

/-- The numbers of the batches of a key that may still be stored. -/
def PendingBatch (key : BatchKey) (s : Publisher n) (numbers : BatchNumbers n) (number : Nat) :
    Prop :=
  numbers.formed.length ≤ number ∨
    ∃ batch, OnTheWay s numbers number batch ∧ batch.key = key

/-- The numbers are those of the batches, and the batches of a key are stored in order. -/
structure StoredInTurn (key : BatchKey) (s : Publisher n) (numbers : BatchNumbers n) : Prop where
  waiting : numbers.waiting.map Prod.snd = s.batchQueue.queue
  onTheWay : ∀ number batch, OnTheWay s numbers number batch →
    numbers.formed[number]? = some batch
  stored : numbers.stored.map Prod.snd = s.stored
  formed : ∀ entry ∈ numbers.stored, numbers.formed[entry.1]? = some entry.2
  turns : InTurn (· < ·) ((storedOf key numbers).map Prod.fst) (PendingBatch key s numbers)

theorem storedInTurn_init (key : BatchKey) : StoredInTurn key ({} : Publisher n) {} where
  waiting := rfl
  onTheWay := by
    rintro number batch (hmem | ⟨k, hhand, -⟩)
    · cases hmem
    · cases hhand
  stored := rfl
  formed := List.forall_mem_nil _
  turns := .nil

section Steps

variable {key : BatchKey} {s s' : Publisher n} {numbers numbers' : BatchNumbers n}

/-- A step that stores no batch.  The batches it hands on get the next numbers. -/
theorem StoredInTurn.advance (h : StoredInTurn key s numbers) {handedOn : List PackedBatch}
    (hformed : numbers'.formed = numbers.formed ++ handedOn)
    (hstored : numbers'.stored = numbers.stored) (hstored' : s'.stored = s.stored)
    (hwaiting : numbers'.waiting.map Prod.snd = s'.batchQueue.queue)
    (hway : ∀ number batch, OnTheWay s' numbers' number batch →
      OnTheWay s numbers number batch ∨
        (numbers.formed.length ≤ number ∧ numbers'.formed[number]? = some batch)) :
    StoredInTurn key s' numbers' := by
  have hkept : ∀ (number : Nat) (batch : PackedBatch), numbers.formed[number]? = some batch →
      numbers'.formed[number]? = some batch := by
    intro number batch hget
    rw [hformed, List.getElem?_append_left (List.getElem?_eq_some_iff.mp hget).1]
    exact hget
  refine ⟨hwaiting, ?_, ?_, ?_, ?_⟩
  · intro number batch hbatch
    rcases hway number batch hbatch with hbefore | ⟨-, hget⟩
    · exact hkept number batch (h.onTheWay number batch hbefore)
    · exact hget
  · rw [hstored, hstored']
    exact h.stored
  · rw [hstored]
    exact fun entry hentry => hkept _ _ (h.formed entry hentry)
  · have hsame : storedOf key numbers' = storedOf key numbers := by
      rw [storedOf, hstored, storedOf]
    rw [hsame]
    apply h.turns.mono
    rintro number (hlate | ⟨batch, hbatch, hkey⟩)
    · rw [hformed, List.length_append] at hlate
      exact Or.inl (Nat.le_of_add_right_le hlate)
    · rcases hway number batch hbatch with hbefore | ⟨hlate, -⟩
      · exact Or.inr ⟨batch, hbefore, hkey⟩
      · exact Or.inl hlate

/-- A step that hands on and stores no batch. -/
theorem StoredInTurn.move (h : StoredInTurn key s numbers)
    (hformed : numbers'.formed = numbers.formed) (hstored : numbers'.stored = numbers.stored)
    (hstored' : s'.stored = s.stored)
    (hwaiting : numbers'.waiting.map Prod.snd = s'.batchQueue.queue)
    (hway : ∀ number batch, OnTheWay s' numbers' number batch → OnTheWay s numbers number batch) :
    StoredInTurn key s' numbers' := by
  apply h.advance (hformed.trans (List.append_nil _).symm) hstored hstored' hwaiting
  exact fun number batch hbatch => Or.inl (hway number batch hbatch)

/-- Redis stores a batch. -/
theorem StoredInTurn.store (h : StoredInTurn key s numbers) {number : Nat} {batch : PackedBatch}
    (hbatch : OnTheWay s numbers number batch)
    (hformed : numbers'.formed = numbers.formed)
    (hstored : numbers'.stored = numbers.stored ++ [(number, batch)])
    (hstored' : s'.stored = s.stored ++ [batch])
    (hwaiting : numbers'.waiting.map Prod.snd = s'.batchQueue.queue)
    (hway : ∀ number' batch', OnTheWay s' numbers' number' batch' →
      OnTheWay s numbers number' batch')
    (hturn : batch.key = key → ∀ number' batch', OnTheWay s' numbers' number' batch' →
      batch'.key = key → number < number') :
    StoredInTurn key s' numbers' := by
  have hget := h.onTheWay number batch hbatch
  refine ⟨hwaiting, ?_, ?_, ?_, ?_⟩
  · intro number' batch' hbatch'
    rw [hformed]
    exact h.onTheWay number' batch' (hway number' batch' hbatch')
  · rw [hstored, hstored', List.map_append, h.stored]
    rfl
  · rw [hstored, hformed]
    intro entry hentry
    rcases List.mem_append.mp hentry with hentry | hentry
    · exact h.formed entry hentry
    · rw [List.mem_singleton.mp hentry]
      exact hget
  · have hpending : ∀ number', PendingBatch key s' numbers' number' →
        PendingBatch key s numbers number' := by
      rintro number' (hlate | ⟨batch', hbatch', hkey'⟩)
      · exact Or.inl (hformed ▸ hlate)
      · exact Or.inr ⟨batch', hway number' batch' hbatch', hkey'⟩
    rw [storedOf, hstored]
    refine h.turns.leave_filter hpending fun hcounts => ?_
    have hkey : batch.key = key := beq_iff_eq.mp hcounts
    refine ⟨Or.inr ⟨batch, hbatch, hkey⟩, ?_⟩
    rintro number' (hlate | ⟨batch', hbatch', hkey'⟩)
    · have hlt := (List.getElem?_eq_some_iff.mp hget).1
      rw [hformed] at hlate
      exact Nat.lt_of_lt_of_le hlt hlate
    · exact hturn hkey number' batch' hbatch' hkey'

/-- Where a batch is after a step of one thread. -/
theorem onTheWay_update {k : Fin (n + 1)} {q : PublisherQueues} {t : PublisherThread}
    {number : Nat} {batch : PackedBatch}
    (h : OnTheWay { s with toPublisherQueues := q, publishers := Function.update s.publishers k t }
      numbers' number batch) :
    (number, batch) ∈ numbers'.waiting ∨
      (hand t.pc = some batch ∧ number = numbers'.inHand k) ∨
        ∃ j, j ≠ k ∧ hand (s.publishers j).pc = some batch ∧ number = numbers'.inHand j := by
  rcases h with hmem | ⟨j, hhand, hnumber⟩
  · exact Or.inl hmem
  · by_cases hj : j = k
    · subst hj
      simp only [Function.update_self] at hhand
      exact Or.inr (Or.inl ⟨hhand, hnumber⟩)
    · simp only [Function.update_of_ne hj] at hhand
      exact Or.inr (Or.inr ⟨j, hj, hhand, hnumber⟩)

/-- A thread that takes no other batch leaves the batches where they were. -/
theorem onTheWay_of_update {k : Fin (n + 1)} {q : PublisherQueues} {t : PublisherThread}
    (hwaiting : numbers'.waiting = numbers.waiting) (hinHand : numbers'.inHand = numbers.inHand)
    (hhand : ∀ batch, hand t.pc = some batch → hand (s.publishers k).pc = some batch)
    {number : Nat} {batch : PackedBatch}
    (h : OnTheWay { s with toPublisherQueues := q, publishers := Function.update s.publishers k t }
      numbers' number batch) : OnTheWay s numbers number batch := by
  rcases onTheWay_update h with hmem | ⟨hbatch, hnumber⟩ | ⟨j, -, hbatch, hnumber⟩
  · exact Or.inl (hwaiting ▸ hmem)
  · exact Or.inr ⟨k, hhand batch hbatch, hinHand ▸ hnumber⟩
  · exact Or.inr ⟨j, hbatch, hinHand ▸ hnumber⟩

/-- A step of a publisher thread that stores its batch in turn, or stores none. -/
theorem StoredInTurn.publisherStep {dryRun : Bool} {outcome : RedisOutcome}
    (h : StoredInTurn key s numbers) {k : Fin (n + 1)}
    (hguard : StoresInTurn key s numbers k outcome) {q : PublisherQueues} {t : PublisherThread}
    (hstep : publisherStep dryRun outcome s.toPublisherQueues (s.publishers k) = some (q, t)) :
    StoredInTurn key
      { s with toPublisherQueues := q, publishers := Function.update s.publishers k t }
      (publisherNumbers s numbers k outcome) := by
  have hmoves := publisherNumbers_moves h.waiting hstep
  generalize publisherNumbers s numbers k outcome = numbers' at hmoves ⊢
  cases hmoves with
  | keep hqueue hstored hhand =>
      refine h.move rfl rfl hstored ?_ fun number batch => onTheWay_of_update rfl rfl hhand
      rw [h.waiting, hqueue]
  | pop number batch waiting hwaiting hqueue hstored hhand =>
      refine h.move rfl rfl hstored hqueue fun number' other hother => ?_
      rcases onTheWay_update hother with hmem | ⟨hbatch, rfl⟩ | ⟨j, hj, hbatch, rfl⟩
      · exact Or.inl (hwaiting ▸ List.mem_cons_of_mem _ hmem)
      · rw [hhand, Option.some.injEq] at hbatch
        subst hbatch
        simp only [Function.update_self]
        exact Or.inl (hwaiting ▸ List.mem_cons_self)
      · exact Or.inr ⟨j, hbatch, Function.update_of_ne hj _ _⟩
  | store batch hpc hreply hqueue =>
      subst hqueue
      have hheld : hand (s.publishers k).pc = some batch := by
        rw [hpc]
        rfl
      refine h.store (Or.inr ⟨k, hheld, rfl⟩) rfl rfl rfl h.waiting ?_ ?_
      · intro number' batch'
        apply onTheWay_of_update rfl rfl
        intro other hother
        rcases hreply with ⟨-, hfree⟩ | ⟨-, hkept⟩
        · rw [hfree] at hother
          cases hother
        · rw [hheld, ← hkept, hother]
      · intro hkey number' batch' hbatch' hkey'
        rcases hreply with ⟨hnormal, hfree⟩ | ⟨hnull, -⟩
        · rcases onTheWay_update hbatch' with hmem | ⟨hhand, -⟩ | ⟨j, hj, hhand, rfl⟩
          · exact hguard.waiting batch hpc hkey hnormal _ hmem hkey'
          · rw [hfree] at hhand
            cases hhand
          · exact hguard.others batch hpc hkey hnormal j hj batch' hhand hkey'
        · exact absurd hnull (hguard.answered batch hpc hkey)
  | requeue batch hpc hopen hqueue hfree =>
      subst hqueue
      refine h.move rfl rfl rfl ?_ fun number other hother => ?_
      · change _ = (s.batchQueue.push batch).queue
        rw [Fifo.push_queue_of_not_stopped hopen, List.map_append, h.waiting]
        rfl
      · rcases onTheWay_update hother with hmem | ⟨hbatch, -⟩ | ⟨j, -, hbatch, hnumber⟩
        · rcases List.mem_append.mp hmem with hmem | hmem
          · exact Or.inl hmem
          · cases List.mem_singleton.mp hmem
            refine Or.inr ⟨k, ?_, rfl⟩
            rw [hpc]
            rfl
        · rw [hfree] at hbatch
          cases hbatch
        · exact Or.inr ⟨j, hbatch, hnumber⟩

/-- A step of the batching thread. -/
theorem StoredInTurn.batcherStep (h : StoredInTurn key s numbers) {q : PublisherQueues}
    {t : BatcherThread} (hstep : batcherStep s.toPublisherQueues s.batcher = some (q, t)) :
    StoredInTurn key { s with toPublisherQueues := q, batcher := t }
      (batcherNumbers s numbers) := by
  rcases batcherStep_pushes hstep with ⟨hqueue, hstored⟩
  cases hnext : pushesNext s.batcher with
  | none =>
      have hnumbers : batcherNumbers s numbers = numbers := by simp [batcherNumbers, hnext]
      rw [hnumbers]
      refine h.move rfl rfl hstored ?_ fun number batch hbatch => hbatch
      change _ = q.batchQueue.queue
      rw [hqueue, hnext]
      exact h.waiting
  | some batch =>
      have hqueue' : q.batchQueue = s.batchQueue.push batch := by
        rw [hqueue, hnext]
        rfl
      cases hstopped : s.batchQueue.stopped with
      | true =>
          have hnumbers : batcherNumbers s numbers =
              { numbers with formed := numbers.formed ++ [batch] } := by
            simp [batcherNumbers, hnext, hstopped]
          rw [hnumbers]
          refine h.advance rfl rfl hstored ?_ fun number batch' hbatch' => Or.inl hbatch'
          change _ = q.batchQueue.queue
          rw [hqueue', Fifo.push_of_stopped hstopped]
          exact h.waiting
      | false =>
          have hnumbers : batcherNumbers s numbers =
              { numbers with
                formed := numbers.formed ++ [batch]
                waiting := numbers.waiting ++ [(numbers.formed.length, batch)] } := by
            simp [batcherNumbers, hnext, hstopped]
          rw [hnumbers]
          refine h.advance rfl rfl hstored ?_ fun number batch' hbatch' => ?_
          · change _ = q.batchQueue.queue
            rw [hqueue', Fifo.push_queue_of_not_stopped hstopped, List.map_append, h.waiting]
            rfl
          · rcases hbatch' with hmem | hheld
            · rcases List.mem_append.mp hmem with hmem | hmem
              · exact Or.inl (Or.inl hmem)
              · cases List.mem_singleton.mp hmem
                exact Or.inr ⟨Nat.le_refl _, List.getElem?_concat_length⟩
            · exact Or.inl (Or.inr hheld)

/-- A step of `Publisher::stop`. -/
theorem StoredInTurn.stop (h : StoredInTurn key s numbers) (hstep : stopStep s = some s') :
    StoredInTurn key s' numbers := by
  cases stopStep_moves hstep with
  | stopFrames | requestBatcher | joinBatcher | stopBatches =>
      exact h.move rfl rfl rfl h.waiting fun number batch hbatch => hbatch
  | clear progress progress' publishers' hpc hclear =>
      refine h.move rfl rfl rfl h.waiting fun number batch hbatch => ?_
      rcases hbatch with hmem | ⟨k, hhand, hnumber⟩
      · exact Or.inl hmem
      · have hpcs := clear_frame hclear k
        simp only [hpcs] at hhand
        exact Or.inr ⟨k, hhand, hnumber⟩

end Steps

/-! ## The stored frames -/

/-- The stored batches of a key are some of those handed on, in order. -/
theorem StoredInTurn.batches_sublist {key : BatchKey} {s : Publisher n}
    {numbers : BatchNumbers n} (h : StoredInTurn key s numbers) :
    (batchesOf key s.stored).Sublist (batchesOf key numbers.formed) := by
  have hstored : batchesOf key s.stored = (storedOf key numbers).map Prod.snd := by
    rw [← h.stored, batchesOf, List.filter_map]
    rfl
  have hsub : (batchesOf key s.stored).Sublist numbers.formed := by
    rw [hstored]
    apply sublist_of_increasing (List.pairwise_map.mp h.turns.sorted)
    exact fun entry hentry => h.formed entry (List.mem_of_mem_filter hentry)
  have hself : batchesOf key (batchesOf key s.stored) = batchesOf key s.stored := by
    simp [batchesOf]
  rw [← hself]
  exact hsub.filter _

/-- The frames stored under a key are some of those accepted, in the same order. -/
theorem storedFrames_sublist {key : BatchKey} {s : Publisher n} {numbers : BatchNumbers n}
    (hstored : StoredInTurn key s numbers) (hbatched : Batched key s numbers.formed) :
    ((batchesOf key s.stored).flatMap PackedBatch.frames).Sublist
      (s.accepted.filter fun frame => batchKey frame == key) := by
  rw [← hbatched.frames, List.append_assoc]
  exact (hstored.batches_sublist.flatMap _).trans (List.sublist_append_left _ _)

end Publisher

end FrameProcessor
