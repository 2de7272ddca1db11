import FrameProcessor.Foundations.Turns
import FrameProcessor.Publisher.Batching
import FrameProcessor.Worker.Shutdown

/-!
# components/worker - Which frames leave the pool first

Several workers pop one queue, so a frame can leave the pool before an earlier one.  To
follow this the frames are numbered in the order in which `in_queue_` accepted them; no
thread sees the numbers.  As long as no worker hands on an output of a frame while another
holds an earlier frame of the same stream and event, the outputs of this stream and event
leave in order.

Main results:

- Theorem `Worker.InOrder.threadStep`: a step of a worker that overtakes no other keeps the
  outputs in order.
- Theorems `Worker.InOrder.accept` and `Worker.InOrder.stop`: so do all other steps.
-/

namespace FrameProcessor

open Publisher (BatchKey batchKey)

/-- What is recorded about the numbers of frames. -/
structure FrameNumbers (n : Nat) where
  /-- The number of the frame that a worker popped last. -/
  inHand : Fin n → Nat := fun _ => 0
  /-- The outputs accepted by `out_queue_`, each with the number of the frame it was made
  from and that frame. -/
  outputs : List (Nat × DecodedFrame AVFrame × DecodedFrame AVFrame) := []

namespace Worker

variable {γ : Type*} {n : Nat}

/-- The number of the first frame in `in_queue_`. -/
def headNumber (q : WorkerQueues) : Nat :=
  q.accepted.length - q.inQueue.queue.length

/-- The numbers after a step of a worker. -/
def nextNumbers (s : Worker γ n) (numbers : FrameNumbers n) (i : Fin n) : FrameNumbers n :=
  match (s.workers i).pc with
  | .popping =>
      { numbers with
        inHand := Function.update numbers.inHand i (headNumber s.toWorkerQueues) }
  | .pushing frame (output :: _) =>
      if s.outQueue.stopped then numbers
      else { numbers with outputs := numbers.outputs ++ [(numbers.inHand i, frame, output)] }
  | _ => numbers

/-- The step of a worker hands on no output of a frame while another worker holds an earlier
frame of its stream and event. -/
def OvertakesNone (key : BatchKey) (s : Worker γ n) (numbers : FrameNumbers n) (i : Fin n) :
    Prop :=
  ∀ frame output outputs, (s.workers i).pc = .pushing frame (output :: outputs) →
    batchKey frame = key → ∀ j, ∀ frame' ∈ hand (s.workers j).pc, batchKey frame' = key →
      numbers.inHand i ≤ numbers.inHand j

/-! ## The invariant -/

/-- The outputs made for a stream and event. -/
def outputsOf (key : BatchKey) (numbers : FrameNumbers n) :
    List (Nat × DecodedFrame AVFrame × DecodedFrame AVFrame) :=
  numbers.outputs.filter fun entry => batchKey entry.2.2 == key

/-- The numbers of the frames of a stream and event that outputs may still be made of. -/
def PendingFrame (key : BatchKey) (s : Worker γ n) (numbers : FrameNumbers n) (number : Nat) :
    Prop :=
  headNumber s.toWorkerQueues ≤ number ∨
    ∃ i, ∃ frame ∈ hand (s.workers i).pc, batchKey frame = key ∧ number = numbers.inHand i

/-- The numbers are those of the frames, and the outputs of a stream and event have left in
order. -/
structure InOrder (key : BatchKey) (s : Worker γ n) (numbers : FrameNumbers n) : Prop where
  popped : ∃ popped, s.accepted = popped ++ s.inQueue.queue
  inHand : ∀ i, ∀ frame ∈ hand (s.workers i).pc,
    s.accepted[numbers.inHand i]? = some frame ∧
      numbers.inHand i < headNumber s.toWorkerQueues
  outputsMade : ∀ i, OutputsMade (s.workers i)
  delivered : numbers.outputs.map Prod.snd = s.delivered
  accepted : ∀ entry ∈ numbers.outputs, s.accepted[entry.1]? = some entry.2.1
  turns : InTurn (· ≤ ·) ((outputsOf key numbers).map Prod.fst) (PendingFrame key s numbers)

theorem inOrder_init (key : BatchKey) : InOrder key ({} : Worker γ n) {} where
  popped := ⟨[], rfl⟩
  inHand _ _ hframe := absurd hframe (Multiset.notMem_zero _)
  outputsMade _ _ _ hpushing := by cases hpushing
  delivered := rfl
  accepted := List.forall_mem_nil _
  turns := .nil

/-! ## Steps -/

/-- While a worker hands on the outputs of a frame, it holds this frame or none. -/
theorem eq_of_mem_hand_pushing {frame frame' : DecodedFrame AVFrame}
    {outputs : List (DecodedFrame AVFrame)} (h : frame' ∈ hand (.pushing frame outputs)) :
    frame' = frame := by
  cases outputs with
  | nil => exact absurd h (Multiset.notMem_zero _)
  | cons output outputs => exact Multiset.mem_singleton.mp h

section Steps

variable {key : BatchKey} {s : Worker γ n} {numbers : FrameNumbers n}

/-- A step that takes nothing from `in_queue_` and hands nothing on. -/
theorem InOrder.move (h : InOrder key s numbers) {s' : Worker γ n} {numbers' : FrameNumbers n}
    (haccepted : s'.accepted = s.accepted) (hqueue : s'.inQueue.queue = s.inQueue.queue)
    (hdelivered : s'.delivered = s.delivered) (houtputs : numbers'.outputs = numbers.outputs)
    (hmade : ∀ j, OutputsMade (s'.workers j))
    (hhand : ∀ j, ∀ frame ∈ hand (s'.workers j).pc,
      frame ∈ hand (s.workers j).pc ∧ numbers'.inHand j = numbers.inHand j) :
    InOrder key s' numbers' := by
  have hhead : headNumber s'.toWorkerQueues = headNumber s.toWorkerQueues := by
    simp only [headNumber, haccepted, hqueue]
  refine ⟨?_, ?_, hmade, ?_, ?_, ?_⟩
  · rw [haccepted, hqueue]
    exact h.popped
  · intro j frame hframe
    rcases hhand j frame hframe with ⟨hbefore, hnumber⟩
    rw [haccepted, hhead, hnumber]
    exact h.inHand j frame hbefore
  · rw [houtputs, hdelivered]
    exact h.delivered
  · rw [houtputs, haccepted]
    exact h.accepted
  · have hsame : outputsOf key numbers' = outputsOf key numbers := by
      rw [outputsOf, houtputs, outputsOf]
    rw [hsame]
    apply h.turns.mono
    rintro number (hlate | ⟨j, frame, hframe, hkey, rfl⟩)
    · exact Or.inl (hhead ▸ hlate)
    · rcases hhand j frame hframe with ⟨hbefore, hnumber⟩
      exact Or.inr ⟨j, frame, hbefore, hkey, hnumber⟩

/-- A step of a worker that keeps its frame or lets it go, and hands nothing on. -/
theorem InOrder.keep (h : InOrder key s numbers) {i : Fin n} {q : WorkerQueues}
    {w : WorkerThread γ} (haccepted : q.accepted = s.accepted)
    (hqueue : q.inQueue.queue = s.inQueue.queue) (hdelivered : q.delivered = s.delivered)
    (hmade : ∀ j, OutputsMade (Function.update s.workers i w j))
    (hhand : ∀ frame ∈ hand w.pc, frame ∈ hand (s.workers i).pc) :
    InOrder key { s with toWorkerQueues := q, workers := Function.update s.workers i w }
      numbers := by
  refine h.move haccepted hqueue hdelivered rfl hmade ?_
  exact (Function.forall_update_iff s.workers fun j w => ∀ frame ∈ hand w.pc,
    frame ∈ hand (s.workers j).pc ∧ numbers.inHand j = numbers.inHand j).mpr
    ⟨fun frame hframe => ⟨hhand frame hframe, rfl⟩, fun j _ frame hframe => ⟨hframe, rfl⟩⟩

/-- A worker takes the first frame of `in_queue_`. -/
theorem InOrder.take (h : InOrder key s numbers) {i : Fin n} {frame : DecodedFrame AVFrame}
    {rest : Fifo (DecodedFrame AVFrame)} (hqueue : s.inQueue.queue = frame :: rest.queue)
    {w : WorkerThread γ} (hpc : w.pc = .processing frame)
    (hmade : ∀ j, OutputsMade (Function.update s.workers i w j)) :
    InOrder key { s with inQueue := rest, workers := Function.update s.workers i w }
      { numbers with
        inHand := Function.update numbers.inHand i (headNumber s.toWorkerQueues) } := by
  rcases h.popped with ⟨popped, haccepted⟩
  have hhead : headNumber s.toWorkerQueues = popped.length := by
    simp [headNumber, haccepted]
  have hnext : s.accepted.length - rest.queue.length = popped.length + 1 := by
    simp only [haccepted, hqueue, List.length_append, List.length_cons]
    omega
  have hfirst : s.accepted[popped.length]? = some frame := by
    simp [haccepted, hqueue]
  have hhand : hand w.pc = {frame} := by
    rw [hpc]
    rfl
  refine ⟨⟨popped ++ [frame], by simp [haccepted, hqueue]⟩, ?_, hmade, h.delivered, h.accepted, ?_⟩
  · refine (Function.forall_update_iff s.workers fun j w => ∀ frame' ∈ hand w.pc,
      s.accepted[Function.update numbers.inHand i (headNumber s.toWorkerQueues) j]? =
        some frame' ∧
      Function.update numbers.inHand i (headNumber s.toWorkerQueues) j <
        s.accepted.length - rest.queue.length).mpr ⟨?_, ?_⟩
    · rw [hhand, Function.update_self, hnext, hhead]
      intro frame' hframe'
      rw [Multiset.mem_singleton.mp hframe']
      exact ⟨hfirst, Nat.lt_succ_self _⟩
    · intro j hj frame' hframe'
      rcases h.inHand j frame' hframe' with ⟨hget, hbefore⟩
      rw [Function.update_of_ne hj]
      exact ⟨hget, by omega⟩
  · apply h.turns.mono
    rintro number (hlate | ⟨j, frame', hframe', hkey, rfl⟩)
    · change s.accepted.length - rest.queue.length ≤ number at hlate
      exact Or.inl (by omega)
    · by_cases hj : j = i
      · subst hj
        exact Or.inl (by simp)
      · simp only [Function.update_of_ne hj] at hframe' ⊢
        exact Or.inr ⟨j, frame', hframe', hkey, rfl⟩

/-- A worker hands on an output of the frame it holds. -/
theorem InOrder.handOn (h : InOrder key s numbers) {i : Fin n}
    (hguard : OvertakesNone key s numbers i) {frame output : DecodedFrame AVFrame}
    {outputs : List (DecodedFrame AVFrame)}
    (hpc : (s.workers i).pc = .pushing frame (output :: outputs))
    (hopen : s.outQueue.stopped = false) {w : WorkerThread γ}
    (hpc' : w.pc = .pushing frame outputs)
    (hmade : ∀ j, OutputsMade (Function.update s.workers i w j)) :
    InOrder key
      { s with
        toWorkerQueues := deliver s.toWorkerQueues frame output
        workers := Function.update s.workers i w }
      { numbers with outputs := numbers.outputs ++ [(numbers.inHand i, frame, output)] } := by
  have hmem : frame ∈ hand (s.workers i).pc := by simp [hpc, hand]
  have hkeys : batchKey output = batchKey frame := by
    rw [h.outputsMade i frame _ hpc output List.mem_cons_self]
    rfl
  have hhand : ∀ j, ∀ frame' ∈ hand (Function.update s.workers i w j).pc,
      frame' ∈ hand (s.workers j).pc := by
    refine (Function.forall_update_iff s.workers fun j w => ∀ frame' ∈ hand w.pc,
      frame' ∈ hand (s.workers j).pc).mpr ⟨?_, fun j _ frame' hframe' => hframe'⟩
    intro frame' hframe'
    rw [hpc'] at hframe'
    rw [eq_of_mem_hand_pushing hframe']
    exact hmem
  have hlater : ∀ number,
      PendingFrame key
        { s with
          toWorkerQueues := deliver s.toWorkerQueues frame output
          workers := Function.update s.workers i w }
        { numbers with outputs := numbers.outputs ++ [(numbers.inHand i, frame, output)] }
        number → PendingFrame key s numbers number := by
    rintro number (hlate | ⟨j, frame', hframe', hkey, rfl⟩)
    · exact Or.inl hlate
    · exact Or.inr ⟨j, frame', hhand j frame' hframe', hkey, rfl⟩
  refine ⟨h.popped, fun j frame' hframe' => h.inHand j frame' (hhand j frame' hframe'), hmade, ?_,
    ?_, ?_⟩
  · simp [deliver, hopen, h.delivered]
  · intro entry hentry
    rcases List.mem_append.mp hentry with hentry | hentry
    · exact h.accepted entry hentry
    · rw [List.mem_singleton.mp hentry]
      exact (h.inHand i frame hmem).1
  · refine h.turns.leave_filter hlater fun hcounts => ?_
    have hkey : batchKey frame = key := hkeys.symm.trans (beq_iff_eq.mp hcounts)
    refine ⟨Or.inr ⟨i, frame, hmem, hkey, rfl⟩, fun number hnumber => ?_⟩
    -- the frame in hand was popped before the head, and the guard rules out the others
    rcases hlater number hnumber with hlate | ⟨j, frame', hframe', hkey', rfl⟩
    · have hpopped := (h.inHand i frame hmem).2
      exact (Nat.le_of_lt hpopped).trans hlate
    · exact hguard frame output outputs hpc hkey j frame' hframe' hkey'

/-- A step of a worker that overtakes no other keeps the outputs in order. -/
theorem InOrder.threadStep {av : Avfilter γ} (h : InOrder key s numbers) {i : Fin n}
    (hguard : OvertakesNone key s numbers i) {q : WorkerQueues} {w : WorkerThread γ}
    (hstep : threadStep av s.toWorkerQueues (s.workers i) = some (q, w)) :
    InOrder key { s with toWorkerQueues := q, workers := Function.update s.workers i w }
      (nextNumbers s numbers i) := by
  have hmade : ∀ j, OutputsMade (Function.update s.workers i w j) :=
    Pool.forall_update OutputsMade ((h.outputsMade i).threadStep hstep).1 h.outputsMade
  rcases threadStep_cases hstep with ⟨rfl, hfree, pc, rfl, hpc⟩ |
    ⟨frame, rest, hpc, hqueue, -, rfl, rfl⟩ | ⟨frame, hpc, rfl, rfl⟩ |
    ⟨frame, output, outputs, hpc, rfl, rfl⟩
  · -- the thread has no frame in hand, before and after the step
    have hnumbers : (nextNumbers s numbers i).outputs = numbers.outputs ∧
        ∀ j, j ≠ i → (nextNumbers s numbers i).inHand j = numbers.inHand j := by
      unfold nextNumbers
      split
      · exact ⟨rfl, fun j hj => Function.update_of_ne hj _ _⟩
      · next frame output outputs hpushing =>
        rw [hpushing] at hfree
        exact absurd hfree (Multiset.singleton_ne_zero _)
      · exact ⟨rfl, fun _ _ => rfl⟩
    refine h.move rfl rfl rfl hnumbers.1 hmade ?_
    refine (Function.forall_update_iff s.workers fun j w => ∀ frame' ∈ hand w.pc,
      frame' ∈ hand (s.workers j).pc ∧
        (nextNumbers s numbers i).inHand j = numbers.inHand j).mpr
      ⟨?_, fun j hj frame' hframe' => ⟨hframe', hnumbers.2 j hj⟩⟩
    intro frame' hframe'
    rcases hpc with rfl | rfl | rfl <;> exact absurd hframe' (Multiset.notMem_zero _)
  · have hnumbers : nextNumbers s numbers i =
        { numbers with
          inHand := Function.update numbers.inHand i (headNumber s.toWorkerQueues) } := by
      simp [nextNumbers, hpc]
    rw [hnumbers]
    exact h.take hqueue rfl hmade
  · have hnumbers : nextNumbers s numbers i = numbers := by simp [nextNumbers, hpc]
    rw [hnumbers]
    refine h.keep rfl rfl rfl hmade fun frame' hframe' => ?_
    rw [eq_of_mem_hand_pushing hframe', hpc]
    exact Multiset.mem_singleton_self _
  · cases hstopped : s.outQueue.stopped with
    | true =>
        have hnumbers : nextNumbers s numbers i = numbers := by
          simp [nextNumbers, hpc, hstopped]
        rw [hnumbers]
        -- the stopped queue drops the output
        refine h.keep rfl rfl (by simp [deliver, hstopped]) hmade fun frame' hframe' => ?_
        rw [eq_of_mem_hand_pushing hframe', hpc]
        exact Multiset.mem_singleton_self _
    | false =>
        have hnumbers : nextNumbers s numbers i =
            { numbers with
              outputs := numbers.outputs ++ [(numbers.inHand i, frame, output)] } := by
          simp [nextNumbers, hpc, hstopped]
        rw [hnumbers]
        exact h.handOn hguard hpc hstopped rfl hmade

/-- A reader's push. -/
theorem InOrder.accept (h : InOrder key s numbers) (frame : DecodedFrame AVFrame) :
    InOrder key { s with toWorkerQueues := Worker.accept s.toWorkerQueues frame } numbers := by
  cases hstopped : s.inQueue.stopped with
  | true =>
      rw [accept_of_stopped hstopped]
      exact h
  | false =>
      rcases h.popped with ⟨popped, haccepted⟩
      have hgrow : (Worker.accept s.toWorkerQueues frame).accepted = s.accepted ++ [frame] := by
        simp [Worker.accept, hstopped]
      have hqueue : (Worker.accept s.toWorkerQueues frame).inQueue.queue =
          s.inQueue.queue ++ [frame] := by
        simp [Worker.accept, Fifo.push_queue_of_not_stopped hstopped]
      have hhead : headNumber (Worker.accept s.toWorkerQueues frame) =
          headNumber s.toWorkerQueues := by
        simp only [headNumber, hgrow, hqueue, List.length_append, List.length_singleton]
        omega
      have hkept : ∀ (k : Nat) (frame' : DecodedFrame AVFrame),
          s.accepted[k]? = some frame' → (s.accepted ++ [frame])[k]? = some frame' :=
        fun k frame' hget => List.getElem?_append_left (List.getElem?_eq_some_iff.mp hget).1 ▸ hget
      refine ⟨⟨popped, ?_⟩, ?_, h.outputsMade, h.delivered, ?_, ?_⟩
      · rw [hgrow, hqueue, haccepted, List.append_assoc]
      · intro i frame' hframe'
        rcases h.inHand i frame' hframe' with ⟨hget, hbefore⟩
        rw [hgrow, hhead]
        exact ⟨hkept _ _ hget, hbefore⟩
      · intro entry hentry
        rw [hgrow]
        exact hkept _ _ (h.accepted entry hentry)
      · apply h.turns.mono
        rintro number (hlate | hheld)
        · exact Or.inl (hhead ▸ hlate)
        · exact Or.inr hheld

/-- A step of `Worker::stop`. -/
theorem InOrder.stop (h : InOrder key s numbers) {s' : Worker γ n}
    (hstep : stopStep s = some s') : InOrder key s' numbers := by
  rcases stopStep_cases hstep with ⟨-, rfl⟩ | ⟨-, rfl⟩ | ⟨_, _, workers', -, hclear, rfl⟩
  · exact h.move rfl rfl rfl rfl h.outputsMade fun _ _ hframe => ⟨hframe, rfl⟩
  · exact h.move rfl rfl rfl rfl h.outputsMade fun _ _ hframe => ⟨hframe, rfl⟩
  · have hpcs := fun j => (clear_frame hclear j).1
    refine h.move rfl rfl rfl rfl (fun j => ?_) fun j frame hframe => ?_
    · unfold OutputsMade
      rw [hpcs j]
      exact h.outputsMade j
    · change frame ∈ hand (workers' j).pc at hframe
      rw [hpcs j] at hframe
      exact ⟨hframe, rfl⟩

/-- What others do with `out_queue_` does not matter. -/
theorem InOrder.outQueue (h : InOrder key s numbers) (outQueue : Fifo (DecodedFrame AVFrame)) :
    InOrder key { s with outQueue } numbers :=
  h.move rfl rfl rfl rfl h.outputsMade fun _ _ hframe => ⟨hframe, rfl⟩

end Steps

end Worker

end FrameProcessor
