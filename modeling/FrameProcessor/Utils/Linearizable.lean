import FrameProcessor.Foundations.Histories
import FrameProcessor.Utils.Fifo

/-!
# utils/fifo - The queue as a linearizable object

Any number of threads call `push`, `wait_and_pop`, `stop`, `size` and `get_stats`; each
call takes effect in one step under the mutex.  The machine records every completed call
with its result.  The law `FifoEvent.Allowed` is the sequential specification: it says
which result a call may have after the calls before it, and determines that result.

A pop whose predicate is false is not enabled: its caller sleeps.  Nothing in the program calls
`increment_drop_count`.

Main results:

- Theorem `RecordedFifo.Consistent.step`: what ties the counters and the peak to the history.
- Theorem `RecordedFifo.linearizable`: every history is lawful, and the peak is the
  greatest size since the last reset.
-/

namespace FrameProcessor

variable {ι α : Type*}

/-! ## Calls and their results -/

/-- A call by one of the threads. -/
inductive FifoCall (ι α : Type*) where
  | push (caller : ι) (value : α)
  | waitAndPop (caller : ι)
  | stop (caller : ι)
  | size (caller : ι)
  | getStats (caller : ι) (resetPeak : Bool)

/-- A completed call. -/
inductive FifoEvent (ι α : Type*) where
  /-- `accepted` tells whether the queue has grown. -/
  | pushed (caller : ι) (value : α) (accepted : Bool)
  /-- `none` is `std::nullopt`. -/
  | popped (caller : ι) (result : Option α)
  | stopped (caller : ι)
  | sized (caller : ι) (size : Nat)
  | statsRead (caller : ι) (resetPeak : Bool) (stats : Fifo.QueueStats)

namespace FifoEvent

/-- The value of an accepted push. -/
def acceptedValue : FifoEvent ι α → Option α
  | .pushed _ value true => some value
  | _ => none

/-- The value a pop returned. -/
def returnedValue : FifoEvent ι α → Option α
  | .popped _ result => result
  | _ => none

/-- The values accepted by `push`, in order. -/
def accepted (history : List (FifoEvent ι α)) : List α :=
  history.filterMap acceptedValue

/-- The values returned by `wait_and_pop`, in order. -/
def returned (history : List (FifoEvent ι α)) : List α :=
  history.filterMap returnedValue

/-- Some thread has called `stop`. -/
def Stopped (history : List (FifoEvent ι α)) : Prop :=
  ∃ caller, .stopped caller ∈ history

/-- The call has reset the peak. -/
def resets : FifoEvent ι α → Bool
  | .statsRead _ resetPeak _ => resetPeak
  | _ => false

/-- The size of the queue after a history. -/
def sizeAfter (history : List (FifoEvent ι α)) : Nat :=
  (accepted history).length - (returned history).length

/-- The sizes of the queue since the peak was last reset. -/
def sizesSinceReset (history : List (FifoEvent ι α)) : Set Nat :=
  {size | ∃ before after, history = before ++ after ∧ (∀ event ∈ after, event.resets = false) ∧
    sizeAfter before = size}

/-- The sequential specification of a stoppable queue: the results a call may have after
the calls before it. -/
def Allowed (before : List (FifoEvent ι α)) : FifoEvent ι α → Prop
  | .pushed _ _ ok => ok = true ↔ ¬ Stopped before
  | .popped _ (some value) => returned before ++ [value] <+: accepted before
  | .popped _ none => Stopped before ∧ returned before = accepted before
  | .stopped _ => True
  | .sized _ size => size = sizeAfter before
  | .statsRead _ _ stats =>
      stats.totalPushed = (accepted before).length ∧
        stats.totalPopped = (returned before).length ∧
        stats.currentSize = sizeAfter before ∧
        IsGreatest (sizesSinceReset before) stats.peakSize ∧
        stats.dropCount = 0

@[simp]
theorem accepted_concat (history : List (FifoEvent ι α)) (event : FifoEvent ι α) :
    accepted (history ++ [event]) = accepted history ++ event.acceptedValue.toList := by
  cases h : event.acceptedValue <;> simp [accepted, h]

@[simp]
theorem returned_concat (history : List (FifoEvent ι α)) (event : FifoEvent ι α) :
    returned (history ++ [event]) = returned history ++ event.returnedValue.toList := by
  cases h : event.returnedValue <;> simp [returned, h]

theorem stopped_concat (history : List (FifoEvent ι α)) (event : FifoEvent ι α) :
    Stopped (history ++ [event]) ↔ Stopped history ∨ ∃ caller, event = .stopped caller := by
  simp [Stopped, exists_or, eq_comm]

theorem sizeAfter_mem (history : List (FifoEvent ι α)) :
    sizeAfter history ∈ sizesSinceReset history :=
  ⟨history, [], (List.append_nil history).symm, nofun, rfl⟩

/-- After a reset only the size at that time counts. -/
theorem sizesSinceReset_concat_of_reset {history : List (FifoEvent ι α)} {event : FifoEvent ι α}
    (h : event.resets = true) :
    sizesSinceReset (history ++ [event]) = {sizeAfter (history ++ [event])} := by
  ext size
  constructor
  · rintro ⟨before, after, hsplit, hkeeps, rfl⟩
    rcases List.eq_nil_or_concat after with rfl | ⟨after, last, rfl⟩
    · rw [List.append_nil] at hsplit
      rw [hsplit]
      rfl
    · rw [List.concat_eq_append, ← List.append_assoc] at hsplit
      have hlast : event = last := List.singleton_inj.mp (List.append_inj' hsplit rfl).2
      have hkept := hkeeps last (by simp)
      rw [← hlast, h] at hkept
      cases hkept
  · rintro rfl
    exact sizeAfter_mem _

/-- Any other call adds the size that it leads to. -/
theorem sizesSinceReset_concat {history : List (FifoEvent ι α)} {event : FifoEvent ι α}
    (h : event.resets = false) :
    sizesSinceReset (history ++ [event]) =
      insert (sizeAfter (history ++ [event])) (sizesSinceReset history) := by
  ext size
  constructor
  · rintro ⟨before, after, hsplit, hkeeps, rfl⟩
    rcases List.eq_nil_or_concat after with rfl | ⟨after, last, rfl⟩
    · rw [List.append_nil] at hsplit
      rw [hsplit]
      exact Set.mem_insert _ _
    · rw [List.concat_eq_append, ← List.append_assoc] at hsplit
      refine Set.mem_insert_of_mem _ ⟨before, after, (List.append_inj' hsplit rfl).1, ?_, rfl⟩
      exact fun event hevent => hkeeps event (by simp [hevent])
  · rintro (rfl | ⟨before, after, rfl, hkeeps, rfl⟩)
    · exact sizeAfter_mem _
    · refine ⟨before, after ++ [event], List.append_assoc _ _ _, ?_, rfl⟩
      exact List.forall_mem_append.mpr ⟨hkeeps, by simpa using h⟩

end FifoEvent

/-! ## The machine -/

/-- A queue with the calls completed on it. -/
structure RecordedFifo (ι α : Type*) where
  fifo : Fifo α := {}
  history : List (FifoEvent ι α) := []

/-- One call under the mutex, with its record; `none` while the caller has to wait. -/
def Fifo.call (q : Fifo α) (call : FifoCall ι α) : Option (FifoEvent ι α × Fifo α) :=
  match call with
  | .push caller value =>
      let q' := q.push value
      some (.pushed caller value (decide (q.queue.length < q'.queue.length)), q')
  | .waitAndPop caller => q.waitAndPop.map fun (result, q') => (.popped caller result, q')
  | .stop caller => some (.stopped caller, q.stop)
  | .size caller => some (.sized caller q.size, q)
  | .getStats caller resetPeak =>
      let (stats, q') := q.getStats resetPeak
      some (.statsRead caller resetPeak stats, q')

namespace RecordedFifo

/-- The queue from its construction on. -/
def machine (ι α : Type*) : Machine (RecordedFifo ι α) (FifoCall ι α) where
  init s := s = {}
  step s call :=
    (s.fifo.call call).map fun (event, q) => { fifo := q, history := s.history ++ [event] }

/-- A completed pop records its result. -/
theorem waitAndPop_step {s s' : RecordedFifo ι α} {caller : ι}
    (h : (machine ι α).step s (.waitAndPop caller) = some s') :
    ∃ result q, s.fifo.waitAndPop = some (result, q) ∧
      s' = { fifo := q, history := s.history ++ [.popped caller result] } := by
  simp only [machine, Fifo.call, Option.map_map, Option.map_eq_some_iff] at h
  rcases h with ⟨⟨result, q⟩, hpop, rfl⟩
  exact ⟨result, q, hpop, rfl⟩

/-! ## The queue and its history -/

/-- What ties a queue to the calls completed on it. -/
structure Consistent (s : RecordedFifo ι α) : Prop where
  contents : FifoEvent.accepted s.history = FifoEvent.returned s.history ++ s.fifo.queue
  stopped : s.fifo.stopped = true ↔ FifoEvent.Stopped s.history
  pushed : s.fifo.totalPushed = (FifoEvent.accepted s.history).length
  popped : s.fifo.totalPopped = (FifoEvent.returned s.history).length
  peak : IsGreatest (FifoEvent.sizesSinceReset s.history) s.fifo.peakSize
  drops : s.fifo.dropCount = 0
  lawful : Lawful FifoEvent.Allowed s.history

theorem Consistent.init : Consistent ({} : RecordedFifo ι α) where
  contents := rfl
  stopped := by simp [FifoEvent.Stopped]
  pushed := rfl
  popped := rfl
  peak := by
    refine ⟨FifoEvent.sizeAfter_mem [], ?_⟩
    rintro size ⟨before, after, hsplit, -, rfl⟩
    rw [(List.append_eq_nil_iff.mp hsplit.symm).1]
    exact le_rfl
  drops := rfl
  lawful := lawful_nil

theorem Consistent.size {s : RecordedFifo ι α} (h : s.Consistent) :
    s.fifo.size = FifoEvent.sizeAfter s.history := by
  rw [FifoEvent.sizeAfter, h.contents, List.length_append, Nat.add_sub_cancel_left]
  rfl

theorem Consistent.size_le_peak {s : RecordedFifo ι α} (h : s.Consistent) :
    s.fifo.size ≤ s.fifo.peakSize := by
  rw [h.size]
  exact h.peak.2 (FifoEvent.sizeAfter_mem s.history)

/-- A call that resets the peak leaves the size in it; any other call raises it to the size. -/
def PeakAfter (q q' : Fifo α) (reset : Bool) : Prop :=
  q'.peakSize = if reset then q'.size else max q.peakSize q'.size

/-- An allowed call that does to the queue what its record says keeps the two consistent. -/
theorem Consistent.record {s : RecordedFifo ι α} (h : s.Consistent) {event : FifoEvent ι α}
    {q : Fifo α} (hallowed : event.Allowed s.history)
    (hqueue : s.fifo.queue ++ event.acceptedValue.toList =
      event.returnedValue.toList ++ q.queue)
    (hstopped : q.stopped = true ↔ s.fifo.stopped = true ∨ ∃ caller, event = .stopped caller)
    (hpushed : q.totalPushed = s.fifo.totalPushed + event.acceptedValue.toList.length)
    (hpopped : q.totalPopped = s.fifo.totalPopped + event.returnedValue.toList.length)
    (hpeak : PeakAfter s.fifo q event.resets) (hdrops : q.dropCount = s.fifo.dropCount) :
    Consistent { fifo := q, history := s.history ++ [event] } := by
  have hcontents : FifoEvent.accepted (s.history ++ [event]) =
      FifoEvent.returned (s.history ++ [event]) ++ q.queue := by
    rw [FifoEvent.accepted_concat, FifoEvent.returned_concat, h.contents, List.append_assoc,
      hqueue, List.append_assoc]
  have hsize : FifoEvent.sizeAfter (s.history ++ [event]) = q.size := by
    rw [FifoEvent.sizeAfter, hcontents, List.length_append, Nat.add_sub_cancel_left]
    rfl
  constructor
  · exact hcontents
  · rw [FifoEvent.stopped_concat, ← h.stopped]
    exact hstopped
  · rw [FifoEvent.accepted_concat, List.length_append, ← h.pushed]
    exact hpushed
  · rw [FifoEvent.returned_concat, List.length_append, ← h.popped]
    exact hpopped
  · unfold PeakAfter at hpeak
    cases hresets : event.resets with
    | true =>
        rw [FifoEvent.sizesSinceReset_concat_of_reset hresets, hsize, hpeak, hresets]
        exact isGreatest_singleton
    | false =>
        rw [FifoEvent.sizesSinceReset_concat hresets, hsize, hpeak, hresets, max_comm]
        exact h.peak.insert q.size
  · exact hdrops.trans h.drops
  · exact lawful_concat.mpr ⟨h.lawful, hallowed⟩

/-- A queue that is no longer than before keeps its peak. -/
theorem Consistent.peakAfter {s : RecordedFifo ι α} (h : s.Consistent) {q : Fifo α}
    (hsize : q.size ≤ s.fifo.size) (hpeak : q.peakSize = s.fifo.peakSize) :
    PeakAfter s.fifo q false :=
  hpeak.trans (max_eq_left (hsize.trans h.size_le_peak)).symm

/-- A push joins the queue exactly when the queue is not stopped. -/
theorem Consistent.push {s : RecordedFifo ι α} (h : s.Consistent) (caller : ι) (value : α) :
    Consistent
      { fifo := s.fifo.push value
        history := s.history ++ [.pushed caller value
          (decide (s.fifo.queue.length < (s.fifo.push value).queue.length))] } := by
  have hhistory := h.stopped
  cases hstopped : s.fifo.stopped with
  | true =>
      have hignored : decide (s.fifo.queue.length < (s.fifo.push value).queue.length) = false := by
        simp [Fifo.push_of_stopped hstopped]
      rw [hignored, Fifo.push_of_stopped hstopped]
      apply h.record
      · simp [FifoEvent.Allowed, ← hhistory, hstopped]
      · simp [FifoEvent.acceptedValue, FifoEvent.returnedValue]
      · simp
      · simp [FifoEvent.acceptedValue]
      · simp [FifoEvent.returnedValue]
      · exact h.peakAfter le_rfl rfl
      · rfl
  | false =>
      have hqueue := Fifo.push_queue_of_not_stopped hstopped value
      have hgrown : decide (s.fifo.queue.length < (s.fifo.push value).queue.length) = true := by
        simp [hqueue]
      rw [hgrown]
      apply h.record
      · simp [FifoEvent.Allowed, ← hhistory, hstopped]
      · simp [FifoEvent.acceptedValue, FifoEvent.returnedValue, hqueue]
      · simp
      · simp [Fifo.push, hstopped, FifoEvent.acceptedValue]
      · simp [Fifo.push, hstopped, FifoEvent.returnedValue]
      · simp [PeakAfter, FifoEvent.resets, Fifo.push, Fifo.size, hstopped]
      · simp [Fifo.push, hstopped]

/-- A pop returns the oldest value not yet returned, or `nullopt` after a stop when there is
none. -/
theorem Consistent.waitAndPop {s : RecordedFifo ι α} (h : s.Consistent) (caller : ι)
    {result : Option α} {q : Fifo α} (hpop : s.fifo.waitAndPop = some (result, q)) :
    Consistent { fifo := q, history := s.history ++ [.popped caller result] } := by
  rcases Fifo.waitAndPop_cases hpop with ⟨value, rfl, hqueue, hstopped⟩ |
    ⟨rfl, rfl, hempty, hstopped⟩
  · have hq : q = { s.fifo with queue := q.queue, totalPopped := s.fifo.totalPopped + 1 } := by
      rw [Fifo.waitAndPop_cons hqueue] at hpop
      simpa using hpop.symm
    have hsize : q.size ≤ s.fifo.size := by
      rw [Fifo.size, Fifo.size, hqueue, List.length_cons]
      exact Nat.le_succ _
    apply h.record
    · refine ⟨q.queue, ?_⟩
      rw [h.contents, hqueue, List.append_assoc]
      rfl
    · simp [FifoEvent.acceptedValue, FifoEvent.returnedValue, hqueue]
    · simp [hstopped]
    · rw [hq]
      simp [FifoEvent.acceptedValue]
    · rw [hq]
      simp [FifoEvent.returnedValue]
    · exact h.peakAfter hsize (by rw [hq])
    · rw [hq]
  · apply h.record
    · refine ⟨h.stopped.mp hstopped, ?_⟩
      rw [h.contents, hempty, List.append_nil]
    · simp [FifoEvent.acceptedValue, FifoEvent.returnedValue]
    · simp
    · simp [FifoEvent.acceptedValue]
    · simp [FifoEvent.returnedValue]
    · exact h.peakAfter le_rfl rfl
    · rfl

/-- Reading the statistics changes at most the peak, which becomes the current size. -/
theorem Consistent.getStats {s : RecordedFifo ι α} (h : s.Consistent) (caller : ι)
    (resetPeak : Bool) :
    Consistent
      { fifo := (s.fifo.getStats resetPeak).2
        history := s.history ++
          [.statsRead caller resetPeak (s.fifo.getStats resetPeak).1] } := by
  apply h.record
  · exact ⟨h.pushed, h.popped, h.size, h.peak, h.drops⟩
  · cases resetPeak <;> simp [Fifo.getStats, FifoEvent.acceptedValue, FifoEvent.returnedValue]
  · cases resetPeak <;> simp [Fifo.getStats]
  · cases resetPeak <;> simp [Fifo.getStats, FifoEvent.acceptedValue]
  · cases resetPeak <;> simp [Fifo.getStats, FifoEvent.returnedValue]
  · cases resetPeak with
    | false => exact h.peakAfter le_rfl rfl
    | true => rfl
  · cases resetPeak <;> rfl

/-- Every call keeps the queue consistent with its history. -/
theorem Consistent.step {s s' : RecordedFifo ι α} {call : FifoCall ι α} (h : s.Consistent)
    (hstep : (machine ι α).step s call = some s') : s'.Consistent := by
  cases call with
  | push caller value =>
      cases hstep
      exact h.push caller value
  | waitAndPop caller =>
      rcases waitAndPop_step hstep with ⟨result, q, hpop, rfl⟩
      exact h.waitAndPop caller hpop
  | stop caller =>
      cases hstep
      apply h.record
      · trivial
      · simp [FifoEvent.acceptedValue, FifoEvent.returnedValue]
      · simp
      · simp [Fifo.stop, FifoEvent.acceptedValue]
      · simp [Fifo.stop, FifoEvent.returnedValue]
      · exact h.peakAfter le_rfl rfl
      · rfl
  | size caller =>
      cases hstep
      apply h.record
      · exact h.size
      · simp [FifoEvent.acceptedValue, FifoEvent.returnedValue]
      · simp
      · simp [FifoEvent.acceptedValue]
      · simp [FifoEvent.returnedValue]
      · exact h.peakAfter le_rfl rfl
      · rfl
  | getStats caller resetPeak =>
      cases hstep
      exact h.getStats caller resetPeak

theorem consistent_of_exec {s : RecordedFifo ι α} {calls : List (FifoCall ι α)}
    (h : (machine ι α).exec {} calls = some s) : s.Consistent :=
  Machine.exec_induction (fun _ _ _ hs hstep => hs.step hstep) Consistent.init h

/-! ## The peak -/

/-- The call does not reset the peak. -/
def KeepsPeak (call : FifoCall ι α) : Prop :=
  ∀ caller, call ≠ .getStats caller true

/-- A call that does not reset the peak raises it to the size it leads to. -/
theorem peakSize_step {s s' : RecordedFifo ι α} {call : FifoCall ι α} (hkeeps : KeepsPeak call)
    (hpeak : s.fifo.size ≤ s.fifo.peakSize)
    (hstep : (machine ι α).step s call = some s') :
    s'.fifo.peakSize = max s.fifo.peakSize s'.fifo.size := by
  cases call with
  | push caller value =>
      cases hstep
      cases hstopped : s.fifo.stopped with
      | true => simp [Fifo.push_of_stopped hstopped, hpeak]
      | false => simp [Fifo.push, Fifo.size, hstopped]
  | waitAndPop caller =>
      rcases waitAndPop_step hstep with ⟨result, q, hpop, rfl⟩
      unfold Fifo.waitAndPop at hpop
      split at hpop
      · split at hpop
        · cases hpop
          exact (max_eq_left hpeak).symm
        · cases hpop
      · next value rest hqueue =>
        cases hpop
        rw [Fifo.size, hqueue, List.length_cons] at hpeak
        have hsize : rest.length ≤ s.fifo.peakSize := by omega
        exact (max_eq_left hsize).symm
  | stop caller =>
      cases hstep
      exact (max_eq_left hpeak).symm
  | size caller =>
      cases hstep
      exact (max_eq_left hpeak).symm
  | getStats caller resetPeak =>
      cases resetPeak with
      | false =>
          cases hstep
          exact (max_eq_left hpeak).symm
      | true => exact absurd rfl (hkeeps caller)

/-- The schedule `before` ends where the peak was last reset, or is empty, and `after` does
not reset it. -/
def ResetLast (before after : List (FifoCall ι α)) : Prop :=
  (before = [] ∨ ∃ earlier caller, before = earlier ++ [.getStats caller true]) ∧
    ∀ call ∈ after, KeepsPeak call

/-- At the construction and right after a reset the peak is the size. -/
theorem ResetLast.peakSize {s : RecordedFifo ι α} {before after : List (FifoCall ι α)}
    (h : ResetLast before after) (hrun : (machine ι α).exec {} before = some s) :
    s.fifo.peakSize = s.fifo.size := by
  rcases h.1 with rfl | ⟨earlier, caller, rfl⟩
  · cases hrun
    rfl
  · rcases (machine ι α).exec_append_eq_some.mp hrun with ⟨t, -, hlast⟩
    cases hlast
    rfl

/-! ## Linearizability -/

/-- What the queue promises after a run of calls. -/
structure Linearizable (calls : List (FifoCall ι α)) (s : RecordedFifo ι α) : Prop where
  /-- Every call had a result that the sequential specification allows. -/
  lawful : Lawful FifoEvent.Allowed s.history
  /-- Nothing is lost, duplicated or reordered. -/
  inOrder : FifoEvent.returned s.history <+: FifoEvent.accepted s.history
  contents : FifoEvent.accepted s.history = FifoEvent.returned s.history ++ s.fifo.queue
  size : s.fifo.size = s.fifo.totalPushed - s.fifo.totalPopped
  popped_le : s.fifo.totalPopped ≤ s.fifo.totalPushed
  /-- The peak is the greatest size since the last reset. -/
  peak : ∀ before after t, calls = before ++ after → ResetLast before after →
    (machine ι α).exec {} before = some t →
    IsGreatest {n | ∃ u, (machine ι α).Passes t after u ∧ u.fifo.size = n} s.fifo.peakSize
  size_le_peak : s.fifo.size ≤ s.fifo.peakSize

/-- For any number of threads and every order of their calls, the queue is linearizable. -/
theorem linearizable {s : RecordedFifo ι α} {calls : List (FifoCall ι α)}
    (h : (machine ι α).exec {} calls = some s) : Linearizable calls s := by
  have hs := consistent_of_exec h
  constructor
  · exact hs.lawful
  · exact ⟨s.fifo.queue, hs.contents.symm⟩
  · exact hs.contents
  · rw [hs.size, hs.pushed, hs.popped]
    rfl
  · rw [hs.pushed, hs.popped, hs.contents, List.length_append]
    omega
  · intro before after t hsplit hreset hbefore
    rw [hsplit] at h
    rcases (machine ι α).exec_append_eq_some.mp h with ⟨t', hbefore', hafter⟩
    obtain rfl : t = t' := Option.some.inj (hbefore.symm.trans hbefore')
    exact Machine.isGreatest_passes (fun _ _ _ => peakSize_step) (hreset.peakSize hbefore) hreset.2
      hafter
  · exact hs.size_le_peak

/-- Two producers, a consumer and a stop: the values come out in order and then `nullopt`. -/
theorem linearizable_two :
    Linearizable
      [.push 0 'a', .push 1 'b', .waitAndPop 2, .getStats 2 true, .stop 0, .push 1 'c',
        .waitAndPop 2, .waitAndPop 2]
      { fifo := { stopped := true, peakSize := 1, totalPushed := 2, totalPopped := 2 }
        history := [.pushed 0 'a' true, .pushed 1 'b' true, .popped 2 (some 'a'),
          .statsRead 2 true ⟨1, 2, 2, 1, 0⟩, .stopped 0, .pushed 1 'c' false,
          .popped 2 (some 'b'), .popped 2 none] } :=
  linearizable (ι := Nat) rfl

end RecordedFifo

end FrameProcessor
