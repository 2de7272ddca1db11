import Mathlib.Data.List.Basic
import Mathlib.Data.Option.Basic

/-!
# utils/fifo - The stoppable queue

Every operation of `fifo<T>` runs under the queue's mutex, so each is one atomic
function on the queue's state.  `waitAndPop` returns `none` when its wait predicate
is false: the caller sleeps.  The high-water-mark warning only writes a log line
and is left out, with the threshold and the time stamp it reads.

Main results:

- Theorems `Fifo.push_queue_of_not_stopped` and `Fifo.push_of_stopped`: a push is
  accepted at the tail exactly while the queue is not stopped.
- Theorem `Fifo.waitAndPop_cases`: the three outcomes of a pop.
-/

namespace FrameProcessor

/-- The state of a `fifo<T>`. -/
structure Fifo (α : Type*) where
  queue : List α := []
  stopped : Bool := false
  peakSize : Nat := 0
  totalPushed : Nat := 0
  totalPopped : Nat := 0
  dropCount : Nat := 0
deriving DecidableEq

namespace Fifo

variable {α : Type*}

/-- `fifo::push`: silently ignored once the queue is stopped. -/
def push (q : Fifo α) (value : α) : Fifo α :=
  if q.stopped then q
  else
    { q with
      queue := q.queue ++ [value]
      totalPushed := q.totalPushed + 1
      peakSize := max q.peakSize (q.queue.length + 1) }

/-- `fifo::wait_and_pop`: `none` while the predicate `!queue_.empty() || stopped_` is
false, `some (none, _)` for `std::nullopt`. -/
def waitAndPop (q : Fifo α) : Option (Option α × Fifo α) :=
  match q.queue with
  | [] => if q.stopped then some (none, q) else none
  | value :: rest =>
      some (some value, { q with queue := rest, totalPopped := q.totalPopped + 1 })

/-- `fifo::stop`. -/
def stop (q : Fifo α) : Fifo α :=
  { q with stopped := true }

/-- `fifo::size`. -/
def size (q : Fifo α) : Nat :=
  q.queue.length

/-- `fifo::QueueStats`. -/
structure QueueStats where
  currentSize : Nat
  peakSize : Nat
  totalPushed : Nat
  totalPopped : Nat
  dropCount : Nat
deriving DecidableEq

/-- `fifo::get_stats`. -/
def getStats (q : Fifo α) (resetPeak : Bool := true) : QueueStats × Fifo α :=
  ({ currentSize := q.size
     peakSize := q.peakSize
     totalPushed := q.totalPushed
     totalPopped := q.totalPopped
     dropCount := q.dropCount },
    if resetPeak then { q with peakSize := q.size } else q)

/-! ## What the operations do to the contents -/

theorem push_of_stopped {q : Fifo α} (h : q.stopped = true) (value : α) :
    q.push value = q := by
  simp [push, h]

theorem push_queue_of_not_stopped {q : Fifo α} (h : q.stopped = false) (value : α) :
    (q.push value).queue = q.queue ++ [value] := by
  simp [push, h]

@[simp]
theorem push_stopped (q : Fifo α) (value : α) : (q.push value).stopped = q.stopped := by
  unfold push
  split <;> rfl

/-- A push adds at most the value pushed. -/
theorem mem_of_mem_push {q : Fifo α} {value value' : α} (h : value' ∈ (q.push value).queue) :
    value' ∈ q.queue ∨ value' = value := by
  cases hstopped : q.stopped with
  | true =>
      rw [push_of_stopped hstopped] at h
      exact Or.inl h
  | false =>
      rw [push_queue_of_not_stopped hstopped] at h
      simpa using h

@[simp]
theorem stop_queue (q : Fifo α) : q.stop.queue = q.queue :=
  rfl

@[simp]
theorem stop_stopped (q : Fifo α) : q.stop.stopped = true :=
  rfl

/-- A pop takes the head of a queue that is not empty. -/
theorem waitAndPop_cons {q : Fifo α} {value : α} {rest : List α} (h : q.queue = value :: rest) :
    q.waitAndPop =
      some (some value, { q with queue := rest, totalPopped := q.totalPopped + 1 }) := by
  simp only [waitAndPop, h]

/-- A pop returns the head, or `nullopt` from a stopped empty queue. -/
theorem waitAndPop_cases {q q' : Fifo α} {result : Option α}
    (h : q.waitAndPop = some (result, q')) :
    (∃ value, result = some value ∧ q.queue = value :: q'.queue ∧ q'.stopped = q.stopped) ∨
      (result = none ∧ q' = q ∧ q.queue = [] ∧ q.stopped = true) := by
  unfold waitAndPop at h
  split at h
  · next hempty =>
    split at h
    · next hstopped =>
      cases h
      exact Or.inr ⟨rfl, rfl, hempty, hstopped⟩
    · cases h
  · next value rest hcons =>
    cases h
    exact Or.inl ⟨value, rfl, hcons, rfl⟩

/-- A pop blocks exactly on an empty queue that is not stopped. -/
theorem waitAndPop_eq_none {q : Fifo α} :
    q.waitAndPop = none ↔ q.queue = [] ∧ q.stopped = false := by
  unfold waitAndPop
  split
  · next hempty =>
    cases hstopped : q.stopped <;> simp [hempty]
  · next value rest hcons => simp [hcons]

theorem waitAndPop_stopped {q q' : Fifo α} {result : Option α}
    (h : q.waitAndPop = some (result, q')) : q'.stopped = q.stopped := by
  rcases waitAndPop_cases h with ⟨_, _, _, hstopped⟩ | ⟨_, rfl, _, _⟩
  · exact hstopped
  · rfl

end Fifo

end FrameProcessor
