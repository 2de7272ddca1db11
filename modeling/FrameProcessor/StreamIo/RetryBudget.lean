import FrameProcessor.StreamIo.Connecting

/-!
# components/stream_io - The retry budget of the connect loop

The connect loop of `run_stream` counts its failures.  A failure is followed by a wait that
doubles, or, when the counter exceeds `max_retries`, by a pause of 30 seconds after which
the counter starts again.  The comparison lets two failures more pass than the budget
names.

Main results:

- Theorem `Reader.retryLaw_actual`: in every run a pause follows exactly seven failures and
  the waits go up to 32 seconds.
- Theorem `Reader.retryBudget_iff`: a run keeps the budget of `max_retries` if and only if
  no connect loop calls `avformat_open_input` more than `max_retries` times.
-/

namespace FrameProcessor

/-- A failed call of `avformat_open_input`. -/
def ReaderEvent.isFailure : ReaderEvent → Bool
  | .opened false _ => true
  | _ => false

/-- A back-off wait. -/
def ReaderEvent.isBackOff : ReaderEvent → Bool
  | .backedOff _ => true
  | _ => false

namespace Reader

/-! ## Cycles of the connect loop -/

/-- The calls and back-off waits since the loop began or since its last pause. -/
def cycle (history : List ReaderEvent) : List ReaderEvent :=
  history.foldl
    (fun events event =>
      match event with
      | .connecting | .paused _ => []
      | .opened _ _ | .backedOff _ => events ++ [event]
      | _ => events)
    []

/-- How often the loop has called since it began. -/
def calls (history : List ReaderEvent) : Nat :=
  history.foldl
    (fun count event =>
      match event with
      | .connecting => 0
      | .opened _ _ => count + 1
      | _ => count)
    0

/-- A failure, then any number of times a back-off wait and another failure. -/
def alternates : List ReaderEvent → Bool
  | [.opened false _] => true
  | .opened false _ :: .backedOff _ :: rest => alternates rest
  | _ => false

/-- Consecutive failures that exhaust a budget, each but the last followed by a back-off
wait. -/
def SpentBudget (budget : Nat) (events : List ReaderEvent) : Prop :=
  alternates events = true ∧ events.countP ReaderEvent.isFailure = budget

/-- A call reports no attempt beyond the budget, the back-off waits of a cycle double from
one second and none is longer than `longest`, and a pause follows a spent budget. -/
def RetryLaw (budget longest : Nat) (before : List ReaderEvent) (event : ReaderEvent) : Prop :=
  match event with
  | .opened _ attempt => attempt ≤ budget
  | .backedOff seconds =>
      seconds = 2 ^ (cycle before).countP ReaderEvent.isBackOff ∧ seconds ≤ longest
  | .paused _ => SpentBudget budget (cycle before)
  | _ => True

/-- A cycle of so many failures, each followed by its back-off wait. -/
def retries : Nat → List ReaderEvent
  | 0 => []
  | n + 1 => retries n ++ [.opened false (n + 1), .backedOff (2 ^ n)]

theorem countP_isBackOff_retries (n : Nat) :
    (retries n).countP ReaderEvent.isBackOff = n := by
  induction n with
  | zero => rfl
  | succ n ih => simp [retries, ih, ReaderEvent.isBackOff]

variable {history : List ReaderEvent} {event : ReaderEvent}

theorem cycle_concat :
    cycle (history ++ [event]) =
      match event with
      | .connecting | .paused _ => []
      | .opened _ _ | .backedOff _ => cycle history ++ [event]
      | _ => cycle history :=
  List.foldl_concat ..

theorem calls_concat :
    calls (history ++ [event]) =
      match event with
      | .connecting => 0
      | .opened _ _ => calls history + 1
      | _ => calls history :=
  List.foldl_concat ..

/-! ## The counter and the cycle -/

/-- At each point of the connect loop: the cycle is what the counter says. -/
def CycleRecord (s : Reader) : Prop :=
  match s.pc with
  | .connectLoop =>
      s.stopRequested = true ∨ s.connected = true ∨ cycle s.history = retries s.currentRetry
  | .allocContext | .allocSleep | .openInput => cycle s.history = retries s.currentRetry
  | .backOff => cycle s.history = retries s.currentRetry ++ [.opened false (s.currentRetry + 1)]
  | .pause =>
      maxRetries < s.currentRetry ∧
        cycle s.history = retries s.currentRetry ++ [.opened false (s.currentRetry + 1)]
  | _ => True

variable {events : Nat} {s s' : Reader} {a : Action}

theorem cycleRecord_moves (hs : CycleRecord s) (h : Moves s a s') : CycleRecord s' := by
  cases h with
  | requestStop ha =>
      unfold CycleRecord at hs
      split at hs
      case h_1 hpc => simp [CycleRecord, record, hpc]
      case h_2 hpc => simpa [CycleRecord, record, hpc, cycle_concat] using hs
      case h_3 hpc => simpa [CycleRecord, record, hpc, cycle_concat] using hs
      case h_4 hpc => simpa [CycleRecord, record, hpc, cycle_concat] using hs
      case h_5 hpc => simpa [CycleRecord, record, hpc, cycle_concat] using hs
      case h_6 hpc => simpa [CycleRecord, record, hpc, cycle_concat] using hs
      case h_7 => simp_all [CycleRecord, record]
  | enter hpc hstop => exact Or.inr (Or.inr cycle_concat)
  | attempt hpc hstop hconnected =>
      have hcycle : cycle s.history = retries s.currentRetry := by
        simpa [CycleRecord, hpc, hstop, hconnected] using hs
      exact hcycle
  | allocated hpc | allocFailed hpc =>
      simp only [CycleRecord, hpc] at hs
      exact hs
  | allocSlept hpc =>
      simp only [CycleRecord, hpc] at hs
      exact Or.inr (Or.inr (cycle_concat.trans hs))
  | opened ha hpc => exact Or.inr (Or.inl rfl)
  | openFailed ha hpc hretry =>
      simp only [CycleRecord, hpc] at hs
      simp [CycleRecord, goto, record, cycle_concat, hs]
  | retriesSpent ha hpc hretry =>
      simp only [CycleRecord, hpc] at hs
      simp [CycleRecord, goto, record, cycle_concat, hs, hretry]
  | backedOff hpc =>
      simp only [CycleRecord, hpc] at hs
      simp [CycleRecord, goto, record, cycle_concat, hs, retries]
  | backOffCut hpc hstop | pauseCut hpc hstop => exact Or.inl hstop
  | paused hpc => exact Or.inr (Or.inr cycle_concat)
  | stream pc healthy hpc hpc' =>
      cases pc with
      | returned | setup | readLoop | readFrame | sendPacket | receiveFrame | addFrame | pull
      | flush | reconnectTest | reconnectSleep => trivial
      | outerLoop | connectLoop | allocContext | allocSleep | openInput | backOff | pause
      | connectDone | findStreamInfo => simp [ReaderPc.inStream] at hpc'
  | leave | connectOver | probe | probeFailed | reconnectStopped | reconnectSlept => trivial

/-! ## What the loop does -/

/-- When a back-off wait is due, the counter says how many the cycle has had. -/
theorem countP_isBackOff_cycle (hrecord : CycleRecord s) (hpc : s.pc = .backOff) :
    (cycle s.history).countP ReaderEvent.isBackOff = s.currentRetry := by
  simp only [CycleRecord, hpc] at hrecord
  rw [hrecord, List.countP_append, countP_isBackOff_retries]
  rfl

/-- Every step keeps the law with the budget and the longest wait of the code. -/
theorem lawful_actual_moves (hbound : RetryBounded s) (hrecord : CycleRecord s)
    (hs : Lawful (RetryLaw (maxRetries + 2) 32) s.history) (h : Moves s a s') :
    Lawful (RetryLaw (maxRetries + 2) 32) s'.history := by
  have hattempt : s.currentRetry + 1 ≤ maxRetries + 2 := Nat.succ_le_succ hbound.1
  have hnoted : ∀ event, Noted s event → Lawful (RetryLaw (maxRetries + 2) 32) s.history →
      RetryLaw (maxRetries + 2) 32 s.history event := by
    intro event hnoted _
    cases event with
    | opened => exact hnoted.elim
    | backedOff seconds =>
        rcases hnoted with ⟨hpc, hseconds⟩
        rw [hseconds]
        constructor
        · rw [countP_isBackOff_cycle hrecord hpc]
        · calc
            2 ^ s.currentRetry ≤ 2 ^ maxRetries :=
              Nat.pow_le_pow_right (by decide) (hbound.2 hpc)
            _ = 32 := rfl
    | paused seconds =>
        simp only [CycleRecord, hnoted.1] at hrecord
        rcases hrecord with ⟨hspent, hcycle⟩
        have hseven : s.currentRetry = maxRetries + 1 := Nat.le_antisymm hbound.1 hspent
        rw [hseven] at hcycle
        simp only [RetryLaw, hcycle]
        exact ⟨by decide, by decide⟩
    | connecting | slept | probeFailed | stopRequested => trivial
  have hcall : ∀ succeeded, s.pc = .openInput →
      Lawful (RetryLaw (maxRetries + 2) 32) s.history →
      (RetryLaw (maxRetries + 2) 32 s.history (.opened succeeded (s.currentRetry + 1)) ↔ True) :=
    fun _ _ _ => iff_true_intro hattempt
  exact (lawful_history_iff h hnoted hcall).mpr ⟨hs, fun _ _ _ => trivial⟩

/-- In every run a pause follows exactly seven failures, no attempt beyond the seventh is
reported, and the back-off waits of a cycle double from 1 to 32 seconds. -/
theorem retryLaw_actual {schedule : List Action}
    (hrun : (machine events).exec {} schedule = some s) :
    Lawful (RetryLaw (maxRetries + 2) 32) s.history := by
  have hstart : RetryBounded {} ∧ CycleRecord {} ∧
      Lawful (RetryLaw (maxRetries + 2) 32) ({} : Reader).history :=
    ⟨⟨Nat.zero_le _, fun hpc => by cases hpc⟩, trivial, lawful_nil⟩
  have hkeep : ∀ s a s',
      (RetryBounded s ∧ CycleRecord s ∧ Lawful (RetryLaw (maxRetries + 2) 32) s.history) →
      (machine events).step s a = some s' →
      RetryBounded s' ∧ CycleRecord s' ∧
        Lawful (RetryLaw (maxRetries + 2) 32) s'.history := by
    intro s a s' ⟨hbound, hrecord, hlaw⟩ hstep
    have hmoves := step_moves hstep
    exact ⟨retryBounded_moves hbound hmoves, cycleRecord_moves hrecord hmoves,
      lawful_actual_moves hbound hrecord hlaw hmoves⟩
  exact (Machine.exec_induction hkeep hstart hrun).2.2

/-! ## The budget of five -/

/-- As long as the budget is kept: the calls of the loop are what the counter says, and no
pause is due. -/
def CallsRecord (s : Reader) : Prop :=
  Lawful (RetryLaw maxRetries 30) s.history →
    match s.pc with
    | .connectLoop =>
        s.stopRequested = true ∨ s.connected = true ∨ calls s.history = s.currentRetry
    | .allocContext | .allocSleep | .openInput => calls s.history = s.currentRetry
    | .backOff => calls s.history = s.currentRetry + 1 ∧ s.currentRetry < maxRetries
    | .pause => False
    | _ => True

theorem callsRecord_moves (hs : CallsRecord s) (h : Moves s a s') : CallsRecord s' := by
  intro hlaw
  cases h with
  | requestStop ha =>
      have hbefore := hs (lawful_concat.mp hlaw).1
      split at hbefore
      case h_1 hpc => simp [record, hpc]
      case h_2 hpc => simpa [record, hpc, calls_concat] using hbefore
      case h_3 hpc => simpa [record, hpc, calls_concat] using hbefore
      case h_4 hpc => simpa [record, hpc, calls_concat] using hbefore
      case h_5 hpc => simpa [record, hpc, calls_concat] using hbefore
      case h_6 hpc => exact hbefore.elim
      case h_7 => simp_all [record]
  | enter hpc hstop => exact Or.inr (Or.inr calls_concat)
  | attempt hpc hstop hconnected =>
      have hbefore := hs hlaw
      have hcalls : calls s.history = s.currentRetry := by
        simpa [hpc, hstop, hconnected] using hbefore
      exact hcalls
  | allocated hpc | allocFailed hpc =>
      have hbefore := hs hlaw
      simp only [hpc] at hbefore
      exact hbefore
  | allocSlept hpc =>
      have hbefore := hs (lawful_concat.mp hlaw).1
      simp only [hpc] at hbefore
      exact Or.inr (Or.inr (calls_concat.trans hbefore))
  | opened ha hpc => exact Or.inr (Or.inl rfl)
  | openFailed ha hpc hretry =>
      rcases lawful_concat.mp hlaw with ⟨hlaw', hattempt⟩
      have hbefore := hs hlaw'
      simp only [hpc] at hbefore
      have hcalls : calls (s.history ++ [.opened false (s.currentRetry + 1)]) =
          s.currentRetry + 1 := by
        rw [calls_concat, hbefore]
      exact ⟨hcalls, hattempt⟩
  | retriesSpent ha hpc hretry =>
      have hattempt : s.currentRetry + 1 ≤ maxRetries := (lawful_concat.mp hlaw).2
      exact absurd hretry (by omega)
  | backedOff hpc =>
      have hbefore := hs (lawful_concat.mp hlaw).1
      simp only [hpc] at hbefore
      exact Or.inr (Or.inr (calls_concat.trans hbefore.1))
  | backOffCut hpc hstop | pauseCut hpc hstop => exact Or.inl hstop
  | paused hpc =>
      have hbefore := hs (lawful_concat.mp hlaw).1
      simp only [hpc] at hbefore
  | stream pc healthy hpc hpc' =>
      cases pc with
      | returned | setup | readLoop | readFrame | sendPacket | receiveFrame | addFrame | pull
      | flush | reconnectTest | reconnectSleep => trivial
      | outerLoop | connectLoop | allocContext | allocSleep | openInput | backOff | pause
      | connectDone | findStreamInfo => simp [ReaderPc.inStream] at hpc'
  | leave | connectOver | probe | probeFailed | reconnectStopped | reconnectSlept => trivial

/-- A call is made only while the loop has calls left in its budget. -/
def WithinBudget (s : Reader) (a : Action) : Prop :=
  ∀ result, a = .connect result → s.pc = .openInput → calls s.history < maxRetries

/-- A step keeps the budget exactly when it meets the guard. -/
theorem budget_moves_iff (hcycle : CycleRecord s) (hcalls : CallsRecord s)
    (h : Moves s a s') :
    Lawful (RetryLaw maxRetries 30) s'.history ↔
      Lawful (RetryLaw maxRetries 30) s.history ∧ WithinBudget s a := by
  apply lawful_history_iff h
  · intro event hnoted hlaw
    have hcount := hcalls hlaw
    cases event with
    | opened => exact hnoted.elim
    | backedOff seconds =>
        rcases hnoted with ⟨hpc, hseconds⟩
        simp only [hpc] at hcount
        rw [hseconds]
        constructor
        · rw [countP_isBackOff_cycle hcycle hpc]
        · calc
            2 ^ s.currentRetry ≤ 2 ^ 4 :=
              Nat.pow_le_pow_right (by decide) (Nat.le_of_lt_succ hcount.2)
            _ ≤ 30 := by decide
    | paused seconds =>
        simp only [hnoted.1] at hcount
    | connecting | slept | probeFailed | stopRequested => trivial
  · intro succeeded hpc hlaw
    have hcount := hcalls hlaw
    simp only [hpc] at hcount
    rw [hcount]
    exact Iff.rfl

/-- A run keeps the budget of `max_retries` exactly when no connect loop of it calls
`avformat_open_input` more often than that. -/
theorem retryBudget_iff {schedule : List Action} {t : Reader}
    (hrun : (machine events).exec {} schedule = some t) :
    Lawful (RetryLaw maxRetries 30) t.history ↔
      (machine events).Meets WithinBudget {} schedule := by
  have hstart : CycleRecord {} ∧ CallsRecord {} := ⟨trivial, fun _ => trivial⟩
  have hkeep : ∀ s a s', CycleRecord s ∧ CallsRecord s →
      (machine events).step s a = some s' → CycleRecord s' ∧ CallsRecord s' := by
    intro s a s' ⟨hcycle, hcalls⟩ hstep
    have hmoves := step_moves hstep
    exact ⟨cycleRecord_moves hcycle hmoves, callsRecord_moves hcalls hmoves⟩
  have hlaw : ∀ s a s', CycleRecord s ∧ CallsRecord s →
      (machine events).step s a = some s' →
      (Lawful (RetryLaw maxRetries 30) s'.history ↔
        Lawful (RetryLaw maxRetries 30) s.history ∧ WithinBudget s a) := by
    intro s a s' ⟨hcycle, hcalls⟩ hstep
    exact budget_moves_iff hcycle hcalls (step_moves hstep)
  rw [Machine.kept_iff_meets hkeep hlaw hstart hrun]
  exact and_iff_right lawful_nil

/-- A camera that refuses so many connections in a row. -/
def refusals (n : Nat) : List Action :=
  [.test] ++ (List.replicate n [.test, .connect .ok, .connect .failed, .wait true]).flatten

/-- Two refusals keep the budget. -/
theorem retryBudget_two :
    ∃ t, (machine 1).exec {} (refusals 2) = some t ∧
      t.history = [.connecting, .opened false 1, .backedOff 1, .opened false 2, .backedOff 2] ∧
      (Lawful (RetryLaw maxRetries 30) t.history ↔
        (machine 1).Meets WithinBudget {} (refusals 2)) := by
  have hrun : ∃ t, (machine 1).exec {} (refusals 2) = some t ∧
      t.history =
        [.connecting, .opened false 1, .backedOff 1, .opened false 2, .backedOff 2] :=
    ⟨_, rfl, rfl⟩
  rcases hrun with ⟨t, hexec, hhistory⟩
  exact ⟨t, hexec, hhistory, retryBudget_iff hexec⟩

/-- Seven refusals: the sixth attempt of five waits 32 seconds, and the pause comes after the
seventh. -/
theorem sevenRefusals_not_lawful :
    ∃ t, (machine 1).exec {} (refusals 7) = some t ∧
      t.history = .connecting :: (retries 6 ++ [.opened false 7, .paused 30]) ∧
      ¬Lawful (RetryLaw maxRetries 30) t.history := by
  have hrun : ∃ t, (machine 1).exec {} (refusals 7) = some t ∧
      t.history = .connecting :: (retries 6 ++ [.opened false 7, .paused 30]) :=
    ⟨_, rfl, rfl⟩
  rcases hrun with ⟨t, hexec, hhistory⟩
  refine ⟨t, hexec, hhistory, fun hlawful => ?_⟩
  rw [hhistory] at hlawful
  have hattempt : 7 ≤ maxRetries :=
    hlawful (.connecting :: retries 6) (.opened false 7) [.paused 30] rfl
  exact absurd hattempt (by decide)

end Reader

end FrameProcessor
