import FrameProcessor.StreamIo.Connecting

/-!
# components/stream_io - The pace of connection attempts

Every path from one call of `avformat_open_input` to the next should contain a wait.  The
loops of `run_stream` leave one path without: when a connected stream cannot be probed,
`continue` goes straight to the outer loop, whose connect loop calls again at once.

Main results:

- Theorem `Reader.rested_concat`: how an event changes whether the reader has waited since
  its last call.
- Theorem `Reader.paced_iff`: in a run every two calls have a wait between them, unless a
  stop was requested, if and only if the reader never calls straight after a failed probe.
-/

namespace FrameProcessor

/-- The milliseconds that an event of the history took as a wait. -/
def ReaderEvent.waited : ReaderEvent → Nat
  | .backedOff seconds | .paused seconds => 1000 * seconds
  | .slept milliseconds => milliseconds
  | _ => 0

/-- A call of `avformat_open_input`. -/
def ReaderEvent.isOpen : ReaderEvent → Bool
  | .opened _ _ => true
  | _ => false

theorem ReaderEvent.isOpen_eq_false {event : ReaderEvent} (h : 0 < event.waited) :
    event.isOpen = false := by
  cases event with
  | opened => exact absurd h (Nat.lt_irrefl 0)
  | connecting | backedOff | paused | slept | probeFailed | stopRequested => rfl

namespace Reader

/-! ## Waits since the last call -/

/-- After every call of a history a wait follows. -/
def Rested (history : List ReaderEvent) : Prop :=
  ∀ earlier call later, history = earlier ++ call :: later → call.isOpen = true →
    ∃ wait ∈ later, 0 < wait.waited

theorem rested_nil : Rested [] := by
  intro earlier call later h
  simp at h

variable {history : List ReaderEvent} {event : ReaderEvent}

/-- A wait makes the reader rested, a call makes it not, and anything else leaves it. -/
theorem rested_concat :
    Rested (history ++ [event]) ↔
      0 < event.waited ∨ (event.isOpen = false ∧ Rested history) := by
  constructor
  · intro h
    by_cases hwait : 0 < event.waited
    · exact Or.inl hwait
    · right
      constructor
      · by_contra hopen
        rw [Bool.not_eq_false] at hopen
        rcases h history event [] rfl hopen with ⟨wait, hmem, -⟩
        exact absurd hmem List.not_mem_nil
      · intro earlier call later hsplit hcall
        have hsplit' : history ++ [event] = earlier ++ call :: (later ++ [event]) := by
          simp [hsplit]
        rcases h earlier call (later ++ [event]) hsplit' hcall with ⟨wait, hmem, hpos⟩
        rcases List.mem_append.mp hmem with hmem | hlast
        · exact ⟨wait, hmem, hpos⟩
        · rw [List.mem_singleton.mp hlast] at hpos
          exact absurd hpos hwait
  · intro h earlier call later hsplit hcall
    rcases List.eq_nil_or_concat later with hnil | ⟨later', last, hlast⟩
    · rw [hnil] at hsplit
      have hsame : event = call := (List.concat_inj.mp (by simpa using hsplit)).2
      rw [← hsame] at hcall
      rcases h with hwait | ⟨hopen, -⟩
      · rw [ReaderEvent.isOpen_eq_false hwait] at hcall
        cases hcall
      · rw [hopen] at hcall
        cases hcall
    · rw [List.concat_eq_append] at hlast
      rw [hlast, ← List.cons_append, ← List.append_assoc] at hsplit
      rcases List.append_inj' hsplit rfl with ⟨hhistory, hevent⟩
      have hsame : event = last := by simpa using hevent
      rw [hlast, ← hsame]
      rcases h with hwait | ⟨-, hrested⟩
      · exact ⟨event, List.mem_append_right _ (List.mem_singleton.mpr rfl), hwait⟩
      · rcases hrested earlier call later' hhistory hcall with ⟨wait, hmem, hpos⟩
        exact ⟨wait, List.mem_append_left _ hmem, hpos⟩

/-- The connect loop was entered straight after a failed probe. -/
def Hurried (history : List ReaderEvent) : Prop :=
  history.getLast? = some .connecting ∧ history.dropLast.getLast? = some .probeFailed

theorem hurried_concat :
    Hurried (history ++ [event]) ↔
      event = .connecting ∧ history.getLast? = some .probeFailed := by
  unfold Hurried
  rw [List.getLast?_concat, List.dropLast_concat, Option.some.injEq]

/-! ## What the reader has done since its last call -/

/-- Between two calls, at each point of the loops: who comes from a failed probe has not
waited, and everybody else has. -/
def PaceRecord (s : Reader) : Prop :=
  match s.pc with
  | .outerLoop => Rested s.history ↔ s.history.getLast? ≠ some .probeFailed
  | .connectLoop =>
      if s.connected then ¬Rested s.history else (Rested s.history ↔ ¬Hurried s.history)
  | .allocContext | .openInput =>
      s.connected = false ∧ (Rested s.history ↔ ¬Hurried s.history)
  | .allocSleep | .backOff | .pause => s.connected = false
  | .connectDone | .findStreamInfo => ¬Rested s.history
  | _ => True

/-- A stop was requested, or the record holds. -/
def Paced (s : Reader) : Prop :=
  s.stopRequested = true ∨ PaceRecord s

variable {events : Nat} {s s' : Reader} {a : Action}

/-- No step takes a stop request back. -/
theorem stopRequested_moves (hs : s.stopRequested = true) (h : Moves s a s') :
    s'.stopRequested = true := by
  cases h with
  | requestStop => rfl
  | leave | enter | attempt | connectOver | probe | allocated | allocFailed | allocSlept
  | opened | openFailed | retriesSpent | backedOff | backOffCut | paused | pauseCut
  | probeFailed | stream | reconnectStopped | reconnectSlept => exact hs

/-- The history tells whether a stop was requested. -/
def StopRecorded (s : Reader) : Prop :=
  .stopRequested ∈ s.history ↔ s.stopRequested = true

theorem stopRecorded_moves (hs : StopRecorded s) (h : Moves s a s') : StopRecorded s' := by
  have hsame : ∀ event : ReaderEvent, event ≠ .stopRequested →
      (.stopRequested ∈ s.history ++ [event] ↔ s.stopRequested = true) := by
    intro event hne
    rw [List.mem_append, List.mem_singleton]
    constructor
    · intro hmem
      rcases hmem with hmem | heq
      · exact hs.mp hmem
      · exact absurd heq.symm hne
    · intro hstop
      exact Or.inl (hs.mpr hstop)
  cases h with
  | requestStop => simp [StopRecorded]
  | enter | allocSlept | opened | openFailed | retriesSpent | backedOff | paused | probeFailed
  | reconnectSlept => exact hsame _ (by simp)
  | leave | attempt | connectOver | probe | allocated | allocFailed | backOffCut | pauseCut
  | stream | reconnectStopped => exact hs

/-- After a wait the reader is rested and comes from no probe. -/
theorem rested_of_waited (history : List ReaderEvent) (hwait : 0 < event.waited) :
    Rested (history ++ [event]) ∧ (history ++ [event]).getLast? ≠ some .probeFailed ∧
      ¬Hurried (history ++ [event]) := by
  rw [rested_concat, hurried_concat, List.getLast?_concat]
  refine ⟨Or.inl hwait, fun heq => ?_, fun hhurried => ?_⟩
  · rw [Option.some.inj heq] at hwait
    exact absurd hwait (Nat.lt_irrefl 0)
  · rw [hhurried.1] at hwait
    exact absurd hwait (Nat.lt_irrefl 0)

theorem paceRecord_moves (hs : PaceRecord s) (h : Moves s a s') : Paced s' := by
  cases h with
  | requestStop => exact Or.inl rfl
  | leave => exact Or.inr trivial
  | enter hpc hstop =>
      right
      simp only [PaceRecord, hpc] at hs
      simp [PaceRecord, goto, record, hs, rested_concat, hurried_concat, ReaderEvent.waited,
        ReaderEvent.isOpen]
  | attempt hpc hstop hconnected =>
      right
      simp only [PaceRecord, hpc, hconnected] at hs
      exact ⟨hconnected, hs⟩
  | connectOver hpc hover =>
      rcases hover with hstop | hconnected
      · exact Or.inl hstop
      · right
        simp only [PaceRecord, hpc, hconnected] at hs
        exact hs
  | probe hpc =>
      right
      simp only [PaceRecord, hpc] at hs
      exact hs
  | allocated hpc =>
      right
      simp only [PaceRecord, hpc] at hs
      exact hs
  | allocFailed hpc =>
      right
      simp only [PaceRecord, hpc] at hs
      exact hs.1
  | allocSlept hpc =>
      right
      simp only [PaceRecord, hpc] at hs
      have hpos : 0 < (ReaderEvent.slept 1000).waited := by decide
      have hrested := rested_of_waited s.history hpos
      simp [PaceRecord, goto, record, hs, hrested]
  | opened ha hpc =>
      right
      simp [PaceRecord, goto, record, rested_concat, ReaderEvent.waited, ReaderEvent.isOpen]
  | openFailed ha hpc | retriesSpent ha hpc =>
      right
      simp only [PaceRecord, hpc] at hs
      exact hs.1
  | backedOff hpc =>
      right
      simp only [PaceRecord, hpc] at hs
      have hpos : 0 < (ReaderEvent.backedOff (2 ^ s.currentRetry)).waited :=
        Nat.mul_pos (by decide) (Nat.two_pow_pos _)
      have hrested := rested_of_waited s.history hpos
      simp [PaceRecord, goto, record, hs, hrested]
  | paused hpc =>
      right
      simp only [PaceRecord, hpc] at hs
      have hpos : 0 < (ReaderEvent.paused 30).waited := by decide
      have hrested := rested_of_waited s.history hpos
      simp [PaceRecord, goto, record, hs, hrested]
  | backOffCut hpc hstop | pauseCut hpc hstop | reconnectStopped hpc hstop =>
      exact Or.inl hstop
  | probeFailed hpc =>
      right
      simp only [PaceRecord, hpc] at hs
      simp [PaceRecord, goto, record, rested_concat, hs, ReaderEvent.waited]
  | stream pc healthy hpc hpc' =>
      right
      cases pc with
      | returned | setup | readLoop | readFrame | sendPacket | receiveFrame | addFrame | pull
      | flush | reconnectTest | reconnectSleep => trivial
      | outerLoop | connectLoop | allocContext | allocSleep | openInput | backOff | pause
      | connectDone | findStreamInfo => simp [ReaderPc.inStream] at hpc'
  | reconnectSlept hpc =>
      right
      have hpos : 0 < (ReaderEvent.slept 500).waited := by decide
      have hrested := rested_of_waited s.history hpos
      simp [PaceRecord, goto, record, hrested]

theorem paced_moves (hs : Paced s) (h : Moves s a s') : Paced s' := by
  rcases hs with hstop | hrecord
  · exact Or.inl (stopRequested_moves hstop h)
  · exact paceRecord_moves hrecord h

/-! ## The law of the calls -/

/-- A call needs a wait after every earlier call, or a stop request. -/
def PacedLaw (before : List ReaderEvent) (event : ReaderEvent) : Prop :=
  event.isOpen = true → .stopRequested ∈ before ∨ Rested before

/-- A call is not made straight after a failed probe, unless a stop was requested. -/
def Unhurried (s : Reader) (a : Action) : Prop :=
  ∀ result, a = .connect result → s.pc = .openInput →
    s.stopRequested = true ∨ ¬Hurried s.history

/-- At the call the law asks for what the guard does. -/
theorem rested_iff_not_hurried (hpc : s.pc = .openInput) (hs : Paced s)
    (hstop : StopRecorded s) :
    (.stopRequested ∈ s.history ∨ Rested s.history) ↔
      (s.stopRequested = true ∨ ¬Hurried s.history) := by
  have hnoted : .stopRequested ∈ s.history ↔ s.stopRequested = true := hstop
  rw [hnoted]
  rcases hs with hrequested | hrecord
  · simp [hrequested]
  · simp only [PaceRecord, hpc] at hrecord
    rw [hrecord.2]

/-- A step keeps the history lawful exactly when it meets the guard. -/
theorem lawful_moves_iff (hs : Paced s) (hstop : StopRecorded s) (h : Moves s a s') :
    Lawful PacedLaw s'.history ↔ Lawful PacedLaw s.history ∧ Unhurried s a := by
  apply lawful_history_iff h
  · intro event hnoted _ hopen
    cases event with
    | opened => exact hnoted.elim
    | connecting | backedOff | paused | slept | probeFailed | stopRequested => cases hopen
  · intro succeeded hpc _
    rw [← rested_iff_not_hurried hpc hs hstop]
    exact ⟨fun hcall => hcall rfl, fun hrested _ => hrested⟩

/-- In a run every two calls of `avformat_open_input` have a wait of positive length between
them, or a stop was requested before the second, exactly when the reader never calls
straight after a failed probe. -/
theorem paced_iff {schedule : List Action} {t : Reader}
    (hrun : (machine events).exec {} schedule = some t) :
    Lawful PacedLaw t.history ↔ (machine events).Meets Unhurried {} schedule := by
  have hstart : Paced {} ∧ StopRecorded {} := by
    constructor
    · right
      simp [PaceRecord, rested_nil]
    · simp [StopRecorded]
  have hkeep : ∀ s a s', Paced s ∧ StopRecorded s → (machine events).step s a = some s' →
      Paced s' ∧ StopRecorded s' := by
    intro s a s' ⟨hpaced, hstop⟩ hstep
    have hmoves := step_moves hstep
    exact ⟨paced_moves hpaced hmoves, stopRecorded_moves hstop hmoves⟩
  have hlaw : ∀ s a s', Paced s ∧ StopRecorded s → (machine events).step s a = some s' →
      (Lawful PacedLaw s'.history ↔ Lawful PacedLaw s.history ∧ Unhurried s a) := by
    intro s a s' ⟨hpaced, hstop⟩ hstep
    exact lawful_moves_iff hpaced hstop (step_moves hstep)
  rw [Machine.kept_iff_meets hkeep hlaw hstart hrun]
  exact and_iff_right lawful_nil

/-- A camera that accepts the connection, streams nothing that can be probed, and is called
again. -/
def probeSchedule : List Action :=
  [.test, .test, .connect .ok, .connect .ok, .test, .test, .connect .failed,
    .test, .test, .connect .ok, .connect .ok]

/-- A camera that fails once and is called again after a second. -/
def retrySchedule : List Action :=
  [.test, .test, .connect .ok, .connect .failed, .wait true, .test, .connect .ok, .connect .ok]

/-- In the retry every call is paced, and none is made after a failed probe. -/
theorem paced_retry :
    ∃ t, (machine 1).exec {} retrySchedule = some t ∧
      t.history = [.connecting, .opened false 1, .backedOff 1, .opened true 2] ∧
      (Lawful PacedLaw t.history ↔ (machine 1).Meets Unhurried {} retrySchedule) := by
  have hrun : ∃ t, (machine 1).exec {} retrySchedule = some t ∧
      t.history = [.connecting, .opened false 1, .backedOff 1, .opened true 2] :=
    ⟨_, rfl, rfl⟩
  rcases hrun with ⟨t, hexec, hhistory⟩
  exact ⟨t, hexec, hhistory, paced_iff hexec⟩

/-- After the failed probe the camera is called again without a wait. -/
theorem probe_not_paced :
    ∃ t, (machine 1).exec {} probeSchedule = some t ∧
      t.history = [.connecting, .opened true 1, .probeFailed, .connecting, .opened true 1] ∧
      ¬Lawful PacedLaw t.history := by
  have hrun : ∃ t, (machine 1).exec {} probeSchedule = some t ∧
      t.history =
        [.connecting, .opened true 1, .probeFailed, .connecting, .opened true 1] :=
    ⟨_, rfl, rfl⟩
  rcases hrun with ⟨t, hexec, hhistory⟩
  refine ⟨t, hexec, hhistory, fun hlawful => ?_⟩
  rw [hhistory] at hlawful
  have hcall := hlawful [.connecting, .opened true 1, .probeFailed, .connecting]
    (.opened true 1) [] rfl rfl
  rcases hcall with hstop | hrested
  · simp at hstop
  · rcases hrested [.connecting] (.opened true 1) [.probeFailed, .connecting] rfl rfl with
      ⟨wait, hmem, hpos⟩
    simp only [List.mem_cons, List.not_mem_nil, or_false] at hmem
    rcases hmem with heq | heq
    · rw [heq] at hpos
      exact absurd hpos (Nat.lt_irrefl 0)
    · rw [heq] at hpos
      exact absurd hpos (Nat.lt_irrefl 0)

end Reader

end FrameProcessor
