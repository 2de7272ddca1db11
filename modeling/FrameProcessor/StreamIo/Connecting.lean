import Mathlib.Algebra.Group.Nat.Defs
import FrameProcessor.Foundations.Histories

/-!
# components/stream_io - Connecting and reconnecting

`run_stream` as a machine: the outer loop, the loop that connects, the loop that reads and
the flush.  What the FFmpeg calls return is open, and a stop may be requested between any
two steps.  A wait on the stop token ends early once a stop is requested; `sleep_for` does
not.

The history lists the calls of `avformat_open_input` with the attempt number that is
logged for them, the waits that ran their full time, the streams that could not be probed,
the beginnings of the connect loop and the stop requests.

Main results:

- Theorem `Reader.step_moves`: everything a step can do.
- Theorem `Reader.lawful_history_iff`: what a step must do to keep the history to a law about
  the calls.
- Theorem `Reader.currentRetry_le`: the retry counter stays small in every run.
-/

namespace FrameProcessor

/-- The calls between probing a stream and reading it; each of them returns from
`run_stream` when it fails. -/
inductive SetupStage where
  | bestStream
  | findDecoder
  | codecContext
  | openCodec
  | filterGraph
deriving DecidableEq

/-- The call after a setup call; `none` after the last. -/
def SetupStage.next : SetupStage → Option SetupStage
  | .bestStream => some .findDecoder
  | .findDecoder => some .codecContext
  | .codecContext => some .openCodec
  | .openCodec => some .filterGraph
  | .filterGraph => none

/-- Where a reader is in `run_stream`. -/
inductive ReaderPc where
  /-- `while (!st.stop_requested())` -/
  | outerLoop
  /-- `while (!st.stop_requested() && !connected)` -/
  | connectLoop
  | allocContext
  /-- The sleep after a failed allocation. -/
  | allocSleep
  | openInput
  /-- The wait of `2 ^ current_retry` seconds. -/
  | backOff
  /-- The wait of 30 seconds. -/
  | pause
  /-- The connect loop has been left; about to test the stop request. -/
  | connectDone
  | findStreamInfo
  | setup (stage : SetupStage)
  /-- `while (!st.stop_requested() && stream_healthy)` -/
  | readLoop
  | readFrame
  | sendPacket
  | receiveFrame
  | addFrame
  /-- Pulling filtered frames, with so many events to go. -/
  | pull (events : Nat)
  /-- Flushing the filter graph, with so many events to go. -/
  | flush (events : Nat)
  /-- About to test the stop request before the last sleep. -/
  | reconnectTest
  | reconnectSleep
  | returned
deriving DecidableEq

/-- Setting up, reading and flushing a connected stream. -/
def ReaderPc.inStream : ReaderPc → Bool
  | .setup _ | .readLoop | .readFrame | .sendPacket | .receiveFrame | .addFrame | .pull _
  | .flush _ | .reconnectTest | .reconnectSleep => true
  | _ => false

/-- An entry of the history; the waits are those that ran their full time. -/
inductive ReaderEvent where
  /-- The connect loop begins, with a counter of its own. -/
  | connecting
  /-- A call of `avformat_open_input` has returned; `attempt` is the number logged. -/
  | opened (succeeded : Bool) (attempt : Nat)
  | backedOff (seconds : Nat)
  | paused (seconds : Nat)
  | slept (milliseconds : Nat)
  | probeFailed
  | stopRequested
deriving DecidableEq

/-- What a call returns; `other` is a packet of another stream, or nothing more to take. -/
inductive CallResult where
  | ok
  | other
  | failed
deriving DecidableEq

/-- A reader thread in `run_stream`. -/
structure Reader where
  pc : ReaderPc := .outerLoop
  currentRetry : Nat := 0
  connected : Bool := false
  streamHealthy : Bool := true
  stopRequested : Bool := false
  history : List ReaderEvent := []

namespace Reader

/-- `max_retries` -/
def maxRetries : Nat := 5

/-! ## Steps -/

def goto (s : Reader) (pc : ReaderPc) : Reader :=
  { s with pc }

def record (s : Reader) (event : ReaderEvent) : Reader :=
  { s with history := s.history ++ [event] }

/-- The loop tests, and the ends of the loops over the events, of which there are
`events`. -/
def testStep (events : Nat) (s : Reader) : Option Reader :=
  match s.pc with
  | .outerLoop =>
      if s.stopRequested then some (s.goto .returned)
      else some (({ s with currentRetry := 0, connected := false }.record .connecting).goto
        .connectLoop)
  | .connectLoop =>
      if s.stopRequested || s.connected then some (s.goto .connectDone)
      else some (s.goto .allocContext)
  | .connectDone => some (s.goto (if s.stopRequested then .returned else .findStreamInfo))
  | .readLoop =>
      if s.stopRequested || !s.streamHealthy then some (s.goto (.flush events))
      else some (s.goto .readFrame)
  | .pull 0 => some (s.goto .receiveFrame)
  | .flush 0 => some (s.goto .reconnectTest)
  | .reconnectTest =>
      some (s.goto (if s.stopRequested then .outerLoop else .reconnectSleep))
  | _ => none

/-- A call that connects or probes. -/
def connectStep (result : CallResult) (s : Reader) : Option Reader :=
  match s.pc, result with
  | .allocContext, .ok => some (s.goto .openInput)
  | .allocContext, .failed => some (s.goto .allocSleep)
  | .openInput, .ok =>
      some (({ s with connected := true }.record (.opened true (s.currentRetry + 1))).goto
        .connectLoop)
  | .openInput, .failed =>
      some ((s.record (.opened false (s.currentRetry + 1))).goto
        (if s.currentRetry > maxRetries then .pause else .backOff))
  | .findStreamInfo, .ok => some (s.goto (.setup .bestStream))
  | .findStreamInfo, .failed => some ((s.record .probeFailed).goto .outerLoop)
  | _, _ => none

/-- A call that sets up, reads or flushes; there are `events` sinks. -/
def streamStep (events : Nat) (result : CallResult) (s : Reader) : Option Reader :=
  match s.pc, result with
  | .setup stage, .ok =>
      match stage.next with
      | some stage' => some (s.goto (.setup stage'))
      | none => some ({ s with streamHealthy := true }.goto .readLoop)
  | .setup _, .failed => some (s.goto .returned)
  | .readFrame, .ok => some (s.goto .sendPacket)
  | .readFrame, .other => some (s.goto .readLoop)
  | .readFrame, .failed => some ({ s with streamHealthy := false }.goto .readLoop)
  | .sendPacket, .ok => some (s.goto .receiveFrame)
  | .sendPacket, .failed => some (s.goto .readLoop)
  | .receiveFrame, .ok => some (s.goto .addFrame)
  | .receiveFrame, .other => some (s.goto .readLoop)
  | .receiveFrame, .failed => some ({ s with streamHealthy := false }.goto .readLoop)
  | .addFrame, .ok => some (s.goto (.pull events))
  | .addFrame, .failed => some ({ s with streamHealthy := false }.goto .readLoop)
  | .pull (left + 1), .ok => some (s.goto (.pull (left + 1)))
  | .pull (left + 1), .other | .pull (left + 1), .failed => some (s.goto (.pull left))
  | .flush (left + 1), .ok => some (s.goto (.flush (left + 1)))
  | .flush (left + 1), .other | .flush (left + 1), .failed => some (s.goto (.flush left))
  | _, _ => none

/-- A wait or a sleep ends, after its full time if `elapsed`; only a wait on the stop token
can end before. -/
def waitStep (elapsed : Bool) (s : Reader) : Option Reader :=
  if elapsed then
    match s.pc with
    | .allocSleep => some ((s.record (.slept 1000)).goto .connectLoop)
    | .reconnectSleep => some ((s.record (.slept 500)).goto .outerLoop)
    | .backOff =>
        some (({ s with currentRetry := s.currentRetry + 1 }.record
          (.backedOff (2 ^ s.currentRetry))).goto .connectLoop)
    | .pause => some (({ s with currentRetry := 0 }.record (.paused 30)).goto .connectLoop)
    | _ => none
  else if s.stopRequested then
    match s.pc with
    | .backOff => some ({ s with currentRetry := s.currentRetry + 1 }.goto .connectLoop)
    | .pause => some ({ s with currentRetry := 0 }.goto .connectLoop)
    | _ => none
  else none

/-- The steps of a reader and the request to stop it. -/
inductive Action where
  | test
  | connect (result : CallResult)
  | stream (result : CallResult)
  | wait (elapsed : Bool)
  | requestStop

/-- `run_stream` for a configuration with so many events. -/
def machine (events : Nat) : Machine Reader Action where
  init s := s = {}
  step s
    | .test => s.testStep events
    | .connect result => s.connectStep result
    | .stream result => s.streamStep events result
    | .wait elapsed => s.waitStep elapsed
    | .requestStop => some ({ s with stopRequested := true }.record .stopRequested)

@[simp]
theorem goto_history (s : Reader) (pc : ReaderPc) : (s.goto pc).history = s.history :=
  rfl

@[simp]
theorem goto_stopRequested (s : Reader) (pc : ReaderPc) :
    (s.goto pc).stopRequested = s.stopRequested :=
  rfl

@[simp]
theorem record_history (s : Reader) (event : ReaderEvent) :
    (s.record event).history = s.history ++ [event] :=
  rfl

@[simp]
theorem record_stopRequested (s : Reader) (event : ReaderEvent) :
    (s.record event).stopRequested = s.stopRequested :=
  rfl

/-! ## What a step can do -/

/-- The steps by what they do to the counter, the flags and the history. -/
inductive Moves (s : Reader) (a : Action) : Reader → Prop where
  | requestStop (ha : a = .requestStop) :
      Moves s a ({ s with stopRequested := true }.record .stopRequested)
  | leave (hpc : s.pc = .outerLoop ∨ s.pc = .connectDone) (hstop : s.stopRequested = true) :
      Moves s a (s.goto .returned)
  | enter (hpc : s.pc = .outerLoop) (hstop : s.stopRequested = false) :
      Moves s a (({ s with currentRetry := 0, connected := false }.record .connecting).goto
        .connectLoop)
  | attempt (hpc : s.pc = .connectLoop) (hstop : s.stopRequested = false)
      (hconnected : s.connected = false) : Moves s a (s.goto .allocContext)
  | connectOver (hpc : s.pc = .connectLoop)
      (hover : s.stopRequested = true ∨ s.connected = true) : Moves s a (s.goto .connectDone)
  | probe (hpc : s.pc = .connectDone) : Moves s a (s.goto .findStreamInfo)
  | allocated (hpc : s.pc = .allocContext) : Moves s a (s.goto .openInput)
  | allocFailed (hpc : s.pc = .allocContext) : Moves s a (s.goto .allocSleep)
  | allocSlept (hpc : s.pc = .allocSleep) :
      Moves s a ((s.record (.slept 1000)).goto .connectLoop)
  | opened (ha : a = .connect .ok) (hpc : s.pc = .openInput) :
      Moves s a (({ s with connected := true }.record (.opened true (s.currentRetry + 1))).goto
        .connectLoop)
  | openFailed (ha : a = .connect .failed) (hpc : s.pc = .openInput)
      (hretry : s.currentRetry ≤ maxRetries) :
      Moves s a ((s.record (.opened false (s.currentRetry + 1))).goto .backOff)
  | retriesSpent (ha : a = .connect .failed) (hpc : s.pc = .openInput)
      (hretry : maxRetries < s.currentRetry) :
      Moves s a ((s.record (.opened false (s.currentRetry + 1))).goto .pause)
  | backedOff (hpc : s.pc = .backOff) :
      Moves s a (({ s with currentRetry := s.currentRetry + 1 }.record
        (.backedOff (2 ^ s.currentRetry))).goto .connectLoop)
  | backOffCut (hpc : s.pc = .backOff) (hstop : s.stopRequested = true) :
      Moves s a ({ s with currentRetry := s.currentRetry + 1 }.goto .connectLoop)
  | paused (hpc : s.pc = .pause) :
      Moves s a (({ s with currentRetry := 0 }.record (.paused 30)).goto .connectLoop)
  | pauseCut (hpc : s.pc = .pause) (hstop : s.stopRequested = true) :
      Moves s a ({ s with currentRetry := 0 }.goto .connectLoop)
  | probeFailed (hpc : s.pc = .findStreamInfo) :
      Moves s a ((s.record .probeFailed).goto .outerLoop)
  | stream (pc : ReaderPc) (healthy : Bool)
      (hpc : s.pc = .findStreamInfo ∨ s.pc.inStream = true)
      (hpc' : pc = .returned ∨ pc.inStream = true) :
      Moves s a ({ s with streamHealthy := healthy }.goto pc)
  | reconnectStopped (hpc : s.pc = .reconnectTest) (hstop : s.stopRequested = true) :
      Moves s a (s.goto .outerLoop)
  | reconnectSlept (hpc : s.pc = .reconnectSleep) :
      Moves s a ((s.record (.slept 500)).goto .outerLoop)

variable {events : Nat} {s s' : Reader}

theorem testStep_moves (h : s.testStep events = some s') : Moves s .test s' := by
  unfold testStep at h
  split at h
  case h_1 hpc =>
      split at h
      · next hstop =>
        cases h
        exact .leave (Or.inl hpc) hstop
      · next hstop =>
        cases h
        exact .enter hpc (by simpa using hstop)
  case h_2 hpc =>
      split at h
      · next hover =>
        cases h
        exact .connectOver hpc (by simpa using hover)
      · next hon =>
        cases h
        have hboth : s.stopRequested = false ∧ s.connected = false := by simpa using hon
        exact .attempt hpc hboth.1 hboth.2
  case h_3 hpc =>
      cases h
      split
      · next hstop => exact .leave (Or.inr hpc) hstop
      · exact .probe hpc
  case h_4 hpc =>
      split at h
      · cases h
        exact .stream (.flush events) s.streamHealthy (Or.inr (by rw [hpc]; rfl)) (Or.inr rfl)
      · cases h
        exact .stream .readFrame s.streamHealthy (Or.inr (by rw [hpc]; rfl)) (Or.inr rfl)
  case h_5 hpc =>
      cases h
      exact .stream .receiveFrame s.streamHealthy (Or.inr (by rw [hpc]; rfl)) (Or.inr rfl)
  case h_6 hpc =>
      cases h
      exact .stream .reconnectTest s.streamHealthy (Or.inr (by rw [hpc]; rfl)) (Or.inr rfl)
  case h_7 hpc =>
      cases h
      split
      · next hstop => exact .reconnectStopped hpc hstop
      · exact .stream .reconnectSleep s.streamHealthy (Or.inr (by rw [hpc]; rfl)) (Or.inr rfl)
  case h_8 => cases h

theorem connectStep_moves {result : CallResult} (h : s.connectStep result = some s') :
    Moves s (.connect result) s' := by
  unfold connectStep at h
  split at h
  case h_1 hpc =>
      cases h
      exact .allocated hpc
  case h_2 hpc =>
      cases h
      exact .allocFailed hpc
  case h_3 hpc =>
      cases h
      exact .opened rfl hpc
  case h_4 hpc =>
      cases h
      split
      · next hretry => exact .retriesSpent rfl hpc hretry
      · next hretry => exact .openFailed rfl hpc (Nat.not_lt.mp hretry)
  case h_5 hpc =>
      cases h
      exact .stream (.setup .bestStream) s.streamHealthy (Or.inl hpc) (Or.inr rfl)
  case h_6 hpc =>
      cases h
      exact .probeFailed hpc
  case h_7 => cases h

/-- A call on a connected stream moves within the part that sets up, reads and flushes. -/
theorem streamStep_moves {result : CallResult} (h : s.streamStep events result = some s') :
    Moves s (.stream result) s' := by
  have hmove : ∀ (pc : ReaderPc) (healthy : Bool), s.pc.inStream = true →
      (pc = .returned ∨ pc.inStream = true) →
      some ({ s with streamHealthy := healthy }.goto pc) = some s' →
      Moves s (.stream result) s' := by
    intro pc healthy hpc hpc' heq
    cases heq
    exact .stream pc healthy (Or.inr hpc) hpc'
  unfold streamStep at h
  split at h
  case h_1 stage hpc =>
      have hin : s.pc.inStream = true := by rw [hpc]; rfl
      split at h
      · next stage' _ => exact hmove (.setup stage') s.streamHealthy hin (Or.inr rfl) h
      · exact hmove .readLoop true hin (Or.inr rfl) h
  case h_2 stage hpc =>
      exact hmove .returned s.streamHealthy (by rw [hpc]; rfl) (Or.inl rfl) h
  case h_19 => cases h
  all_goals
    rename_i hpc
    cases h
    exact .stream _ _ (Or.inr (by rw [hpc]; rfl)) (Or.inr rfl)

theorem waitStep_moves {elapsed : Bool} (h : s.waitStep elapsed = some s') :
    Moves s (.wait elapsed) s' := by
  unfold waitStep at h
  split at h
  · split at h
    case h_1 hpc =>
        cases h
        exact .allocSlept hpc
    case h_2 hpc =>
        cases h
        exact .reconnectSlept hpc
    case h_3 hpc =>
        cases h
        exact .backedOff hpc
    case h_4 hpc =>
        cases h
        exact .paused hpc
    case h_5 => cases h
  · split at h
    · next hstop =>
      split at h
      case h_1 hpc =>
          cases h
          exact .backOffCut hpc hstop
      case h_2 hpc =>
          cases h
          exact .pauseCut hpc hstop
      case h_3 => cases h
    · cases h

/-- Everything a step can do. -/
theorem step_moves {a : Action} (h : (machine events).step s a = some s') : Moves s a s' := by
  cases a with
  | test => exact testStep_moves h
  | connect result => exact connectStep_moves h
  | stream result => exact streamStep_moves h
  | wait elapsed => exact waitStep_moves h
  | requestStop =>
      cases h
      exact .requestStop rfl

/-! ## What a step adds to the history -/

/-- The action is a call of `avformat_open_input` that returns. -/
def Calling (s : Reader) (a : Action) : Prop :=
  s.pc = .openInput ∧ ∃ result, a = .connect result

/-- What an event other than a call says about the step that records it. -/
def Noted (s : Reader) (event : ReaderEvent) : Prop :=
  match event with
  | .opened _ _ => False
  | .backedOff seconds => s.pc = .backOff ∧ seconds = 2 ^ s.currentRetry
  | .paused seconds => s.pc = .pause ∧ seconds = 30
  | .connecting | .slept _ | .probeFailed | .stopRequested => True

/-- A call adds itself to the history, any other step at most another event. -/
theorem moves_history {a : Action} (h : Moves s a s') :
    (Calling s a ∧
      ∃ succeeded, s'.history = s.history ++ [.opened succeeded (s.currentRetry + 1)]) ∨
    (¬Calling s a ∧
      (s'.history = s.history ∨ ∃ event, s'.history = s.history ++ [event] ∧ Noted s event)) := by
  have hfree : s.pc ≠ .openInput → ¬Calling s a := fun hne hcalling => hne hcalling.1
  cases h with
  | opened ha hpc => exact Or.inl ⟨⟨hpc, _, ha⟩, _, rfl⟩
  | openFailed ha hpc | retriesSpent ha hpc => exact Or.inl ⟨⟨hpc, _, ha⟩, _, rfl⟩
  | requestStop ha =>
      refine Or.inr ⟨?_, Or.inr ⟨_, rfl, trivial⟩⟩
      intro ⟨_, result, hconnect⟩
      rw [ha] at hconnect
      cases hconnect
  | enter hpc | allocSlept hpc | probeFailed hpc | reconnectSlept hpc =>
      exact Or.inr ⟨hfree (by rw [hpc]; simp), Or.inr ⟨_, rfl, trivial⟩⟩
  | backedOff hpc | paused hpc =>
      exact Or.inr ⟨hfree (by rw [hpc]; simp), Or.inr ⟨_, rfl, hpc, rfl⟩⟩
  | attempt hpc | connectOver hpc | probe hpc | allocated hpc | allocFailed hpc
  | backOffCut hpc | pauseCut hpc | reconnectStopped hpc =>
      exact Or.inr ⟨hfree (by rw [hpc]; simp), Or.inl rfl⟩
  | leave hpc =>
      refine Or.inr ⟨hfree fun heq => ?_, Or.inl rfl⟩
      simp [heq] at hpc
  | stream pc healthy hpc =>
      refine Or.inr ⟨hfree fun heq => ?_, Or.inl rfl⟩
      simp [heq, ReaderPc.inStream] at hpc

/-- When every event but a call keeps to the law, and a call exactly under a condition, then
a step keeps the history lawful exactly when it is no call or meets the condition. -/
theorem lawful_history_iff {law : List ReaderEvent → ReaderEvent → Prop} {condition : Prop}
    {a : Action} (h : Moves s a s')
    (hnoted : ∀ event, Noted s event → Lawful law s.history → law s.history event)
    (hcall : ∀ succeeded, s.pc = .openInput → Lawful law s.history →
      (law s.history (.opened succeeded (s.currentRetry + 1)) ↔ condition)) :
    Lawful law s'.history ↔
      Lawful law s.history ∧
        ∀ result, a = .connect result → s.pc = .openInput → condition := by
  rcases moves_history h with ⟨⟨hpc, result, ha⟩, succeeded, hhistory⟩ |
    ⟨hfree, hsame | ⟨event, hhistory, hevent⟩⟩
  · rw [hhistory, lawful_concat, and_congr_right_iff]
    intro hlaw
    rw [hcall succeeded hpc hlaw]
    exact ⟨fun hcondition _ _ _ => hcondition, fun hguard => hguard result ha hpc⟩
  · rw [hsame, iff_self_and]
    exact fun _ result ha hpc => absurd ⟨hpc, result, ha⟩ hfree
  · rw [hhistory, lawful_concat, and_congr_right_iff]
    intro hlaw
    exact iff_of_true (hnoted event hevent hlaw)
      fun result ha hpc => absurd ⟨hpc, result, ha⟩ hfree

/-! ## The retry counter -/

/-- The counter exceeds the limit by at most one, and only while the next call or the pause
is due. -/
def RetryBounded (s : Reader) : Prop :=
  s.currentRetry ≤ maxRetries + 1 ∧ (s.pc = .backOff → s.currentRetry ≤ maxRetries)

theorem retryBounded_moves {a : Action} (hs : RetryBounded s) (h : Moves s a s') :
    RetryBounded s' := by
  cases h with
  | enter | paused | pauseCut => exact ⟨Nat.zero_le _, fun hpc => by cases hpc⟩
  | openFailed ha hpc hretry => exact ⟨hs.1, fun _ => hretry⟩
  | backedOff hpc | backOffCut hpc =>
      exact ⟨Nat.succ_le_succ (hs.2 hpc), fun hpc' => by cases hpc'⟩
  | requestStop => exact hs
  | stream pc healthy hpc hpc' =>
      refine ⟨hs.1, fun hpc'' => ?_⟩
      have hback : pc = .backOff := hpc''
      rcases hpc' with heq | heq
      · rw [hback] at heq
        cases heq
      · rw [hback] at heq
        cases heq
  | leave | attempt | connectOver | probe | allocated | allocFailed | allocSlept | opened
  | retriesSpent | probeFailed | reconnectStopped | reconnectSlept =>
      exact ⟨hs.1, fun hpc => by cases hpc⟩

/-- In every run the counter, an `int` in the source, stays in its range. -/
theorem currentRetry_le {schedule : List Action}
    (hrun : (machine events).exec {} schedule = some s) : s.currentRetry ≤ maxRetries + 1 := by
  have hstart : RetryBounded {} := ⟨Nat.zero_le _, fun hpc => by cases hpc⟩
  have hend : RetryBounded s :=
    Machine.exec_induction (fun _ _ _ hs hstep => retryBounded_moves hs (step_moves hstep))
      hstart hrun
  exact hend.1

end Reader

end FrameProcessor
