import Mathlib.Algebra.Ring.Nat
import FrameProcessor.Foundations.Fairness
import FrameProcessor.StreamIo.Connecting

/-!
# components/stream_io - A reader that is asked to stop

`stop_all` and `update_streams` join a reader while they hold `manager_mutex_`, so everything
waits for it.  A reader looks at its stop token at the heads of its loops and in the waits
that use the token; the loops that take frames from the decoder and from the sinks do not
look at it, and neither do the two sleeps.

Main results:

- Theorem `Reader.step_windsDown`: what a step can still do once the stop is requested.
- Theorem `Reader.afterStop_bounded`: the reader opens its input at most once more, waits at
  most once more, and sleeps for at most one second.
- Theorem `Reader.run_returns`: in every fair behaviour it returns, if the decoder and the
  sinks run out of frames.
-/

namespace FrameProcessor

namespace Reader

variable {events : Nat} {s s' t : Reader}

/-! ## What is left to do -/

/-- The reader takes frames from the decoder, which it does until there are none. -/
def Decoding (pc : ReaderPc) : Prop :=
  match pc with
  | .receiveFrame | .addFrame | .pull _ => True
  | _ => False

/-- The reader takes frames from the sinks, which it does until there are none. -/
def Flushing (pc : ReaderPc) : Prop :=
  match pc with
  | .flush _ => True
  | _ => False

/-- The calls between a state of a stopped reader and its return, those of the two loops that
take frames counted as one. -/
def stepsLeft (pc : ReaderPc) : Nat :=
  match pc with
  | .returned => 0
  | .outerLoop => 1
  | .connectDone | .reconnectTest | .reconnectSleep => 2
  | .connectLoop => 3
  | .flush _ => 4
  | .allocSleep | .backOff | .pause => 5
  | .readLoop => 6
  | .receiveFrame | .addFrame | .pull _ => 7
  | .sendPacket | .openInput => 8
  | .readFrame | .allocContext => 9
  | .setup .filterGraph => 10
  | .setup .openCodec => 11
  | .setup .codecContext => 12
  | .setup .findDecoder => 13
  | .setup .bestStream => 14
  | .findStreamInfo => 15

theorem decoding_iff {pc : ReaderPc} : Decoding pc ↔ stepsLeft pc = 7 := by
  cases pc with
  | setup stage => cases stage <;> simp [Decoding, stepsLeft]
  | _ => simp [Decoding, stepsLeft]

theorem flushing_iff {pc : ReaderPc} : Flushing pc ↔ stepsLeft pc = 4 := by
  cases pc with
  | setup stage => cases stage <;> simp [Flushing, stepsLeft]
  | _ => simp [Flushing, stepsLeft]

theorem stepsLeft_eq_zero {pc : ReaderPc} (h : stepsLeft pc = 0) : pc = .returned := by
  cases pc with
  | returned => rfl
  | setup stage => cases stage <;> simp [stepsLeft] at h
  | _ => simp [stepsLeft] at h

/-- What a stopped reader may still record from a state on. -/
structure Allowance where
  /-- Calls of `avformat_open_input`. -/
  opens : Nat
  /-- Waits and sleeps that run their full time. -/
  waits : Nat
  /-- Milliseconds in sleeps that a stop does not cut. -/
  slept : Nat

/-- What an event takes from the allowance. -/
def cost (event : ReaderEvent) : Allowance :=
  match event with
  | .opened _ _ => ⟨1, 0, 0⟩
  | .backedOff _ | .paused _ => ⟨0, 1, 0⟩
  | .slept milliseconds => ⟨0, 1, milliseconds⟩
  | _ => ⟨0, 0, 0⟩

/-- What a stopped reader may still do from a point of its loops on. -/
def allowance (pc : ReaderPc) : Allowance :=
  match pc with
  | .allocContext => ⟨1, 1, 1000⟩
  | .openInput => ⟨1, 1, 0⟩
  | .allocSleep => ⟨0, 1, 1000⟩
  | .reconnectSleep => ⟨0, 1, 500⟩
  | .backOff | .pause => ⟨0, 1, 0⟩
  | _ => ⟨0, 0, 0⟩

/-- The calls of `avformat_open_input` in a history. -/
def opens (history : List ReaderEvent) : Nat :=
  (history.map fun event => (cost event).opens).sum

/-- The waits and sleeps in a history. -/
def waits (history : List ReaderEvent) : Nat :=
  (history.map fun event => (cost event).waits).sum

/-- The milliseconds of the sleeps in a history. -/
def slept (history : List ReaderEvent) : Nat :=
  (history.map fun event => (cost event).slept).sum

/-- From `s` to `s'` the reader records what its allowance admits, and begins no new round of
connecting. -/
structure Spends (s s' : Reader) (recorded : List ReaderEvent) : Prop where
  history : s'.history = s.history ++ recorded
  opens_le : opens recorded + (allowance s'.pc).opens ≤ (allowance s.pc).opens
  waits_le : waits recorded + (allowance s'.pc).waits ≤ (allowance s.pc).waits
  slept_le : slept recorded + (allowance s'.pc).slept ≤ (allowance s.pc).slept
  notConnecting : .connecting ∉ recorded

theorem Spends.refl (s : Reader) : Spends s s [] := by
  constructor <;> simp [opens, waits, slept]

theorem Spends.trans {recorded recorded' : List ReaderEvent} (h : Spends s s' recorded)
    (h' : Spends s' t recorded') : Spends s t (recorded ++ recorded') := by
  rcases h with ⟨hhistory, hopens, hwaits, hslept, hconnecting⟩
  rcases h' with ⟨hhistory', hopens', hwaits', hslept', hconnecting'⟩
  constructor
  · rw [hhistory', hhistory, List.append_assoc]
  · simp only [opens, List.map_append, List.sum_append] at *
    omega
  · simp only [waits, List.map_append, List.sum_append] at *
    omega
  · simp only [slept, List.map_append, List.sum_append] at *
    omega
  · simp [hconnecting, hconnecting']

/-- What a step of a stopped reader does: it comes nearer to its return, unless it takes one
of several frames, and records what its allowance admits. -/
structure WindsDown (s s' : Reader) : Prop where
  stopRequested : s'.stopRequested = true
  nearer : stepsLeft s'.pc < stepsLeft s.pc ∨
    (stepsLeft s'.pc = stepsLeft s.pc ∧ (Decoding s.pc ∨ Flushing s.pc))
  spends : ∃ recorded, Spends s s' recorded

/-- A step that records nothing and has no wait before it. -/
theorem WindsDown.of_goto {pc : ReaderPc} {connected healthy : Bool} {retry : Nat}
    (hstop : s.stopRequested = true)
    (hnearer : stepsLeft pc < stepsLeft s.pc ∨
      (stepsLeft pc = stepsLeft s.pc ∧ (Decoding s.pc ∨ Flushing s.pc)))
    (hopens : (allowance pc).opens ≤ (allowance s.pc).opens)
    (hwaits : (allowance pc).waits ≤ (allowance s.pc).waits)
    (hslept : (allowance pc).slept ≤ (allowance s.pc).slept) :
    WindsDown s
      ({ s with connected := connected, streamHealthy := healthy, currentRetry := retry }.goto
        pc) := by
  refine ⟨hstop, hnearer, [], ?_⟩
  constructor <;> simp [opens, waits, slept, goto, hopens, hwaits, hslept]

/-- A step that records one event. -/
theorem WindsDown.of_record {pc : ReaderPc} {connected : Bool} {retry : Nat} {event : ReaderEvent}
    (hstop : s.stopRequested = true) (hnearer : stepsLeft pc < stepsLeft s.pc)
    (hopens : (cost event).opens + (allowance pc).opens ≤ (allowance s.pc).opens)
    (hwaits : (cost event).waits + (allowance pc).waits ≤ (allowance s.pc).waits)
    (hslept : (cost event).slept + (allowance pc).slept ≤ (allowance s.pc).slept)
    (hconnecting : event ≠ .connecting) :
    WindsDown s
      (({ s with connected := connected, currentRetry := retry }.record event).goto pc) := by
  refine ⟨hstop, Or.inl hnearer, [event], ?_⟩
  constructor
  · rfl
  · simpa [opens, goto] using hopens
  · simpa [waits, goto] using hwaits
  · simpa [slept, goto] using hslept
  · simpa using hconnecting.symm

/-! ## Steps of a stopped reader -/

theorem testStep_windsDown (hstop : s.stopRequested = true) (h : s.testStep events = some s') :
    WindsDown s s' := by
  unfold testStep at h
  rw [hstop] at h
  split at h
  case h_8 => cases h
  all_goals
    rename_i hpc
    cases h
    exact .of_goto hstop (by simp [hpc, stepsLeft, Decoding]) (by simp [hpc, allowance])
      (by simp [hpc, allowance]) (by simp [hpc, allowance])

theorem connectStep_windsDown {result : CallResult} (hstop : s.stopRequested = true)
    (h : s.connectStep result = some s') : WindsDown s s' := by
  unfold connectStep at h
  split at h
  case h_3 hpc =>
      cases h
      exact .of_record hstop (by simp [hpc, stepsLeft]) (by simp [hpc, allowance, cost])
        (by simp [hpc, allowance, cost]) (by simp [hpc, allowance, cost]) nofun
  case h_4 hpc =>
      cases h
      split
      · exact .of_record hstop (by simp [hpc, stepsLeft]) (by simp [hpc, allowance, cost])
          (by simp [hpc, allowance, cost]) (by simp [hpc, allowance, cost]) nofun
      · exact .of_record hstop (by simp [hpc, stepsLeft]) (by simp [hpc, allowance, cost])
          (by simp [hpc, allowance, cost]) (by simp [hpc, allowance, cost]) nofun
  case h_6 hpc =>
      cases h
      exact .of_record hstop (by simp [hpc, stepsLeft]) (by simp [hpc, allowance, cost])
        (by simp [hpc, allowance, cost]) (by simp [hpc, allowance, cost]) nofun
  case h_7 => cases h
  all_goals
    rename_i hpc
    cases h
    exact .of_goto hstop (by simp [hpc, stepsLeft]) (by simp [hpc, allowance])
      (by simp [hpc, allowance]) (by simp [hpc, allowance])

theorem streamStep_windsDown {result : CallResult} (hstop : s.stopRequested = true)
    (h : s.streamStep events result = some s') : WindsDown s s' := by
  unfold streamStep at h
  split at h
  case h_1 stage hpc =>
      cases stage <;>
        (cases h
         exact .of_goto hstop (by simp [hpc, stepsLeft]) (by simp [hpc, allowance])
          (by simp [hpc, allowance]) (by simp [hpc, allowance]))
  case h_2 stage hpc =>
      cases h
      exact .of_goto hstop (by cases stage <;> simp [hpc, stepsLeft]) (by simp [hpc, allowance])
        (by simp [hpc, allowance]) (by simp [hpc, allowance])
  case h_19 => cases h
  all_goals
    rename_i hpc
    cases h
    exact .of_goto hstop (by simp [hpc, stepsLeft, Decoding, Flushing]) (by simp [hpc, allowance])
      (by simp [hpc, allowance]) (by simp [hpc, allowance])

theorem waitStep_windsDown {elapsed : Bool} (hstop : s.stopRequested = true)
    (h : s.waitStep elapsed = some s') : WindsDown s s' := by
  unfold waitStep at h
  split at h
  · split at h
    case h_5 => cases h
    all_goals
      rename_i hpc
      cases h
      exact .of_record hstop (by simp [hpc, stepsLeft]) (by simp [hpc, allowance, cost])
        (by simp [hpc, allowance, cost]) (by simp [hpc, allowance, cost]) nofun
  · split at h
    case h_3 => cases h
    all_goals
      rename_i hpc
      cases h
      exact .of_goto hstop (by simp [hpc, stepsLeft]) (by simp [hpc, allowance])
        (by simp [hpc, allowance]) (by simp [hpc, allowance])

/-- Once the stop is requested, every step of the reader winds down. -/
theorem step_windsDown {a : Action} (hstop : s.stopRequested = true) (ha : a ≠ .requestStop)
    (h : (machine events).step s a = some s') : WindsDown s s' := by
  cases a with
  | test => exact testStep_windsDown hstop h
  | connect result => exact connectStep_windsDown hstop h
  | stream result => exact streamStep_windsDown hstop h
  | wait elapsed => exact waitStep_windsDown hstop h
  | requestStop => exact absurd rfl ha

/-- Another request changes nothing but the history. -/
theorem spends_requestStop (s : Reader) :
    Spends s ({ s with stopRequested := true }.record .stopRequested) [.stopRequested] := by
  constructor <;> simp [opens, waits, slept, cost, record]

/-! ## The work after a stop is bounded -/

/-- A run of a stopped reader records what the allowance of its beginning admits. -/
theorem spends_exec {as : List Action} (hstop : s.stopRequested = true)
    (h : (machine events).exec s as = some t) : ∃ recorded, Spends s t recorded := by
  induction as generalizing s with
  | nil =>
      cases h
      exact ⟨[], .refl _⟩
  | cons a as ih =>
      rcases (machine events).exec_cons_eq_some.mp h with ⟨s', hstep, hrest⟩
      by_cases ha : a = .requestStop
      · subst ha
        cases hstep
        rcases ih rfl hrest with ⟨recorded, hspends⟩
        exact ⟨_, (spends_requestStop _).trans hspends⟩
      · have hdown := step_windsDown hstop ha hstep
        rcases hdown.spends with ⟨first, hfirst⟩
        rcases ih hdown.stopRequested hrest with ⟨recorded, hspends⟩
        exact ⟨_, hfirst.trans hspends⟩

theorem allowance_le (pc : ReaderPc) :
    (allowance pc).opens ≤ 1 ∧ (allowance pc).waits ≤ 1 ∧ (allowance pc).slept ≤ 1000 := by
  cases pc <;> simp [allowance]

/-- In every run from any point at which a stop has been requested: the reader calls
`avformat_open_input` at most once more, waits or sleeps through at most once more, for at
most a second where a stop cannot cut it, and never begins to connect again. -/
theorem afterStop_bounded (events : Nat) (s t : Reader) (as : List Action)
    (hstop : s.stopRequested = true) (hrun : (machine events).exec s as = some t) :
    ∃ recorded, t.history = s.history ++ recorded ∧ opens recorded ≤ 1 ∧ waits recorded ≤ 1 ∧
      slept recorded ≤ 1000 ∧ .connecting ∉ recorded := by
  rcases spends_exec hstop hrun with ⟨recorded, hspends⟩
  rcases allowance_le s.pc with ⟨hopens, hwaits, hslept⟩
  refine ⟨recorded, hspends.history, ?_, ?_, ?_, hspends.notConnecting⟩
  · exact (Nat.le_add_right _ _).trans (hspends.opens_le.trans hopens)
  · exact (Nat.le_add_right _ _).trans (hspends.waits_le.trans hwaits)
  · exact (Nat.le_add_right _ _).trans (hspends.slept_le.trans hslept)

/-- A reader stopped while it allocates: the allocation fails, it sleeps and returns. -/
theorem afterStop_bounded_sleep :
    ∃ recorded, ∃ t : Reader,
      (machine 1).exec { pc := .allocContext, stopRequested := true }
        [.connect .failed, .wait true, .test, .test] = some t ∧ t.pc = .returned ∧
      t.history = recorded ∧ opens recorded ≤ 1 ∧ waits recorded ≤ 1 ∧
      slept recorded ≤ 1000 ∧ .connecting ∉ recorded := by
  have hrun : ∃ t : Reader,
      (machine 1).exec { pc := .allocContext, stopRequested := true }
        [.connect .failed, .wait true, .test, .test] = some t ∧ t.pc = .returned :=
    ⟨_, rfl, rfl⟩
  rcases hrun with ⟨t, hrun, hreturned⟩
  rcases afterStop_bounded 1 _ t _ rfl hrun with ⟨recorded, hhistory, hbounds⟩
  exact ⟨recorded, t, hrun, hreturned, by simpa using hhistory, hbounds⟩

/-! ## The thread returns -/

/-- Every action but the stop request belongs to the reader. -/
def owner : Action → Option Unit
  | .requestStop => none
  | _ => some ()

/-- A stop has been requested and the reader is at most so far from its return. -/
def Within (k : Nat) (s : Reader) : Prop :=
  s.stopRequested = true ∧ stepsLeft s.pc ≤ k

/-- A stopped reader does not move away from its return. -/
theorem Within.step {k : Nat} {a : Action} (hs : Within k s)
    (h : (machine events).step s a = some s') : Within k s' := by
  rcases hs with ⟨hstop, hk⟩
  by_cases ha : a = .requestStop
  · subst ha
    cases h
    exact ⟨rfl, hk⟩
  · have hdown := step_windsDown hstop ha h
    refine ⟨hdown.stopRequested, ?_⟩
    rcases hdown.nearer with hless | ⟨heq, -⟩
    · omega
    · omega

/-- Until it has returned, the reader can step: some answer of FFmpeg is always possible. -/
theorem canStep_of_running (events : Nat) (hrunning : s.pc ≠ .returned) :
    (machine events).CanStep owner () s := by
  cases hpc : s.pc with
  | returned => exact absurd hpc hrunning
  | outerLoop =>
      refine .of_isSome .test rfl ?_
      simp only [machine, testStep, hpc]
      split <;> rfl
  | connectLoop =>
      refine .of_isSome .test rfl ?_
      simp only [machine, testStep, hpc]
      split <;> rfl
  | connectDone => exact .of_isSome .test rfl (by simp [machine, testStep, hpc])
  | readLoop =>
      refine .of_isSome .test rfl ?_
      simp only [machine, testStep, hpc]
      split <;> rfl
  | reconnectTest => exact .of_isSome .test rfl (by simp [machine, testStep, hpc])
  | pull left =>
      cases left with
      | zero => exact .of_isSome .test rfl (by simp [machine, testStep, hpc])
      | succ left => exact .of_isSome (.stream .failed) rfl (by simp [machine, streamStep, hpc])
  | flush left =>
      cases left with
      | zero => exact .of_isSome .test rfl (by simp [machine, testStep, hpc])
      | succ left => exact .of_isSome (.stream .failed) rfl (by simp [machine, streamStep, hpc])
  | allocContext | openInput | findStreamInfo =>
      exact .of_isSome (.connect .failed) rfl (by simp [machine, connectStep, hpc])
  | allocSleep | backOff | pause | reconnectSleep =>
      exact .of_isSome (.wait true) rfl (by simp [machine, waitStep, hpc])
  | setup stage => exact .of_isSome (.stream .failed) rfl (by simp [machine, streamStep, hpc])
  | readFrame | sendPacket | receiveFrame | addFrame =>
      exact .of_isSome (.stream .failed) rfl (by simp [machine, streamStep, hpc])

/-- A stopped reader comes to within `k` steps of its return when neither loop that takes
frames lies before that. -/
theorem leadsTo_within {b : Behaviour (machine events)} (hfair : ∀ t, b.Fair owner t)
    {j k : Nat} (hloops : ∀ pc, stepsLeft pc ≤ j → k < stepsLeft pc →
      ¬ Decoding pc ∧ ¬ Flushing pc) :
    b.LeadsTo (Within j) (Within k) := by
  refine Behaviour.leadsTo_of_rank (fun s => stepsLeft s.pc) (fun _ => ()) ?_ ?_ b hfair
  · intro s a s' hs hfar hstep
    refine Or.inr ⟨hs.step hstep, ?_⟩
    by_cases ha : a = .requestStop
    · subst ha
      cases hstep
      exact Or.inr ⟨rfl, rfl, nofun⟩
    · rcases (step_windsDown hs.1 ha hstep).nearer with hless | ⟨-, hloop⟩
      · exact Or.inl hless
      · have hbeyond : k < stepsLeft s.pc := by
          by_contra hnear
          exact hfar ⟨hs.1, Nat.le_of_not_lt hnear⟩
        rcases hloops s.pc hs.2 hbeyond with ⟨hdecoding, hflushing⟩
        exact (hloop.elim hdecoding hflushing).elim
  · intro s hs hfar
    refine canStep_of_running events fun hreturned => hfar ⟨hs.1, ?_⟩
    rw [hreturned]
    exact Nat.zero_le k

/-- A stopped reader that leaves a loop comes nearer to its return. -/
theorem leadsTo_leave {b : Behaviour (machine events)} {Loop : ReaderPc → Prop} {k : Nat}
    (hloop : ∀ pc, Loop pc ↔ stepsLeft pc = k + 1)
    (hends : ∀ i, ∃ j, i ≤ j ∧ ¬ Loop (b.state j).pc) :
    b.LeadsTo (Within (k + 1)) (Within k) := by
  intro i hs
  rcases hends i with ⟨j, hij, hleft⟩
  have hlater : Within (k + 1) (b.state j) :=
    b.invariant (P := Within (k + 1)) (fun _ _ _ hs hstep => hs.step hstep) hij hs
  have hne : stepsLeft (b.state j).pc ≠ k + 1 := fun heq => hleft ((hloop _).mpr heq)
  have hle := hlater.2
  exact ⟨j, hij, hlater.1, by omega⟩

/-- In every fair behaviour a reader that is asked to stop returns, if the decoder runs out of
frames for a packet and the sinks run out of frames. -/
theorem run_returns (events : Nat) (b : Behaviour (machine events)) (hfair : ∀ t, b.Fair owner t)
    (hdecoder : ∀ i, ∃ j, i ≤ j ∧ ¬ Decoding (b.state j).pc)
    (hsinks : ∀ i, ∃ j, i ≤ j ∧ ¬ Flushing (b.state j).pc) :
    b.LeadsTo (fun s => s.stopRequested = true) (fun s => s.pc = .returned) := by
  have hbound : ∀ pc : ReaderPc, stepsLeft pc ≤ 15 := by
    intro pc
    cases pc with
    | setup stage => cases stage <;> simp [stepsLeft]
    | _ => simp [stepsLeft]
  have hstart : b.LeadsTo (fun s => s.stopRequested = true) (Within 15) :=
    .of_imp fun s hstop => ⟨hstop, hbound s.pc⟩
  have hdecode : b.LeadsTo (Within 15) (Within 7) :=
    leadsTo_within hfair fun pc _ hfar => by
      rw [decoding_iff, flushing_iff]
      omega
  have hread : b.LeadsTo (Within 7) (Within 6) :=
    leadsTo_leave (fun pc => decoding_iff) hdecoder
  have hflush : b.LeadsTo (Within 6) (Within 4) :=
    leadsTo_within hfair fun pc hnear hfar => by
      rw [decoding_iff, flushing_iff]
      omega
  have hdrained : b.LeadsTo (Within 4) (Within 3) :=
    leadsTo_leave (fun pc => flushing_iff) hsinks
  have hend : b.LeadsTo (Within 3) (Within 0) :=
    leadsTo_within hfair fun pc hnear hfar => by
      rw [decoding_iff, flushing_iff]
      omega
  have hreturned : b.LeadsTo (Within 0) (fun s => s.pc = .returned) :=
    .of_imp fun s hs => stepsLeft_eq_zero (Nat.le_zero.mp hs.2)
  exact hstart.trans (hdecode.trans (hread.trans (hflush.trans (hdrained.trans
    (hend.trans hreturned)))))

/-- A reader stopped while it decodes: it takes no more frames, flushes one sink and returns. -/
theorem run_returns_decoding :
    ∃ b : Behaviour (machine 1), (b.state 0).pc = .receiveFrame ∧
      (b.state 0).stopRequested = true ∧ ∃ j, (b.state j).pc = .returned := by
  have hrun : ∃ t : Reader,
      (machine 1).exec { pc := .receiveFrame, stopRequested := true }
        [.stream .other, .test, .stream .failed, .test, .test, .test] = some t ∧
      t.pc = .returned :=
    ⟨_, rfl, rfl⟩
  rcases hrun with ⟨t, hrun, hreturned⟩
  have hsettled : ∀ k, ¬ (machine 1).CanStep owner k t := by
    intro k
    rw [Machine.not_canStep_iff]
    intro a hown
    cases a with
    | test => simp [machine, testStep, hreturned]
    | connect result => simp [machine, connectStep, hreturned]
    | stream result => simp [machine, streamStep, hreturned]
    | wait elapsed => cases elapsed <;> simp [machine, waitStep, hreturned]
    | requestStop => cases hown
  rcases Machine.exists_behaviour hrun hsettled with ⟨b, hzero, hend, hfair⟩
  have hlate : ∀ i, (b.state (max i 6)).pc = .returned := by
    intro i
    rw [hend _ (le_max_right i 6)]
    exact hreturned
  have hstop : (b.state 0).stopRequested = true := by rw [hzero]
  have hdecoder : ∀ i, ∃ j, i ≤ j ∧ ¬ Decoding (b.state j).pc := by
    intro i
    refine ⟨max i 6, le_max_left i 6, ?_⟩
    rw [hlate i]
    exact id
  have hsinks : ∀ i, ∃ j, i ≤ j ∧ ¬ Flushing (b.state j).pc := by
    intro i
    refine ⟨max i 6, le_max_left i 6, ?_⟩
    rw [hlate i]
    exact id
  refine ⟨b, by rw [hzero], hstop, ?_⟩
  rcases run_returns 1 b hfair hdecoder hsinks 0 hstop with ⟨j, -, hreturned'⟩
  exact ⟨j, hreturned'⟩

end Reader

end FrameProcessor
