import FrameProcessor.StreamIo.Manager

/-!
# core/main - The application process

`app_logic` from the start of the reloader thread on: the main thread waits for the
shutdown request, stops the services and destroys its locals in reverse order of
declaration, so the stream manager before the configuration manager that owns the
reloader thread.  The reloader thread wakes up at any time, reads whatever the file
then holds and hands a changed configuration to `StreamIoManager::update_streams`.
`manager_mutex_` is held from `updating` to the end of the call and during `stop_all`.

Main results:

- Theorems `AppLogic.mainStep_moves` and `AppLogic.reloaderStep_moves`: everything the two
  threads can do.
-/

namespace FrameProcessor

open Std

/-- Where the main thread is in `app_logic`. -/
inductive MainPc where
  | running
  /-- In `stream_manager->stop_all()`. -/
  | stopping
  | streamsStopped
  | workersStopped
  | publisherStopped
  | publisherDestroyed
  | workersDestroyed
  /-- In `~StreamIoManager`. -/
  | destroyingStreams
  | streamsDestroyed
  /-- In `~ConfigManager`, after the stop request. -/
  | joiningReloader
  | returned
deriving DecidableEq

/-- Where the reloader thread is in `reloader_loop`. -/
inductive ReloaderPc where
  /-- About to test the stop token. -/
  | loopHead
  /-- In `wait_for`. -/
  | waiting
  /-- About to test the stop token again. -/
  | woken
  /-- About to poll the API and parse the file. -/
  | reading
  /-- Has parsed a configuration. -/
  | comparing (newConfig : GlobalConfig)
  /-- Has found a change, in `update_callback`. -/
  | notifying (config : GlobalConfig)
  /-- In `update_streams`, with `manager_mutex_` held. -/
  | updating (config : GlobalConfig)
  | done

/-- The main thread, the reloader thread and what they share; `stoppedAt` is the number of
reader threads started when `stop_all` returned. -/
structure AppLogic where
  manager : StreamIoManager
  currentConfig : GlobalConfig
  main : MainPc := .running
  reloader : ReloaderPc := .loopHead
  stopRequested : Bool := false
  stoppedAt : Option Nat := none

namespace AppLogic

/-! ## Steps -/

/-- `manager_mutex_` is free. -/
def mutexFree (s : AppLogic) : Bool :=
  match s.reloader with
  | .updating _ => false
  | _ => true

/-- One step of the main thread; `none` while it waits for the mutex or joins. -/
def mainStep (s : AppLogic) : Option AppLogic :=
  match s.main with
  | .running => some { s with main := .stopping }
  | .stopping =>
      if s.mutexFree then
        some { s with
          manager := s.manager.stopAll
          stoppedAt := some s.manager.started
          main := .streamsStopped }
      else none
  | .streamsStopped => some { s with main := .workersStopped }
  | .workersStopped => some { s with main := .publisherStopped }
  | .publisherStopped => some { s with main := .publisherDestroyed }
  | .publisherDestroyed => some { s with main := .workersDestroyed }
  | .workersDestroyed => some { s with main := .destroyingStreams }
  | .destroyingStreams =>
      if s.mutexFree then
        some { s with manager := s.manager.stopAll, main := .streamsDestroyed }
      else none
  | .streamsDestroyed => some { s with stopRequested := true, main := .joiningReloader }
  | .joiningReloader =>
      match s.reloader with
      | .done => some { s with main := .returned }
      | _ => none
  | .returned => none

/-- One step of the reloader thread; `parsed` is what `parse_config_json` makes of the file
if it reads it now. -/
def reloaderStep (parsed : Option GlobalConfig) (s : AppLogic) : Option AppLogic :=
  match s.reloader with
  | .loopHead => some { s with reloader := if s.stopRequested then .done else .waiting }
  | .waiting => some { s with reloader := .woken }
  | .woken => some { s with reloader := if s.stopRequested then .done else .reading }
  | .reading =>
      match parsed with
      | none => some { s with reloader := .loopHead }
      | some newConfig => some { s with reloader := .comparing newConfig }
  | .comparing newConfig =>
      if s.currentConfig == newConfig then some { s with reloader := .loopHead }
      else some { s with currentConfig := newConfig, reloader := .notifying newConfig }
  | .notifying config => some { s with reloader := .updating config }
  | .updating config =>
      (s.manager.updateStreams config.streamConfigs).map fun manager =>
        { s with manager, reloader := .loopHead }
  | .done => none

/-- The steps of the two threads. -/
inductive Action where
  | main
  | reloader (parsed : Option GlobalConfig)

/-- `app_logic` after `start_reloader` has applied the initial configuration. -/
def machine : Machine AppLogic Action where
  init s := ∃ initial manager,
    ({} : StreamIoManager).updateStreams initial.streamConfigs = some manager ∧
      s = { manager, currentConfig := initial }
  step s
    | .main => mainStep s
    | .reloader parsed => reloaderStep parsed s

/-! ## Phases -/

/-- `StreamIoManager::stop_all` has returned. -/
def streamsStopped (pc : MainPc) : Bool :=
  match pc with
  | .running => false
  | .stopping => false
  | _ => true

/-- The destruction of the stream manager has begun. -/
def destructionBegun (pc : MainPc) : Bool :=
  match pc with
  | .destroyingStreams => true
  | .streamsDestroyed => true
  | .joiningReloader => true
  | .returned => true
  | _ => false

/-- The streams are stopped before the manager is destroyed. -/
theorem streamsStopped_of_begun {pc : MainPc} (h : destructionBegun pc = true) :
    streamsStopped pc = true := by
  cases pc <;> first | rfl | cases h

/-- The changed configuration that the reloader thread is about to apply. -/
def pending (pc : ReloaderPc) : Option GlobalConfig :=
  match pc with
  | .notifying config => some config
  | .updating config => some config
  | _ => none

/-- Everything a step of the main thread can do: stop the streams, begin or end the
destruction of the manager, or move on within a phase. -/
inductive MainMoves (s : AppLogic) : AppLogic → Prop where
  | stopAll (hpc : s.main = .stopping) (hfree : s.mutexFree = true) :
      MainMoves s { s with
        manager := s.manager.stopAll
        stoppedAt := some s.manager.started
        main := .streamsStopped }
  | beginDestruction (hpc : s.main = .workersDestroyed) :
      MainMoves s { s with main := .destroyingStreams }
  | endDestruction (hpc : s.main = .destroyingStreams) (hfree : s.mutexFree = true) :
      MainMoves s { s with manager := s.manager.stopAll, main := .streamsDestroyed }
  | moveOn (main : MainPc) (stopRequested : Bool)
      (hpc : s.main ≠ .stopping ∧ s.main ≠ .workersDestroyed)
      (hstopped : streamsStopped main = streamsStopped s.main)
      (hbegun : destructionBegun main = destructionBegun s.main)
      (hreturned : main = .returned → s.reloader = .done) :
      MainMoves s { s with main, stopRequested }

theorem mainStep_moves {s s' : AppLogic} (h : mainStep s = some s') : MainMoves s s' := by
  have hmove : ∀ pc main stopRequested, s.main = pc →
      (pc ≠ .stopping ∧ pc ≠ .workersDestroyed) ∧ streamsStopped main = streamsStopped pc ∧
        destructionBegun main = destructionBegun pc →
      (main = .returned → s.reloader = .done) →
      MainMoves s { s with main, stopRequested } := by
    rintro pc main stopRequested rfl ⟨hpc, hstopped, hbegun⟩ hreturned
    exact MainMoves.moveOn main stopRequested hpc hstopped hbegun hreturned
  unfold mainStep at h
  split at h
  case h_2 hpc =>
      split at h
      · next hfree =>
        cases h
        exact MainMoves.stopAll hpc hfree
      · cases h
  case h_7 hpc =>
      cases h
      exact MainMoves.beginDestruction hpc
  case h_8 hpc =>
      split at h
      · next hfree =>
        cases h
        exact MainMoves.endDestruction hpc hfree
      · cases h
  case h_10 hpc =>
      split at h
      · next hdone =>
        cases h
        exact hmove _ .returned s.stopRequested hpc (by decide) fun _ => hdone
      · cases h
  case h_11 => cases h
  -- the remaining steps only move on
  all_goals
    cases h
    exact hmove _ _ _ ‹_› (by decide) (by simp)

/-- Everything a step of the reloader thread can do, by the call of `update_streams` that it
prepares, makes or finishes. -/
inductive ReloaderMoves (parsed : Option GlobalConfig) (s : AppLogic) : AppLogic → Prop where
  | poll (reloader : ReloaderPc) (hbefore : ∀ new, s.reloader ≠ .comparing new)
      (hpending : pending s.reloader = none) (hafter : pending reloader = none)
      (hread : ∀ new, reloader = .comparing new → parsed = some new) :
      ReloaderMoves parsed s { s with reloader }
  | unchanged (new : GlobalConfig) (hpc : s.reloader = .comparing new)
      (heq : (s.currentConfig == new) = true) :
      ReloaderMoves parsed s { s with reloader := .loopHead }
  | change (new : GlobalConfig) (hpc : s.reloader = .comparing new)
      (hne : (s.currentConfig == new) = false) :
      ReloaderMoves parsed s { s with currentConfig := new, reloader := .notifying new }
  | call (config : GlobalConfig) (hpc : s.reloader = .notifying config) :
      ReloaderMoves parsed s { s with reloader := .updating config }
  | update (config : GlobalConfig) (manager : StreamIoManager)
      (hpc : s.reloader = .updating config)
      (hupdate : s.manager.updateStreams config.streamConfigs = some manager) :
      ReloaderMoves parsed s { s with manager, reloader := .loopHead }

theorem reloaderStep_moves {parsed : Option GlobalConfig} {s s' : AppLogic}
    (h : reloaderStep parsed s = some s') : ReloaderMoves parsed s s' := by
  have hpoll : ∀ pc reloader, s.reloader = pc →
      (∀ new, pc ≠ .comparing new) → pending pc = none → pending reloader = none →
      (∀ new, reloader = .comparing new → parsed = some new) →
      ReloaderMoves parsed s { s with reloader } := by
    rintro pc reloader rfl hbefore hpending hafter hread
    exact ReloaderMoves.poll reloader hbefore hpending hafter hread
  unfold reloaderStep at h
  split at h
  · next hpc =>
    cases h
    exact hpoll _ _ hpc (by simp) rfl (by cases s.stopRequested <;> rfl)
      (by cases s.stopRequested <;> simp)
  · next hpc =>
    cases h
    exact hpoll _ _ hpc (by simp) rfl rfl (by simp)
  · next hpc =>
    cases h
    exact hpoll _ _ hpc (by simp) rfl (by cases s.stopRequested <;> rfl)
      (by cases s.stopRequested <;> simp)
  · next hpc =>
    cases parsed with
    | none =>
        cases h
        exact hpoll _ _ hpc (by simp) rfl rfl (by simp)
    | some new =>
        cases h
        exact hpoll _ _ hpc (by simp) rfl rfl (by simp)
  · next new hpc =>
    split at h
    · next heq =>
      cases h
      exact ReloaderMoves.unchanged new hpc heq
    · next hne =>
      cases h
      exact ReloaderMoves.change new hpc (by simpa using hne)
  · next config hpc =>
    cases h
    exact ReloaderMoves.call config hpc
  · next config hpc =>
    rcases Option.map_eq_some_iff.mp h with ⟨manager, hupdate, rfl⟩
    exact ReloaderMoves.update config manager hpc hupdate
  · cases h

/-- The reloader thread takes no step once its loop has ended. -/
theorem reloaderStep_running {parsed : Option GlobalConfig} {s s' : AppLogic}
    (h : reloaderStep parsed s = some s') : s.reloader ≠ .done := by
  intro hdone
  simp [reloaderStep, hdone] at h

end AppLogic

end FrameProcessor
