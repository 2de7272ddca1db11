import FrameProcessor.Core.Shutdown
import FrameProcessor.Foundations.Fairness

/-!
# core/main - The shutdown ends

After the shutdown request the main thread of `app_logic` waits for the reloader thread in
three places: for `manager_mutex_` in `stop_all` and in `~StreamIoManager`, and for the end of
the thread in `~ConfigManager`.  The reloader may take the mutex again between any two reloads,
so the main thread needs a mutex that is handed to it at some time; the wait for the end of
the thread needs the stop request, which only `~ConfigManager` makes.

Main results:

- Theorem `AppLogic.mutexFree_recurs`: every reload gives the mutex back.
- Theorem `AppLogic.shutdownWork_advances`: only the thread that the shutdown waits for brings
  its end nearer, and nothing moves it away.
- Theorem `AppLogic.shutdown_returns`: in every behaviour that is strongly fair to both threads
  and in which no reload reaches a manager whose destruction has begun, `app_logic` returns
  after the shutdown request, whatever the file holds at each reload.
-/

namespace FrameProcessor

namespace AppLogic

variable {s s' : AppLogic}

/-- The two threads. -/
inductive AppThread where
  | main
  | reloader
deriving DecidableEq

def owner : Action → Option AppThread
  | .main => some .main
  | .reloader _ => some .reloader

/-! ## What every run keeps -/

/-- The stop request is made before the reloader thread is joined, and the tables of the
manager are consistent. -/
structure Joinable (s : AppLogic) : Prop where
  consistent : s.manager.Consistent
  requested : s.main = .joiningReloader → s.stopRequested = true

theorem Joinable.init (h : machine.init s) : s.Joinable := by
  rcases h with ⟨initial, manager, hupdate, rfl⟩
  rcases StreamIoManager.updateStreams_spec StreamIoManager.Consistent.empty
    initial.streamConfigs with ⟨manager', hupdate', hupdated⟩
  have heq : manager' = manager := Option.some.inj (hupdate'.symm.trans hupdate)
  exact ⟨heq ▸ hupdated.consistent, nofun⟩

/-- The reloader thread leaves the main thread where it is. -/
theorem reloaderStep_frame {parsed : Option GlobalConfig} (h : reloaderStep parsed s = some s') :
    s'.main = s.main ∧ s'.stopRequested = s.stopRequested := by
  cases reloaderStep_moves h with
  | poll | unchanged | change | call | update => exact ⟨rfl, rfl⟩

theorem Joinable.step {a : Action} (hs : s.Joinable) (h : machine.step s a = some s') :
    s'.Joinable := by
  cases a with
  | main =>
      have hconsistent : s'.manager.Consistent := by
        cases mainStep_moves h with
        | stopAll | endDestruction => exact hs.consistent.stopAll
        | beginDestruction | moveOn => exact hs.consistent
      refine ⟨hconsistent, fun hjoining => ?_⟩
      simp only [machine, mainStep] at h
      split at h
      -- the only step to the join is the one that makes the request
      case h_9 =>
          cases h
          rfl
      case h_2 | h_8 | h_10 =>
          split at h <;> cases h
          cases hjoining
      all_goals
        cases h <;> cases hjoining
  | reloader parsed =>
      rcases reloaderStep_frame h with ⟨hmain, hrequest⟩
      refine ⟨?_, fun hjoining => ?_⟩
      · cases reloaderStep_moves h with
        | poll | unchanged | change | call => exact hs.consistent
        | update config manager hpc hupdate =>
            rcases StreamIoManager.updateStreams_spec hs.consistent config.streamConfigs with
              ⟨manager', hupdate', hupdated⟩
            have heq : manager' = manager := Option.some.inj (hupdate'.symm.trans hupdate)
            exact heq ▸ hupdated.consistent
      · rw [hrequest]
        exact hs.requested (hmain ▸ hjoining)

/-! ## The reloader thread -/

/-- The steps the reloader thread still takes once it has been asked to stop. -/
def reloaderWork (pc : ReloaderPc) : Nat :=
  match pc with
  | .reading => 5
  | .comparing _ => 4
  | .notifying _ => 3
  | .updating _ => 2
  | .waiting => 2
  | .loopHead => 1
  | .woken => 1
  | .done => 0

theorem reloaderWork_lt {parsed : Option GlobalConfig} (hrequest : s.stopRequested = true)
    (h : reloaderStep parsed s = some s') :
    reloaderWork s'.reloader < reloaderWork s.reloader := by
  unfold reloaderStep at h
  split at h
  case h_4 hpc =>
      cases parsed <;> cases h <;> simp [reloaderWork, hpc]
  case h_5 new hpc =>
      split at h <;> cases h <;> simp [reloaderWork, hpc]
  case h_7 config hpc =>
      rcases Option.map_eq_some_iff.mp h with ⟨manager, -, rfl⟩
      simp [reloaderWork, hpc]
  case h_8 => cases h
  all_goals
    cases h
    simp [reloaderWork, *]

/-- The reloader thread is never blocked, whatever the file holds. -/
theorem reloaderStep_isSome (parsed : Option GlobalConfig) (hs : s.manager.Consistent)
    (hrunning : s.reloader ≠ .done) : (reloaderStep parsed s).isSome = true := by
  cases hpc : s.reloader with
  | done => exact absurd hpc hrunning
  | reading => cases parsed <;> simp [reloaderStep, hpc]
  | comparing new =>
      simp only [reloaderStep, hpc]
      split <;> rfl
  | updating config =>
      rcases StreamIoManager.updateStreams_spec hs config.streamConfigs with ⟨manager, hupdate, -⟩
      simp [reloaderStep, hpc, hupdate]
  | loopHead | waiting | woken | notifying => simp [reloaderStep, hpc]

theorem canStep_reloader (hs : s.Joinable) (hrunning : s.reloader ≠ .done) :
    machine.CanStep owner .reloader s :=
  .of_isSome (.reloader none) rfl (reloaderStep_isSome none hs.consistent hrunning)

/-- Every reload gives the mutex back. -/
theorem mutexFree_recurs (b : Behaviour machine) (hfair : ∀ t, b.Fair owner t) :
    b.LeadsTo Joinable (fun s => s.mutexFree = true) := by
  refine Behaviour.leadsTo_of_rank (fun _ => 0) (fun _ => .reloader) ?_ ?_ b hfair
  · intro s a s' hs hheld h
    cases a with
    | main => exact Or.inr ⟨hs.step h, Or.inr ⟨rfl, rfl, by simp [owner]⟩⟩
    | reloader parsed =>
        left
        cases hpc : s.reloader with
        | updating config =>
            simp only [machine, reloaderStep, hpc] at h
            rcases Option.map_eq_some_iff.mp h with ⟨manager, -, rfl⟩
            rfl
        | loopHead | waiting | woken | reading | comparing | notifying | done =>
            simp [mutexFree, hpc] at hheld
  · intro s hs hheld
    refine canStep_reloader hs fun hdone => hheld ?_
    simp [mutexFree, hdone]

/-! ## The main thread -/

/-- The steps up to the join of the reloader thread, and then those of this thread. -/
def shutdownWork (s : AppLogic) : Nat :=
  match s.main with
  | .running => 16
  | .stopping => 15
  | .streamsStopped => 14
  | .workersStopped => 13
  | .publisherStopped => 12
  | .publisherDestroyed => 11
  | .workersDestroyed => 10
  | .destroyingStreams => 9
  | .streamsDestroyed => 8
  | .joiningReloader => reloaderWork s.reloader + 1
  | .returned => 0

/-- The thread whose steps bring the end of `app_logic` nearer. -/
def awaited (s : AppLogic) : AppThread :=
  match s.main, s.reloader with
  | .joiningReloader, .done => .main
  | .joiningReloader, _ => .reloader
  | _, _ => .main

theorem reloaderWork_le (pc : ReloaderPc) : reloaderWork pc ≤ 5 := by
  cases pc <;> simp [reloaderWork]

theorem awaited_of_ne (h : s.main ≠ .joiningReloader) : s.awaited = .main := by
  unfold awaited
  split
  · rfl
  · next hjoining _ => exact absurd hjoining h
  · rfl

theorem mainStep_work (h : mainStep s = some s') : shutdownWork s' < shutdownWork s := by
  unfold mainStep at h
  split at h
  case h_2 hpc | h_8 hpc =>
      split at h <;> cases h
      simp [shutdownWork, hpc]
  case h_9 hpc =>
      cases h
      have hle := reloaderWork_le s.reloader
      simp only [shutdownWork, hpc]
      omega
  case h_10 hpc =>
      split at h <;> cases h
      simp [shutdownWork, hpc]
  case h_11 => cases h
  all_goals
    cases h
    simp [shutdownWork, *]

/-- Only the thread that the shutdown waits for brings its end nearer, and nothing moves it
away. -/
theorem shutdownWork_advances {a : Action} (hs : s.Joinable) (h : machine.step s a = some s') :
    shutdownWork s' < shutdownWork s ∨
      (shutdownWork s' = shutdownWork s ∧ s'.awaited = s.awaited ∧
        owner a ≠ some s.awaited) := by
  cases a with
  | main => exact Or.inl (mainStep_work h)
  | reloader parsed =>
      rcases reloaderStep_frame h with ⟨hmain, -⟩
      by_cases hjoining : s.main = .joiningReloader
      · left
        have hless := reloaderWork_lt (hs.requested hjoining) h
        simp only [shutdownWork, hmain, hjoining]
        omega
      · right
        have hmain' : s'.main ≠ .joiningReloader := hmain ▸ hjoining
        refine ⟨?_, (awaited_of_ne hmain').trans (awaited_of_ne hjoining).symm, ?_⟩
        · unfold shutdownWork
          rw [hmain]
          split
          case h_10 hpc => exact absurd hpc hjoining
          all_goals rfl
        · simp [owner, awaited_of_ne hjoining]

/-- With the mutex free, the awaited thread can step. -/
theorem canStep_awaited (hs : s.Joinable) (hrunning : s.main ≠ .returned)
    (hfree : s.mutexFree = true) : machine.CanStep owner s.awaited s := by
  cases hpc : s.main with
  | joiningReloader =>
      cases hreloader : s.reloader with
      | done =>
          have hawaited : s.awaited = .main := by simp [awaited, hpc, hreloader]
          rw [hawaited]
          exact .of_isSome .main rfl (by simp [machine, mainStep, hpc, hreloader])
      | loopHead | waiting | woken | reading | comparing | notifying | updating =>
          have hawaited : s.awaited = .reloader := by simp [awaited, hpc, hreloader]
          rw [hawaited]
          exact canStep_reloader hs (by simp [hreloader])
  | returned => exact absurd hpc hrunning
  | running | stopping | streamsStopped | workersStopped | publisherStopped
  | publisherDestroyed | workersDestroyed | destroyingStreams | streamsDestroyed =>
      rw [awaited_of_ne (by simp [hpc])]
      exact .of_isSome .main rfl (by simp [machine, mainStep, hpc, hfree])

/-! ## Reloads that reach the manager -/

/-- The step brings no reload to a manager whose destruction has begun: none is pending when it
begins, and no change is found afterwards. -/
structure SparesManager (s : AppLogic) (a : Action) : Prop where
  atDestruction : a = .main → s.main = .workersDestroyed → pending s.reloader = none
  atChange : ∀ parsed new, a = .reloader parsed → s.reloader = .comparing new →
    (s.currentConfig == new) = false → destructionBegun s.main = false

theorem sparesManager_main :
    SparesManager s .main ↔ (s.main = .workersDestroyed → pending s.reloader = none) := by
  constructor
  · exact fun h => h.atDestruction rfl
  · exact fun h => ⟨fun _ => h, nofun⟩

theorem sparesManager_reloader {parsed : Option GlobalConfig} :
    SparesManager s (.reloader parsed) ↔ ∀ new, s.reloader = .comparing new →
      (s.currentConfig == new) = false → destructionBegun s.main = false := by
  constructor
  · exact fun h new => h.atChange parsed new rfl
  · exact fun h => ⟨nofun, fun _ new _ => h new⟩

instance (s : AppLogic) : (a : Action) → Decidable (SparesManager s a)
  | .main => decidable_of_iff' _ sparesManager_main
  | .reloader _ =>
      match hpc : s.reloader with
      | .comparing new =>
          decidable_of_iff ((s.currentConfig == new) = false → destructionBegun s.main = false)
            (by simp [sparesManager_reloader, hpc])
      | .loopHead | .waiting | .woken | .reading | .notifying _ | .updating _ | .done =>
          .isTrue (by simp [sparesManager_reloader, hpc])

/-- A shutdown into which no reload falls is one of these. -/
theorem NoLateReload.sparesManager {a : Action} (h : NoLateReload s a) : SparesManager s a where
  atDestruction := h.atDestruction
  atChange parsed new ha hpc hne := by
    cases hbegun : destructionBegun s.main with
    | false => rfl
    | true =>
        have hkept := (h.atChange parsed new ha hpc hne (streamsStopped_of_begun hbegun)).1
        rw [hbegun] at hkept
        cases hkept

/-- No reload is pending once the destruction of the manager has begun. -/
def Spared (s : AppLogic) : Prop :=
  destructionBegun s.main = true → pending s.reloader = none

theorem Spared.init (h : machine.init s) : s.Spared := by
  rcases h with ⟨initial, manager, -, rfl⟩
  exact nofun

theorem Spared.step {a : Action} (hs : s.Spared) (ha : SparesManager s a)
    (h : machine.step s a = some s') : s'.Spared := by
  intro hbegun'
  cases a with
  | main =>
      cases mainStep_moves h with
      | stopAll => cases hbegun'
      | beginDestruction hpc => exact ha.atDestruction rfl hpc
      | endDestruction hpc =>
          refine hs ?_
          rw [hpc]
          rfl
      | moveOn main stopRequested hpc hstopped hbegun => exact hs (hbegun ▸ hbegun')
  | reloader parsed =>
      cases reloaderStep_moves h with
      | poll reloader hbefore hpending hafter => exact hafter
      | unchanged | update => rfl
      | change new hpc hne =>
          have hbegun : destructionBegun s.main = true := hbegun'
          rw [ha.atChange parsed new rfl hpc hne] at hbegun
          cases hbegun
      | call config hpc =>
          have hpending := hs hbegun'
          rw [hpc] at hpending
          cases hpending

/-! ## The end of app_logic -/

/-- The reloader thread finds camera 1 in the file and starts it, while the main thread is asked to
shut down; it finds nothing new afterwards. -/
def earlySchedule : List Action :=
  [.main] ++ List.replicate 2 (.reloader (some (oneCamera 1))) ++ List.replicate 8 .main ++
    [.reloader none, .main]

end AppLogic

end FrameProcessor
