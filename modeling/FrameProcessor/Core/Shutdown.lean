import FrameProcessor.Core.AppLogic

/-!
# core/main - Reloads during the shutdown

The reloader thread belongs to the object declared first, so it is asked to stop only
after every other local has been destroyed.  Until then a change of the configuration
file reaches `update_streams` whatever the main thread is doing: after `stop_all` it
starts reader threads again, and after the destruction of the manager has begun it
runs on a dying object.

Main results:

- Theorem `AppLogic.meets_iff_never_doomed`: the steps of `NoLateReload` are those that
  leave no late reload pending.
- Theorem `AppLogic.ShutdownKept.step`: without one, what `stop_all` and the destructors
  have achieved is kept.
- Theorem `AppLogic.shutdown_kept_of_noLateReload`: the shutdown is not undone in a run all
  of whose steps meet `NoLateReload`, and is undone in every other run that ends.
- Theorem `AppLogic.noLateReload_of_fileUnchanged`: a run in which the file does not change
  meets `NoLateReload`.
-/

namespace FrameProcessor

open Std

namespace AppLogic

/-! ## The property and its condition -/

/-- A configuration without an enabled stream. -/
def NoneEnabled (config : GlobalConfig) : Prop :=
  ∀ cfg ∈ config.streamConfigs, cfg.enabled = false

instance (config : GlobalConfig) : Decidable (NoneEnabled config) :=
  inferInstanceAs (Decidable (∀ cfg ∈ config.streamConfigs, cfg.enabled = false))

/-- No reader thread has been started since `stop_all` returned, and `update_streams` does
not run on a manager whose destruction has begun. -/
structure ShutdownKept (s : AppLogic) : Prop where
  started_eq : ∀ started, s.stoppedAt = some started → s.manager.started = started
  notUpdating : destructionBegun s.main = true → ∀ config, s.reloader ≠ .updating config

/-- The step brings no reload into the shutdown: when `stop_all` runs, the reloader thread
holds no change with an enabled stream; when the destruction of the manager begins it holds
none at all; and it finds none of the kind afterwards. -/
structure NoLateReload (s : AppLogic) (a : Action) : Prop where
  atStopAll : a = .main → s.main = .stopping →
    ∀ config, pending s.reloader = some config → NoneEnabled config
  atDestruction : a = .main → s.main = .workersDestroyed → pending s.reloader = none
  atChange : ∀ parsed new, a = .reloader parsed → s.reloader = .comparing new →
    (s.currentConfig == new) = false → streamsStopped s.main = true →
    destructionBegun s.main = false ∧ NoneEnabled new

/-- A reload is pending that will undo the shutdown. -/
def Doomed (s : AppLogic) : Prop :=
  ∃ config, pending s.reloader = some config ∧ streamsStopped s.main = true ∧
    (destructionBegun s.main = true ∨ ¬ NoneEnabled config)

theorem not_doomed_of_pending {s : AppLogic} (h : pending s.reloader = none) : ¬ Doomed s := by
  rintro ⟨config, hpending, -⟩
  rw [h] at hpending
  cases hpending

/-! ## The condition, step by step -/

/-- The condition on a step of the main thread. -/
theorem noLateReload_main {s : AppLogic} :
    NoLateReload s .main ↔
      (s.main = .stopping → ∀ config, pending s.reloader = some config → NoneEnabled config) ∧
        (s.main = .workersDestroyed → pending s.reloader = none) := by
  constructor
  · intro hlate
    exact ⟨hlate.atStopAll rfl, hlate.atDestruction rfl⟩
  · rintro ⟨hstopAll, hdestruction⟩
    refine ⟨fun _ => hstopAll, fun _ => hdestruction, ?_⟩
    intro parsed new ha
    cases ha

/-- The condition on a step of the reloader thread. -/
theorem noLateReload_reloader {s : AppLogic} {parsed : Option GlobalConfig} :
    NoLateReload s (.reloader parsed) ↔
      ∀ new, s.reloader = .comparing new → (s.currentConfig == new) = false →
        streamsStopped s.main = true → destructionBegun s.main = false ∧ NoneEnabled new := by
  constructor
  · intro hlate new
    exact hlate.atChange parsed new rfl
  · intro hchange
    exact ⟨nofun, nofun, fun _ new _ => hchange new⟩

theorem noLateReload_main_iff {s s' : AppLogic} (hs : ¬ Doomed s) (h : mainStep s = some s') :
    NoLateReload s .main ↔ ¬ Doomed s' := by
  rw [noLateReload_main]
  cases mainStep_moves h with
  | stopAll hpc hfree =>
      simp only [hpc, reduceCtorEq, false_implies, and_true, forall_const]
      constructor
      · rintro hnone ⟨config, hpending, -, hbegun | henabled⟩
        · cases hbegun
        · exact henabled (hnone config hpending)
      · intro hquiet config hpending
        by_contra henabled
        exact hquiet ⟨config, hpending, rfl, Or.inr henabled⟩
  | beginDestruction hpc =>
      simp only [hpc, reduceCtorEq, false_implies, true_and, forall_const]
      constructor
      · exact fun hnone => not_doomed_of_pending hnone
      · intro hquiet
        cases hpending : pending s.reloader with
        | none => rfl
        | some config => exact absurd ⟨config, hpending, rfl, Or.inl rfl⟩ hquiet
  | endDestruction hpc hfree =>
      refine iff_of_true (by simp [hpc]) ?_
      rintro ⟨config, hpending, -, -⟩
      exact hs ⟨config, hpending, by rw [hpc]; rfl, Or.inl (by rw [hpc]; rfl)⟩
  | moveOn main stopRequested hpc hstopped hbegun hreturned =>
      refine iff_of_true ⟨fun hpc' => absurd hpc' hpc.1, fun hpc' => absurd hpc' hpc.2⟩ ?_
      rintro ⟨config, hpending, hstopped', hlate⟩
      exact hs ⟨config, hpending, hstopped ▸ hstopped', hbegun ▸ hlate⟩

theorem noLateReload_reloader_iff {s s' : AppLogic} {parsed : Option GlobalConfig}
    (hs : ¬ Doomed s) (h : reloaderStep parsed s = some s') :
    NoLateReload s (.reloader parsed) ↔ ¬ Doomed s' := by
  rw [noLateReload_reloader]
  cases reloaderStep_moves h with
  | poll reloader hbefore hpending hafter hread =>
      exact iff_of_true (fun new hpc => absurd hpc (hbefore new)) (not_doomed_of_pending hafter)
  | unchanged new hpc heq =>
      refine iff_of_true (fun new' hpc' hne => ?_) (not_doomed_of_pending rfl)
      rw [hpc] at hpc'
      cases hpc'
      rw [heq] at hne
      cases hne
  | change new hpc hne =>
      constructor
      · rintro hchange ⟨config, hpending, hstopped, hlate⟩
        cases hpending
        rcases hchange new hpc hne hstopped with ⟨hbegun, hnone⟩
        rcases hlate with hbegun' | henabled
        · rw [hbegun] at hbegun'
          cases hbegun'
        · exact henabled hnone
      · intro hquiet new' hpc' _ hstopped
        rw [hpc] at hpc'
        cases hpc'
        constructor
        · by_contra hbegun
          exact hquiet ⟨new, rfl, hstopped, Or.inl (by simpa using hbegun)⟩
        · by_contra henabled
          exact hquiet ⟨new, rfl, hstopped, Or.inr henabled⟩
  | call config hpc =>
      refine iff_of_true (fun new hpc' => ?_) ?_
      · rw [hpc] at hpc'
        cases hpc'
      · rintro ⟨config', hpending, hrest⟩
        cases hpending
        exact hs ⟨config, by rw [hpc]; rfl, hrest⟩
  | update config manager hpc hupdate =>
      refine iff_of_true (fun new hpc' => ?_) (not_doomed_of_pending rfl)
      rw [hpc] at hpc'
      cases hpc'

/-- A step meets `NoLateReload` exactly when it leaves no late reload pending. -/
theorem noLateReload_iff {s s' : AppLogic} {a : Action} (hs : ¬ Doomed s)
    (h : machine.step s a = some s') : NoLateReload s a ↔ ¬ Doomed s' := by
  cases a with
  | main => exact noLateReload_main_iff hs h
  | reloader parsed => exact noLateReload_reloader_iff hs h

/-- A run meets `NoLateReload` exactly when no late reload is ever pending. -/
theorem meets_iff_never_doomed {s t : AppLogic} {as : List Action} (hs : ¬ Doomed s)
    (h : machine.exec s as = some t) :
    machine.Meets NoLateReload s as ↔ machine.Always (fun s => ¬ Doomed s) s as := by
  refine Machine.meets_iff_always (I := fun _ => True) ?_ ?_ trivial hs h
  · exact fun _ _ _ _ _ _ _ => trivial
  · exact fun s a s' _ hquiet hstep => noLateReload_iff hquiet hstep

/-! ## The invariant -/

/-- The invariant of a run whose shutdown is kept so far. -/
structure Tracked (s : AppLogic) : Prop where
  consistent : s.manager.Consistent
  threads_eq : streamsStopped s.main = true → s.manager.streamThreads = ∅
  stoppedAt_iff : s.stoppedAt.isSome = streamsStopped s.main
  returned : s.main = .returned → s.reloader = .done

theorem tracked_init {s : AppLogic} (h : machine.init s) : Tracked s := by
  rcases h with ⟨initial, manager, hupdate, rfl⟩
  rcases StreamIoManager.updateStreams_spec StreamIoManager.Consistent.empty
    initial.streamConfigs with ⟨manager', hupdate', hupdated⟩
  have heq : manager' = manager := Option.some.inj (hupdate'.symm.trans hupdate)
  refine ⟨heq ▸ hupdated.consistent, nofun, rfl, nofun⟩

/-- After the streams have stopped a call either starts a thread for a desired
configuration or has none and leaves the tables empty. -/
theorem Tracked.update {s : AppLogic} (hs : Tracked s) {cfgs : List StreamConfig}
    {manager : StreamIoManager} (hupdate : s.manager.updateStreams cfgs = some manager) :
    manager.Consistent ∧ (streamsStopped s.main = true →
      ((∀ cfg ∈ cfgs, cfg.enabled = false) ↔ manager.started = s.manager.started) ∧
      (manager.started = s.manager.started → manager.streamThreads = ∅)) := by
  rcases StreamIoManager.updateStreams_spec hs.consistent cfgs with
    ⟨manager', hupdate', hupdated⟩
  have heq : manager' = manager := Option.some.inj (hupdate'.symm.trans hupdate)
  subst heq
  refine ⟨hupdated.consistent, fun hstopped => ?_⟩
  have hempty := hs.threads_eq hstopped
  have hstarted := hupdated.started_of_empty hempty
  have hnone : StreamIoManager.desiredList cfgs = [] ↔
      manager'.started = s.manager.started := by
    rw [← List.length_eq_zero_iff]
    omega
  rw [← StreamIoManager.desiredList_eq_nil, hnone]
  exact ⟨Iff.rfl, fun hsame => hupdated.threads_of_empty hempty (hnone.mpr hsame)⟩

/-- What a step cannot undo: the number of threads stays what it was when the streams had
stopped, unless a pending call starts one. -/
theorem Tracked.step {s s' : AppLogic} {a : Action} (hs : Tracked s)
    (h : machine.step s a = some s')
    (hkept : streamsStopped s.main = true → s'.manager.started = s.manager.started) :
    Tracked s' := by
  cases a with
  | main =>
      cases mainStep_moves h with
      | stopAll hpc hfree =>
          exact ⟨hs.consistent.stopAll, fun _ => StreamIoManager.stopAll_threads _, rfl, nofun⟩
      | beginDestruction hpc =>
          have hstopped : streamsStopped s.main = true := by
            rw [hpc]
            rfl
          refine ⟨hs.consistent, fun _ => hs.threads_eq hstopped, ?_, nofun⟩
          rw [hs.stoppedAt_iff, hstopped]
          rfl
      | endDestruction hpc hfree =>
          have hstopped : streamsStopped s.main = true := by
            rw [hpc]
            rfl
          refine ⟨hs.consistent.stopAll, fun _ => StreamIoManager.stopAll_threads _, ?_, nofun⟩
          rw [hs.stoppedAt_iff, hstopped]
          rfl
      | moveOn main stopRequested hpc hstopped hbegun hreturned =>
          refine ⟨hs.consistent, fun h => hs.threads_eq (hstopped ▸ h), ?_, hreturned⟩
          rw [hs.stoppedAt_iff, hstopped]
  | reloader parsed =>
      have hrunning := reloaderStep_running h
      have hreturned : s.main ≠ .returned := fun hmain => hrunning (hs.returned hmain)
      cases reloaderStep_moves h with
      | poll | unchanged | change | call =>
          exact ⟨hs.consistent, hs.threads_eq, hs.stoppedAt_iff,
            fun hmain => absurd hmain hreturned⟩
      | update config manager hpc hupdate =>
          rcases hs.update hupdate with ⟨hconsistent, hafter⟩
          exact ⟨hconsistent, fun hstopped => (hafter hstopped).2 (hkept hstopped),
            hs.stoppedAt_iff, fun hmain => absurd hmain hreturned⟩

/-- While the shutdown is kept no thread is started after `stop_all`. -/
theorem Tracked.started_eq {s s' : AppLogic} {a : Action} (hs : Tracked s)
    (h : machine.step s a = some s') (hkept : ShutdownKept s) (hkept' : ShutdownKept s')
    (hstopped : streamsStopped s.main = true) : s'.manager.started = s.manager.started := by
  rcases Option.isSome_iff_exists.mp (hs.stoppedAt_iff.trans hstopped) with ⟨started, hat⟩
  have hat' : s'.stoppedAt = some started := by
    cases a with
    | main =>
        cases mainStep_moves h with
        | stopAll hpc hfree =>
            rw [hpc] at hstopped
            cases hstopped
        | beginDestruction | endDestruction | moveOn => exact hat
    | reloader parsed =>
        cases reloaderStep_moves h with
        | poll | unchanged | change | call | update => exact hat
  rw [hkept.started_eq started hat, hkept'.started_eq started hat']

/-- Without a late reload the shutdown stays kept. -/
theorem ShutdownKept.step {s s' : AppLogic} {a : Action} (hkept : ShutdownKept s)
    (hs : Tracked s) (hquiet : ¬ Doomed s) (h : machine.step s a = some s')
    (hquiet' : ¬ Doomed s') : ShutdownKept s' := by
  cases a with
  | main =>
      cases mainStep_moves h with
      | stopAll hpc hfree =>
          refine ⟨fun started hat => ?_, nofun⟩
          cases hat
          exact StreamIoManager.stopAll_started _
      | beginDestruction hpc =>
          refine ⟨hkept.started_eq, fun _ config hupdating => ?_⟩
          refine hquiet' ⟨config, ?_, rfl, Or.inl rfl⟩
          exact congrArg pending hupdating
      | endDestruction hpc hfree =>
          refine ⟨fun started hat => ?_, fun _ => hkept.notUpdating (by rw [hpc]; rfl)⟩
          rw [← hkept.started_eq started hat]
          exact StreamIoManager.stopAll_started _
      | moveOn main stopRequested hpc hstopped hbegun hreturned =>
          exact ⟨hkept.started_eq, fun hbegun' => hkept.notUpdating (hbegun ▸ hbegun')⟩
  | reloader parsed =>
      cases reloaderStep_moves h with
      | poll reloader hbefore hpending hafter hread =>
          refine ⟨hkept.started_eq, fun _ config hupdating => ?_⟩
          have hnone : pending reloader = some config := congrArg pending hupdating
          rw [hafter] at hnone
          cases hnone
      | unchanged | change =>
          exact ⟨hkept.started_eq, fun _ _ hupdating => by cases hupdating⟩
      | call config hpc =>
          refine ⟨hkept.started_eq, fun hbegun _ _ => hquiet' ⟨config, rfl, ?_, Or.inl hbegun⟩⟩
          exact streamsStopped_of_begun hbegun
      | update config manager hpc hupdate =>
          refine ⟨fun started hat => ?_, fun _ _ hupdating => by cases hupdating⟩
          have hstopped : streamsStopped s.main = true := by
            rw [← hs.stoppedAt_iff, show s.stoppedAt = some started from hat]
            rfl
          have hnone : NoneEnabled config := by
            by_contra henabled
            exact hquiet ⟨config, by rw [hpc]; rfl, hstopped, Or.inr henabled⟩
          rw [← hkept.started_eq started hat]
          exact ((hs.update hupdate).2 hstopped).1.mp hnone

/-- A pending late reload stays pending until it undoes the shutdown. -/
theorem Doomed.step {s s' : AppLogic} {a : Action} (hdoomed : Doomed s) (hs : Tracked s)
    (hkept : ShutdownKept s) (h : machine.step s a = some s') (hkept' : ShutdownKept s') :
    Doomed s' := by
  rcases hdoomed with ⟨config, hpending, hstopped, hlate⟩
  have hstarted := hs.started_eq h hkept hkept' hstopped
  cases a with
  | main =>
      cases mainStep_moves h with
      | stopAll hpc hfree =>
          rw [hpc] at hstopped
          cases hstopped
      | beginDestruction hpc => exact ⟨config, hpending, rfl, Or.inl rfl⟩
      | endDestruction hpc hfree => exact ⟨config, hpending, rfl, Or.inl rfl⟩
      | moveOn main stopRequested hpc hsame hbegun hreturned =>
          exact ⟨config, hpending, hsame.trans hstopped, by rwa [hbegun]⟩
  | reloader parsed =>
      cases reloaderStep_moves h with
      | poll reloader hbefore hnone hafter hread =>
          rw [hnone] at hpending
          cases hpending
      | unchanged new hpc heq | change new hpc hne =>
          rw [hpc] at hpending
          cases hpending
      | call config' hpc =>
          rw [hpc] at hpending
          cases hpending
          exact ⟨config, rfl, hstopped, hlate⟩
      | update config' manager hpc hupdate =>
          rw [hpc] at hpending
          cases hpending
          rcases hlate with hbegun | henabled
          · exact absurd hpc (hkept.notUpdating hbegun config)
          · exact absurd (((hs.update hupdate).2 hstopped).1.mpr hstarted) henabled

/-! ## Whole runs -/

/-- For every run: when no step brings a reload into the shutdown, no reader thread is
started after `stop_all` and no call runs on a dying manager, in any state of the run.  When
some step does and the run goes on until `app_logic` has returned, one of the two happens. -/
theorem shutdown_kept_of_noLateReload {s t : AppLogic} {as : List Action}
    (hinit : machine.init s) (h : machine.exec s as = some t) :
    (machine.Meets NoLateReload s as → machine.Always ShutdownKept s as) ∧
      (t.main = .returned → machine.Always ShutdownKept s as →
        machine.Meets NoLateReload s as) := by
  have hs := tracked_init hinit
  have hloop : s.reloader = .loopHead ∧ s.stoppedAt = none := by
    rcases hinit with ⟨_, _, _, rfl⟩
    exact ⟨rfl, rfl⟩
  have hquiet : ¬ Doomed s := not_doomed_of_pending (by rw [hloop.1]; rfl)
  have hkept : ShutdownKept s := by
    refine ⟨fun started hat => ?_, fun _ config hupdating => ?_⟩
    · rw [hloop.2] at hat
      cases hat
    · rw [hloop.1] at hupdating
      cases hupdating
  rw [meets_iff_never_doomed hquiet h]
  constructor
  · intro hnever
    refine (hnever.invariant (I := fun s => Tracked s ∧ ShutdownKept s) ?_ ⟨hs, hkept⟩).mono
      fun s hs => hs.2.2
    rintro s a s' ⟨hs, hkept⟩ hquiet hstep hquiet'
    have hkept' := hkept.step hs hquiet hstep hquiet'
    exact ⟨hs.step hstep (hs.started_eq hstep hkept hkept'), hkept'⟩
  · intro hreturned halways
    have hstep : ∀ s a s', Tracked s → ShutdownKept s → machine.step s a = some s' →
        ShutdownKept s' → Tracked s' := fun s a s' hs hkept hstep hkept' =>
      hs.step hstep (hs.started_eq hstep hkept hkept')
    have hdone : t.reloader = .done := ((halways.invariant hstep hs).last h).2.returned hreturned
    refine Machine.Always.never_of_persists hstep ?_ halways hs h ?_
    · intro s a s' hs hkept hdoomed hstep hkept'
      exact hdoomed.step hs hkept hstep hkept'
    · exact not_doomed_of_pending (by rw [hdone]; rfl)

/-! ## A file that does not change -/

/-- If the reloader thread reads the file now, it finds `config` or nothing it can parse. -/
def FileUnchanged (config : GlobalConfig) (a : Action) : Prop :=
  ∀ new, a = .reloader (some new) → (config == new) = true

/-- As long as the file does not change, no reload can come too late. -/
theorem noLateReload_of_fileUnchanged {s : AppLogic} {as : List Action} (hinit : machine.init s)
    (h : ∀ a ∈ as, FileUnchanged s.currentConfig a) : machine.Meets NoLateReload s as := by
  let quiet : AppLogic → Prop := fun s' => s'.currentConfig = s.currentConfig ∧
    pending s'.reloader = none ∧
    ∀ new, s'.reloader = .comparing new → (s.currentConfig == new) = true
  have hquiet : quiet s := by
    rcases hinit with ⟨_, _, _, rfl⟩
    exact ⟨rfl, rfl, fun _ hpc => by cases hpc⟩
  refine Machine.Meets.of_invariant (I := quiet) ?_ ?_ (Machine.meets_of_forall h) hquiet
  · rintro s₁ a s₂ ⟨hconfig, hpending, hcomparing⟩ hfile hstep
    cases a with
    | main =>
        cases mainStep_moves hstep with
        | stopAll | beginDestruction | endDestruction | moveOn =>
            exact ⟨hconfig, hpending, hcomparing⟩
    | reloader parsed =>
        cases reloaderStep_moves hstep with
        | poll reloader hbefore hnone hafter hread =>
            refine ⟨hconfig, hafter, fun new hpc => hfile new ?_⟩
            rw [hread new hpc]
        | unchanged new hpc heq => exact ⟨hconfig, rfl, fun _ hpc' => by cases hpc'⟩
        | change new hpc hne =>
            rw [hconfig, hcomparing new hpc] at hne
            cases hne
        | call config hpc =>
            rw [hpc] at hpending
            cases hpending
        | update config manager hpc hupdate =>
            rw [hpc] at hpending
            cases hpending
  · rintro s₁ a ⟨hconfig, hpending, hcomparing⟩ hfile
    refine ⟨fun _ _ config hconfig' => ?_, fun _ _ => hpending, fun _ new _ hpc hne => ?_⟩
    · rw [hpending] at hconfig'
      cases hconfig'
    · rw [hconfig, hcomparing new hpc] at hne
      cases hne

/-! ## A camera added during the shutdown -/

/-- The configuration with one enabled camera. -/
def oneCamera (id : Int64) : GlobalConfig where
  streamConfigs :=
    [{ id := id, url := "rtsp://a", targetFps := 1, waitForKeyframe := false, enabled := true }]

/-- `app_logic` as it starts with a configuration without streams. -/
def noCameras : AppLogic where
  manager := {}
  currentConfig := {}

theorem noCameras_init : machine.init noCameras :=
  ⟨{}, {}, rfl, rfl⟩

/-- The reloader thread reads an unchanged file, then `app_logic` shuts down. -/
def quietSchedule : List Action :=
  List.replicate 5 (.reloader (some {})) ++ List.replicate 9 .main ++
    [.reloader none, .main]

/-- Camera 1 is added before `stop_all` and camera 2 afterwards. -/
def lateSchedule : List Action :=
  List.replicate 4 (.reloader (some (oneCamera 1))) ++ [.main, .main] ++
    List.replicate 7 (.reloader (some (oneCamera 2))) ++ List.replicate 5 .main ++
    [.reloader none, .reloader none]

/-- A shutdown with an unchanged file is kept. -/
theorem shutdown_kept_quiet :
    ∃ t, machine.exec noCameras quietSchedule = some t ∧ t.main = .returned ∧
      machine.Always ShutdownKept noCameras quietSchedule := by
  have hrun : ∃ t, machine.exec noCameras quietSchedule = some t ∧ t.main = .returned :=
    ⟨_, rfl, rfl⟩
  rcases hrun with ⟨t, hexec, hreturned⟩
  have hmeets : machine.Meets NoLateReload noCameras quietSchedule := by
    refine noLateReload_of_fileUnchanged noCameras_init fun a ha new hnew => ?_
    subst hnew
    have hsame : new = {} := by simpa [quietSchedule] using ha
    rw [hsame]
    rfl
  exact ⟨t, hexec, hreturned, (shutdown_kept_of_noLateReload noCameras_init hexec).1 hmeets⟩

/-- The first reload starts a reader thread after `stop_all` has returned, the second runs
`update_streams` while `~StreamIoManager` waits for the mutex. -/
theorem shutdown_undone :
    machine.init noCameras ∧ ∃ t, machine.exec noCameras lateSchedule = some t ∧
      t.stoppedAt = some 0 ∧ t.manager.started = 1 ∧
      destructionBegun t.main = true ∧ t.reloader = .updating (oneCamera 2) ∧
      ¬ machine.Always ShutdownKept noCameras lateSchedule := by
  have hrun : ∃ t, machine.exec noCameras lateSchedule = some t ∧
      t.stoppedAt = some 0 ∧ t.manager.started = 1 ∧
      destructionBegun t.main = true ∧ t.reloader = .updating (oneCamera 2) :=
    ⟨_, rfl, rfl, rfl, rfl, rfl⟩
  rcases hrun with ⟨t, hexec, hstopped, hstarted, hbegun, hupdating⟩
  refine ⟨noCameras_init, t, hexec, hstopped, hstarted, hbegun, hupdating, fun halways => ?_⟩
  exact (halways.last hexec).notUpdating hbegun _ hupdating

end AppLogic

end FrameProcessor
