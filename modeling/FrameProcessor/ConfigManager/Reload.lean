import Mathlib.Data.List.Chain
import FrameProcessor.ConfigManager.ApiMerge
import FrameProcessor.ConfigManager.Parse
import FrameProcessor.Foundations.Machine

/-!
# components/config_manager - Loading and reloading

`load_initial_config`, `start_reloader` and the reload cycles as one machine.  A cycle
polls the API, which may rewrite the local file, and then reads the file; between any two
steps somebody else may have written it.  The environment decides what the API answers
and how the file operations end; an exception that leaves the cycle ends the run.

Main results:

- Theorem `ConfigManager.reloadStep_moves`: everything a step can do.
- Theorem `ConfigManager.reload_notifications_exact`: the callback has always seen the
  current configuration last, and never two equal ones in a row.
-/

namespace FrameProcessor

/-- Where a `ConfigManager` is in its life. -/
inductive ReloadPhase where
  /-- No configuration has been loaded. -/
  | created
  /-- `load_initial_config` has returned `true`. -/
  | loaded
  /-- The reloader waits for its next cycle. -/
  | waiting
  /-- The reloader has polled the API and is about to read the file. -/
  | polled
deriving DecidableEq

/-- The shared state of a `ConfigManager`, with the configurations its callback has been
invoked with and the last one that was parsed. -/
structure Reloader where
  phase : ReloadPhase := .created
  currentConfig : GlobalConfig := {}
  /-- Whether `on_update_callback_` is not empty. -/
  hasCallback : Bool := false
  files : ConfigManager.ConfigFiles := ⟨none, none⟩
  notified : List GlobalConfig := []
  lastParsed : Option GlobalConfig := none

namespace ConfigManager

/-! ## Steps -/

/-- What happens between and during the cycles. -/
inductive ReloadAction where
  /-- Somebody writes, replaces or removes the configuration file. -/
  | edit (config : Option Bytes)
  | loadInitialConfig
  | startReloader (hasCallback : Bool)
  /-- The first part of a cycle; `none` when there is no API or the fetch fails. -/
  | poll (response : Option (Bytes × FileOps))
  /-- The rest of the cycle. -/
  | check

/-- `ConfigManager::load_initial_config`. -/
def loadInitialConfig (self : ConfigManager) (lib : Simdjson) (s : Reloader) : Reloader :=
  match self.parseConfigJson lib s.files.config with
  | none => s
  | some initialConfig =>
      { s with
        phase := .loaded
        currentConfig := initialConfig
        lastParsed := some initialConfig }

/-- `ConfigManager::start_reloader`; the thread it starts waits first. -/
def startReloader (hasCallback : Bool) (s : Reloader) : Reloader :=
  { s with
    phase := .waiting
    hasCallback
    notified := if hasCallback then s.notified ++ [s.currentConfig] else s.notified }

/-- The first part of a cycle of `reloader_loop`; `none` when an exception leaves it. -/
def poll (lib : Simdjson) (response : Option (Bytes × FileOps)) (s : Reloader) :
    Option Reloader :=
  match response with
  | none => some { s with phase := .polled }
  | some (apiJsonStr, ops) =>
      match updateLocalConfigFromApi lib ops apiJsonStr s.files with
      | (.returned _, files) => some { s with phase := .polled, files }
      | (.threw _, _) => none

/-- The rest of a cycle of `reloader_loop`: read the file and notify about a change. -/
def check (self : ConfigManager) (lib : Simdjson) (s : Reloader) : Reloader :=
  match self.parseConfigJson lib s.files.config with
  | none => { s with phase := .waiting }
  | some newConfig =>
      if s.currentConfig == newConfig then
        { s with phase := .waiting, lastParsed := some newConfig }
      else
        { s with
          phase := .waiting
          currentConfig := newConfig
          lastParsed := some newConfig
          notified := if s.hasCallback then s.notified ++ [newConfig] else s.notified }

/-- A configuration manager from its construction on.  `start_reloader` requires that
`load_initial_config` was called successfully. -/
def reloadMachine (self : ConfigManager) (lib : Simdjson) : Machine Reloader ReloadAction where
  init s := ∃ files, s = { files }
  step s
    | .edit config => some { s with files := { s.files with config } }
    | .loadInitialConfig =>
        match s.phase with
        | .created => some (self.loadInitialConfig lib s)
        | .loaded => some (self.loadInitialConfig lib s)
        | _ => none
    | .startReloader hasCallback =>
        match s.phase with
        | .loaded => some (startReloader hasCallback s)
        | _ => none
    | .poll response =>
        match s.phase with
        | .waiting => poll lib response s
        | _ => none
    | .check =>
        match s.phase with
        | .polled => some (self.check lib s)
        | _ => none

/-! ## What a step can do -/

/-- The reloader has been started. -/
def Started (s : Reloader) : Prop :=
  s.phase = .waiting ∨ s.phase = .polled

/-- What a step does. -/
inductive ReloadMoves (self : ConfigManager) (lib : Simdjson) (s : Reloader) : Reloader → Prop where
  | edit (files : ConfigFiles) : ReloadMoves self lib s { s with files }
  | loadFailed : ReloadMoves self lib s s
  | load (config : GlobalConfig) (hphase : s.phase = .created ∨ s.phase = .loaded) :
      ReloadMoves self lib s
        { s with phase := .loaded, currentConfig := config, lastParsed := some config }
  | start (hasCallback : Bool) (hphase : s.phase = .loaded) :
      ReloadMoves self lib s (startReloader hasCallback s)
  | poll (files : ConfigFiles) (hphase : s.phase = .waiting) :
      ReloadMoves self lib s { s with phase := .polled, files }
  | failed (hphase : s.phase = .polled) : ReloadMoves self lib s { s with phase := .waiting }
  /-- The file parses to an equal configuration. -/
  | same (config : GlobalConfig) (hphase : s.phase = .polled)
      (hequal : (s.currentConfig == config) = true) :
      ReloadMoves self lib s { s with phase := .waiting, lastParsed := some config }
  /-- The file parses to another configuration. -/
  | update (config : GlobalConfig) (hphase : s.phase = .polled)
      (hdiffers : (s.currentConfig == config) = false) :
      ReloadMoves self lib s
        { s with
          phase := .waiting
          currentConfig := config
          lastParsed := some config
          notified := if s.hasCallback then s.notified ++ [config] else s.notified }

variable {self : ConfigManager} {lib : Simdjson}

theorem loadInitialConfig_moves {s : Reloader} (hphase : s.phase = .created ∨ s.phase = .loaded) :
    ReloadMoves self lib s (self.loadInitialConfig lib s) := by
  unfold loadInitialConfig
  split
  · exact .loadFailed
  · next config _ => exact .load config hphase

theorem check_moves {s : Reloader} (hphase : s.phase = .polled) :
    ReloadMoves self lib s (self.check lib s) := by
  unfold check
  split
  · exact .failed hphase
  · next config _ =>
    split
    · next hequal => exact .same config hphase hequal
    · next hdiffers => exact .update config hphase (by simpa using hdiffers)

theorem poll_moves {response : Option (Bytes × FileOps)} {s s' : Reloader}
    (hphase : s.phase = .waiting) (h : poll lib response s = some s') :
    ReloadMoves self lib s s' := by
  unfold poll at h
  split at h
  · cases h
    exact .poll s.files hphase
  · split at h
    · next files _ =>
      cases h
      exact .poll files hphase
    · cases h

theorem reloadStep_moves {s s' : Reloader} {a : ReloadAction}
    (h : (self.reloadMachine lib).step s a = some s') : ReloadMoves self lib s s' := by
  cases a with
  | edit config =>
      cases h
      exact .edit _
  | loadInitialConfig =>
      simp only [reloadMachine] at h
      split at h
      · next hphase =>
        cases h
        exact loadInitialConfig_moves (Or.inl hphase)
      · next hphase =>
        cases h
        exact loadInitialConfig_moves (Or.inr hphase)
      · cases h
  | startReloader hasCallback =>
      simp only [reloadMachine] at h
      split at h
      · next hphase =>
        cases h
        exact .start hasCallback hphase
      · cases h
  | poll response =>
      simp only [reloadMachine] at h
      split at h
      · next hphase => exact poll_moves hphase h
      · cases h
  | check =>
      simp only [reloadMachine] at h
      split at h
      · next hphase =>
        cases h
        exact check_moves hphase
      · cases h

/-! ## Notifications -/

/-- No two consecutive configurations are `==`. -/
def NeverRepeats (configs : List GlobalConfig) : Prop :=
  configs.IsChain fun a b => (a == b) = false

/-- The shared configuration is the last one parsed, up to `==`, and what the callback has
seen follows it. -/
structure Synchronized (s : Reloader) : Prop where
  parsed : s.phase ≠ .created →
    ∃ config, s.lastParsed = some config ∧ (s.currentConfig == config) = true
  silent : s.phase = .created ∨ s.phase = .loaded → s.notified = []
  last : Started s → s.hasCallback = true → s.notified.getLast? = some s.currentConfig
  distinct : NeverRepeats s.notified

theorem synchronized_init (files : ConfigFiles) : Synchronized { files } where
  parsed h := absurd rfl h
  silent _ := rfl
  last h := by rcases h with h | h <;> cases h
  distinct := List.isChain_nil

/-- A phase change between the two halves of a cycle. -/
theorem Synchronized.cycle {s : Reloader} (h : Synchronized s) (hstarted : Started s)
    {phase : ReloadPhase} (hphase : phase = .waiting ∨ phase = .polled) (files : ConfigFiles) :
    Synchronized { s with phase, files } := by
  have hcreated : s.phase ≠ .created := by
    rcases hstarted with hs | hs <;> simp [hs]
  refine ⟨fun _ => h.parsed hcreated, fun hearly => ?_, fun _ => h.last hstarted, h.distinct⟩
  rcases hphase with rfl | rfl <;> rcases hearly with hearly | hearly <;> cases hearly

theorem Synchronized.step {s s' : Reloader} (h : Synchronized s)
    (hmove : ReloadMoves self lib s s') : Synchronized s' := by
  cases hmove with
  | edit files => exact ⟨h.parsed, h.silent, h.last, h.distinct⟩
  | loadFailed => exact h
  | load config hphase =>
      refine ⟨fun _ => ⟨config, rfl, config.beq_refl⟩, fun _ => h.silent hphase, ?_, h.distinct⟩
      rintro (hstarted | hstarted) <;> cases hstarted
  | start hasCallback hphase =>
      have hnone := h.silent (Or.inr hphase)
      refine ⟨fun _ => h.parsed (by simp [hphase]), ?_, fun _ hcallback => ?_, ?_⟩
      · rintro (hearly | hearly) <;> cases hearly
      · have hcallback : hasCallback = true := hcallback
        simp [startReloader, hcallback]
      · unfold NeverRepeats startReloader
        rw [hnone]
        cases hasCallback with
        | false => exact List.isChain_nil
        | true => exact List.isChain_singleton _
  | poll files hphase => exact h.cycle (Or.inl hphase) (Or.inr rfl) files
  | failed hphase => exact h.cycle (Or.inr hphase) (Or.inl rfl) s.files
  | same config hphase hequal =>
      have hcycle := h.cycle (Or.inr hphase) (Or.inl rfl) s.files
      exact ⟨fun _ => ⟨config, rfl, hequal⟩, hcycle.silent, hcycle.last, hcycle.distinct⟩
  | update config hphase hdiffers =>
      have hlast := h.last (Or.inr hphase)
      refine ⟨fun _ => ⟨config, rfl, config.beq_refl⟩, ?_, fun _ hcallback => ?_, ?_⟩
      · rintro (hearly | hearly) <;> cases hearly
      · have hcallback : s.hasCallback = true := hcallback
        simp [hcallback]
      · cases hcallback : s.hasCallback with
        | false => exact h.distinct
        | true =>
            simp only [if_true]
            rw [NeverRepeats, List.isChain_append]
            refine ⟨h.distinct, List.isChain_singleton _, fun last hsome next hnext => ?_⟩
            -- the last notification was the configuration that has just been replaced
            rw [hlast hcallback] at hsome
            cases hsome
            cases hnext
            exact hdiffers

theorem synchronized_of_reachable {s : Reloader} (h : (self.reloadMachine lib).Reachable s) :
    Synchronized s := by
  refine Machine.reachable_induction ?_ (fun s a s' hs hstep => hs.step (reloadStep_moves hstep)) h
  rintro s ⟨files, rfl⟩
  exact synchronized_init files

/-- In every run of loading, starting and reloading, with any file contents and any API
outcomes that do not throw: the callback has last seen the current configuration, which
equals the last one parsed; a failed parse changes nothing; and no two consecutive
notifications are equal. -/
theorem reload_notifications_exact {s : Reloader} (h : (self.reloadMachine lib).Reachable s)
    (hstarted : Started s) (hcallback : s.hasCallback = true) :
    (∃ last parsed, s.notified.getLast? = some last ∧ (last == s.currentConfig) = true ∧
        s.lastParsed = some parsed ∧ (last == parsed) = true) ∧
      (self.parseConfigJson lib s.files.config = none → ∀ s',
        (self.reloadMachine lib).step s .check = some s' → s' = { s with phase := .waiting }) ∧
      NeverRepeats s.notified := by
  have hsync := synchronized_of_reachable h
  have hcreated : s.phase ≠ .created := by
    rcases hstarted with hs | hs <;> simp [hs]
  refine ⟨?_, ?_, hsync.distinct⟩
  · rcases hsync.parsed hcreated with ⟨parsed, hparsed, hequal⟩
    exact ⟨s.currentConfig, parsed, hsync.last hstarted hcallback, s.currentConfig.beq_refl,
      hparsed, hequal⟩
  · intro hfails s' hstep
    simp only [reloadMachine] at hstep
    split at hstep
    · cases hstep
      simp [check, hfails]
    · cases hstep

/-- A load, a start and two cycles, one with an answer of the API and one on a file that
does not parse. -/
def quietCycles : List ReloadAction :=
  [.loadInitialConfig, .startReloader true, .poll (some (sameStreamsText, .success)), .check,
    .edit none, .poll none, .check]

/-- After these cycles the callback has seen the initial configuration only. -/
theorem reload_notifications_quiet :
    ∃ s, (({} : ConfigManager).reloadMachine sampleLibrary).exec
        { files := ⟨some emptyConfigText, none⟩ } quietCycles = some s ∧
      s.notified = [{}] ∧ NeverRepeats s.notified := by
  have hrun : ∃ s, (({} : ConfigManager).reloadMachine sampleLibrary).exec
      { files := ⟨some emptyConfigText, none⟩ } quietCycles = some s ∧ s.notified = [{}] ∧
        s.phase = .waiting ∧ s.hasCallback = true := ⟨_, rfl, rfl, rfl, rfl⟩
  rcases hrun with ⟨s, hexec, hnotified, hphase, hcallback⟩
  have hreach : (({} : ConfigManager).reloadMachine sampleLibrary).Reachable s :=
    ⟨_, quietCycles, ⟨_, rfl⟩, hexec⟩
  exact ⟨s, hexec, hnotified, (reload_notifications_exact hreach (Or.inl hphase) hcallback).2.2⟩

end ConfigManager

end FrameProcessor
