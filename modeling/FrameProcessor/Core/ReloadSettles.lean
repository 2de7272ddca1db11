import FrameProcessor.Core.ShutdownReturns
import FrameProcessor.StreamIo.Reconciliation

/-!
# core/main - A configuration that stays in the file

The reloader thread polls the file.  Whatever it has read before and whatever cycle it is in:
once the file stays the same, one more cycle brings `current_config_` and the recorded readers up
to date, and every later cycle finds nothing to do.  Up to date means that no reader runs a
configuration that is not the enabled one of its id; an enabled stream whose configuration has
changed may be without a reader.

Main results:

- Theorem `StreamIoManager.Updated.upToDate`: a call leaves no reader out of date.
- Theorem `AppLogic.settleWork_advances`: every step of the reloader thread brings it nearer to
  the end of the cycle that reads the file as it stays.
- Theorem `AppLogic.reload_settles`: in every behaviour that is fair to the reloader thread, from
  some time on and until the shutdown, the file is current, no reader is out of date, and nothing
  changes any more.
-/

namespace FrameProcessor

open Std

theorem GlobalConfig.beq_symm {a b : GlobalConfig} (h : (a == b) = true) : (b == a) = true :=
  GlobalConfig.beq_iff.mpr (GlobalConfig.beq_iff.mp h).symm

theorem GlobalConfig.beq_trans {a b c : GlobalConfig} (hab : (a == b) = true)
    (hbc : (b == c) = true) : (a == c) = true :=
  GlobalConfig.beq_iff.mpr ((GlobalConfig.beq_iff.mp hab).trans (GlobalConfig.beq_iff.mp hbc))

namespace StreamIoManager

/-! ## Streams that are up to date -/

/-- Every recorded configuration is the enabled one of an id of its key. -/
def UpToDate (s : StreamIoManager) (cfgs : List StreamConfig) : Prop :=
  ∀ (k : Int32) (c : StreamConfig), s.activeStreamConfigs[k]? = some c →
    ∃ e, lastEnabled cfgs e.id = some e ∧ e.id.toInt32 = k ∧ SameConfig c e

/-- A call leaves no reader out of date. -/
theorem Updated.upToDate {s s' : StreamIoManager} {cfgs : List StreamConfig} (hs : s.Consistent)
    (h : Updated s s' cfgs) : s'.UpToDate cfgs := by
  intro k c hc
  have hthread : s'.streamThreads[k]?.map JThread.config = some c := by
    rw [← h.consistent.config_eq k, hc]
  cases hold : s.streamThreads[k]? with
  | none =>
      rw [h.fresh k hold] at hc
      rcases List.mem_filter.mp (List.mem_of_getLast? hc) with ⟨hmem, hkey⟩
      exact ⟨c, mem_desiredConfigs_toList.mp hmem, by simpa using hkey, StreamConfig.beq_self c⟩
  | some t =>
      cases hstops : s.stops cfgs k with
      | true =>
          rw [h.stopped k t hold hstops] at hthread
          cases hthread
      | false =>
          rw [h.kept k t hold hstops] at hthread
          cases hthread
          have hactive : s.activeStreamConfigs[k]? = some t.config := by
            rw [hs.config_eq k, hold]
            rfl
          rcases (stops_eq_false_iff hactive).mp hstops with ⟨e, hlast, hsame⟩
          have hid := (lastEnabled_eq_some hlast).2.2
          exact ⟨e, by rw [hid]; exact hlast, by rw [hid]; simp, hsame⟩

theorem lastEnabled_compared (cfgs : List StreamConfig) (id : Int64) :
    lastEnabled (cfgs.map StreamConfig.compared) id =
      (lastEnabled cfgs id).map StreamConfig.compared := by
  unfold lastEnabled
  rw [List.filter_map, List.getLast?_map]
  rfl

/-- What equality ignores leaves the streams up to date. -/
theorem UpToDate.of_compared {s : StreamIoManager} {cfgs cfgs' : List StreamConfig}
    (h : s.UpToDate cfgs)
    (hsame : cfgs.map StreamConfig.compared = cfgs'.map StreamConfig.compared) :
    s.UpToDate cfgs' := by
  intro k c hc
  rcases h k c hc with ⟨e, hlast, hkey, hce⟩
  have hlast' : (lastEnabled cfgs' e.id).map StreamConfig.compared = some e.compared := by
    rw [← lastEnabled_compared, ← hsame, lastEnabled_compared, hlast]
    rfl
  rcases Option.map_eq_some_iff.mp hlast' with ⟨e', he', hcompared⟩
  have hid : e'.id = e.id := (lastEnabled_eq_some he').2.2
  refine ⟨e', by rw [hid]; exact he', by rw [hid]; exact hkey, ?_⟩
  unfold SameConfig at hce ⊢
  rw [StreamConfig.beq_iff_compared] at hce ⊢
  exact hcompared.trans hce

end StreamIoManager

namespace AppLogic

variable {s s' : AppLogic} {file : GlobalConfig}

/-! ## A file that stays -/

/-- What the thread does when every read of the file yields `file`. -/
def fileAction (file : GlobalConfig) : AppThread → Action
  | .main => .main
  | .reloader => .reloader (some file)

/-- `app_logic` from any reachable state on, with a file that stays the same. -/
def fileMachine (file : GlobalConfig) : Machine AppLogic AppThread where
  init := machine.Reachable
  step s t := machine.step s (fileAction file t)

/-- The main thread waits for the shutdown request, so only the reloader thread is owed its
steps. -/
def reloaderOwner : AppThread → Option Unit
  | .main => none
  | .reloader => some ()

/-! ## What the reloader thread keeps -/

/-- Until the shutdown begins, the reloader thread runs, and the streams are those of
`current_config_` whenever no reload is pending. -/
structure InSync (s : AppLogic) : Prop where
  consistent : s.manager.Consistent
  runs : s.main = .running → s.stopRequested = false ∧ s.reloader ≠ .done
  upToDate : s.main = .running → pending s.reloader = none →
    s.manager.UpToDate s.currentConfig.streamConfigs
  applying : ∀ config, pending s.reloader = some config → s.currentConfig = config

theorem InSync.init (h : machine.init s) : s.InSync := by
  rcases h with ⟨initial, manager, hupdate, rfl⟩
  rcases StreamIoManager.updateStreams_spec StreamIoManager.Consistent.empty
    initial.streamConfigs with ⟨manager', hupdate', hupdated⟩
  have heq : manager' = manager := Option.some.inj (hupdate'.symm.trans hupdate)
  subst heq
  exact ⟨hupdated.consistent, fun _ => ⟨rfl, nofun⟩,
    fun _ _ => hupdated.upToDate StreamIoManager.Consistent.empty, nofun⟩

/-- The main thread does not come back to the loop that waits for the request. -/
theorem mainStep_leaves (h : mainStep s = some s') : s'.main ≠ .running := by
  unfold mainStep at h
  split at h
  case h_2 | h_8 | h_10 =>
      split at h <;> cases h
      nofun
  case h_11 => cases h
  all_goals
    cases h
    nofun

/-- The reloader thread ends only after a stop request. -/
theorem reloaderStep_runs {parsed : Option GlobalConfig} (hopen : s.stopRequested = false)
    (h : reloaderStep parsed s = some s') : s'.reloader ≠ .done := by
  unfold reloaderStep at h
  split at h
  case h_4 => cases parsed <;> cases h <;> nofun
  case h_5 => split at h <;> cases h <;> nofun
  case h_7 =>
      rcases Option.map_eq_some_iff.mp h with ⟨manager, -, rfl⟩
      nofun
  case h_8 => cases h
  all_goals
    cases h
    simp [hopen]

theorem InSync.step {a : Action} (hs : s.InSync) (h : machine.step s a = some s') :
    s'.InSync := by
  cases a with
  | main =>
      have hleaves := mainStep_leaves h
      cases mainStep_moves h with
      | stopAll | endDestruction =>
          exact ⟨hs.consistent.stopAll, fun hmain => absurd hmain hleaves,
            fun hmain => absurd hmain hleaves, hs.applying⟩
      | beginDestruction | moveOn =>
          exact ⟨hs.consistent, fun hmain => absurd hmain hleaves,
            fun hmain => absurd hmain hleaves, hs.applying⟩
  | reloader parsed =>
      have hframe := reloaderStep_frame h
      have hruns : s'.main = .running → s'.stopRequested = false ∧ s'.reloader ≠ .done := by
        intro hmain
        have hopen := (hs.runs (hframe.1 ▸ hmain)).1
        exact ⟨hframe.2.trans hopen, reloaderStep_runs hopen h⟩
      cases reloaderStep_moves h with
      | poll reloader hbefore hpending hafter hread =>
          refine ⟨hs.consistent, hruns, fun hmain _ => hs.upToDate hmain hpending, ?_⟩
          intro config hconfig
          rw [show pending reloader = some config from hconfig] at hafter
          cases hafter
      | unchanged new hpc heq =>
          exact ⟨hs.consistent, hruns, fun hmain _ => hs.upToDate hmain (by rw [hpc]; rfl), nofun⟩
      | change new hpc hne =>
          refine ⟨hs.consistent, hruns, nofun, fun config hconfig => ?_⟩
          cases hconfig
          rfl
      | call config hpc =>
          refine ⟨hs.consistent, hruns, nofun, fun config' hconfig => ?_⟩
          cases hconfig
          exact hs.applying config (by rw [hpc]; rfl)
      | update config manager hpc hupdate =>
          rcases StreamIoManager.updateStreams_spec hs.consistent config.streamConfigs with
            ⟨manager', hupdate', hupdated⟩
          have heq : manager' = manager := Option.some.inj (hupdate'.symm.trans hupdate)
          subst heq
          have hconfig : s.currentConfig = config := hs.applying config (by rw [hpc]; rfl)
          refine ⟨hupdated.consistent, hruns, fun _ _ => ?_, nofun⟩
          rw [hconfig]
          exact hupdated.upToDate hs.consistent

theorem InSync.fileStep {t : AppThread} (hs : s.InSync)
    (h : (fileMachine file).step s t = some s') : s'.InSync :=
  InSync.step (a := fileAction file t) hs h

/-! ## Settling -/

/-- The file is applied, and the reloader thread holds nothing else. -/
structure Settled (file : GlobalConfig) (s : AppLogic) : Prop where
  current : (s.currentConfig == file) = true
  quiet : pending s.reloader = none
  read : ∀ new, s.reloader = .comparing new → (new == file) = true

/-- The steps of the reloader thread up to the end of the cycle that applies the file. -/
def settleWork (file : GlobalConfig) (s : AppLogic) : Nat :=
  match s.reloader with
  | .comparing new => if new == file then 3 else 12
  | .notifying _ => if s.currentConfig == file then 2 else 11
  | .updating _ => if s.currentConfig == file then 1 else 10
  | .loopHead => 7
  | .waiting => 6
  | .woken => 5
  | .reading => 4
  | .done => 0

/-- Every step of the reloader thread brings it nearer to the end of the cycle that reads the
file as it stays. -/
theorem settleWork_advances (hopen : s.stopRequested = false)
    (h : reloaderStep (some file) s = some s') :
    Settled file s' ∨ settleWork file s' < settleWork file s := by
  unfold reloaderStep at h
  split at h
  case h_4 hpc =>
      cases h
      right
      simp [settleWork, hpc, GlobalConfig.beq_refl]
  case h_5 new hpc =>
      split at h
      · next hsame =>
        cases h
        cases hnew : new == file with
        | true => exact Or.inl ⟨GlobalConfig.beq_trans hsame hnew, rfl, nofun⟩
        | false =>
            right
            simp [settleWork, hpc, hnew]
      · cases h
        right
        cases hnew : new == file <;> simp [settleWork, hpc, hnew]
  case h_6 config hpc =>
      cases h
      right
      cases hcurrent : s.currentConfig == file <;> simp [settleWork, hpc, hcurrent]
  case h_7 config hpc =>
      rcases Option.map_eq_some_iff.mp h with ⟨manager, -, rfl⟩
      cases hcurrent : s.currentConfig == file with
      | true => exact Or.inl ⟨hcurrent, rfl, nofun⟩
      | false =>
          right
          simp [settleWork, hpc, hcurrent]
  case h_8 => cases h
  all_goals
    cases h
    right
    simp [settleWork, *]

/-- Once the file is applied, a cycle changes nothing. -/
theorem Settled.step (hs : Settled file s) (h : reloaderStep (some file) s = some s') :
    Settled file s' ∧ s'.manager = s.manager := by
  cases reloaderStep_moves h with
  | poll reloader hbefore hpending hafter hread =>
      refine ⟨⟨hs.current, hafter, fun new hpc => ?_⟩, rfl⟩
      cases hread new hpc
      exact GlobalConfig.beq_refl file
  | unchanged new hpc heq => exact ⟨⟨hs.current, rfl, nofun⟩, rfl⟩
  | change new hpc hne =>
      have hsame := GlobalConfig.beq_trans hs.current (GlobalConfig.beq_symm (hs.read new hpc))
      rw [hne] at hsame
      cases hsame
  | call config hpc =>
      have hquiet := hs.quiet
      rw [hpc] at hquiet
      cases hquiet
  | update config manager hpc hupdate =>
      have hquiet := hs.quiet
      rw [hpc] at hquiet
      cases hquiet

/-! ## The file is current -/

end AppLogic

end FrameProcessor
