import FrameProcessor.Core.Supervisor
import FrameProcessor.Foundations.Histories

/-!
# core/main - One application child at a time

Every fork of the supervisor but the first replaces a child that it has reaped with an
abnormal status, and every way out of the loop leads through the final wait.

Main results:

- Theorem `Supervisor.forkRecord_moves`: what the history says at each point of the loop.
- Theorem `Supervisor.oneChild`: at most one child is forked and not reaped; a child is
  forked after the previous one was reaped and before a shutdown has been seen; none is
  left when `main` returns.
-/

namespace FrameProcessor

namespace Supervisor

/-! ## What the history must say before a fork -/

/-- The latest child forked is `pid`. -/
def LatestForked (history : List SupervisorEvent) (pid : Int) : Prop :=
  ∃ before since, history = before ++ .forked pid :: since ∧ ∀ other, .forked other ∉ since

/-- The latest child forked has been reaped with an abnormal status, and `since` has
happened since then. -/
def LatestReaped (history since : List SupervisorEvent) : Prop :=
  ∃ before pid status, history = before ++ .reaped pid status :: since ∧
    LatestForked before pid ∧ status.normal = false ∧ ∀ other, .forked other ∉ since

/-- A child is forked before a shutdown has been seen, and after the previous one, if any,
has been reaped with an abnormal status and no shutdown has been seen since then. -/
def ForkLaw (before : List SupervisorEvent) : SupervisorEvent → Prop
  | .forked _ => .tested true ∉ before ∧
      ((∀ pid, .forked pid ∉ before) ∨ ∃ since, LatestReaped before since ∧ .tested false ∈ since)
  | _ => True

/-- `waitpid` fails only on what is not an unreaped child. -/
def WaitpidReliable (s : Supervisor) : Action → Prop
  | .wait .failed =>
      (s.pc = .polling → s.children s.pid = none) ∧
        (s.pc = .finalWait → s.children s.gChildPid = none)
  | _ => True

variable {s s' : Supervisor} {history since : List SupervisorEvent} {event : SupervisorEvent}
  {pid : Int}

theorem latestForked_fork : LatestForked (history ++ [.forked pid]) pid :=
  ⟨history, [], rfl, fun _ => List.not_mem_nil⟩

theorem LatestForked.concat (h : LatestForked history pid)
    (hevent : ∀ other, event ≠ .forked other) :
    LatestForked (history ++ [event]) pid := by
  rcases h with ⟨before, since, rfl, hsince⟩
  refine ⟨before, since ++ [event], by simp, fun other hmem => ?_⟩
  rcases List.mem_append.mp hmem with hmem | hlast
  · exact hsince other hmem
  · exact hevent other (List.mem_singleton.mp hlast).symm

theorem LatestForked.reap {status : ExitStatus} (h : LatestForked history pid)
    (hstatus : status.normal = false) : LatestReaped (history ++ [.reaped pid status]) [] :=
  ⟨history, pid, status, rfl, h, hstatus, fun _ => List.not_mem_nil⟩

theorem LatestReaped.concat (h : LatestReaped history since)
    (hevent : ∀ other, event ≠ .forked other) :
    LatestReaped (history ++ [event]) (since ++ [event]) := by
  rcases h with ⟨before, pid, status, rfl, hforked, hstatus, hsince⟩
  refine ⟨before, pid, status, by simp, hforked, hstatus, fun other hmem => ?_⟩
  rcases List.mem_append.mp hmem with hmem | hlast
  · exact hsince other hmem
  · exact hevent other (List.mem_singleton.mp hlast).symm

/-! ## What it says at each point of the loop -/

def ForkRecord (s : Supervisor) : Prop :=
  match s.pc with
  | .forking => (∀ pid, .forked pid ∉ s.history) ∧ .tested true ∉ s.history
  | .assigning | .loopHead | .polling =>
      LatestForked s.history s.pid ∧ .tested true ∉ s.history
  | .checking => (∃ since, LatestReaped s.history since) ∧ .tested true ∉ s.history
  | .relaunching =>
      (∃ since, LatestReaped s.history since ∧ .tested false ∈ since) ∧ .tested true ∉ s.history
  | _ => True

/-- An event that is neither a fork nor a shutdown seen leaves the record as it is. -/
theorem ForkRecord.record (hs : ForkRecord s) (hfork : ∀ other, event ≠ .forked other)
    (htest : event ≠ .tested true) : ForkRecord (s.record event) := by
  have hunseen : .tested true ∉ s.history → .tested true ∉ (s.record event).history := by
    intro hunseen
    simp [hunseen, htest.symm]
  unfold ForkRecord at hs
  split at hs
  case h_1 hpc =>
      simp only [ForkRecord, record_pc, hpc]
      refine ⟨fun pid => ?_, hunseen hs.2⟩
      simp [hs.1 pid, (hfork pid).symm]
  case h_2 hpc =>
      simp only [ForkRecord, record_pc, hpc]
      exact ⟨hs.1.concat hfork, hunseen hs.2⟩
  case h_3 hpc =>
      simp only [ForkRecord, record_pc, hpc]
      exact ⟨hs.1.concat hfork, hunseen hs.2⟩
  case h_4 hpc =>
      simp only [ForkRecord, record_pc, hpc]
      exact ⟨hs.1.concat hfork, hunseen hs.2⟩
  case h_5 hpc =>
      simp only [ForkRecord, record_pc, hpc]
      rcases hs with ⟨⟨since, hreaped⟩, hseen⟩
      exact ⟨⟨_, hreaped.concat hfork⟩, hunseen hseen⟩
  case h_6 hpc =>
      simp only [ForkRecord, record_pc, hpc]
      rcases hs with ⟨⟨since, hreaped, htested⟩, hseen⟩
      exact ⟨⟨_, hreaped.concat hfork, List.mem_append_left _ htested⟩, hunseen hseen⟩
  case h_7 => simp_all [ForkRecord]

theorem forkRecord_moves {a : Action} (hs : ForkRecord s) (h : Moves s a s') :
    ForkRecord s' := by
  cases h with
  | fork pid hpc hpid =>
      have hunseen : .tested true ∉ s.history := by
        rcases hpc with hpc | hpc <;> simp only [ForkRecord, hpc] at hs <;> exact hs.2
      exact ⟨latestForked_fork, by simp [forked, hunseen]⟩
  | assign hpc =>
      simp only [ForkRecord, hpc] at hs
      exact hs
  | poll hpc hrequest =>
      simp only [ForkRecord, hpc] at hs
      exact ⟨hs.1.concat (by simp), by simp [hs.2]⟩
  | relaunch hpc hrequest =>
      simp only [ForkRecord, hpc] at hs
      rcases hs with ⟨⟨since, hreaped⟩, hunseen⟩
      exact ⟨⟨_, hreaped.concat (by simp), by simp⟩, by simp [hunseen]⟩
  | pollAgain result hpc hresult =>
      simp only [ForkRecord, hpc] at hs
      exact hs
  | reap status hpc hstatus =>
      simp only [ForkRecord, hpc] at hs
      cases hnormal : status.normal with
      | true => trivial
      | false => exact ⟨⟨_, hs.1.reap hnormal⟩, by simp [reaped, hs.2]⟩
  | signal signum hpc hsignum =>
      simp only [parentSignalHandler]
      split
      · exact hs.record (by simp) (by simp)
      · exact hs
  | childExit pid status hrunning => exact hs
  | probe i answer _ _ | probeLast answer _ _ => cases answer <;> trivial
  | forkFails | relaunchFails | shutdownSeen | pollFails | recorded | unrecorded | terminate
  | probesOver | forceKill | finalReap | finalFails | leave => trivial

/-- The only events that the law restricts are the forks. -/
theorem forkLaw_of_ne (hevent : ∀ other, event ≠ .forked other) : ForkLaw history event := by
  cases event with
  | forked pid => exact absurd rfl (hevent pid)
  | reaped | tested | killed => trivial

theorem lawful_moves {a : Action} (hrecord : ForkRecord s) (hs : Lawful ForkLaw s.history)
    (h : Moves s a s') : Lawful ForkLaw s'.history := by
  have hother : ∀ event : SupervisorEvent, (∀ other, event ≠ .forked other) →
      Lawful ForkLaw (s.history ++ [event]) :=
    fun event hevent => lawful_concat.mpr ⟨hs, forkLaw_of_ne hevent⟩
  cases h with
  | fork pid hpc hpid =>
      have hlaw : ForkLaw s.history (.forked pid) := by
        rcases hpc with hpc | hpc
        · simp only [ForkRecord, hpc] at hrecord
          exact ⟨hrecord.2, Or.inl hrecord.1⟩
        · simp only [ForkRecord, hpc] at hrecord
          exact ⟨hrecord.2, Or.inr hrecord.1⟩
      exact lawful_concat.mpr ⟨hs, hlaw⟩
  | signal signum hpc hsignum =>
      simp only [parentSignalHandler]
      split
      · exact hother _ (by simp)
      · exact hs
  | shutdownSeen | poll | relaunch | reap | terminate | probe | probeLast | forceKill
  | finalReap => exact hother _ (by simp)
  | forkFails | relaunchFails | assign | pollAgain | pollFails | recorded | unrecorded
  | probesOver | finalFails | leave | childExit => exact hs

/-! ## No child is left behind -/

theorem unreaped_subsingleton (hs : Tracked s) : s.children.unreaped.Subsingleton := by
  unfold Tracked at hs
  split at hs
  case h_1 | h_5 | h_6 => simp [hs.1]
  case h_2 | h_3 | h_4 => simp [hs.1]
  case h_7 => exact Set.subsingleton_singleton.anti hs
  case h_8 => exact Set.subsingleton_singleton.anti hs.1

/-- When the cleanup is over, every child has been reaped. -/
def NoneLeft (s : Supervisor) : Prop :=
  s.pc = .leaving ∨ s.pc = .returned → s.children.unreaped = ∅

theorem noneLeft_moves {a : Action} (htracked : Tracked s) (hs : NoneLeft s)
    (hwait : WaitpidReliable s a) (h : Moves s a s') : NoneLeft s' := by
  cases h with
  | forkFails hpc =>
      simp only [Tracked, hpc] at htracked
      exact fun _ => htracked.1
  | unrecorded hpc hpid =>
      simp only [Tracked, hpc] at htracked
      exact absurd htracked.2 hpid
  | finalReap status hpc hstatus =>
      simp only [Tracked, hpc] at htracked
      exact fun _ => Children.unreaped_reap_of_subset htracked.1
  | finalFails hpc =>
      simp only [Tracked, hpc] at htracked
      have hgone : s.gChildPid ∉ s.children.unreaped := by simp [hwait.2 hpc]
      rw [Set.subset_singleton_iff_eq] at htracked
      rcases htracked.1 with hnone | hone
      · exact fun _ => hnone
      · exact absurd (by rw [hone]; rfl) hgone
  | leave hpc => exact fun _ => hs (Or.inl hpc)
  | signal signum hpc hsignum =>
      simp only [parentSignalHandler]
      split <;> exact hs
  | childExit pid status hrunning =>
      intro hover
      have hpid : pid ∈ s.children.unreaped := by simp [hrunning]
      rw [hs hover] at hpid
      exact hpid.elim
  | fork | relaunchFails | assign | shutdownSeen | poll | relaunch | pollAgain | pollFails
  | recorded | terminate | probesOver | forceKill => simp [NoneLeft, forked]
  | reap status _ _ => cases status.normal <;> simp [NoneLeft]
  | probe _ answer _ _ | probeLast answer _ _ => cases answer <;> simp [NoneLeft]

/-- In every run at most one child has been forked and not reaped, and every fork is
allowed by the history before it; no child is left when `main` returns. -/
theorem oneChild {as : List Action} {t : Supervisor} (h : machine.exec {} as = some t)
    (hwait : machine.Meets WaitpidReliable {} as) :
    t.children.unreaped.Subsingleton ∧ Lawful ForkLaw t.history ∧
      (t.pc = .returned → t.children.unreaped = ∅) := by
  have hstart : ForkRecord {} ∧ Lawful ForkLaw ({} : Supervisor).history :=
    ⟨⟨fun _ => List.not_mem_nil, List.not_mem_nil⟩, lawful_nil⟩
  have hlawful : ForkRecord t ∧ Lawful ForkLaw t.history := by
    apply Machine.exec_induction (P := fun s => ForkRecord s ∧ Lawful ForkLaw s.history) _
      hstart h
    rintro s a s' ⟨hrecord, hlaw⟩ hstep
    have hmoves := step_moves hstep
    exact ⟨forkRecord_moves hrecord hmoves, lawful_moves hrecord hlaw hmoves⟩
  have hnone : Tracked t ∧ NoneLeft t := by
    apply Machine.exec_induction_of_meets (P := fun s => Tracked s ∧ NoneLeft s) _
      ⟨tracked_init, fun hover => by simp at hover⟩ hwait h
    rintro s a s' ⟨htracked, hleft⟩ hreliable hstep
    have hmoves := step_moves hstep
    exact ⟨tracked_moves htracked hmoves, noneLeft_moves htracked hleft hreliable hmoves⟩
  exact ⟨unreaped_subsingleton hnone.1, hlawful.2, fun hreturned => hnone.2 (Or.inr hreturned)⟩

/-- The first child fails and is replaced; the second is asked to shut down and does. -/
def restartSchedule : List Action :=
  [.fork (some 7), .main, .main, .wait .running, .main, .childExit 7 (.exited 1),
    .wait .terminated, .main, .fork (some 8), .main, .signal .sigterm,
    .childExit 8 (.exited 0), .main, .main, .main] ++ List.replicate 5 (.probe true) ++
    [.main, .probe true, .main, .wait .terminated, .main]

/-- Two children, one after the other, and none in the end. -/
theorem oneChild_restart :
    ∃ t, machine.exec {} restartSchedule = some t ∧ .forked 7 ∈ t.history ∧
      .forked 8 ∈ t.history ∧ Lawful ForkLaw t.history ∧ t.children.unreaped = ∅ := by
  have hrun : ∃ t, machine.exec {} restartSchedule = some t ∧ t.pc = .returned ∧
      .forked 7 ∈ t.history ∧ .forked 8 ∈ t.history :=
    ⟨_, rfl, rfl, by decide, by decide⟩
  rcases hrun with ⟨t, hexec, hreturned, hfirst, hsecond⟩
  have hreliable : ∀ a ∈ restartSchedule, a ≠ .wait .failed := by
    simp [restartSchedule]
  have hwait : machine.Meets WaitpidReliable {} restartSchedule := by
    apply (Machine.meets_of_forall hreliable).mono
    intro s a ha
    unfold WaitpidReliable
    split
    · exact absurd rfl ha
    · trivial
  have hone := oneChild hexec hwait
  exact ⟨t, hexec, hfirst, hsecond, hone.2.1, hone.2.2 hreturned⟩

end Supervisor

end FrameProcessor
