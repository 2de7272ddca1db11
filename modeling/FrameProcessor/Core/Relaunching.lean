import FrameProcessor.Core.SupervisorReturns

/-!
# core/main - A dead child is replaced

What the supervisor is for: a child that has terminated abnormally is noticed by the next
`waitpid` and replaced, unless a shutdown is requested in the meantime.  The loop polls with
`WNOHANG`, which no signal interrupts but one that also requests the shutdown.

Main results:

- Theorem `Supervisor.relaunch_advances`: every step of the parent brings the new child nearer.
- Theorem `Supervisor.dead_child_replaced`: in every fair behaviour in which `fork` succeeds, a
  child that has terminated abnormally is followed by a new one or by a shutdown request.
-/

namespace FrameProcessor

namespace Supervisor

variable {s s' : Supervisor}

/-- `fork` succeeds, `waitpid` fails only on what is not an unreaped child, and it is
interrupted only by the signals that request a shutdown. -/
def Healthy (s : Supervisor) : Action → Prop
  | .fork none => False
  | .wait .interrupted => s.gParentShutdownRequest = true
  | a => WaitpidReliable s a

instance (s : Supervisor) (a : Action) : Decidable (Healthy s a) := by
  unfold Healthy
  split <;> infer_instance

/-- The supervisor where `fork` and `waitpid` do what they can. -/
abbrev healthy : Machine Supervisor Action :=
  machine.restrict Healthy

/-- The latest child has terminated abnormally and has not been reaped. -/
def Dead (s : Supervisor) : Prop :=
  ∃ status, s.children s.pid = some (.terminated status) ∧ status.normal = false

/-- Where the parent is between the death of a child and the fork of the next: it reaps the
dead child, or has reaped it. -/
def Abandoned (s : Supervisor) : Prop :=
  match s.pc with
  | .assigning => s.Dead
  | .loopHead => s.Dead
  | .polling => s.Dead
  | .checking => True
  | .relaunching => s.children.unreaped = ∅
  | _ => False

/-- A child has just been forked and runs. -/
def Relaunched (s : Supervisor) : Prop :=
  s.pc = .assigning ∧ s.children s.pid = some .running

/-- The steps the parent takes up to the next fork. -/
def relaunchWork (pc : SupervisorPc) : Nat :=
  match pc with
  | .assigning => 5
  | .loopHead => 4
  | .polling => 3
  | .checking => 2
  | .relaunching => 1
  | _ => 0

/-- A child that has terminated stays dead while others terminate. -/
theorem Dead.childExit {pid : Int} {status : ExitStatus} (hs : s.Dead)
    (hrunning : s.children pid = some .running) :
    Dead { s with children := s.children.exit pid status } := by
  rcases hs with ⟨status', hdead, habnormal⟩
  refine ⟨status', ?_, habnormal⟩
  have hpid : s.pid ≠ pid := by
    rintro rfl
    rw [hdead] at hrunning
    cases hrunning
  simpa [Children.exit, Function.update_of_ne hpid] using hdead

/-- A child that has just been forked runs. -/
theorem relaunched_forked (pid : Int) : Relaunched (s.forked pid) :=
  ⟨rfl, Children.fork_self⟩

/-- Every step of the parent brings the new child nearer, as long as no shutdown is
requested. -/
theorem relaunch_advances {a : Action} (htracked : s.Tracked) (hs : s.Abandoned)
    (hrequest : s.gParentShutdownRequest = false) (hhealthy : Healthy s a)
    (h : machine.step s a = some s') :
    s'.gParentShutdownRequest = true ∨ (∃ pid, s' = s.forked pid) ∨
      (s'.Abandoned ∧ (relaunchWork s'.pc < relaunchWork s.pc ∨
        (s'.pc = s.pc ∧ owner a ≠ some ()))) := by
  cases step_moves h with
  | fork pid hpc hpid => exact Or.inr (Or.inl ⟨pid, rfl⟩)
  | signal signum hpc hsignum =>
      rw [parentSignalHandler_cases]
      exact Or.inl rfl
  | childExit pid status hrunning =>
      refine Or.inr (Or.inr ⟨?_, Or.inr ⟨rfl, nofun⟩⟩)
      unfold Abandoned at hs ⊢
      split at hs
      case h_1 hpc | h_2 hpc | h_3 hpc => simpa only [hpc] using hs.childExit hrunning
      case h_4 hpc => simp only [hpc]
      case h_5 hpc =>
          have hpid : pid ∈ s.children.unreaped := by simp [hrunning]
          rw [hs] at hpid
          exact hpid.elim
      case h_6 => exact hs.elim
  | assign hpc =>
      have hdead : s.Dead := by simpa only [Abandoned, hpc] using hs
      exact Or.inr (Or.inr ⟨hdead, Or.inl (by simp [relaunchWork, hpc])⟩)
  | poll hpc _ =>
      have hdead : s.Dead := by simpa only [Abandoned, hpc] using hs
      exact Or.inr (Or.inr ⟨hdead, Or.inl (by simp [relaunchWork, hpc])⟩)
  | relaunch hpc _ =>
      refine Or.inr (Or.inr ⟨?_, Or.inl (by simp [relaunchWork, hpc])⟩)
      simp only [Tracked, hpc] at htracked
      exact htracked.1
  | pollAgain result hpc hresult =>
      -- the child does not run, and nothing interrupts the call
      simp only [Abandoned, hpc] at hs
      rcases hs with ⟨status, hdead, -⟩
      rcases hresult with rfl | rfl
      · simp only [machine] at h
        unfold waitStep at h
        rw [hpc, hdead] at h
        cases h
      · rw [Healthy, hrequest] at hhealthy
        cases hhealthy
  | reap status hpc hstatus =>
      simp only [Abandoned, hpc] at hs
      rcases hs with ⟨status', hdead, habnormal⟩
      rw [hdead] at hstatus
      cases hstatus
      refine Or.inr (Or.inr ⟨?_, Or.inl ?_⟩)
      · simp [Abandoned, habnormal]
      · simp [relaunchWork, hpc, habnormal]
  | pollFails hpc =>
      simp only [Abandoned, hpc] at hs
      rcases hs with ⟨status, hdead, -⟩
      have hnone : s.children s.pid = none := hhealthy.1 hpc
      rw [hdead] at hnone
      cases hnone
  | shutdownSeen hpc hseen =>
      rw [hrequest] at hseen
      cases hseen
  | relaunchFails => exact absurd hhealthy id
  | forkFails hpc | recorded hpc | unrecorded hpc | terminate hpc | probe _ _ hpc
  | probesOver _ hpc | probeLast _ hpc | forceKill hpc | finalReap _ hpc | finalFails hpc
  | leave hpc => simp [Abandoned, hpc] at hs

/-- Nothing holds the parent up on the way to the next fork. -/
theorem canStep_abandoned (hs : s.Abandoned) : healthy.CanStep owner () s := by
  unfold Abandoned at hs
  split at hs
  case h_1 hpc | h_2 hpc | h_4 hpc =>
      exact .restrict .main rfl trivial (by simp [machine, mainStep, hpc])
  case h_3 hpc =>
      rcases hs with ⟨status, hdead, -⟩
      refine .restrict (.wait .terminated) rfl trivial ?_
      simp only [machine]
      unfold waitStep
      rw [hpc, hdead]
      rfl
  case h_5 hpc =>
      have hfree : s.children 1 = none := Children.not_mem_unreaped.mp (by simp [hs])
      exact .restrict (.fork (some 1)) rfl trivial (by simp [machine, forkStep, hpc, hfree])
  case h_6 => exact hs.elim

/-- The parent follows its children in every state of a behaviour. -/
theorem tracked_state (b : Behaviour healthy) (hstart : healthy.Reachable (b.state 0)) (i : Nat) :
    (b.state i).Tracked := by
  refine Machine.reachable_induction (P := Tracked) ?_ ?_ (b.reachable hstart i)
  · rintro s rfl
    exact tracked_init
  · exact fun s a s' hs hstep => tracked_moves hs (step_moves (Machine.restrict_step.mp hstep).2)

/-- A dead child leads to a fork or to a shutdown request; what every step keeps still holds
when the fork is made. -/
theorem abandoned_leadsTo {P : Supervisor → Prop}
    (hP : ∀ s a s', P s → machine.step s a = some s' → P s') (b : Behaviour healthy)
    (hfair : b.Fair owner ()) :
    b.LeadsTo (fun s => (s.Tracked ∧ s.Abandoned) ∧ P s)
      (fun s => s.gParentShutdownRequest = true ∨ ∃ s₀ pid, P s₀ ∧ s = s₀.forked pid) := by
  refine Behaviour.leadsTo_of_rank (fun s => relaunchWork s.pc) (fun _ => ()) ?_ ?_ b
    (fun _ => hfair)
  · rintro s a s' ⟨⟨hs, habandoned⟩, hkept⟩ hgoal hstep
    rcases Machine.restrict_step.mp hstep with ⟨hhealthy, hstep⟩
    have hrequest : s.gParentShutdownRequest = false := by
      simpa using fun h => hgoal (Or.inl h)
    have hs' := tracked_moves hs (step_moves hstep)
    have hkept' := hP s a s' hkept hstep
    rcases relaunch_advances hs habandoned hrequest hhealthy hstep with
      hasked | ⟨pid, hforked⟩ | ⟨habandoned', hless | ⟨hpc, howner⟩⟩
    · exact Or.inl (Or.inl hasked)
    · exact Or.inl (Or.inr ⟨s, pid, hkept, hforked⟩)
    · exact Or.inr ⟨⟨⟨hs', habandoned'⟩, hkept'⟩, Or.inl hless⟩
    · exact Or.inr ⟨⟨⟨hs', habandoned'⟩, hkept'⟩,
        Or.inr ⟨congrArg relaunchWork hpc, rfl, howner⟩⟩
  · exact fun s hs _ => canStep_abandoned hs.1.2

/-- A dead child that the parent watches has been abandoned. -/
theorem Dead.abandoned (hdead : s.Dead) (hwatched : s.pc ∈ [.assigning, .loopHead, .polling]) :
    s.Abandoned := by
  simp only [List.mem_cons, List.not_mem_nil, or_false] at hwatched
  rcases hwatched with hpc | hpc | hpc <;> simpa only [Abandoned, hpc] using hdead

/-- In every fair behaviour in which `fork` succeeds, a child that has terminated abnormally
while the parent watches it is followed by a new child or by a shutdown request. -/
theorem dead_child_replaced (b : Behaviour healthy) (hstart : healthy.Reachable (b.state 0))
    (hfair : b.Fair owner ()) {i : Nat} (hdead : (b.state i).Dead)
    (hwatched : (b.state i).pc ∈ [.assigning, .loopHead, .polling]) :
    ∃ j, i ≤ j ∧ ((b.state j).gParentShutdownRequest = true ∨ (b.state j).Relaunched) := by
  have hleads := abandoned_leadsTo (P := fun _ => True) (fun _ _ _ _ _ => trivial) b hfair
  rcases hleads i ⟨⟨tracked_state b hstart i, hdead.abandoned hwatched⟩, trivial⟩ with
    ⟨j, hij, hasked | ⟨s₀, pid, -, hforked⟩⟩
  · exact ⟨j, hij, Or.inl hasked⟩
  · refine ⟨j, hij, Or.inr ?_⟩
    rw [hforked]
    exact relaunched_forked pid

/-- The first child crashes. -/
def crashSchedule : List Action :=
  [.fork (some 7), .main, .main, .childExit 7 (.signaled 11)]

/-- It is replaced; the second child ends normally. -/
def afterCrashSchedule : List Action :=
  [.wait .terminated, .main, .fork (some 8), .main, .main, .childExit 8 (.exited 0),
    .wait .terminated, .main, .main, .probe false, .probe false, .wait .failed, .main]

/-- A crashed child is replaced without any request to shut down. -/
theorem dead_child_replaced_crash :
    ∃ b : Behaviour healthy, (b.state 0).Dead ∧ ∃ j, (b.state j).gParentShutdownRequest = true ∨
      (b.state j).Relaunched := by
  have hrun : ∃ s t, healthy.exec {} crashSchedule = some s ∧ s.pc = .polling ∧
      s.children s.pid = some (.terminated (.signaled 11)) ∧
      healthy.exec s afterCrashSchedule = some t ∧ t.pc = .returned :=
    ⟨_, _, rfl, rfl, rfl, rfl, rfl⟩
  rcases hrun with ⟨s, t, hbefore, hpolling, hcrashed, hafter, hreturned⟩
  have hsettled : ∀ k, ¬ healthy.CanStep owner k t :=
    fun _ hcan => not_canStep_returned hreturned hcan.of_restrict
  rcases Machine.exists_behaviour hafter hsettled with ⟨b, hzero, -, hfair⟩
  have hstart : healthy.Reachable (b.state 0) := by
    rw [hzero]
    exact ⟨{}, crashSchedule, rfl, hbefore⟩
  have hdead : (b.state 0).Dead := by
    rw [hzero]
    exact ⟨_, hcrashed, rfl⟩
  have hwatched : (b.state 0).pc ∈ [.assigning, .loopHead, .polling] := by
    rw [hzero, hpolling]
    simp
  rcases dead_child_replaced b hstart (hfair ()) hdead hwatched with ⟨j, -, hj⟩
  exact ⟨b, hdead, j, hj⟩

end Supervisor

end FrameProcessor
