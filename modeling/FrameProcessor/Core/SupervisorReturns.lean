import FrameProcessor.Core.OneChild
import FrameProcessor.Foundations.Fairness

/-!
# core/main - The supervisor ends

Once a shutdown has been requested, or the loop has been left for another reason, the parent
takes a bounded number of steps of its own up to the final `waitpid`.  This call blocks as long
as the child runs; every way to it leads through `kill(g_child_pid, SIGKILL)` unless a probe has
failed, and no probe fails as long as the child has not been reaped.

Main results:

- Theorem `Supervisor.forced_moves`: a child that still runs at the final wait has been sent
  `SIGKILL`.
- Theorem `Supervisor.parentWork_advances`: every step of the parent brings its end nearer.
- Theorem `Supervisor.parent_returns`: in every fair behaviour in which a child that is sent
  `SIGKILL` terminates, `main` returns and leaves no child behind.
-/

namespace FrameProcessor

namespace Supervisor

variable {s s' : Supervisor}

instance (s : Supervisor) (a : Action) : Decidable (WaitpidReliable s a) := by
  unfold WaitpidReliable
  split <;> infer_instance

/-- The supervisor with a `waitpid` that fails only on what is not an unreaped child. -/
abbrev reliable : Machine Supervisor Action :=
  machine.restrict WaitpidReliable

/-- Signals and the ends of children are no steps of the parent. -/
def owner : Action → Option Unit
  | .signal _ => none
  | .childExit _ _ => none
  | _ => some ()

/-! ## The way to the end -/

/-- The loop of `main` has been left. -/
def loopLeft (pc : SupervisorPc) : Bool :=
  match pc with
  | .cleanup => true
  | .terminating => true
  | .probing _ => true
  | .lastProbe => true
  | .killing => true
  | .finalWait => true
  | .leaving => true
  | .returned => true
  | _ => false

/-- The supervisor has been asked to shut down or is doing so for another reason. -/
def Ending (s : Supervisor) : Prop :=
  s.gParentShutdownRequest = true ∨ loopLeft s.pc = true

/-- A child that still runs at the final wait has been sent `SIGKILL`. -/
def Forced (s : Supervisor) : Prop :=
  s.pc = .finalWait → s.children s.gChildPid = some .running →
    .killed s.gChildPid .sigkill (some .running) ∈ s.history

/-- The steps the parent still takes, without the ones of a loop that it is about to leave. -/
def parentWork (pc : SupervisorPc) : Nat :=
  match pc with
  | .forking => 18
  | .relaunching => 18
  | .assigning => 17
  | .polling => 17
  | .loopHead => 16
  | .checking => 16
  | .cleanup => 15
  | .terminating => 14
  | .probing i => 8 + (5 - i)
  | .lastProbe => 7
  | .killing => 6
  | .finalWait => 5
  | .leaving => 4
  | .returned => 0

/-- The final `waitpid` waits for a child that runs. -/
def Blocked (s : Supervisor) : Prop :=
  s.pc = .finalWait ∧ s.children s.gChildPid = some .running

/-! ## Steps -/

theorem forced_moves {a : Action} (hs : s.Forced) (h : Moves s a s') : s'.Forced := by
  cases h with
  | forceKill hpc =>
      intro _ hrunning
      have hrunning' : s.children s.gChildPid = some .running := hrunning
      simp [kill, hrunning']
  | probeLast answer hpc hanswer =>
      cases answer with
      | true => exact fun hfinal => by cases hfinal
      | false =>
          intro _ hrunning
          have hrunning' : s.children s.gChildPid = some .running := hrunning
          have htrue := hanswer (by rw [hrunning']; simp)
          cases htrue
  | signal signum hpc hsignum =>
      rw [parentSignalHandler_cases]
      exact fun hfinal hrunning => List.mem_append_left _ (hs hfinal hrunning)
  | childExit pid status hrunning =>
      intro hfinal hrunning'
      refine hs hfinal ?_
      by_cases hpid : s.gChildPid = pid
      · rw [hpid]
        exact hrunning
      · simpa [Children.exit, Function.update_of_ne hpid] using hrunning'
  | probe i answer hpc hanswer => cases answer <;> exact fun hfinal => by cases hfinal
  | reap status hpc hstatus =>
      cases hnormal : status.normal <;> exact fun hfinal => by cases hfinal
  | fork | forkFails | relaunchFails | assign | shutdownSeen | poll | relaunch | pollAgain
  | pollFails | recorded | unrecorded | terminate | probesOver | finalReap | finalFails | leave =>
      exact fun hfinal => by cases hfinal

theorem ending_moves {a : Action} (hs : s.Ending) (h : Moves s a s') : s'.Ending := by
  cases h with
  | signal signum hpc hsignum =>
      rw [parentSignalHandler_cases]
      exact Or.inl rfl
  | fork pid hpc hpid =>
      rcases hpc with hpc | hpc <;> simpa [Ending, loopLeft, forked, hpc] using hs
  | assign hpc => simpa [Ending, loopLeft, hpc] using hs
  | poll hpc hrequest => simp [Ending, loopLeft, hpc, hrequest] at hs
  | relaunch hpc hrequest => simp [Ending, loopLeft, hpc, hrequest] at hs
  | pollAgain result hpc hresult => simpa [Ending, loopLeft, hpc] using hs
  | reap status hpc hstatus =>
      have hrequest : s.gParentShutdownRequest = true := by
        simpa [Ending, loopLeft, hpc] using hs
      exact Or.inl hrequest
  | probe i answer hpc hanswer | probeLast answer hpc hanswer =>
      cases answer <;> exact Or.inr rfl
  | childExit pid status hrunning => exact hs
  | forkFails | relaunchFails | shutdownSeen | pollFails | recorded | unrecorded | terminate
  | probesOver | forceKill | finalReap | finalFails | leave => exact Or.inr rfl

/-- Each probe is one of five. -/
theorem probeStep_work {answer : Bool} (h : s.probeStep answer = some s') :
    parentWork s'.pc < parentWork s.pc := by
  unfold probeStep at h
  split at h
  · cases h
  · split at h
    · next i hpc =>
      split at h
      · next hi =>
        cases h
        cases answer with
        | true =>
            simp only [goto_pc, parentWork, hpc, if_true]
            omega
        | false =>
            have hless : 7 < 8 + (5 - i) := by omega
            simpa [parentWork, hpc] using hless
      · cases h
    · next hpc =>
      cases h
      cases answer <;> simp [parentWork, hpc]
    · cases h

/-- Every step of the parent brings its end nearer, and nothing else moves it. -/
theorem parentWork_advances {a : Action} (hs : s.Ending) (h : machine.step s a = some s') :
    parentWork s'.pc < parentWork s.pc ∨
      (s'.pc = s.pc ∧ s'.gChildPid = s.gChildPid ∧ owner a ≠ some () ∧
        (s.children s.gChildPid ≠ some .running →
          s'.children s.gChildPid ≠ some .running)) := by
  cases step_moves h with
  | probe | probeLast => exact Or.inl (probeStep_work h)
  | signal signum hpc hsignum =>
      rw [parentSignalHandler_cases]
      exact Or.inr ⟨rfl, rfl, nofun, id⟩
  | childExit pid status hrunning =>
      refine Or.inr ⟨rfl, rfl, nofun, fun hstopped hrunning' => hstopped ?_⟩
      by_cases hpid : s.gChildPid = pid
      · rw [hpid]
        exact hrunning
      · simpa [Children.exit, Function.update_of_ne hpid] using hrunning'
  | poll hpc hrequest | relaunch hpc hrequest => simp [Ending, loopLeft, hpc, hrequest] at hs
  | fork pid hpc hpid =>
      left
      rcases hpc with hpc | hpc <;> simp [parentWork, forked, hpc]
  | shutdownSeen hpc hrequest =>
      left
      rcases hpc with hpc | hpc <;> simp [parentWork, hpc]
  | reap status hpc hstatus =>
      left
      cases status.normal <;> simp [parentWork, hpc]
  | forkFails hpc | relaunchFails hpc | assign hpc | pollAgain _ hpc | pollFails hpc
  | recorded hpc | unrecorded hpc | terminate hpc | forceKill hpc | finalReap _ hpc
  | finalFails hpc | leave hpc =>
      left
      simp [parentWork, hpc]
  | probesOver i hpc =>
      left
      simp only [goto_pc, parentWork, hpc]
      omega

/-- The calls of `waitpid` that do not block. -/
theorem waitStep_isSome {result : WaitResult}
    (h : (s.pc = .polling ∧ result = .interrupted) ∨
      (s.pc = .finalWait ∧ result = .failed) ∨
      (s.pc = .finalWait ∧ result = .terminated ∧
        ∃ status, s.children s.gChildPid = some (.terminated status))) :
    (s.waitStep result).isSome = true := by
  unfold waitStep
  rcases h with ⟨hpc, rfl⟩ | ⟨hpc, rfl⟩ | ⟨hpc, rfl, status, hchild⟩
  · rw [hpc]
    rfl
  · rw [hpc]
    rfl
  · rw [hpc, hchild]
    rfl

/-- Only the final wait can hold the parent up. -/
theorem canStep_parent (hrunning : s.pc ≠ .returned) (hfree : ¬ s.Blocked) :
    reliable.CanStep owner () s := by
  cases hpc : s.pc with
  | returned => exact absurd hpc hrunning
  | forking | relaunching =>
      exact .restrict (.fork none) rfl trivial (by simp [machine, forkStep, hpc])
  | polling =>
      exact .restrict (.wait .interrupted) rfl trivial (waitStep_isSome (Or.inl ⟨hpc, rfl⟩))
  | probing i =>
      by_cases hi : i < 5
      · exact .restrict (.probe true) rfl trivial (by simp [machine, probeStep, hpc, hi])
      · exact .restrict .main rfl trivial (by simp [machine, mainStep, hpc, hi])
  | lastProbe => exact .restrict (.probe true) rfl trivial (by simp [machine, probeStep, hpc])
  | finalWait =>
      cases hchild : s.children s.gChildPid with
      | none =>
          refine .restrict (.wait .failed) rfl ?_ (waitStep_isSome (Or.inr (Or.inl ⟨hpc, rfl⟩)))
          exact ⟨fun hpolling => by simp [hpc] at hpolling, fun _ => hchild⟩
      | some child =>
          cases child with
          | running => exact absurd ⟨hpc, hchild⟩ hfree
          | terminated status =>
              exact .restrict (.wait .terminated) rfl trivial
                (waitStep_isSome (Or.inr (Or.inr ⟨hpc, rfl, status, hchild⟩)))
  | assigning | loopHead | checking | cleanup | terminating | killing | leaving =>
      exact .restrict .main rfl trivial (by simp [machine, mainStep, hpc])

/-- Nothing of the parent is left once `main` has returned. -/
theorem not_canStep_returned (hreturned : s.pc = .returned) :
    ¬ machine.CanStep owner () s := by
  rintro ⟨a, s', howner, h⟩
  have hending : s.Ending := Or.inr (by rw [hreturned]; rfl)
  rcases parentWork_advances hending h with hless | ⟨-, -, hother, -⟩
  · rw [hreturned] at hless
    exact absurd hless (Nat.not_lt_zero _)
  · exact hother howner

/-! ## The end of main -/

/-- What every reachable state of the supervisor keeps. -/
theorem kept_of_reachable (h : reliable.Reachable s) : s.Tracked ∧ s.NoneLeft ∧ s.Forced := by
  refine Machine.reachable_induction (P := fun s => s.Tracked ∧ s.NoneLeft ∧ s.Forced) ?_ ?_ h
  · rintro s rfl
    exact ⟨tracked_init, fun hover => by simp at hover, fun hfinal => by cases hfinal⟩
  · rintro s a s' ⟨htracked, hleft, hforced⟩ hstep
    rcases Machine.restrict_step.mp hstep with ⟨hwait, hstep⟩
    have hmoves := step_moves hstep
    exact ⟨tracked_moves htracked hmoves, noneLeft_moves htracked hleft hwait hmoves,
      forced_moves hforced hmoves⟩

/-- In every fair behaviour in which a child that is sent `SIGKILL` terminates, `main` returns
after a shutdown request, and after the loop has been left for any other reason, and leaves
no child behind. -/
theorem parent_returns (b : Behaviour reliable) (hstart : reliable.Reachable (b.state 0))
    (hfair : b.Fair owner ())
    (hkill : ∀ i pid, .killed pid .sigkill (some .running) ∈ (b.state i).history →
      ∃ j, i ≤ j ∧ (b.state j).children pid ≠ some .running)
    {i : Nat} (hending : (b.state i).Ending) :
    ∃ j, i ≤ j ∧ (b.state j).pc = .returned ∧ (b.state j).children.unreaped = ∅ := by
  have hkept := fun j => kept_of_reachable (b.reachable hstart j)
  have hleads : b.LeadsTo Ending (fun s => s.pc = .returned) := by
    refine Behaviour.leadsTo_of_rank_of_unblocked Blocked (fun s => parentWork s.pc)
      (fun s => (s.pc, s.gChildPid)) (fun _ => ()) ?_ ?_ ?_ b (fun _ => hfair) ?_
    · intro s a s' hs _ h
      rcases Machine.restrict_step.mp h with ⟨-, h⟩
      refine Or.inr ⟨ending_moves hs (step_moves h), ?_⟩
      rcases parentWork_advances hs h with hless | ⟨hpc, hpid, howner, -⟩
      · exact Or.inl hless
      · exact Or.inr ⟨congrArg parentWork hpc, Prod.ext hpc hpid, howner⟩
    · rintro s a s' hs _ h hsame _ hfree ⟨hfinal, hrunning⟩
      rcases Machine.restrict_step.mp h with ⟨-, h⟩
      rcases parentWork_advances hs h with hless | ⟨hpc, hpid, -, hstopped⟩
      · exact absurd hsame (Nat.ne_of_lt hless)
      · rw [hpid] at hrunning
        have hchild : s.children s.gChildPid ≠ some .running :=
          fun hstill => hfree ⟨hpc.symm.trans hfinal, hstill⟩
        exact hstopped hchild hrunning
    · exact fun s _ hrunning hfree => canStep_parent hrunning hfree
    · intro k hstalls
      by_cases hblocked : (b.state k).Blocked
      · rcases hblocked with ⟨hfinal, hrunning⟩
        rcases hkill k _ ((hkept k).2.2 hfinal hrunning) with ⟨j, hkj, hstopped⟩
        have hsame : (b.state j).gChildPid = (b.state k).gChildPid :=
          congrArg Prod.snd (hstalls j hkj).2.2.2
        refine ⟨j, hkj, fun hstill => hstopped ?_⟩
        rw [← hsame]
        exact hstill.2
      · exact ⟨k, Nat.le_refl k, hblocked⟩
  rcases hleads i hending with ⟨j, hij, hreturned⟩
  exact ⟨j, hij, hreturned, (hkept j).2.1 (Or.inr hreturned)⟩

/-- A shutdown is requested while the child runs; it survives `SIGTERM`. -/
def survivorSchedule : List Action :=
  [.fork (some 7), .main, .main, .wait .running, .signal .sigterm, .main, .main, .main] ++
    List.replicate 5 (.probe true) ++ [.main, .probe true, .main]

/-- The child is killed while the parent waits for it, and `main` returns. -/
theorem parent_returns_survivor :
    ∃ b : Behaviour reliable, (b.state 0).Blocked ∧ ∃ j, (b.state j).pc = .returned ∧
      (b.state j).children.unreaped = ∅ := by
  have hrun : ∃ s t, reliable.exec {} survivorSchedule = some s ∧ s.pc = .finalWait ∧
      s.gChildPid = 7 ∧ s.children 7 = some .running ∧ s.gParentShutdownRequest = true ∧
      reliable.exec s [.childExit 7 (.signaled 9), .wait .terminated, .main] = some t ∧
      t.pc = .returned :=
    ⟨_, _, rfl, rfl, rfl, rfl, rfl, rfl, rfl⟩
  rcases hrun with ⟨s, t, hbefore, hfinal, hpid, hrunning, hrequest, hafter, hreturned⟩
  have hsettled : ∀ k, ¬ reliable.CanStep owner k t :=
    fun _ hcan => not_canStep_returned hreturned hcan.of_restrict
  rcases Machine.exists_behaviour hafter hsettled with ⟨b, hzero, hend, hfair⟩
  have hstart : reliable.Reachable (b.state 0) := by
    rw [hzero]
    exact ⟨{}, survivorSchedule, rfl, hbefore⟩
  have hkill : ∀ i pid, .killed pid .sigkill (some .running) ∈ (b.state i).history →
      ∃ j, i ≤ j ∧ (b.state j).children pid ≠ some .running := by
    intro i pid _
    refine ⟨max i 3, le_max_left i 3, ?_⟩
    have hnone := (kept_of_reachable (b.reachable hstart (max i 3))).2.1
    rw [hend _ (le_max_right i 3)] at hnone ⊢
    have hgone : pid ∉ t.children.unreaped := by
      rw [hnone (Or.inr hreturned)]
      exact Set.notMem_empty pid
    rw [Children.not_mem_unreaped.mp hgone]
    simp
  have hending : (b.state 0).Ending := by
    rw [hzero]
    exact Or.inl hrequest
  rcases parent_returns b hstart (hfair ()) hkill hending with ⟨j, -, hj⟩
  have hblocked : (b.state 0).Blocked := by
    rw [hzero]
    exact ⟨hfinal, by rw [hpid]; exact hrunning⟩
  exact ⟨b, hblocked, j, hj⟩

end Supervisor

end FrameProcessor
