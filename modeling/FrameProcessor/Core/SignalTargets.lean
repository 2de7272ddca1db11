import FrameProcessor.Core.Supervisor

/-!
# core/main - Which processes the supervisor signals

`g_child_pid` keeps the identifier of a child that the loop has reaped until the next
child's is stored over it, so the handler and the cleanup can pass it to `kill` when it
names no child of the supervisor, and possibly another process.  A child that terminates
during the cleanup is not reaped before the final wait; it still answers the probes and is
sent `SIGKILL`.

Main results:

- Theorem `Supervisor.doomed_moves`: the steps that are not `Careful` are those after which
  such a signal has been sent or is bound to be sent.
- Theorem `Supervisor.signalsOwnChild_of_careful`: in a run all of whose steps are `Careful`
  every signal goes to a child that has not been reaped and `SIGKILL` to a running one;
  every other run that returns sends one that does not.
-/

namespace FrameProcessor

/-- A positive identifier passed to `kill` names a child that has not been reaped, and one
that is running if the signal is `SIGKILL`. -/
def SupervisorEvent.Legit : SupervisorEvent → Prop
  | .killed pid signum target =>
      0 < pid → target ≠ none ∧ (signum = .sigkill → target = some .running)
  | _ => True

namespace Supervisor

/-! ## The property and its condition -/

/-- The supervisor has signalled only its own child. -/
def SignalsOwnChild (s : Supervisor) : Prop :=
  ∀ event ∈ s.history, event.Legit

/-- `g_child_pid` still names a child that has been reaped, and the cleanup has not begun
or has sent its signals: from the return of `waitpid` to the store of the next child's
identifier, and after the final wait. -/
def ReapedWindow (s : Supervisor) : Prop :=
  match s.pc with
  | .checking | .relaunching => True
  | .assigning => 0 < s.gChildPid ∧ s.gChildPid ≠ s.pid
  | .finalWait | .leaving => s.children s.gChildPid = none
  | _ => False

/-- The cleanup has begun and `SIGKILL` has not been sent. -/
def closing (pc : SupervisorPc) : Bool :=
  match pc with
  | .cleanup | .terminating | .probing _ | .lastProbe | .killing => true
  | _ => false

/-- The step keeps the signals of the supervisor on its own child: the loop reaps a child
only with an abnormal status and before a shutdown is requested, and then manages to fork
the next one; it is left otherwise only while the child runs, and the child runs until
`SIGKILL` has been sent; no signal is handled while `g_child_pid` names a reaped child. -/
def Careful (s : Supervisor) : Action → Prop
  | .wait .terminated => s.pc = .polling → s.gParentShutdownRequest = false ∧
      ∀ status, s.children s.pid = some (.terminated status) → status.normal = false
  | .wait .failed => s.pc = .polling → s.children s.pid = some .running
  | .main => s.pc = .loopHead → s.gParentShutdownRequest = true →
      s.children s.pid = some .running
  | .fork none => s.pc ≠ .relaunching
  | .signal _ => ¬ ReapedWindow s
  | .childExit _ _ => closing s.pc = false
  | _ => True

/-- The cleanup will signal, or is signalling, a child that is not running. -/
def Stale (s : Supervisor) : Prop :=
  (s.pc = .checking ∧ s.gParentShutdownRequest = true) ∨
    (closing s.pc = true ∧ s.children s.gChildPid ≠ some .running)

/-- A signal has gone astray, or one is bound to. -/
def Doomed (s : Supervisor) : Prop :=
  ¬ SignalsOwnChild s ∨ Stale s

/-! ## The condition, step by step -/

variable {s s' : Supervisor}

/-- What the signal adds to the property. -/
theorem signalsOwnChild_concat {event : SupervisorEvent}
    (h : s'.history = s.history ++ [event]) :
    SignalsOwnChild s' ↔ SignalsOwnChild s ∧ event.Legit := by
  simp only [SignalsOwnChild, h, List.forall_mem_append, List.forall_mem_singleton]

theorem signalsOwnChild_congr (h : s'.history = s.history) :
    SignalsOwnChild s' ↔ SignalsOwnChild s := by
  rw [SignalsOwnChild, SignalsOwnChild, h]

theorem signalsOwnChild_kill {signum : Signal} (hpid : 0 < s.gChildPid) :
    SignalsOwnChild (s.kill signum) ↔ SignalsOwnChild s ∧ s.children s.gChildPid ≠ none ∧
      (signum = .sigkill → s.children s.gChildPid = some .running) := by
  have hhistory : (s.kill signum).history =
      s.history ++ [.killed s.gChildPid signum (s.children s.gChildPid)] := rfl
  rw [signalsOwnChild_concat hhistory]
  simp [SupervisorEvent.Legit, hpid]

/-- A step without a signal. -/
theorem doomed_quiet {P : Prop} (hhistory : s'.history = s.history)
    (hstale : Stale s' ↔ Stale s ∨ P) : Doomed s' ↔ Doomed s ∨ P := by
  rw [Doomed, Doomed, signalsOwnChild_congr hhistory, hstale, or_assoc]

/-- A step that records something else than a signal. -/
theorem doomed_record {P : Prop} {event : SupervisorEvent}
    (hhistory : s'.history = s.history ++ [event]) (hevent : event.Legit)
    (hstale : Stale s' ↔ Stale s ∨ P) : Doomed s' ↔ Doomed s ∨ P := by
  rw [Doomed, Doomed, signalsOwnChild_concat hhistory, and_iff_left hevent, hstale, or_assoc]

/-- A step of the cleanup that signals the recorded child and goes on. -/
theorem doomed_closing (signum : Signal) (pc : SupervisorPc) (hs : closing s.pc = true)
    (hpid : 0 < s.gChildPid) (hsignum : signum ≠ .sigkill) (hpc : closing pc = true) :
    Doomed ((s.kill signum).goto pc) ↔ Doomed s := by
  have hsignals : SignalsOwnChild ((s.kill signum).goto pc) ↔
      SignalsOwnChild s ∧ s.children s.gChildPid ≠ none := by
    rw [signalsOwnChild_congr (goto_history ..), signalsOwnChild_kill hpid]
    simp [hsignum]
  have hstale : Stale ((s.kill signum).goto pc) ↔ Stale s := by
    have hbefore : s.pc ≠ .checking := fun h => by simp [h, closing] at hs
    have hafter : pc ≠ .checking := fun h => by simp [h, closing] at hpc
    simp [Stale, hbefore, hafter, hs, hpc]
  have hgone : s.children s.gChildPid = none → Stale s := by
    intro hnone
    exact Or.inr ⟨hs, by simp [hnone]⟩
  rw [Doomed, Doomed, hsignals, hstale]
  tauto

/-- The last probe: only a child that has been reaped does not answer it. -/
theorem doomed_probeLast {answer : Bool} (hpc : s.pc = .lastProbe) (hpid : 0 < s.gChildPid)
    (hanswer : s.children s.gChildPid ≠ none → answer = true) :
    Doomed ((s.kill .probe).goto (if answer then .killing else .finalWait)) ↔ Doomed s := by
  have hclosing : closing s.pc = true := by rw [hpc]; rfl
  cases answer with
  | true => exact doomed_closing .probe .killing hclosing hpid (by simp) rfl
  | false =>
      have hnone : s.children s.gChildPid = none := by
        by_contra hchild
        cases hanswer hchild
      have hstale : Stale s := Or.inr ⟨hclosing, by simp [hnone]⟩
      have hastray : ¬ SignalsOwnChild (s.kill .probe) := by
        rw [signalsOwnChild_kill hpid]
        exact fun hlegit => hlegit.2.1 hnone
      exact iff_of_true (Or.inl hastray) (Or.inr hstale)

/-- `SIGKILL` is legitimate exactly if the child is still running. -/
theorem doomed_forceKill (hpc : s.pc = .killing) (hpid : 0 < s.gChildPid) :
    Doomed ((s.kill .sigkill).goto .finalWait) ↔ Doomed s := by
  have hsignals : SignalsOwnChild ((s.kill .sigkill).goto .finalWait) ↔
      SignalsOwnChild s ∧ s.children s.gChildPid = some .running := by
    rw [signalsOwnChild_congr (goto_history ..), signalsOwnChild_kill hpid]
    constructor
    · rintro ⟨hown, -, hrunning⟩
      exact ⟨hown, hrunning rfl⟩
    · rintro ⟨hown, hrunning⟩
      exact ⟨hown, by simp [hrunning], fun _ => hrunning⟩
  have hafter : ¬ Stale ((s.kill .sigkill).goto .finalWait) := by simp [Stale, closing]
  have hbefore : Stale s ↔ s.children s.gChildPid ≠ some .running := by
    simp [Stale, closing, hpc]
  rw [Doomed, Doomed, hsignals, hbefore]
  tauto

/-- In the window `g_child_pid` names no child. -/
theorem gone_of_reapedWindow (hs : Tracked s) (h : ReapedWindow s) :
    0 < s.gChildPid ∧ s.children s.gChildPid = none := by
  unfold Tracked ReapedWindow at *
  split at h
  case h_1 hpc =>
      simp only [hpc] at hs
      exact ⟨hs.2, Children.not_mem_unreaped.mp (by simp [hs.1])⟩
  case h_2 hpc =>
      simp only [hpc] at hs
      exact ⟨hs.2, Children.not_mem_unreaped.mp (by simp [hs.1])⟩
  case h_3 hpc =>
      simp only [hpc] at hs
      exact ⟨h.1, Children.not_mem_unreaped.mp (by simp [hs.1, h.2])⟩
  case h_4 hpc =>
      simp only [hpc] at hs
      exact ⟨hs.2, h⟩
  case h_5 hpc =>
      simp only [hpc] at hs
      exact ⟨hs.2, h⟩
  case h_6 => cases h

/-- Elsewhere it names one, unless the cleanup has begun. -/
theorem window_of_gone (hs : Tracked s) (hpc : s.pc ≠ .returned) (hpid : 0 < s.gChildPid)
    (hgone : s.children s.gChildPid = none) : ReapedWindow s ∨ closing s.pc = true := by
  have hfree : s.gChildPid ∉ s.children.unreaped := by simp [hgone]
  cases hcase : s.pc <;> simp only [Tracked, hcase] at hs <;>
    simp_all [ReapedWindow, closing]

theorem doomed_signal {signum : Signal} (hs : Tracked s) (hpc : s.pc ≠ .returned)
    (hsignum : signum = .sigint ∨ signum = .sigterm) :
    Doomed (s.parentSignalHandler signum) ↔ Doomed s ∨ ReapedWindow s := by
  have hkill : signum ≠ .sigkill := by
    rcases hsignum with rfl | rfl <;> simp
  have hsignals : SignalsOwnChild (s.parentSignalHandler signum) ↔
      SignalsOwnChild s ∧ (0 < s.gChildPid → s.children s.gChildPid ≠ none) := by
    rw [parentSignalHandler_cases]
    by_cases hpid : 0 < s.gChildPid
    · simp [SignalsOwnChild, hpid, SupervisorEvent.Legit, hkill, or_imp, forall_and]
    · simp [SignalsOwnChild, hpid]
  have hstale : Stale (s.parentSignalHandler signum) ↔
      s.pc = .checking ∨ (closing s.pc = true ∧ s.children s.gChildPid ≠ some .running) := by
    rw [parentSignalHandler_cases]
    simp [Stale]
  constructor
  · intro hdoomed
    rcases hdoomed with hastray | hstale'
    · by_cases hbefore : SignalsOwnChild s
      · have hgone : 0 < s.gChildPid ∧ s.children s.gChildPid = none := by
          simpa [hsignals, hbefore] using hastray
        rcases window_of_gone hs hpc hgone.1 hgone.2 with hwindow | hclosing
        · exact Or.inr hwindow
        · exact Or.inl (Or.inr (Or.inr ⟨hclosing, by simp [hgone.2]⟩))
      · exact Or.inl (Or.inl hbefore)
    · rcases hstale.mp hstale' with hchecking | hclosing
      · exact Or.inr (by simp [ReapedWindow, hchecking])
      · exact Or.inl (Or.inr (Or.inr hclosing))
  · rintro ((hastray | ⟨hchecking, -⟩ | hclosing) | hwindow)
    · exact Or.inl fun h => hastray (hsignals.mp h).1
    · exact Or.inr (hstale.mpr (Or.inl hchecking))
    · exact Or.inr (hstale.mpr (Or.inr hclosing))
    · have hgone := gone_of_reapedWindow hs hwindow
      exact Or.inl fun h => (hsignals.mp h).2 hgone.1 hgone.2

/-- A child that terminates during the cleanup is the recorded one. -/
theorem stale_childExit {pid : Int} {status : ExitStatus} (hs : Tracked s)
    (hrunning : s.children pid = some .running) :
    Stale { s with children := s.children.exit pid status } ↔
      Stale s ∨ ¬ closing s.pc = false := by
  cases hclosing : closing s.pc with
  | false => simp [Stale, hclosing]
  | true =>
      have hrecorded : s.children.unreaped ⊆ {s.gChildPid} := by
        cases hpc : s.pc <;> simp only [hpc, closing, Bool.false_eq_true] at hclosing <;>
          simp only [Tracked, hpc] at hs <;> exact hs.1
      have hpid : pid = s.gChildPid := hrecorded (by simp [hrunning])
      subst hpid
      simp [Stale, hclosing]

theorem doomed_moves {a : Action} (hs : Tracked s) (h : Moves s a s') :
    Doomed s' ↔ Doomed s ∨ ¬ Careful s a := by
  cases h with
  | fork pid hpc hpid =>
      refine doomed_record rfl trivial ?_
      rcases hpc with hpc | hpc <;> simp [Stale, closing, forked, Careful, hpc]
  | forkFails hpc =>
      refine doomed_quiet rfl ?_
      simp [Stale, closing, Careful, hpc]
  | relaunchFails hpc =>
      refine doomed_quiet rfl ?_
      simp only [Tracked, hpc] at hs
      have hnone : s.children s.gChildPid = none := Children.not_mem_unreaped.mp (by simp [hs.1])
      simp [Stale, closing, Careful, hpc, hnone]
  | assign hpc =>
      refine doomed_quiet rfl ?_
      simp [Stale, closing, Careful, hpc]
  | shutdownSeen hpc hrequest =>
      refine doomed_record rfl trivial ?_
      rcases hpc with hpc | hpc
      · simp only [Tracked, hpc] at hs
        simp [Stale, closing, Careful, hpc, hrequest, hs.2.2]
      · simp only [Tracked, hpc] at hs
        have hnone : s.children s.gChildPid = none := Children.not_mem_unreaped.mp (by simp [hs.1])
        simp [Stale, closing, Careful, hpc, hrequest, hnone]
  | poll hpc hrequest =>
      refine doomed_record rfl trivial ?_
      simp [Stale, closing, Careful, hpc, hrequest]
  | relaunch hpc hrequest =>
      refine doomed_record rfl trivial ?_
      simp [Stale, closing, Careful, hpc, hrequest]
  | pollAgain result hpc hresult =>
      refine doomed_quiet rfl ?_
      rcases hresult with rfl | rfl <;> simp [Stale, closing, Careful, hpc]
  | reap status hpc hstatus =>
      refine doomed_record rfl trivial ?_
      simp only [Tracked, hpc] at hs
      cases hnormal : status.normal with
      | true => simp [Stale, closing, Careful, hpc, hstatus, hnormal, reaped, hs.2.2]
      | false => simp [Stale, closing, Careful, hpc, hstatus, hnormal, reaped]
  | pollFails hpc =>
      refine doomed_quiet rfl ?_
      simp only [Tracked, hpc] at hs
      simp [Stale, closing, Careful, hpc, hs.2.2]
  | recorded hpc hpid =>
      refine doomed_quiet rfl ?_
      simp [Stale, closing, Careful, hpc]
  | unrecorded hpc hpid =>
      simp only [Tracked, hpc] at hs
      exact absurd hs.2 hpid
  | terminate hpc =>
      simp only [Tracked, hpc] at hs
      rw [doomed_closing .sigterm (.probing 0) (by rw [hpc]; rfl) hs.2 (by simp) rfl]
      simp [Careful, hpc]
  | probe i answer hpc hanswer =>
      simp only [Tracked, hpc] at hs
      rw [doomed_closing .probe _ (by rw [hpc]; rfl) hs.2 (by simp) (by cases answer <;> rfl)]
      simp [Careful]
  | probesOver i hpc =>
      refine doomed_quiet rfl ?_
      simp [Stale, closing, Careful, hpc]
  | probeLast answer hpc hanswer =>
      simp only [Tracked, hpc] at hs
      rw [doomed_probeLast hpc hs.2 hanswer]
      simp [Careful]
  | forceKill hpc =>
      simp only [Tracked, hpc] at hs
      rw [doomed_forceKill hpc hs.2]
      simp [Careful, hpc]
  | finalReap status hpc hstatus =>
      refine doomed_record rfl trivial ?_
      simp [Stale, closing, Careful, hpc]
  | finalFails hpc =>
      refine doomed_quiet rfl ?_
      simp [Stale, closing, Careful, hpc]
  | leave hpc =>
      refine doomed_quiet rfl ?_
      simp [Stale, closing, Careful, hpc]
  | signal signum hpc hsignum =>
      rw [doomed_signal hs hpc hsignum, Careful, not_not]
  | childExit pid status hrunning =>
      exact doomed_quiet rfl (stale_childExit hs hrunning)

/-! ## Runs -/

/-- A run of `Careful` steps has signalled only the supervisor's own child, and so has no
other run that has returned. -/
theorem signalsOwnChild_of_careful {as : List Action} {t : Supervisor}
    (h : machine.exec {} as = some t) :
    (machine.Meets Careful {} as → SignalsOwnChild t) ∧
      (t.pc = .returned → (SignalsOwnChild t ↔ machine.Meets Careful {} as)) := by
  have hstart : ¬ Doomed {} := by simp [Doomed, SignalsOwnChild, Stale, closing]
  have hdoomed : Doomed t ↔ Doomed {} ∨ ¬ machine.Meets Careful {} as := by
    apply Machine.marked_iff_not_meets (G := fun _ _ => True) (I := Tracked) _ _ tracked_init
      (Machine.meets_of_forall fun _ _ => trivial) h
    · intro s a s' hs _ hstep
      exact tracked_moves hs (step_moves hstep)
    · intro s a s' hs _ hstep
      exact doomed_moves hs (step_moves hstep)
  constructor
  · intro hcareful
    by_contra hastray
    rcases hdoomed.mp (Or.inl hastray) with hbegun | hviolated
    · exact hstart hbegun
    · exact hviolated hcareful
  · intro hreturned
    have hover : ¬ Stale t := by simp [Stale, closing, hreturned]
    constructor
    · intro hown
      by_contra hviolated
      rcases hdoomed.mpr (Or.inr hviolated) with hastray | hstale
      · exact hastray hown
      · exact hover hstale
    · intro hcareful
      by_contra hastray
      exact (hdoomed.mp (Or.inl hastray)).elim hstart fun hviolated => hviolated hcareful

/-- The first child fails and is replaced; the second ignores the `SIGTERM` that arrives
while it is polled, and runs until `SIGKILL`. -/
def stubbornSchedule : List Action :=
  [.fork (some 7), .main, .main, .wait .running, .main, .childExit 7 (.exited 1),
    .wait .terminated, .main, .fork (some 8), .main, .main, .signal .sigterm, .wait .running,
    .main, .main, .main] ++ List.replicate 5 (.probe true) ++
    [.main, .probe true, .main, .childExit 8 (.signaled 9), .wait .terminated, .main]

/-- The child exits with status 0 while it is polled. -/
def normalExitSchedule : List Action :=
  [.fork (some 7), .main, .main, .childExit 7 (.exited 0), .wait .terminated, .main, .main]

/-- `SIGTERM` arrives and the child shuts down at once. -/
def gracefulSchedule : List Action :=
  [.fork (some 7), .main, .signal .sigterm, .childExit 7 (.exited 0), .main, .main, .main] ++
    List.replicate 5 (.probe true) ++ [.main, .probe true, .main]

/-- Every signal of the first schedule reaches a child that has not been reaped. -/
theorem signalsOwnChild_stubborn :
    ∃ t, machine.exec {} stubbornSchedule = some t ∧ t.pc = .returned ∧
      machine.Meets Careful {} stubbornSchedule ∧ SignalsOwnChild t := by
  have hrun : ∃ t, machine.exec {} stubbornSchedule = some t ∧ t.pc = .returned ∧
      t.history =
        ([.forked 7, .tested false, .tested false, .reaped 7 (.exited 1), .tested false,
          .forked 8, .tested false, .killed 8 .sigterm (some .running), .tested true,
          .killed 8 .sigterm (some .running)] : List SupervisorEvent) ++
        (List.replicate 6 (.killed 8 .probe (some .running)) : List SupervisorEvent) ++
        ([.killed 8 .sigkill (some .running), .reaped 8 (.signaled 9)] :
          List SupervisorEvent) :=
    ⟨_, rfl, rfl, rfl⟩
  rcases hrun with ⟨t, hexec, hreturned, hhistory⟩
  have hown : SignalsOwnChild t := by
    simp [SignalsOwnChild, hhistory, SupervisorEvent.Legit]
  have hcareful := ((signalsOwnChild_of_careful hexec).2 hreturned).mp hown
  exact ⟨t, hexec, hreturned, hcareful, (signalsOwnChild_of_careful hexec).1 hcareful⟩

/-- A child that exits normally is sent `SIGTERM` after it has been reaped, and one that
shuts down when asked to is sent `SIGKILL` after it has terminated. -/
theorem signals_go_astray :
    (∃ t, machine.exec {} normalExitSchedule = some t ∧
      .killed 7 .sigterm none ∈ t.history ∧ ¬ SignalsOwnChild t) ∧
    (∃ t, machine.exec {} gracefulSchedule = some t ∧
      .killed 7 .sigkill (some (.terminated (.exited 0))) ∈ t.history ∧
        ¬ SignalsOwnChild t) := by
  constructor
  · have hrun : ∃ t, machine.exec {} normalExitSchedule = some t ∧
        t.history = [.forked 7, .tested false, .reaped 7 (.exited 0),
          .killed 7 .sigterm none] :=
      ⟨_, rfl, rfl⟩
    rcases hrun with ⟨t, hexec, hhistory⟩
    refine ⟨t, hexec, by simp [hhistory], ?_⟩
    simp [SignalsOwnChild, hhistory, SupervisorEvent.Legit]
  · have hrun : ∃ t, machine.exec {} gracefulSchedule = some t ∧
        t.history =
          ([.forked 7, .killed 7 .sigterm (some .running), .tested true,
            .killed 7 .sigterm (some (.terminated (.exited 0)))] : List SupervisorEvent) ++
          (List.replicate 6 (.killed 7 .probe (some (.terminated (.exited 0)))) :
            List SupervisorEvent) ++
          ([.killed 7 .sigkill (some (.terminated (.exited 0)))] : List SupervisorEvent) :=
      ⟨_, rfl, rfl⟩
    rcases hrun with ⟨t, hexec, hhistory⟩
    have hkilled : .killed 7 .sigkill (some (.terminated (.exited 0))) ∈ t.history := by
      simp [hhistory]
    refine ⟨t, hexec, hkilled, fun hown => ?_⟩
    have hlegit := hown _ hkilled
    simp [SupervisorEvent.Legit] at hlegit

end Supervisor

end FrameProcessor
