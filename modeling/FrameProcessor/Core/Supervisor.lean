import FrameProcessor.Foundations.Machine
import FrameProcessor.Foundations.Processes

/-!
# core/main - The supervisor process

The parent branch of `main`: it forks the application, polls it with `waitpid`, forks it
again when it has terminated abnormally, and on the way out terminates the child recorded
in `g_child_pid`.  Each step contains at most one system call or one access to what
`parent_signal_handler` shares with `main`; the handler runs between any two of them, and
a child terminates at any time.

The history lists the forks, the children reaped, the tests of `g_parent_shutdown_request`
and the calls of `kill` together with the child they reach.

Main results:

- Theorem `Supervisor.step_moves`: everything a step can do.
- Theorem `Supervisor.tracked_exec`: how `pid` and `g_child_pid` follow the child that has
  been forked and not reaped.
-/

namespace FrameProcessor

/-- What `waitpid` stores about a child that has terminated. -/
inductive ExitStatus where
  | exited (code : Nat)
  | signaled (signum : Nat)
  | other
deriving DecidableEq

/-- `WIFEXITED(status) && WEXITSTATUS(status) == 0` -/
def ExitStatus.normal : ExitStatus → Bool
  | .exited code => code == 0
  | _ => false

/-- The signals passed to `kill`; number 0 only probes. -/
inductive Signal where
  | probe
  | sigint
  | sigterm
  | sigkill
deriving DecidableEq

/-- Where the parent is in `main`. -/
inductive SupervisorPc where
  | forking
  /-- A fork has succeeded; about to store `g_child_pid`. -/
  | assigning
  | loopHead
  /-- About to call `waitpid` with `WNOHANG`. -/
  | polling
  /-- An abnormal status has been reaped; about to test the shutdown request. -/
  | checking
  /-- About to fork a new child. -/
  | relaunching
  /-- The loop has been left; about to test `g_child_pid`. -/
  | cleanup
  | terminating
  /-- In the loop of probes. -/
  | probing (i : Nat)
  | lastProbe
  | killing
  | finalWait
  | leaving
  | returned
deriving DecidableEq

/-- An entry of the history; `target` is the child that `pid` named when `kill` was called,
`none` if it had been reaped or was never forked. -/
inductive SupervisorEvent where
  | forked (pid : Int)
  | reaped (pid : Int) (status : ExitStatus)
  | tested (requested : Bool)
  | killed (pid : Int) (signum : Signal) (target : Option (Child ExitStatus))
deriving DecidableEq

/-- The parent process and its children. -/
structure Supervisor where
  pc : SupervisorPc := .forking
  pid : Int := 0
  gChildPid : Int := 0
  gParentShutdownRequest : Bool := false
  children : Children Int ExitStatus := Children.empty
  history : List SupervisorEvent := []

namespace Supervisor

/-! ## Steps -/

def goto (s : Supervisor) (pc : SupervisorPc) : Supervisor :=
  { s with pc }

def record (s : Supervisor) (event : SupervisorEvent) : Supervisor :=
  { s with history := s.history ++ [event] }

/-- `kill(g_child_pid, signum)` -/
def kill (s : Supervisor) (signum : Signal) : Supervisor :=
  s.record (.killed s.gChildPid signum (s.children s.gChildPid))

/-- `fork()` has returned the identifier of a new child. -/
def forked (s : Supervisor) (pid : Int) : Supervisor :=
  { s with
    pid
    children := s.children.fork pid
    history := s.history ++ [.forked pid]
    pc := .assigning }

/-- `waitpid` has returned a child. -/
def reaped (s : Supervisor) (pid : Int) (status : ExitStatus) : Supervisor :=
  { s with
    children := s.children.reap pid
    history := s.history ++ [.reaped pid status] }

def parentSignalHandler (signum : Signal) (s : Supervisor) : Supervisor :=
  let s := { s with gParentShutdownRequest := true }
  if 0 < s.gChildPid then s.kill signum else s

/-- A step of `main` that calls nothing whose result is open. -/
def mainStep (s : Supervisor) : Option Supervisor :=
  match s.pc with
  | .assigning => some { s with gChildPid := s.pid, pc := .loopHead }
  | .loopHead =>
      some ((s.record (.tested s.gParentShutdownRequest)).goto
        (if s.gParentShutdownRequest then .cleanup else .polling))
  | .checking =>
      some ((s.record (.tested s.gParentShutdownRequest)).goto
        (if s.gParentShutdownRequest then .cleanup else .relaunching))
  | .cleanup => some (s.goto (if 0 < s.gChildPid then .terminating else .leaving))
  | .terminating => some ((s.kill .sigterm).goto (.probing 0))
  | .probing i => if i < 5 then none else some (s.goto .lastProbe)
  | .killing => some ((s.kill .sigkill).goto .finalWait)
  | .leaving => some (s.goto .returned)
  | _ => none

/-- The two calls of `fork` in the parent; `none` is a failure.  The kernel hands out no
identifier of a child that has not been reaped. -/
def forkStep (result : Option Int) (s : Supervisor) : Option Supervisor :=
  match s.pc, result with
  | .forking, some pid => if 0 < pid ∧ s.children pid = none then some (s.forked pid) else none
  | .relaunching, some pid =>
      if 0 < pid ∧ s.children pid = none then some (s.forked pid) else none
  | .forking, none => some { s with pid := -1, pc := .returned }
  | .relaunching, none => some { s with pid := -1, pc := .cleanup }
  | _, _ => none

/-- How a call of `waitpid` ends. -/
inductive WaitResult where
  /-- It returns 0: the child is still running. -/
  | running
  /-- It returns the child, which has terminated. -/
  | terminated
  /-- It fails with `EINTR`. -/
  | interrupted
  /-- It fails with another error. -/
  | failed
deriving DecidableEq

/-- `waitpid(pid, &status, WNOHANG)` in the loop and what the loop makes of the result, or
`waitpid(g_child_pid, nullptr, 0)`, which blocks and whose result nobody looks at. -/
def waitStep (result : WaitResult) (s : Supervisor) : Option Supervisor :=
  match s.pc with
  | .polling =>
      match result, s.children s.pid with
      | .running, some .running => some (s.goto .loopHead)
      | .terminated, some (.terminated status) =>
          some ((s.reaped s.pid status).goto (if status.normal then .cleanup else .checking))
      | .interrupted, _ => some (s.goto .loopHead)
      | .failed, _ => some (s.goto .cleanup)
      | _, _ => none
  | .finalWait =>
      match result, s.children s.gChildPid with
      | .terminated, some (.terminated status) =>
          some ((s.reaped s.gChildPid status).goto .leaving)
      | .failed, _ => some (s.goto .leaving)
      | _, _ => none
  | _ => none

/-- `kill(g_child_pid, 0) == 0`: true of every child that has not been reaped, terminated
or not; of a reaped one it depends on whether the identifier is in use again. -/
def probeStep (answer : Bool) (s : Supervisor) : Option Supervisor :=
  if answer = false ∧ s.children s.gChildPid ≠ none then none
  else
    match s.pc with
    | .probing i =>
        if i < 5 then
          some ((s.kill .probe).goto (if answer then .probing (i + 1) else .lastProbe))
        else none
    | .lastProbe => some ((s.kill .probe).goto (if answer then .killing else .finalWait))
    | _ => none

/-- `SIGINT` or `SIGTERM` arrives at the parent. -/
def signalStep (signum : Signal) (s : Supervisor) : Option Supervisor :=
  if s.pc ≠ .returned ∧ (signum = .sigint ∨ signum = .sigterm) then
    some (s.parentSignalHandler signum)
  else none

def childExit (pid : Int) (status : ExitStatus) (s : Supervisor) : Option Supervisor :=
  if s.children pid = some .running then
    some { s with children := s.children.exit pid status }
  else none

inductive Action where
  | main
  | fork (result : Option Int)
  | wait (result : WaitResult)
  | probe (answer : Bool)
  | signal (signum : Signal)
  | childExit (pid : Int) (status : ExitStatus)

/-- The supervisor from the installation of its signal handlers on. -/
def machine : Machine Supervisor Action where
  init s := s = {}
  step s
    | .main => s.mainStep
    | .fork result => s.forkStep result
    | .wait result => s.waitStep result
    | .probe answer => s.probeStep answer
    | .signal signum => s.signalStep signum
    | .childExit pid status => s.childExit pid status

/-! ## What a step can do -/

section Fields

variable (s : Supervisor) (pc : SupervisorPc) (event : SupervisorEvent) (signum : Signal)

@[simp]
theorem goto_pc : (s.goto pc).pc = pc :=
  rfl

@[simp]
theorem goto_gChildPid : (s.goto pc).gChildPid = s.gChildPid :=
  rfl

@[simp]
theorem goto_request : (s.goto pc).gParentShutdownRequest = s.gParentShutdownRequest :=
  rfl

@[simp]
theorem goto_children : (s.goto pc).children = s.children :=
  rfl

@[simp]
theorem goto_history : (s.goto pc).history = s.history :=
  rfl

@[simp]
theorem record_pc : (s.record event).pc = s.pc :=
  rfl

@[simp]
theorem record_gChildPid : (s.record event).gChildPid = s.gChildPid :=
  rfl

@[simp]
theorem record_children : (s.record event).children = s.children :=
  rfl

@[simp]
theorem record_history : (s.record event).history = s.history ++ [event] :=
  rfl

@[simp]
theorem kill_gChildPid : (s.kill signum).gChildPid = s.gChildPid :=
  rfl

@[simp]
theorem kill_children : (s.kill signum).children = s.children :=
  rfl

end Fields

/-- The handler only requests the shutdown and forwards the signal. -/
theorem parentSignalHandler_cases (s : Supervisor) (signum : Signal) :
    s.parentSignalHandler signum = { s with
      gParentShutdownRequest := true
      history := s.history ++
        if 0 < s.gChildPid then [.killed s.gChildPid signum (s.children s.gChildPid)]
        else [] } := by
  unfold parentSignalHandler
  by_cases h : 0 < s.gChildPid
  · simp [h, kill, record]
  · simp [h]

/-- Everything a step can do. -/
inductive Moves (s : Supervisor) : Action → Supervisor → Prop where
  | fork (pid : Int) (hpc : s.pc = .forking ∨ s.pc = .relaunching) (hpid : 0 < pid) :
      Moves s (.fork (some pid)) (s.forked pid)
  | forkFails (hpc : s.pc = .forking) :
      Moves s (.fork none) { s with pid := -1, pc := .returned }
  | relaunchFails (hpc : s.pc = .relaunching) :
      Moves s (.fork none) { s with pid := -1, pc := .cleanup }
  | assign (hpc : s.pc = .assigning) :
      Moves s .main { s with gChildPid := s.pid, pc := .loopHead }
  | shutdownSeen (hpc : s.pc = .loopHead ∨ s.pc = .checking)
      (hrequest : s.gParentShutdownRequest = true) :
      Moves s .main ((s.record (.tested true)).goto .cleanup)
  | poll (hpc : s.pc = .loopHead) (hrequest : s.gParentShutdownRequest = false) :
      Moves s .main ((s.record (.tested false)).goto .polling)
  | relaunch (hpc : s.pc = .checking) (hrequest : s.gParentShutdownRequest = false) :
      Moves s .main ((s.record (.tested false)).goto .relaunching)
  | pollAgain (result : WaitResult) (hpc : s.pc = .polling)
      (hresult : result = .running ∨ result = .interrupted) :
      Moves s (.wait result) (s.goto .loopHead)
  | reap (status : ExitStatus) (hpc : s.pc = .polling)
      (hstatus : s.children s.pid = some (.terminated status)) :
      Moves s (.wait .terminated)
        ((s.reaped s.pid status).goto (if status.normal then .cleanup else .checking))
  | pollFails (hpc : s.pc = .polling) : Moves s (.wait .failed) (s.goto .cleanup)
  | recorded (hpc : s.pc = .cleanup) (hpid : 0 < s.gChildPid) :
      Moves s .main (s.goto .terminating)
  | unrecorded (hpc : s.pc = .cleanup) (hpid : ¬ 0 < s.gChildPid) :
      Moves s .main (s.goto .leaving)
  | terminate (hpc : s.pc = .terminating) : Moves s .main ((s.kill .sigterm).goto (.probing 0))
  | probe (i : Nat) (answer : Bool) (hpc : s.pc = .probing i)
      (hanswer : s.children s.gChildPid ≠ none → answer = true) :
      Moves s (.probe answer)
        ((s.kill .probe).goto (if answer then .probing (i + 1) else .lastProbe))
  | probesOver (i : Nat) (hpc : s.pc = .probing i) : Moves s .main (s.goto .lastProbe)
  | probeLast (answer : Bool) (hpc : s.pc = .lastProbe)
      (hanswer : s.children s.gChildPid ≠ none → answer = true) :
      Moves s (.probe answer) ((s.kill .probe).goto (if answer then .killing else .finalWait))
  | forceKill (hpc : s.pc = .killing) : Moves s .main ((s.kill .sigkill).goto .finalWait)
  | finalReap (status : ExitStatus) (hpc : s.pc = .finalWait)
      (hstatus : s.children s.gChildPid = some (.terminated status)) :
      Moves s (.wait .terminated) ((s.reaped s.gChildPid status).goto .leaving)
  | finalFails (hpc : s.pc = .finalWait) : Moves s (.wait .failed) (s.goto .leaving)
  | leave (hpc : s.pc = .leaving) : Moves s .main (s.goto .returned)
  | signal (signum : Signal) (hpc : s.pc ≠ .returned)
      (hsignum : signum = .sigint ∨ signum = .sigterm) :
      Moves s (.signal signum) (s.parentSignalHandler signum)
  | childExit (pid : Int) (status : ExitStatus) (hrunning : s.children pid = some .running) :
      Moves s (.childExit pid status) { s with children := s.children.exit pid status }

variable {s s' : Supervisor}

theorem mainStep_moves (h : s.mainStep = some s') : Moves s .main s' := by
  unfold mainStep at h
  split at h
  case h_1 hpc =>
      cases h
      exact Moves.assign hpc
  case h_2 hpc =>
      cases hrequest : s.gParentShutdownRequest with
      | false =>
          simp only [hrequest] at h
          cases h
          exact Moves.poll hpc hrequest
      | true =>
          simp only [hrequest] at h
          cases h
          exact Moves.shutdownSeen (Or.inl hpc) hrequest
  case h_3 hpc =>
      cases hrequest : s.gParentShutdownRequest with
      | false =>
          simp only [hrequest] at h
          cases h
          exact Moves.relaunch hpc hrequest
      | true =>
          simp only [hrequest] at h
          cases h
          exact Moves.shutdownSeen (Or.inr hpc) hrequest
  case h_4 hpc =>
      cases h
      by_cases hpid : 0 < s.gChildPid
      · rw [if_pos hpid]
        exact Moves.recorded hpc hpid
      · rw [if_neg hpid]
        exact Moves.unrecorded hpc hpid
  case h_5 hpc =>
      cases h
      exact Moves.terminate hpc
  case h_6 i hpc =>
      split at h
      · cases h
      · cases h
        exact Moves.probesOver i hpc
  case h_7 hpc =>
      cases h
      exact Moves.forceKill hpc
  case h_8 hpc =>
      cases h
      exact Moves.leave hpc
  case h_9 => cases h

theorem forkStep_moves {result : Option Int} (h : s.forkStep result = some s') :
    Moves s (.fork result) s' := by
  unfold forkStep at h
  split at h
  · next hpc =>
    split at h
    · next hfree =>
      cases h
      exact Moves.fork _ (Or.inl hpc) hfree.1
    · cases h
  · next hpc =>
    split at h
    · next hfree =>
      cases h
      exact Moves.fork _ (Or.inr hpc) hfree.1
    · cases h
  · next hpc =>
    cases h
    exact Moves.forkFails hpc
  · next hpc =>
    cases h
    exact Moves.relaunchFails hpc
  · cases h

theorem waitStep_moves {result : WaitResult} (h : s.waitStep result = some s') :
    Moves s (.wait result) s' := by
  unfold waitStep at h
  split at h
  · next hpc =>
    split at h
    · cases h
      exact Moves.pollAgain _ hpc (Or.inl rfl)
    · next status hstatus =>
      cases h
      exact Moves.reap status hpc hstatus
    · cases h
      exact Moves.pollAgain _ hpc (Or.inr rfl)
    · cases h
      exact Moves.pollFails hpc
    · cases h
  · next hpc =>
    split at h
    · next status hstatus =>
      cases h
      exact Moves.finalReap status hpc hstatus
    · cases h
      exact Moves.finalFails hpc
    · cases h
  · cases h

theorem probeStep_moves {answer : Bool} (h : s.probeStep answer = some s') :
    Moves s (.probe answer) s' := by
  unfold probeStep at h
  split at h
  · cases h
  · next hopen =>
    have hanswer : s.children s.gChildPid ≠ none → answer = true := by
      intro hchild
      cases answer with
      | true => rfl
      | false => exact absurd ⟨rfl, hchild⟩ hopen
    split at h
    · next i hpc =>
      split at h
      · cases h
        exact Moves.probe i answer hpc hanswer
      · cases h
    · next hpc =>
      cases h
      exact Moves.probeLast answer hpc hanswer
    · cases h

/-- Everything a step can do. -/
theorem step_moves {a : Action} (h : machine.step s a = some s') : Moves s a s' := by
  cases a with
  | main => exact mainStep_moves h
  | fork result => exact forkStep_moves h
  | wait result => exact waitStep_moves h
  | probe answer => exact probeStep_moves h
  | signal signum =>
      simp only [machine, signalStep] at h
      split at h
      · next henabled =>
        cases h
        exact Moves.signal signum henabled.1 henabled.2
      · cases h
  | childExit pid status =>
      simp only [machine, childExit] at h
      split at h
      · next hrunning =>
        cases h
        exact Moves.childExit pid status hrunning
      · cases h

/-! ## How the recorded identifiers follow the child -/

/-- Which children are unreaped, and whether `g_child_pid` names them. -/
def Tracked (s : Supervisor) : Prop :=
  match s.pc with
  | .forking => s.children.unreaped = ∅ ∧ s.gChildPid = 0
  | .assigning => s.children.unreaped = {s.pid} ∧ 0 < s.pid
  | .loopHead | .polling =>
      s.children.unreaped = {s.pid} ∧ 0 < s.gChildPid ∧ s.gChildPid = s.pid
  | .checking | .relaunching => s.children.unreaped = ∅ ∧ 0 < s.gChildPid
  | .returned => s.children.unreaped ⊆ {s.gChildPid}
  | _ => s.children.unreaped ⊆ {s.gChildPid} ∧ 0 < s.gChildPid

theorem tracked_init : Tracked {} := by
  simp [Tracked]

theorem tracked_moves {a : Action} (hs : Tracked s) (h : Moves s a s') : Tracked s' := by
  cases h with
  | fork pid hpc hpid =>
      have hnone : s.children.unreaped = ∅ := by
        rcases hpc with hpc | hpc <;> simp only [Tracked, hpc] at hs <;> exact hs.1
      exact ⟨Children.unreaped_fork_of_empty hnone, hpid⟩
  | forkFails hpc =>
      simp only [Tracked, hpc] at hs ⊢
      simp [hs.1]
  | relaunchFails hpc =>
      simp only [Tracked, hpc] at hs ⊢
      simp [hs.1, hs.2]
  | assign hpc =>
      simp only [Tracked, hpc] at hs ⊢
      simpa using hs
  | shutdownSeen hpc hrequest =>
      rcases hpc with hpc | hpc
      · simp only [Tracked, hpc] at hs
        simp [Tracked, hs.1, hs.2.2]
        omega
      · simp only [Tracked, hpc] at hs
        simp [Tracked, hs.1, hs.2]
  | poll hpc hrequest =>
      simp only [Tracked, hpc] at hs
      exact hs
  | relaunch hpc hrequest =>
      simp only [Tracked, hpc] at hs
      exact hs
  | pollAgain result hpc hresult =>
      simp only [Tracked, hpc] at hs
      exact hs
  | reap status hpc hstatus =>
      simp only [Tracked, hpc] at hs
      have hnone := Children.unreaped_reap_of_subset hs.1.subset
      cases status.normal with
      | true => exact ⟨by simp [reaped, hnone], hs.2.1⟩
      | false => exact ⟨hnone, hs.2.1⟩
  | pollFails hpc =>
      simp only [Tracked, hpc] at hs
      exact ⟨by simp [hs.1, hs.2.2], hs.2.1⟩
  | unrecorded hpc hpid =>
      simp only [Tracked, hpc] at hs
      exact absurd hs.2 hpid
  | probe i answer hpc hanswer =>
      simp only [Tracked, hpc] at hs
      cases answer <;> exact hs
  | probeLast answer hpc hanswer =>
      simp only [Tracked, hpc] at hs
      cases answer <;> exact hs
  | finalReap status hpc hstatus =>
      simp only [Tracked, hpc] at hs
      have hnone := Children.unreaped_reap_of_subset hs.1
      exact ⟨by simp [reaped, hnone], hs.2⟩
  | leave hpc =>
      simp only [Tracked, hpc] at hs
      exact hs.1
  | signal signum hpc hsignum =>
      rw [parentSignalHandler_cases]
      exact hs
  | childExit pid status hrunning =>
      have hsame : (s.children.exit pid status).unreaped = s.children.unreaped :=
        Children.unreaped_exit (by simp [hrunning])
      simpa only [Tracked, hsame] using hs
  | recorded hpc _ | terminate hpc | probesOver i hpc | forceKill hpc | finalFails hpc =>
      simp only [Tracked, hpc] at hs
      exact hs

theorem tracked_exec {t : Supervisor} {as : List Action} (h : machine.exec {} as = some t) :
    Tracked t := by
  apply Machine.exec_induction (P := Tracked) _ tracked_init h
  intro s a s' hs hstep
  exact tracked_moves hs (step_moves hstep)

end Supervisor

end FrameProcessor
