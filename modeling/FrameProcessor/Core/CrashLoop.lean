import FrameProcessor.Core.Relaunching
import FrameProcessor.Core.Startup

/-!
# core/main - Children that never get to their services

The environment is inherited by every child.  When a variable cannot be read, or the
configuration file cannot be loaded, no child gets to its services, and the parent takes each
of them for one that has crashed.  It keeps no account of how often that happens and forks the
next one, until it is asked to shut down.

Main results:

- Theorem `Supervisor.neverServes_iff`: when no child gets to its services.
- Theorem `Supervisor.NeverServes.abnormal`: such a child never ends normally.
- Theorem `Supervisor.watched_dies`: the parent sees the end of a child that it watches.
- Theorem `Supervisor.crash_loops`: the number of children has no bound.
-/

namespace FrameProcessor

/-- The entries of the history that record a fork. -/
def SupervisorEvent.isFork : SupervisorEvent → Bool
  | .forked _ => true
  | _ => false

namespace Supervisor

variable {s s' : Supervisor}

/-! ## How the children end -/

/-- Whichever of the files it finds, a child does not get to its services. -/
def NeverServes (hardwareConcurrency : UInt32) (env : ProcessEnvironment) (lib : Simdjson)
    (files : Set (Option Bytes)) : Prop :=
  ∀ file ∈ files, ∀ services,
    AppLogic.start hardwareConcurrency env lib file ≠ some (.serving services)

/-- How a child may end that runs `app_logic` and finds one of the files: by a signal, as its
start does if that fails, or in any way once it has got to its services. -/
def EndsAsStarted (hardwareConcurrency : UInt32) (env : ProcessEnvironment) (lib : Simdjson)
    (files : Set (Option Bytes)) (status : ExitStatus) : Prop :=
  (∃ signum, status = .signaled signum) ∨
    ∃ file ∈ files, ∃ result, AppLogic.start hardwareConcurrency env lib file = some result ∧
      ∀ ended, result.status = some ended → status = ended

section Children

variable {hardwareConcurrency : UInt32} {env : ProcessEnvironment} {lib : Simdjson}
  {files : Set (Option Bytes)}

/-- No child gets to its services exactly when a variable cannot be read, or none of the files can
be loaded. -/
theorem neverServes_iff :
    NeverServes hardwareConcurrency env lib files ↔ ¬ env.Readable ∨ ∀ file ∈ files, ∀ manager,
      ConfigManager.construct ((ConfigManager.streamIdsValue env.configManager).length + 1)
        env.configManager = some (.ok manager) →
      manager.parseConfigJson lib file = none := by
  constructor
  · intro hnever
    by_cases henv : env.Readable
    · refine Or.inr fun file hfile manager hmanager => ?_
      by_contra hloaded
      rw [← ne_eq, Option.ne_none_iff_isSome] at hloaded
      rcases AppLogic.start_serving_iff.mpr ⟨henv, manager, hmanager, hloaded⟩ with
        ⟨services, hstart⟩
      exact hnever file hfile services hstart
    · exact Or.inl henv
  · intro hfails file hfile services hstart
    rcases AppLogic.start_serving_iff.mp ⟨services, hstart⟩ with ⟨henv, manager, hmanager, hloaded⟩
    rcases hfails with hunreadable | hbroken
    · exact hunreadable henv
    · rw [hbroken file hfile manager hmanager] at hloaded
      cases hloaded

/-- A child that does not get to its services never ends normally. -/
theorem NeverServes.abnormal {status : ExitStatus}
    (hnever : NeverServes hardwareConcurrency env lib files)
    (h : EndsAsStarted hardwareConcurrency env lib files status) : status.normal = false := by
  rcases h with ⟨signum, rfl⟩ | ⟨file, hfile, result, hstart, hended⟩
  · rfl
  · cases result with
    | failed =>
        rw [hended _ rfl]
        rfl
    | terminated exception =>
        rw [hended _ rfl]
        rfl
    | serving services => exact absurd hstart (hnever file hfile services)

end Children

/-! ## Counting the children -/

/-- How many children have been forked. -/
def forks (s : Supervisor) : Nat :=
  s.history.countP SupervisorEvent.isFork

theorem forks_forked (pid : Int) : (s.forked pid).forks = s.forks + 1 := by
  simp [forks, forked, SupervisorEvent.isFork]

/-- No step forgets a fork. -/
theorem forks_step {a : Action} (h : machine.step s a = some s') : s.forks ≤ s'.forks := by
  cases step_moves h with
  | fork pid =>
      rw [forks_forked]
      exact Nat.le_succ _
  | signal signum =>
      rw [parentSignalHandler_cases]
      simp [forks]
  | _ => simp [forks, record, kill, goto, reaped]

/-! ## The end of a child -/

/-- The parent watches a child that runs. -/
structure Watching (s : Supervisor) : Prop where
  watched : s.pc ∈ [.assigning, .loopHead, .polling]
  running : s.children s.pid = some .running

/-- The parent watches a child that has ended. -/
structure Bereft (s : Supervisor) : Prop where
  watched : s.pc ∈ [.assigning, .loopHead, .polling]
  ended : ∃ status, s.children s.pid = some (.terminated status)

/-- As long as no shutdown is requested, the parent watches its child to the end. -/
theorem watching_step {a : Action} (hs : s.Watching) (hrequest : s.gParentShutdownRequest = false)
    (hhealthy : Healthy s a) (h : machine.step s a = some s') :
    s'.gParentShutdownRequest = true ∨ (s'.Watching ∧ s'.pid = s.pid) ∨ s'.Bereft := by
  have hwatched := hs.watched
  cases step_moves h with
  | signal signum =>
      rw [parentSignalHandler_cases]
      exact Or.inl rfl
  | childExit pid status =>
      by_cases hpid : s.pid = pid
      · subst hpid
        exact Or.inr (Or.inr ⟨hwatched, status, Children.exit_self⟩)
      · refine Or.inr (Or.inl ⟨⟨hwatched, ?_⟩, rfl⟩)
        change s.children.exit pid status s.pid = some .running
        rw [Children.exit, Function.update_of_ne hpid]
        exact hs.running
  | assign => exact Or.inr (Or.inl ⟨⟨by simp, hs.running⟩, rfl⟩)
  | poll => exact Or.inr (Or.inl ⟨⟨by simp, hs.running⟩, rfl⟩)
  | pollAgain => exact Or.inr (Or.inl ⟨⟨by simp, hs.running⟩, rfl⟩)
  | reap status hpc hstatus =>
      rw [hs.running] at hstatus
      cases hstatus
  | pollFails hpc =>
      have hnone : s.children s.pid = none := hhealthy.1 hpc
      rw [hs.running] at hnone
      cases hnone
  | shutdownSeen hpc hseen =>
      rw [hrequest] at hseen
      cases hseen
  | fork pid hpc => rcases hpc with hpc | hpc <;> simp [hpc] at hwatched
  | relaunch hpc | forkFails hpc | relaunchFails hpc | recorded hpc | unrecorded hpc
  | terminate hpc | probe _ _ hpc | probesOver _ hpc | probeLast _ hpc | forceKill hpc
  | finalReap _ hpc | finalFails hpc | leave hpc => simp [hpc] at hwatched

/-- A child that the parent watches and that ends some time is seen to have ended, or a shutdown
is requested. -/
theorem watched_dies (b : Behaviour healthy) {i j : Nat} (hs : (b.state i).Watching) (hij : i ≤ j)
    (hends : (b.state j).children (b.state i).pid ≠ some .running) :
    ∃ k, i ≤ k ∧ ((b.state k).gParentShutdownRequest = true ∨ (b.state k).Bereft) := by
  by_contra hnever
  simp only [not_exists, not_and, not_or] at hnever
  have hwatching : (b.state j).Watching ∧ (b.state j).pid = (b.state i).pid := by
    clear hends
    induction j, hij using Nat.le_induction with
    | base => exact ⟨hs, rfl⟩
    | succ j hij ih =>
        have hpass := b.elapses j
        unfold Machine.Elapses at hpass
        split at hpass
        · rw [hpass]
          exact ih
        · next a _ =>
          rcases Machine.restrict_step.mp hpass with ⟨hhealthy, hstep⟩
          have hrequest : (b.state j).gParentShutdownRequest = false := by
            simpa using (hnever j hij).1
          rcases watching_step ih.1 hrequest hhealthy hstep with hasked | ⟨hw, hpid⟩ | hbereft
          · exact absurd hasked (hnever (j + 1) (hij.trans (Nat.le_succ j))).1
          · exact ⟨hw, hpid.trans ih.2⟩
          · exact absurd hbereft (hnever (j + 1) (hij.trans (Nat.le_succ j))).2
  refine hends ?_
  rw [← hwatching.2]
  exact hwatching.1.running

/-! ## The first child -/

/-- Where `fork` succeeds, the first child is forked unless a shutdown is requested before. -/
theorem first_fork (b : Behaviour healthy) (hfair : b.Fair owner ()) :
    b.LeadsTo (fun s => s.pc = .forking ∧ s.children.unreaped = ∅)
      (fun s => s.gParentShutdownRequest = true ∨ ∃ s₀ pid, s = forked s₀ pid) := by
  refine Behaviour.leadsTo_of_rank (fun _ => 0) (fun _ => ()) ?_ ?_ b (fun _ => hfair)
  · rintro s a s' ⟨hpc, hnone⟩ hgoal hstep
    rcases Machine.restrict_step.mp hstep with ⟨hhealthy, hstep⟩
    cases step_moves hstep with
    | fork pid => exact Or.inl (Or.inr ⟨s, pid, rfl⟩)
    | signal signum =>
        rw [parentSignalHandler_cases]
        exact Or.inl (Or.inl rfl)
    | forkFails | relaunchFails => exact absurd hhealthy id
    | childExit pid status hrunning =>
        have hpid : pid ∈ s.children.unreaped := by simp [hrunning]
        rw [hnone] at hpid
        exact hpid.elim
    | shutdownSeen hother => rcases hother with hother | hother <;> simp [hpc] at hother
    | poll hother | relaunch hother | assign hother | pollAgain _ hother | reap _ hother
    | pollFails hother | recorded hother | unrecorded hother | terminate hother
    | probe _ _ hother | probesOver _ hother | probeLast _ hother | forceKill hother
    | finalReap _ hother | finalFails hother | leave hother => simp [hpc] at hother
  · rintro s ⟨hpc, hnone⟩ -
    have hfree : s.children 1 = none := Children.not_mem_unreaped.mp (by simp [hnone])
    exact .restrict (.fork (some 1)) rfl trivial (by simp [machine, forkStep, hpc, hfree])

/-! ## The loop -/

/-- From a new child on: as long as every child ends some time and no child ends normally, the
next one is forked, or a shutdown is requested. -/
theorem next_fork (b : Behaviour healthy) (hstart : healthy.Reachable (b.state 0))
    (hfair : b.Fair owner ())
    (hends : ∀ i pid, (b.state i).children pid = some .running →
      ∃ j, i ≤ j ∧ (b.state j).children pid ≠ some .running)
    (habnormal : ∀ i pid status, (b.state i).children pid = some (.terminated status) →
      status.normal = false)
    {i : Nat} (hs : (b.state i).Relaunched) {n : Nat} (hn : n ≤ (b.state i).forks) :
    ∃ j, i ≤ j ∧ ((b.state j).gParentShutdownRequest = true ∨
      ((b.state j).Relaunched ∧ n + 1 ≤ (b.state j).forks)) := by
  have hwatching : (b.state i).Watching := ⟨by rw [hs.1]; simp, hs.2⟩
  rcases hends i _ hs.2 with ⟨j, hij, hended⟩
  rcases watched_dies b hwatching hij hended with ⟨k, hik, hasked | hbereft⟩
  · exact ⟨k, hik, Or.inl hasked⟩
  · have hkept : ∀ s a s', n ≤ s.forks → machine.step s a = some s' → n ≤ s'.forks :=
      fun _ _ _ hle hstep => hle.trans (forks_step hstep)
    have hk : n ≤ (b.state k).forks :=
      b.invariant (fun s a s' hle hstep => hkept s a s' hle (Machine.restrict_step.mp hstep).2)
        hik hn
    rcases hbereft.ended with ⟨status, hstatus⟩
    have hdead : (b.state k).Dead := ⟨status, hstatus, habnormal k _ status hstatus⟩
    rcases abandoned_leadsTo hkept b hfair k
      ⟨⟨tracked_state b hstart k, hdead.abandoned hbereft.watched⟩, hk⟩ with
      ⟨l, hkl, hasked | ⟨s₀, pid, hs₀, hforked⟩⟩
    · exact ⟨l, hik.trans hkl, Or.inl hasked⟩
    · refine ⟨l, hik.trans hkl, Or.inr ?_⟩
      rw [hforked, forks_forked]
      exact ⟨relaunched_forked pid, Nat.succ_le_succ hs₀⟩

/-- When no child gets to its services, in every fair behaviour in which `fork` succeeds and every
child ends some time, and as it has started: the number of children grows beyond every bound,
until a shutdown is requested. -/
theorem crash_loops {hardwareConcurrency : UInt32} {env : ProcessEnvironment} {lib : Simdjson}
    {files : Set (Option Bytes)} (hnever : NeverServes hardwareConcurrency env lib files)
    (b : Behaviour healthy) (hstart : healthy.init (b.state 0))
    (hfair : b.Fair owner ())
    (hends : ∀ i pid, (b.state i).children pid = some .running →
      ∃ j, i ≤ j ∧ (b.state j).children pid ≠ some .running)
    (hstatus : ∀ i pid status, (b.state i).children pid = some (.terminated status) →
      EndsAsStarted hardwareConcurrency env lib files status) (n : Nat) :
    ∃ j, (b.state j).gParentShutdownRequest = true ∨ n ≤ (b.state j).forks := by
  have habnormal : ∀ i pid status, (b.state i).children pid = some (.terminated status) →
      status.normal = false :=
    fun i pid status h => hnever.abnormal (hstatus i pid status h)
  have hloop : ∃ j, (b.state j).gParentShutdownRequest = true ∨
      ((b.state j).Relaunched ∧ n ≤ (b.state j).forks) := by
    induction n with
    | zero =>
        have hinit : b.state 0 = {} := hstart
        have hforking : (b.state 0).pc = .forking ∧ (b.state 0).children.unreaped = ∅ := by
          rw [hinit]
          exact ⟨rfl, Children.unreaped_empty⟩
        rcases first_fork b hfair 0 hforking with ⟨j, -, hasked | ⟨s₀, pid, hforked⟩⟩
        · exact ⟨j, Or.inl hasked⟩
        · refine ⟨j, Or.inr ⟨?_, Nat.zero_le _⟩⟩
          rw [hforked]
          exact relaunched_forked pid
    | succ n ih =>
        rcases ih with ⟨i, hasked | ⟨hrelaunched, hn⟩⟩
        · exact ⟨i, Or.inl hasked⟩
        · rcases next_fork b (.of_init _ hstart) hfair hends habnormal hrelaunched hn with
            ⟨j, -, hj⟩
          exact ⟨j, hj⟩
  rcases hloop with ⟨j, hasked | ⟨-, hn⟩⟩
  · exact ⟨j, Or.inl hasked⟩
  · exact ⟨j, Or.inr hn⟩

/-- The number of workers is no number. -/
def manyWorkers : ProcessEnvironment where
  numWorkerThreads := some (Bytes.ofString "many")

theorem manyWorkers_unreadable : ¬ manyWorkers.Readable := by
  intro h
  rcases h.numWorkerThreads _ rfl with ⟨value, hvalue⟩
  have hthrows : stoi (Bytes.ofString "many") = .error (.invalidArgument (Bytes.ofString "stoi")) :=
    rfl
  rw [hthrows] at hvalue
  cases hvalue

/-- A child that is told so aborts. -/
theorem manyWorkers_aborts :
    EndsAsStarted 8 manyWorkers ConfigManager.emptyLibrary Set.univ (.signaled 6) := by
  refine Or.inr ⟨some ConfigManager.streamsOnlyText, Set.mem_univ _,
    .terminated (.invalidArgument (Bytes.ofString "stoi")), rfl, ?_⟩
  intro ended hended
  cases hended
  rfl

/-- Two children abort before the shutdown is requested. -/
def abortSchedule : List Action :=
  [.fork (some 7), .main, .main, .childExit 7 (.signaled 6), .wait .terminated, .main,
    .fork (some 8), .main, .main, .childExit 8 (.signaled 6), .signal .sigterm,
    .wait .terminated, .main, .main, .main, .probe false, .probe false, .wait .failed, .main]

/-- Children that only abort have aborted. -/
theorem aborted_step {a : Action}
    (hs : ∀ pid status, s.children pid = some (.terminated status) → status = .signaled 6)
    (ha : ∀ pid status, a = .childExit pid status → status = .signaled 6)
    (h : machine.step s a = some s') (pid : Int) (status : ExitStatus)
    (hpid : s'.children pid = some (.terminated status)) : status = .signaled 6 := by
  have hkept : ∀ (other : Int) (child : Option (Child ExitStatus)),
      child ≠ some (.terminated status) →
        Function.update s.children other child pid = some (.terminated status) →
          status = .signaled 6 := by
    intro other child hchild hmem
    by_cases hother : pid = other
    · rw [hother, Function.update_self] at hmem
      exact absurd hmem hchild
    · rw [Function.update_of_ne hother] at hmem
      exact hs pid status hmem
  cases step_moves h with
  | fork other => exact hkept other (some .running) nofun hpid
  | reap => exact hkept s.pid none nofun hpid
  | finalReap => exact hkept s.gChildPid none nofun hpid
  | childExit other ended =>
      by_cases hsame : status = ended
      · exact hsame.trans (ha other ended rfl)
      · refine hkept other (some (.terminated ended)) ?_ hpid
        intro heq
        cases heq
        exact hsame rfl
  | signal =>
      rw [parentSignalHandler_cases] at hpid
      exact hs pid status hpid
  | _ => exact hs pid status hpid

/-- With the number of workers given as a word, a second child is forked or a shutdown is
requested. -/
theorem crash_loops_many :
    ∃ b : Behaviour healthy, healthy.init (b.state 0) ∧
      ∃ j, (b.state j).gParentShutdownRequest = true ∨ 2 ≤ (b.state j).forks := by
  have hrun : ∃ t, healthy.exec {} abortSchedule = some t ∧ t.pc = .returned ∧
      t.gChildPid = 8 ∧ t.children 8 = none := ⟨_, rfl, rfl, rfl, rfl⟩
  rcases hrun with ⟨t, hexec, hreturned, hpid, hreaped⟩
  have hsettled : ∀ k, ¬ healthy.CanStep owner k t :=
    fun _ hcan => not_canStep_returned hreturned hcan.of_restrict
  rcases Machine.exists_strongFair hexec hsettled with ⟨b, hzero, hend, haction, hfair⟩
  have hstart : healthy.init (b.state 0) := hzero
  have hends : ∀ i pid, (b.state i).children pid = some .running →
      ∃ j, i ≤ j ∧ (b.state j).children pid ≠ some .running := by
    intro i pid _
    refine ⟨max i abortSchedule.length, le_max_left _ _, ?_⟩
    have htracked := tracked_state b (.of_init _ hstart) (max i abortSchedule.length)
    rw [hend _ (le_max_right _ _)] at htracked ⊢
    simp only [Tracked, hreturned, hpid] at htracked
    intro hrunning
    have hmem : pid ∈ t.children.unreaped := by simp [hrunning]
    have heq : pid = 8 := htracked hmem
    rw [heq, hreaped] at hrunning
    cases hrunning
  have hguard : ∀ a ∈ abortSchedule, ∀ pid status, a = .childExit pid status →
      status = .signaled 6 := by
    simp [abortSchedule]
  have haborted : ∀ i pid status, (b.state i).children pid = some (.terminated status) →
      status = .signaled 6 := by
    refine b.invariant_of_meets
      (P := fun s => ∀ pid status, s.children pid = some (.terminated status) →
        status = .signaled 6)
      (fun s a s' hs ha hstep => aborted_step hs ha (Machine.restrict_step.mp hstep).2) ?_ ?_
    · intro i a ha
      rw [haction] at ha
      exact hguard a (List.mem_of_getElem? ha)
    · rw [hzero]
      intro pid status h
      cases h
  have hstatus : ∀ i pid status, (b.state i).children pid = some (.terminated status) →
      EndsAsStarted 8 manyWorkers ConfigManager.emptyLibrary Set.univ status := by
    intro i pid status h
    rw [haborted i pid status h]
    exact manyWorkers_aborts
  have hnever : NeverServes 8 manyWorkers ConfigManager.emptyLibrary Set.univ :=
    neverServes_iff.mpr (Or.inl manyWorkers_unreadable)
  exact ⟨b, hstart, crash_loops hnever b hstart (hfair ()).fair hends hstatus 2⟩

end Supervisor

end FrameProcessor
