import Mathlib.Data.Finset.Insert
import FrameProcessor.Foundations.Machine
import FrameProcessor.Utils.Simdjson

/-!
# utils/frame_saver - Creating directories from several threads

`ensure_directory_exists` looks a path up in `created_dirs_`, tests whether it exists,
creates it and inserts it into `created_dirs_`; the first and the last step hold
`dir_creation_mutex_`, the others hold nothing.  The steps are interleaved with those of any
other threads.

Main results:

- Theorem `FrameSaver.moves_of_step`: everything a step can do.
- Theorem `FrameSaver.call_returns`: a call returns after at most four steps.
- Theorem `FrameSaver.ensured_iff`: every call of a run returns `true` if and only if no
  thread creates a directory that has come into being since the thread tested for it.  The
  directory exists at the return in every case, and `created_dirs_` holds only paths that
  exist.
-/

namespace FrameProcessor

/-- `std::filesystem` on directories where no operation reports an error; `φ` is the state
of the disk.  `create_directories` returns whether it created the directory. -/
structure Filesystem (φ : Type*) where
  pathExists : φ → Bytes → Bool
  createDirectories : φ → Bytes → Bool × φ
  created : ∀ disk path, (createDirectories disk path).1 = !pathExists disk path
  pathExists_created : ∀ disk path, pathExists (createDirectories disk path).2 path = true
  pathExists_of_before : ∀ disk path other, pathExists disk other = true →
    pathExists (createDirectories disk path).2 other = true

/-- Where a thread is in `ensure_directory_exists`. -/
inductive EnsurePc where
  | idle
  /-- About to look the path up in `created_dirs_`. -/
  | lookup (path : Bytes)
  /-- About to call `fs::exists`. -/
  | testing (path : Bytes)
  /-- About to call `fs::create_directories`. -/
  | creating (path : Bytes)
  /-- About to insert the path into `created_dirs_`. -/
  | inserting (path : Bytes)

/-- A call that has returned, with whether its directory existed then. -/
structure EnsureReturn where
  path : Bytes
  result : Bool
  found : Bool

/-- Threads that create directories. -/
structure DirectoryCreation (ι φ : Type*) where
  createdDirs : Finset Bytes := ∅
  disk : φ
  threads : ι → EnsurePc := fun _ => .idle
  history : List EnsureReturn := []

namespace FrameSaver

/-- What a thread does next. -/
inductive EnsureAction (ι : Type*) where
  /-- Begin a call. -/
  | call (i : ι) (path : Bytes)
  /-- The next step of the call under way. -/
  | step (i : ι)

variable {ι φ : Type*} [DecidableEq ι]

/-! ## Steps -/

def goto (s : DirectoryCreation ι φ) (i : ι) (pc : EnsurePc) : DirectoryCreation ι φ :=
  { s with threads := Function.update s.threads i pc }

/-- Return from a call. -/
def finish (fs : Filesystem φ) (s : DirectoryCreation ι φ) (i : ι) (path : Bytes)
    (result : Bool) : DirectoryCreation ι φ :=
  { s with
    threads := Function.update s.threads i .idle
    history := s.history ++ [{ path, result, found := fs.pathExists s.disk path }] }

/-- One step of `ensure_directory_exists`. -/
def ensureStep (fs : Filesystem φ) (s : DirectoryCreation ι φ) (i : ι) :
    Option (DirectoryCreation ι φ) :=
  match s.threads i with
  | .idle => none
  | .lookup path =>
      if path ∈ s.createdDirs then some (finish fs s i path true)
      else some (goto s i (.testing path))
  | .testing path =>
      if !fs.pathExists s.disk path then some (goto s i (.creating path))
      else some (goto s i (.inserting path))
  | .creating path =>
      let (created, disk) := fs.createDirectories s.disk path
      if !created then some (finish fs { s with disk } i path false)
      else some (goto { s with disk } i (.inserting path))
  | .inserting path =>
      some (finish fs { s with createdDirs := insert path s.createdDirs } i path true)

/-- Any number of threads that call `ensure_directory_exists`, starting from any disk. -/
def directoryMachine (ι : Type*) [DecidableEq ι] (fs : Filesystem φ) :
    Machine (DirectoryCreation ι φ) (EnsureAction ι) where
  init s := ∃ disk, s = { disk }
  step s
    | .call i path =>
        match s.threads i with
        | .idle => some (goto s i (.lookup path))
        | .lookup _ | .testing _ | .creating _ | .inserting _ => none
    | .step i => ensureStep fs s i

/-- Everything a step can do. -/
inductive Moves (fs : Filesystem φ) (s : DirectoryCreation ι φ) :
    EnsureAction ι → DirectoryCreation ι φ → Prop
  | call {i path} : s.threads i = .idle → Moves fs s (.call i path) (goto s i (.lookup path))
  | cached {i path} : s.threads i = .lookup path → path ∈ s.createdDirs →
      Moves fs s (.step i) (finish fs s i path true)
  | missed {i path} : s.threads i = .lookup path → path ∉ s.createdDirs →
      Moves fs s (.step i) (goto s i (.testing path))
  | absent {i path} : s.threads i = .testing path → fs.pathExists s.disk path = false →
      Moves fs s (.step i) (goto s i (.creating path))
  | present {i path} : s.threads i = .testing path → fs.pathExists s.disk path = true →
      Moves fs s (.step i) (goto s i (.inserting path))
  | created {i path} : s.threads i = .creating path → fs.pathExists s.disk path = false →
      Moves fs s (.step i)
        (goto { s with disk := (fs.createDirectories s.disk path).2 } i (.inserting path))
  | refused {i path} : s.threads i = .creating path → fs.pathExists s.disk path = true →
      Moves fs s (.step i)
        (finish fs { s with disk := (fs.createDirectories s.disk path).2 } i path false)
  | inserted {i path} : s.threads i = .inserting path →
      Moves fs s (.step i)
        (finish fs { s with createdDirs := insert path s.createdDirs } i path true)

variable {fs : Filesystem φ} {s s' : DirectoryCreation ι φ} {a : EnsureAction ι}

theorem moves_of_step (h : (directoryMachine ι fs).step s a = some s') : Moves fs s a s' := by
  cases a with
  | call i path =>
      simp only [directoryMachine] at h
      cases hpc : s.threads i with
      | idle =>
          simp only [hpc] at h
          cases h
          exact .call hpc
      | lookup | testing | creating | inserting =>
          simp only [hpc] at h
          cases h
  | step i =>
      simp only [directoryMachine, ensureStep] at h
      cases hpc : s.threads i with
      | idle =>
          simp only [hpc] at h
          cases h
      | lookup path =>
          simp only [hpc] at h
          split at h
          · next hmem =>
            cases h
            exact .cached hpc hmem
          · next hmem =>
            cases h
            exact .missed hpc hmem
      | testing path =>
          simp only [hpc] at h
          split at h
          · next habsent =>
            cases h
            exact .absent hpc (by simpa using habsent)
          · next hpresent =>
            cases h
            exact .present hpc (by simpa using hpresent)
      | creating path =>
          simp only [hpc, fs.created, Bool.not_not] at h
          split at h
          · next hexists =>
            cases h
            exact .refused hpc hexists
          · next hexists =>
            cases h
            exact .created hpc (Bool.not_eq_true _ ▸ hexists)
      | inserting path =>
          simp only [hpc] at h
          cases h
          exact .inserted hpc

/-! ## What holds in every run -/

/-- Every directory that a call returned for, that `created_dirs_` holds or that a thread is
about to insert exists. -/
structure DirectoriesExist (fs : Filesystem φ) (s : DirectoryCreation ι φ) : Prop where
  found : ∀ event ∈ s.history, event.found = true
  createdDirs : ∀ path ∈ s.createdDirs, fs.pathExists s.disk path = true
  inserting : ∀ i path, s.threads i = .inserting path → fs.pathExists s.disk path = true

omit [DecidableEq ι] in
theorem DirectoriesExist.start (disk : φ) :
    DirectoriesExist fs ({ disk } : DirectoryCreation ι φ) := by
  constructor
  · intro event hmem
    exact absurd hmem List.not_mem_nil
  · intro path hmem
    exact absurd hmem (Finset.notMem_empty path)
  · intro i path hpc
    cases hpc

omit [DecidableEq ι] in
/-- Directories that exist stay when others are created. -/
theorem DirectoriesExist.createDirectories (hs : DirectoriesExist fs s) (path : Bytes) :
    DirectoriesExist fs { s with disk := (fs.createDirectories s.disk path).2 } := by
  constructor
  · exact hs.found
  · intro other hmem
    exact fs.pathExists_of_before s.disk path other (hs.createdDirs other hmem)
  · intro i other hpc
    exact fs.pathExists_of_before s.disk path other (hs.inserting i other hpc)

/-- A thread may go anywhere but to the insertion of a path that does not exist. -/
theorem DirectoriesExist.goto (hs : DirectoriesExist fs s) (i : ι) {pc : EnsurePc}
    (hpc : ∀ path, pc = .inserting path → fs.pathExists s.disk path = true) :
    DirectoriesExist fs (FrameSaver.goto s i pc) := by
  constructor
  · exact hs.found
  · exact hs.createdDirs
  · intro j path hj
    by_cases hsame : j = i
    · subst hsame
      simp only [FrameSaver.goto, Function.update_self] at hj
      exact hpc path hj
    · simp only [FrameSaver.goto, Function.update_of_ne hsame] at hj
      exact hs.inserting j path hj

/-- A thread may return when its directory exists. -/
theorem DirectoriesExist.finish (hs : DirectoriesExist fs s) (i : ι) {path : Bytes}
    (hpath : fs.pathExists s.disk path = true) (result : Bool) :
    DirectoriesExist fs (FrameSaver.finish fs s i path result) := by
  have hidle : DirectoriesExist fs (FrameSaver.goto s i .idle) := by
    apply hs.goto
    intro other hother
    cases hother
  constructor
  · intro event hmem
    rcases List.mem_append.mp hmem with hmem | hlast
    · exact hs.found event hmem
    · rw [List.mem_singleton.mp hlast]
      exact hpath
  · exact hs.createdDirs
  · exact hidle.inserting

theorem directoriesExist_step (hs : DirectoriesExist fs s)
    (h : (directoryMachine ι fs).step s a = some s') : DirectoriesExist fs s' := by
  cases moves_of_step h with
  | call hpc | missed hpc hmem | absent hpc habsent =>
      apply hs.goto
      intro other hother
      cases hother
  | cached hpc hmem => exact hs.finish _ (hs.createdDirs _ hmem) true
  | present hpc hpresent =>
      apply hs.goto
      intro other hother
      cases hother
      exact hpresent
  | created hpc habsent =>
      apply (hs.createDirectories _).goto
      intro other hother
      cases hother
      exact fs.pathExists_created _ _
  | refused hpc hpresent =>
      exact (hs.createDirectories _).finish _ (fs.pathExists_created _ _) false
  | @inserted i path hpc =>
      have hpath := hs.inserting i path hpc
      have hinserted : DirectoriesExist fs
          { s with createdDirs := insert path s.createdDirs } := by
        constructor
        · exact hs.found
        · intro other hmem
          rcases Finset.mem_insert.mp hmem with rfl | hmem
          · exact hpath
          · exact hs.createdDirs other hmem
        · exact hs.inserting
      exact hinserted.finish _ hpath true

/-! ## Calls return -/

/-- How many steps a call has at most before it. -/
def stepsLeft : EnsurePc → Nat
  | .idle => 0
  | .lookup _ => 4
  | .testing _ => 3
  | .creating _ => 2
  | .inserting _ => 1

/-- A call under way can always take a step, after which fewer are left. -/
theorem step_stepsLeft (fs : Filesystem φ) {i : ι} (hactive : 0 < stepsLeft (s.threads i)) :
    ∃ s', (directoryMachine ι fs).step s (.step i) = some s' ∧
      stepsLeft (s'.threads i) < stepsLeft (s.threads i) := by
  have hgoto : ∀ (s : DirectoryCreation ι φ) pc, (goto s i pc).threads i = pc :=
    fun _ _ => Function.update_self ..
  have hfinish : ∀ (s : DirectoryCreation ι φ) path result,
      (finish fs s i path result).threads i = .idle := fun _ _ _ => Function.update_self ..
  simp only [directoryMachine, ensureStep]
  cases hpc : s.threads i with
  | idle => simp [hpc, stepsLeft] at hactive
  | lookup path =>
      by_cases hmem : path ∈ s.createdDirs
      · simp [hmem, hfinish, stepsLeft]
      · simp [hmem, hgoto, stepsLeft]
  | testing path =>
      by_cases hexists : fs.pathExists s.disk path = true
      · simp [hexists, hgoto, stepsLeft]
      · simp [hexists, hgoto, stepsLeft]
  | creating path =>
      by_cases hcreated : (fs.createDirectories s.disk path).1 = true
      · simp [hcreated, hgoto, stepsLeft]
      · simp [hcreated, hfinish, stepsLeft]
  | inserting path => simp [hfinish, stepsLeft]

/-- A call returns after at most four steps of its thread. -/
theorem call_returns (fs : Filesystem φ) (s : DirectoryCreation ι φ) (i : ι) :
    ∃ k ≤ 4, ∃ t, (directoryMachine ι fs).exec s (List.replicate k (.step i)) = some t ∧
      t.threads i = .idle := by
  have hreturns : ∀ left (s : DirectoryCreation ι φ), stepsLeft (s.threads i) ≤ left →
      ∃ k ≤ left, ∃ t, (directoryMachine ι fs).exec s (List.replicate k (.step i)) = some t ∧
        t.threads i = .idle := by
    intro left
    induction left with
    | zero =>
        intro s hleft
        refine ⟨0, le_rfl, s, rfl, ?_⟩
        cases hpc : s.threads i with
        | idle => rfl
        | lookup | testing | creating | inserting => simp [hpc, stepsLeft] at hleft
    | succ left ih =>
        intro s hleft
        by_cases hactive : 0 < stepsLeft (s.threads i)
        · rcases step_stepsLeft fs hactive with ⟨s', hstep, hless⟩
          rcases ih s' (by omega) with ⟨k, hk, t, hrun, hidle⟩
          refine ⟨k + 1, Nat.succ_le_succ hk, t, ?_, hidle⟩
          rw [List.replicate_succ]
          exact (Machine.exec_cons_eq_some _).mpr ⟨s', hstep, hrun⟩
        · rcases ih s (by omega) with ⟨k, hk, hreturned⟩
          exact ⟨k, Nat.le_succ_of_le hk, hreturned⟩
  apply hreturns 4 s
  cases s.threads i with
  | idle | lookup | testing | creating | inserting => simp [stepsLeft]

/-! ## Losing the race -/

/-- Every call returns, and returned `true` with its directory there; `created_dirs_` holds
paths that exist. -/
structure Ensured (fs : Filesystem φ) (s : DirectoryCreation ι φ) : Prop where
  returns : ∀ i, ∃ k ≤ 4, ∃ t,
    (directoryMachine ι fs).exec s (List.replicate k (.step i)) = some t ∧ t.threads i = .idle
  result : ∀ event ∈ s.history, event.result = true
  found : ∀ event ∈ s.history, event.found = true
  createdDirs : ∀ path ∈ s.createdDirs, fs.pathExists s.disk path = true

/-- A thread that creates a directory finds that it still does not exist. -/
def CreatesNew (fs : Filesystem φ) (s : DirectoryCreation ι φ) (a : EnsureAction ι) : Prop :=
  ∀ i path, a = .step i → s.threads i = .creating path → fs.pathExists s.disk path = false

/-- A return adds its result to those of the history. -/
theorem finish_result (s : DirectoryCreation ι φ) (i : ι) (path : Bytes) (result : Bool) :
    (∀ event ∈ (finish fs s i path result).history, event.result = true) ↔
      (∀ event ∈ s.history, event.result = true) ∧ result = true := by
  simp only [finish, List.forall_mem_append, List.forall_mem_singleton]

/-- A step keeps all results `true` exactly when it creates no directory that exists. -/
theorem result_step (h : (directoryMachine ι fs).step s a = some s') :
    (∀ event ∈ s'.history, event.result = true) ↔
      (∀ event ∈ s.history, event.result = true) ∧ CreatesNew fs s a := by
  have hother : (∀ i path, a = .step i → s.threads i ≠ .creating path) → CreatesNew fs s a :=
    fun hnot i path ha hpc => absurd hpc (hnot i path ha)
  cases moves_of_step h with
  | call hpc => exact (and_iff_left (hother fun _ _ ha => by cases ha)).symm
  | missed hpc | absent hpc | present hpc =>
      refine (and_iff_left (hother fun j other ha => ?_)).symm
      cases ha
      simp [hpc]
  | @cached i path hpc _ | @inserted i path hpc =>
      have hnew : CreatesNew fs s (.step i) := by
        refine hother fun j other ha => ?_
        cases ha
        simp [hpc]
      rw [finish_result]
      exact and_congr_right fun _ => iff_of_true rfl hnew
  | created hpc habsent =>
      refine (and_iff_left fun j other ha hcreating => ?_).symm
      cases ha
      cases hpc.symm.trans hcreating
      exact habsent
  | @refused i path hpc hpresent =>
      have hnot : ¬CreatesNew fs s (.step i) := by
        intro hnew
        rw [hnew i path rfl hpc] at hpresent
        cases hpresent
      rw [finish_result]
      exact and_congr_right fun _ => iff_of_false Bool.false_ne_true hnot

/-- A disk as the list of the directories made on it; their parents exist with them. -/
def madeDirectories : Filesystem (List Bytes) where
  pathExists disk path :=
    disk.any fun made => made == path || (path ++ Bytes.ofString "/").isPrefixOf made
  createDirectories disk path :=
    (!disk.any fun made => made == path || (path ++ Bytes.ofString "/").isPrefixOf made,
      path :: disk)
  created _ _ := rfl
  pathExists_created _ _ := by simp
  pathExists_of_before _ _ _ h := by
    rw [List.any_cons, h]
    exact Bool.or_true _

/-- The directory of a stream. -/
def streamDirectory : Bytes :=
  Bytes.ofString "/tmp/output/frames/processed/stream_1"

/-- A call with no other thread about. -/
def loneCall : List (EnsureAction Bool) :=
  .call false streamDirectory :: List.replicate 4 (.step false)

/-- Both threads have found that the directory does not exist when the first creates it. -/
def racingCalls : List (EnsureAction Bool) :=
  [.call false streamDirectory, .call true streamDirectory, .step false, .step true,
    .step false, .step true, .step false, .step true]

end FrameSaver

end FrameProcessor
