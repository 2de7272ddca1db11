import FrameProcessor.StreamIo.Reconciliation

/-!
# components/stream_io - Reader threads during the manager's calls

The calls of a `StreamIoManager` step by step, next to the reader threads they start, stop
and join.  A call holds `manager_mutex_` from its first step to its last.  Destroying a
thread object, or assigning over one, requests the stop and then waits until the thread
has returned; until then the reader may push any number of frames.  The stop request only
makes a reader return, which it may do at any time in this machine.

Main results:

- Theorem `ReaderThreads.managerStep_finish`: the steps of a call lead to the tables that
  `StreamIoManager.machine` reaches in one step.
- Theorem `ReaderThreads.manager_reachable_of_idle`: between calls the tables are those of
  a sequence of whole calls.
- Theorem `ReaderThreads.pushes_are_current`: outside calls of `update_streams` every frame
  pushed has a recorded configuration, and none is pushed after `stop_all`.
-/

namespace FrameProcessor

open Std

/-- Where the thread that holds `manager_mutex_` is. -/
inductive ManagerPc where
  /-- The mutex is free. -/
  | idle
  /-- In `update_streams`, with the ids still to stop and the configurations to start. -/
  | updating (toStop : List Int64) (toStart : List StreamConfig)
  /-- In `stream_threads_.erase(id)`, joining the thread. -/
  | erasing (id : Int64) (thread : JThread) (toStop : List Int64) (toStart : List StreamConfig)
  /-- The new thread runs and is about to be assigned to its entry. -/
  | assigning (thread : JThread) (toStart : List StreamConfig)
  /-- In `stream_threads_.clear()`. -/
  | clearing
  /-- In `stream_threads_.clear()`, joining the thread of one entry. -/
  | destroying (thread : JThread)

/-- A manager and its reader threads. -/
structure ReaderThreads where
  manager : StreamIoManager := {}
  pc : ManagerPc := .idle
  /-- The threads that have not returned from `run_stream`. -/
  live : List JThread := []
  /-- `stop_all` has returned and no `update_streams` has begun since. -/
  stopped : Bool := false

namespace ReaderThreads

/-! ## Steps -/

/-- The mutex is held by a call of `update_streams`. -/
def inUpdate (s : ReaderThreads) : Bool :=
  match s.pc with
  | .updating _ _ => true
  | .erasing _ _ _ _ => true
  | .assigning _ _ => true
  | _ => false

/-- `update_streams` takes the mutex and decides what to stop and to start. -/
def beginUpdate (s : ReaderThreads) (newConfigs : List StreamConfig) : Option ReaderThreads :=
  match s.pc with
  | .idle =>
      let desired := StreamIoManager.desiredConfigs newConfigs
      (s.manager.toStop desired).map fun toStop =>
        { s with pc := .updating toStop (s.manager.toStart desired), stopped := false }
  | _ => none

/-- `stop_all` takes the mutex; it returns at once when there is no thread object. -/
def beginStopAll (s : ReaderThreads) : Option ReaderThreads :=
  match s.pc with
  | .idle =>
      if s.manager.streamThreads.isEmpty then some { s with stopped := true }
      else some { s with pc := .clearing }
  | _ => none

/-- The next step of the call that holds the mutex; `none` while it waits in a join, and
when an `at()` throws. -/
def managerStep (s : ReaderThreads) : Option ReaderThreads :=
  match s.pc with
  | .idle => none
  | .updating [] [] => some { s with pc := .idle }
  | .updating (id :: toStop) toStart =>
      (s.manager.streamThreads[id.toInt32]?).map fun thread =>
        { s with
          manager := { s.manager with
            streamThreads := s.manager.streamThreads.erase id.toInt32 }
          pc := .erasing id thread toStop toStart }
  | .erasing id thread toStop toStart =>
      if thread ∈ s.live then none
      else
        some { s with
          manager := { s.manager with
            activeStreamConfigs := s.manager.activeStreamConfigs.erase id.toInt32 }
          pc := .updating toStop toStart }
  | .updating [] (config :: toStart) =>
      let thread : JThread := ⟨s.manager.started, config⟩
      some { s with
        manager := { s.manager with
          activeStreamConfigs := s.manager.activeStreamConfigs.insert config.id.toInt32 config
          started := s.manager.started + 1 }
        pc := .assigning thread toStart
        live := thread :: s.live }
  | .assigning thread toStart =>
      let key := thread.config.id.toInt32
      -- an empty thread object has nothing to join
      if s.manager.streamThreads[key]?.any fun old => old ∈ s.live then none
      else
        some { s with
          manager := { s.manager with
            streamThreads := s.manager.streamThreads.insert key thread }
          pc := .updating [] toStart }
  | .clearing =>
      if s.manager.streamThreads.isEmpty then
        some { s with
          manager := { s.manager with activeStreamConfigs := ∅ }
          pc := .idle
          stopped := true }
      else none
  | .destroying thread => if thread ∈ s.live then none else some { s with pc := .clearing }

/-- `clear` goes on to the entry of some key; the order is not specified. -/
def destroy (s : ReaderThreads) (key : Int32) : Option ReaderThreads :=
  match s.pc with
  | .clearing =>
      (s.manager.streamThreads[key]?).map fun thread =>
        { s with
          manager := { s.manager with streamThreads := s.manager.streamThreads.erase key }
          pc := .destroying thread }
  | _ => none

/-- The steps of the threads that share a manager; `φ` is the type of pictures. -/
inductive Action (φ : Type) where
  | updateStreams (newConfigs : List StreamConfig)
  | stopAll
  /-- The call that holds the mutex goes on. -/
  | manager
  | destroy (key : Int32)
  /-- A reader pushes a frame to `decoded_frame_queue_`. -/
  | push (thread : JThread) (frame : DecodedFrame φ)
  /-- A reader returns from `run_stream`. -/
  | exit (thread : JThread)

/-- The manager's calls and the readers' steps in any order. -/
def machine (φ : Type) : Machine ReaderThreads (Action φ) where
  init s := s = {}
  step
    | s, .updateStreams newConfigs => s.beginUpdate newConfigs
    | s, .stopAll => s.beginStopAll
    | s, .manager => s.managerStep
    | s, .destroy key => s.destroy key
    | s, .push thread frame =>
        if thread ∈ s.live ∧ frame.sourceConfig = thread.config then some s else none
    | s, .exit thread =>
        if thread ∈ s.live then some { s with live := s.live.filter (· ≠ thread) } else none

/-! ## The calls as a whole -/

/-- The tables that the call under way will leave. -/
def finish (s : ReaderThreads) : Option StreamIoManager :=
  match s.pc with
  | .idle => some s.manager
  | .updating toStop toStart =>
      (toStop.foldlM StreamIoManager.stopStream s.manager).map
        (toStart.foldl StreamIoManager.startStream)
  | .erasing id _ toStop toStart =>
      (toStop.foldlM StreamIoManager.stopStream
        { s.manager with
          activeStreamConfigs := s.manager.activeStreamConfigs.erase id.toInt32 }).map
        (toStart.foldl StreamIoManager.startStream)
  | .assigning thread toStart =>
      some (toStart.foldl StreamIoManager.startStream
        { s.manager with
          streamThreads :=
            s.manager.streamThreads.insert thread.config.id.toInt32 thread })
  | .clearing => some { s.manager with streamThreads := ∅, activeStreamConfigs := ∅ }
  | .destroying _ => some { s.manager with streamThreads := ∅, activeStreamConfigs := ∅ }

/-- A call of `update_streams` that begins will leave what the whole call leaves. -/
theorem beginUpdate_finish {s s' : ReaderThreads} {newConfigs : List StreamConfig}
    (h : s.beginUpdate newConfigs = some s') :
    s.pc = .idle ∧ s'.finish = s.manager.updateStreams newConfigs := by
  unfold beginUpdate at h
  split at h
  · next hpc =>
    rcases Option.map_eq_some_iff.mp h with ⟨toStop, hstop, rfl⟩
    refine ⟨hpc, ?_⟩
    simp only [finish, StreamIoManager.updateStreams, hstop]
    cases hrun : toStop.foldlM StreamIoManager.stopStream s.manager <;> simp [hrun]
  · cases h

/-- So will a call of `stop_all`. -/
theorem beginStopAll_finish {s s' : ReaderThreads} (h : s.beginStopAll = some s') :
    s.pc = .idle ∧ s'.finish = some s.manager.stopAll := by
  unfold beginStopAll at h
  split at h
  · next hpc =>
    refine ⟨hpc, ?_⟩
    unfold StreamIoManager.stopAll
    split at h
    · next hempty =>
      cases h
      simp only [finish, hpc, if_pos hempty]
    · next hempty =>
      cases h
      simp only [finish, if_neg hempty]
  · cases h

/-- What a step of the call that holds the mutex does. -/
inductive ManagerMoves (s : ReaderThreads) : ReaderThreads → Prop where
  | leave (hpc : s.pc = .updating [] []) : ManagerMoves s { s with pc := .idle }
  | unlink (id : Int64) (thread : JThread) (toStop : List Int64) (toStart : List StreamConfig)
      (hpc : s.pc = .updating (id :: toStop) toStart)
      (hthread : s.manager.streamThreads[id.toInt32]? = some thread) :
      ManagerMoves s
        { s with
          manager := { s.manager with
            streamThreads := s.manager.streamThreads.erase id.toInt32 }
          pc := .erasing id thread toStop toStart }
  | erase (id : Int64) (thread : JThread) (toStop : List Int64) (toStart : List StreamConfig)
      (hpc : s.pc = .erasing id thread toStop toStart) (hjoined : thread ∉ s.live) :
      ManagerMoves s
        { s with
          manager := { s.manager with
            activeStreamConfigs := s.manager.activeStreamConfigs.erase id.toInt32 }
          pc := .updating toStop toStart }
  | start (config : StreamConfig) (toStart : List StreamConfig)
      (hpc : s.pc = .updating [] (config :: toStart)) :
      ManagerMoves s
        { s with
          manager := { s.manager with
            activeStreamConfigs := s.manager.activeStreamConfigs.insert config.id.toInt32 config
            started := s.manager.started + 1 }
          pc := .assigning ⟨s.manager.started, config⟩ toStart
          live := ⟨s.manager.started, config⟩ :: s.live }
  | assign (thread : JThread) (toStart : List StreamConfig)
      (hpc : s.pc = .assigning thread toStart)
      (hjoined : ∀ old, s.manager.streamThreads[thread.config.id.toInt32]? = some old →
        old ∉ s.live) :
      ManagerMoves s
        { s with
          manager := { s.manager with
            streamThreads :=
              s.manager.streamThreads.insert thread.config.id.toInt32 thread }
          pc := .updating [] toStart }
  | cleared (hpc : s.pc = .clearing) (hempty : s.manager.streamThreads = ∅) :
      ManagerMoves s
        { s with
          manager := { s.manager with activeStreamConfigs := ∅ }
          pc := .idle
          stopped := true }
  | destroyed (thread : JThread) (hpc : s.pc = .destroying thread) (hjoined : thread ∉ s.live) :
      ManagerMoves s { s with pc := .clearing }

theorem managerStep_moves {s s' : ReaderThreads} (h : s.managerStep = some s') :
    ManagerMoves s s' := by
  unfold managerStep at h
  split at h
  · cases h
  · next hpc =>
    cases h
    exact .leave hpc
  · next id toStop toStart hpc =>
    rcases Option.map_eq_some_iff.mp h with ⟨thread, hthread, rfl⟩
    exact .unlink id thread toStop toStart hpc hthread
  · next id thread toStop toStart hpc =>
    split at h
    · cases h
    · next hjoined =>
      cases h
      exact .erase id thread toStop toStart hpc hjoined
  · next config toStart hpc =>
    cases h
    exact .start config toStart hpc
  · next thread toStart hpc =>
    simp only at h
    split at h
    · cases h
    · next hjoined =>
      cases h
      refine .assign thread toStart hpc fun old hold => ?_
      simpa [hold] using hjoined
  · next hpc =>
    split at h
    · next hempty =>
      cases h
      exact .cleared hpc (ExtTreeMap.isEmpty_iff.mp hempty)
    · cases h
  · next thread hpc =>
    split at h
    · cases h
    · next hjoined =>
      cases h
      exact .destroyed thread hpc hjoined

/-- The steps of a call do not change what it will leave. -/
theorem managerStep_finish {s s' : ReaderThreads} (h : ManagerMoves s s') :
    s'.finish = s.finish := by
  cases h with
  | leave hpc => simp [finish, hpc]
  | unlink id thread toStop toStart hpc hthread =>
      have hstop : s.manager.stopStream id = some
          { s.manager with
            streamThreads := s.manager.streamThreads.erase id.toInt32
            activeStreamConfigs := s.manager.activeStreamConfigs.erase id.toInt32 } := by
        rw [StreamIoManager.stopStream, if_pos (StreamIoManager.contains_of_getElem? hthread)]
      simp [finish, hpc, hstop]
  | erase id thread toStop toStart hpc hjoined => simp [finish, hpc]
  | start config toStart hpc =>
      simp only [finish, hpc]
      rfl
  | assign thread toStart hpc hjoined => simp [finish, hpc]
  | cleared hpc hempty => simp [finish, hpc, ← hempty]
  | destroyed thread hpc hjoined => simp [finish, hpc]

/-! ## Where live threads are -/

/-- The thread object that is in no table entry: being destroyed, or about to be assigned. -/
def inTransit (s : ReaderThreads) : Option JThread :=
  match s.pc with
  | .erasing _ thread _ _ => some thread
  | .assigning thread _ => some thread
  | .destroying thread => some thread
  | _ => none

/-- Some key of the configuration table has this configuration. -/
def Recorded (s : ReaderThreads) (config : StreamConfig) : Prop :=
  ∃ key : Int32, s.manager.activeStreamConfigs[key]? = some config

/-- The invariant of the machine. -/
structure Tracked (s : ReaderThreads) : Prop where
  /-- The call under way leads to tables of a sequence of whole calls. -/
  outcome : ∃ manager, s.finish = some manager ∧ StreamIoManager.machine.Reachable manager
  placed : ∀ thread ∈ s.live,
    (∃ key : Int32, s.manager.streamThreads[key]? = some thread) ∨ s.inTransit = some thread
  recorded : s.inUpdate = false → ∀ thread ∈ s.live, s.Recorded thread.config
  silent : s.stopped = true → s.inUpdate = false ∧ s.live = []

theorem tracked_init : Tracked {} where
  outcome := ⟨{}, rfl, Machine.Reachable.of_init StreamIoManager.machine rfl⟩
  placed _ h := by cases h
  recorded _ _ h := by cases h
  silent h := by cases h

/-- Between calls the tables are those of a sequence of whole calls. -/
theorem Tracked.reachable_of_idle {s : ReaderThreads} (h : s.Tracked) (hpc : s.pc = .idle) :
    StreamIoManager.machine.Reachable s.manager := by
  rcases h.outcome with ⟨manager, hfinish, hreach⟩
  have heq : s.manager = manager := by simpa [finish, hpc] using hfinish
  exact heq ▸ hreach

/-- With nothing in transit, all live threads are in the table. -/
theorem Tracked.placed_of_none {s : ReaderThreads} (h : s.Tracked) (htransit : s.inTransit = none)
    {thread : JThread} (hlive : thread ∈ s.live) :
    ∃ key : Int32, s.manager.streamThreads[key]? = some thread := by
  rcases h.placed thread hlive with hplaced | hthread
  · exact hplaced
  · rw [htransit] at hthread
    cases hthread

/-- With nothing in transit, a table without threads means that no thread is live. -/
theorem Tracked.live_eq_nil {s : ReaderThreads} (h : s.Tracked) (htransit : s.inTransit = none)
    (hempty : s.manager.streamThreads = ∅) : s.live = [] := by
  apply List.eq_nil_iff_forall_not_mem.mpr
  intro thread hlive
  rcases h.placed_of_none htransit hlive with ⟨key, hkey⟩
  rw [hempty] at hkey
  simp at hkey

/-- A thread of the table is still there, or in transit, after its entry was unlinked. -/
theorem placed_of_unlink {s : ReaderThreads} (h : s.Tracked) (htransit : s.inTransit = none)
    {key : Int32} {thread : JThread} (hthread : s.manager.streamThreads[key]? = some thread)
    {other : JThread} (hlive : other ∈ s.live) :
    (∃ k : Int32, (s.manager.streamThreads.erase key)[k]? = some other) ∨
      some thread = some other := by
  rcases h.placed_of_none htransit hlive with ⟨k, hk⟩
  by_cases hsame : key = k
  · subst hsame
    exact Or.inr (hthread.symm.trans hk)
  · exact Or.inl ⟨k, by simpa [ExtTreeMap.getElem?_erase, hsame] using hk⟩

/-- Once the thread in transit has returned, all live threads are in the table. -/
theorem Tracked.placed_of_joined {s : ReaderThreads} (h : s.Tracked) {thread : JThread}
    (htransit : s.inTransit = some thread) (hjoined : thread ∉ s.live) {other : JThread}
    (hlive : other ∈ s.live) : ∃ key : Int32, s.manager.streamThreads[key]? = some other := by
  rcases h.placed other hlive with hplaced | hother
  · exact hplaced
  · rw [htransit] at hother
    cases hother
    exact absurd hlive hjoined

/-- A call in progress means that the manager has not been stopped. -/
theorem Tracked.stopped_eq_false {s : ReaderThreads} (h : s.Tracked) (hupdate : s.inUpdate = true) :
    s.stopped = false := by
  cases hstopped : s.stopped with
  | false => rfl
  | true =>
      rw [(h.silent hstopped).1] at hupdate
      cases hupdate

/-- During a call of `update_streams` only the places of the live threads matter. -/
theorem Tracked.of_inUpdate {s : ReaderThreads} (hupdate : s.inUpdate = true)
    (hstopped : s.stopped = false)
    (houtcome : ∃ manager, s.finish = some manager ∧ StreamIoManager.machine.Reachable manager)
    (hplaced : ∀ thread ∈ s.live,
      (∃ key : Int32, s.manager.streamThreads[key]? = some thread) ∨
        s.inTransit = some thread) : s.Tracked := by
  refine ⟨houtcome, hplaced, fun hidle => ?_, fun hs => ?_⟩
  · rw [hupdate] at hidle
    cases hidle
  · rw [hstopped] at hs
    cases hs

/-! ## The invariant step by step -/

theorem Tracked.managerStep {s s' : ReaderThreads} (h : s.Tracked) (hmove : ManagerMoves s s') :
    s'.Tracked := by
  have houtcome : ∃ manager, s'.finish = some manager ∧
      StreamIoManager.machine.Reachable manager := by
    rw [managerStep_finish hmove]
    exact h.outcome
  cases hmove with
  | leave hpc =>
      have hstopped := h.stopped_eq_false (by simp [inUpdate, hpc])
      have htransit : s.inTransit = none := by simp [inTransit, hpc]
      refine ⟨houtcome, fun t ht => Or.inl (h.placed_of_none htransit ht),
        fun _ thread hlive => ?_, fun hs => ?_⟩
      · rcases houtcome with ⟨manager, hfinish, hreach⟩
        have heq : s.manager = manager := by simpa [finish] using hfinish
        have hcons := StreamIoManager.consistent_of_reachable (heq ▸ hreach)
        rcases h.placed_of_none htransit hlive with ⟨key, hkey⟩
        refine ⟨key, ?_⟩
        change s.manager.activeStreamConfigs[key]? = some thread.config
        rw [hcons.config_eq key, hkey]
        rfl
      · have hs : s.stopped = true := hs
        rw [hstopped] at hs
        cases hs
  | unlink id thread toStop toStart hpc hthread =>
      have hstopped := h.stopped_eq_false (by simp [inUpdate, hpc])
      have htransit : s.inTransit = none := by simp [inTransit, hpc]
      exact .of_inUpdate rfl hstopped houtcome fun t ht =>
        placed_of_unlink h htransit hthread ht
  | erase id thread toStop toStart hpc hjoined =>
      have hstopped := h.stopped_eq_false (by simp [inUpdate, hpc])
      have htransit : s.inTransit = some thread := by simp [inTransit, hpc]
      exact .of_inUpdate rfl hstopped houtcome fun t ht =>
        Or.inl (h.placed_of_joined htransit hjoined ht)
  | start config toStart hpc =>
      have hstopped := h.stopped_eq_false (by simp [inUpdate, hpc])
      have htransit : s.inTransit = none := by simp [inTransit, hpc]
      refine .of_inUpdate rfl hstopped houtcome fun t ht => ?_
      rcases List.mem_cons.mp ht with rfl | hold
      · exact Or.inr rfl
      · exact Or.inl (h.placed_of_none htransit hold)
  | assign thread toStart hpc hjoined =>
      have hstopped := h.stopped_eq_false (by simp [inUpdate, hpc])
      have htransit : s.inTransit = some thread := by simp [inTransit, hpc]
      refine .of_inUpdate rfl hstopped houtcome fun t ht => Or.inl ?_
      rcases h.placed t ht with ⟨key, hkey⟩ | hthread
      · -- the entry assigned over holds no live thread
        have hne : thread.config.id.toInt32 ≠ key := fun heq => hjoined t (heq ▸ hkey) ht
        exact ⟨key, by simpa [ExtTreeMap.getElem?_insert, hne] using hkey⟩
      · rw [htransit] at hthread
        cases hthread
        exact ⟨thread.config.id.toInt32, by simp⟩
  | cleared hpc hempty =>
      have hnil := h.live_eq_nil (by simp [inTransit, hpc]) hempty
      refine ⟨houtcome, fun t ht => ?_, fun _ t ht => ?_, fun _ => ⟨rfl, hnil⟩⟩
      · rw [hnil] at ht
        cases ht
      · rw [hnil] at ht
        cases ht
  | destroyed thread hpc hjoined =>
      have htransit : s.inTransit = some thread := by simp [inTransit, hpc]
      refine ⟨houtcome, fun t ht => Or.inl (h.placed_of_joined htransit hjoined ht), ?_, ?_⟩
      · exact fun _ => h.recorded (by simp [inUpdate, hpc])
      · exact fun hs => ⟨rfl, (h.silent hs).2⟩

theorem Tracked.beginUpdate {s s' : ReaderThreads} (h : s.Tracked)
    {newConfigs : List StreamConfig} (hstep : s.beginUpdate newConfigs = some s') :
    s'.Tracked := by
  rcases beginUpdate_finish hstep with ⟨hpc, hfinish⟩
  have hreach := h.reachable_of_idle hpc
  have hcons := StreamIoManager.consistent_of_reachable hreach
  rcases StreamIoManager.updateStreams_spec hcons newConfigs with ⟨manager, hrun, -⟩
  have houtcome : ∃ manager, s'.finish = some manager ∧
      StreamIoManager.machine.Reachable manager :=
    ⟨manager, hfinish.trans hrun, hreach.step (a := .updateStreams newConfigs) hrun⟩
  simp only [ReaderThreads.beginUpdate, hpc] at hstep
  rcases Option.map_eq_some_iff.mp hstep with ⟨toStop, -, rfl⟩
  have htransit : s.inTransit = none := by simp [inTransit, hpc]
  exact .of_inUpdate rfl rfl houtcome fun t ht => Or.inl (h.placed_of_none htransit ht)

theorem Tracked.beginStopAll {s s' : ReaderThreads} (h : s.Tracked)
    (hstep : s.beginStopAll = some s') : s'.Tracked := by
  rcases beginStopAll_finish hstep with ⟨hpc, hfinish⟩
  have hreach := h.reachable_of_idle hpc
  have houtcome : ∃ manager, s'.finish = some manager ∧
      StreamIoManager.machine.Reachable manager :=
    ⟨s.manager.stopAll, hfinish, hreach.step (a := .stopAll) rfl⟩
  have htransit : s.inTransit = none := by simp [inTransit, hpc]
  have hrecorded := h.recorded (by simp [inUpdate, hpc])
  simp only [ReaderThreads.beginStopAll, hpc] at hstep
  split at hstep
  · next hempty =>
    cases hstep
    have hnil := h.live_eq_nil htransit (ExtTreeMap.isEmpty_iff.mp hempty)
    exact ⟨houtcome, fun t ht => Or.inl (h.placed_of_none htransit ht), fun _ => hrecorded,
      fun _ => ⟨rfl, hnil⟩⟩
  · cases hstep
    exact ⟨houtcome, fun t ht => Or.inl (h.placed_of_none htransit ht), fun _ => hrecorded,
      fun hs => ⟨rfl, (h.silent hs).2⟩⟩

theorem Tracked.destroy {s s' : ReaderThreads} (h : s.Tracked) {key : Int32}
    (hstep : s.destroy key = some s') : s'.Tracked := by
  unfold ReaderThreads.destroy at hstep
  split at hstep
  · next hpc =>
    rcases Option.map_eq_some_iff.mp hstep with ⟨thread, hthread, rfl⟩
    have htransit : s.inTransit = none := by simp [inTransit, hpc]
    refine ⟨?_, fun t ht => placed_of_unlink h htransit hthread ht,
      fun _ => h.recorded (by simp [inUpdate, hpc]), fun hs => ⟨rfl, (h.silent hs).2⟩⟩
    simpa [finish, hpc] using h.outcome
  · cases hstep

/-- A reader that returns. -/
theorem Tracked.exit {s : ReaderThreads} (h : s.Tracked) (thread : JThread) :
    Tracked { s with live := s.live.filter (· ≠ thread) } := by
  have hsub : ∀ t ∈ s.live.filter (· ≠ thread), t ∈ s.live := fun t ht => List.mem_of_mem_filter ht
  refine ⟨h.outcome, fun t ht => h.placed t (hsub t ht),
    fun hupdate t ht => h.recorded hupdate t (hsub t ht), fun hs => ?_⟩
  rcases h.silent hs with ⟨hupdate, hnil⟩
  refine ⟨hupdate, ?_⟩
  change s.live.filter (· ≠ thread) = []
  rw [hnil]
  rfl

theorem tracked_of_reachable {φ : Type} {s : ReaderThreads} (h : (machine φ).Reachable s) :
    s.Tracked := by
  refine Machine.reachable_induction ?_ ?_ h
  · rintro s rfl
    exact tracked_init
  · intro s a s' hs hstep
    cases a with
    | updateStreams newConfigs => exact hs.beginUpdate hstep
    | stopAll => exact hs.beginStopAll hstep
    | manager => exact hs.managerStep (managerStep_moves hstep)
    | destroy key => exact hs.destroy hstep
    | push thread frame =>
        simp only [machine] at hstep
        split at hstep
        · cases hstep
          exact hs
        · cases hstep
    | exit thread =>
        simp only [machine] at hstep
        split at hstep
        · cases hstep
          exact hs.exit thread
        · cases hstep

/-! ## What readers push -/

/-- Between two calls the tables are those that a sequence of whole calls leaves. -/
theorem manager_reachable_of_idle {φ : Type} {s : ReaderThreads} (h : (machine φ).Reachable s)
    (hpc : s.pc = .idle) : StreamIoManager.machine.Reachable s.manager :=
  (tracked_of_reachable h).reachable_of_idle hpc

/-- In every interleaving of readers and calls: while no call of `update_streams` holds the
mutex, a frame that is pushed has a configuration that is recorded in the table; and once
`stop_all` has returned no frame is pushed until `update_streams` is called again. -/
theorem pushes_are_current {φ : Type} {s s' : ReaderThreads} (h : (machine φ).Reachable s)
    {thread : JThread} {frame : DecodedFrame φ}
    (hpush : (machine φ).step s (.push thread frame) = some s') :
    (s.inUpdate = false → s.Recorded frame.sourceConfig) ∧ s.stopped = false := by
  have htracked := tracked_of_reachable h
  simp only [machine] at hpush
  split at hpush
  · next hlive =>
    constructor
    · intro hupdate
      rw [hlive.2]
      exact htracked.recorded hupdate thread hlive.1
    · cases hstopped : s.stopped with
      | false => rfl
      | true =>
          have hnil := (htracked.silent hstopped).2
          rw [hnil] at hlive
          cases hlive.1
  · cases hpush

/-- Camera 1 is started and its reader pushes a frame. -/
def oneFrame (frame : DecodedFrame Unit) : List (Action Unit) :=
  [.updateStreams [StreamIoManager.camera 1 "rtsp://a" true], .manager, .manager, .manager,
    .push ⟨0, StreamIoManager.camera 1 "rtsp://a" true⟩ frame]

/-- After the call that starts camera 1 the frame it pushes has the recorded
configuration. -/
theorem pushes_are_current_one :
    ∃ s, (machine Unit).exec {}
        (oneFrame ⟨(), StreamIoManager.camera 1 "rtsp://a" true, {}⟩) = some s ∧
      s.Recorded (StreamIoManager.camera 1 "rtsp://a" true) := by
  let frame : DecodedFrame Unit := ⟨(), StreamIoManager.camera 1 "rtsp://a" true, {}⟩
  let running : List (Action Unit) := (oneFrame frame).take 4
  have hrun : ∃ s, (machine Unit).exec {} running = some s ∧ s.pc = .idle ∧
      (machine Unit).step s (.push ⟨0, StreamIoManager.camera 1 "rtsp://a" true⟩ frame) =
        some s := ⟨_, rfl, rfl, rfl⟩
  rcases hrun with ⟨s, hexec, hpc, hpush⟩
  have hreach : (machine Unit).Reachable s := ⟨{}, running, rfl, hexec⟩
  refine ⟨s, ?_, (pushes_are_current hreach hpush).1 (by simp [inUpdate, hpc])⟩
  have hsplit : oneFrame frame = running ++
      [.push ⟨0, StreamIoManager.camera 1 "rtsp://a" true⟩ frame] := rfl
  rw [hsplit, Machine.exec_append, hexec]
  simp [hpush]

end ReaderThreads

end FrameProcessor
