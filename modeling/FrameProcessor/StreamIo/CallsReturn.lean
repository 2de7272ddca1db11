import FrameProcessor.Foundations.Fairness
import FrameProcessor.StreamIo.ReaderThreads

/-!
# components/stream_io - The manager's calls return

`update_streams` and `stop_all` join reader threads while they hold `manager_mutex_`.  A call
waits for at most one reader at a time, takes each thread out of the table before it joins
it, and starts each new one once, so it releases the mutex as soon as the readers it has
asked to stop return.

Main results:

- Theorem `ReaderThreads.callWork_lt`: every step of a call brings its end nearer.
- Theorem `ReaderThreads.canStep_of_unblocked`: only a join holds a call up.
- Theorem `ReaderThreads.calls_return`: in every fair behaviour whose readers return once they
  are joined, `manager_mutex_` is released again after every call.
-/

namespace FrameProcessor

open Std

namespace ReaderThreads

variable {φ : Type} {s s' : ReaderThreads}

/-! ## What is left of a call -/

/-- The steps that the call under way still has to take. -/
def callWork (s : ReaderThreads) : Nat :=
  match s.pc with
  | .idle => 0
  | .updating toStop toStart => 2 * toStop.length + 2 * toStart.length + 1
  | .erasing _ _ toStop toStart => 2 * toStop.length + 2 * toStart.length + 2
  | .assigning _ toStart => 2 * toStart.length + 2
  | .clearing => 2 * s.manager.streamThreads.size + 1
  | .destroying _ => 2 * s.manager.streamThreads.size + 2

/-- The thread that the call under way has to join before its next step. -/
def joins (s : ReaderThreads) : Option JThread :=
  match s.pc with
  | .erasing _ thread _ _ => some thread
  | .assigning thread _ => s.manager.streamThreads[thread.config.id.toInt32]?
  | .destroying thread => some thread
  | _ => none

/-- The call under way waits for a reader that has not returned. -/
def Blocked (s : ReaderThreads) : Prop :=
  ∃ thread, s.joins = some thread ∧ thread ∈ s.live

/-- Everything a call does belongs to the thread that makes it; the readers push and return
by themselves. -/
def owner : Action φ → Option Unit
  | .manager => some ()
  | .destroy _ => some ()
  | _ => none

/-! ## Steps -/

/-- A step of `update_streams`, or of `stop_all` outside its loop, brings the end nearer. -/
theorem managerStep_work (h : ManagerMoves s s') : callWork s' < callWork s := by
  cases h with
  | leave hpc => simp [callWork, hpc]
  | unlink id thread toStop toStart hpc hthread =>
      simp only [callWork, hpc, List.length_cons]
      omega
  | erase id thread toStop toStart hpc hjoined => simp [callWork, hpc]
  | start config toStart hpc =>
      simp only [callWork, hpc, List.length_cons, List.length_nil]
      omega
  | assign thread toStart hpc hjoined => simp [callWork, hpc]
  | cleared hpc hempty => simp [callWork, hpc]
  | destroyed thread hpc hjoined => simp [callWork, hpc]

/-- `clear` has one entry fewer to go. -/
theorem destroy_work {key : Int32} (h : s.destroy key = some s') : callWork s' < callWork s := by
  unfold destroy at h
  split at h
  · next hpc =>
    rcases Option.map_eq_some_iff.mp h with ⟨thread, hthread, rfl⟩
    have hmem := StreamIoManager.contains_of_getElem? hthread
    have hpos : 0 < s.manager.streamThreads.size := by
      by_contra hzero
      have hempty : s.manager.streamThreads = ∅ :=
        ExtTreeMap.eq_empty_iff_size_eq_zero.mpr (Nat.le_zero.mp (Nat.le_of_not_lt hzero))
      rw [hempty] at hthread
      simp at hthread
    have hsize : (s.manager.streamThreads.erase key).size + 1 = s.manager.streamThreads.size := by
      rw [ExtTreeMap.size_erase, if_pos hmem]
      omega
    simp only [callWork, hpc]
    omega
  · cases h

/-- Outside a call the mutex is free. -/
theorem pc_of_begins {a : Action φ} (ha : owner a = none)
    (hstep : (machine φ).step s a = some s') :
    s.pc = .idle ∨ (s'.pc = s.pc ∧ s'.manager = s.manager ∧ s'.live.Sublist s.live) := by
  cases a with
  | updateStreams newConfigs => exact Or.inl (beginUpdate_finish hstep).1
  | stopAll => exact Or.inl (beginStopAll_finish hstep).1
  | manager => cases ha
  | destroy key => cases ha
  | push thread frame =>
      simp only [machine] at hstep
      split at hstep
      · cases hstep
        exact Or.inr ⟨rfl, rfl, .refl _⟩
      · cases hstep
  | exit thread =>
      simp only [machine] at hstep
      split at hstep
      · cases hstep
        exact Or.inr ⟨rfl, rfl, List.filter_sublist⟩
      · cases hstep

/-- During a call every step of the caller brings its end nearer, and the readers leave it
where it is. -/
theorem callWork_lt {a : Action φ} (hbusy : s.pc ≠ .idle)
    (hstep : (machine φ).step s a = some s') :
    callWork s' < callWork s ∨
      (callWork s' = callWork s ∧ s'.joins = s.joins ∧ s'.live.Sublist s.live ∧
        owner a ≠ some ()) := by
  cases hown : owner a with
  | none =>
      rcases pc_of_begins hown hstep with hidle | ⟨hpc, hmanager, hlive⟩
      · exact absurd hidle hbusy
      · right
        refine ⟨?_, ?_, hlive, nofun⟩
        · simp only [callWork, hpc, hmanager]
        · simp only [joins, hpc, hmanager]
  | some caller =>
      left
      cases a with
      | manager => exact managerStep_work (managerStep_moves hstep)
      | destroy key => exact destroy_work hstep
      | updateStreams newConfigs => cases hown
      | stopAll => cases hown
      | push thread frame => cases hown
      | exit thread => cases hown

/-- Only a join holds a call up. -/
theorem canStep_of_unblocked (h : s.Tracked) (hbusy : s.pc ≠ .idle) (hfree : ¬ s.Blocked) :
    (machine φ).CanStep owner () s := by
  have hjoined : ∀ thread, s.joins = some thread → thread ∉ s.live :=
    fun thread hjoins hlive => hfree ⟨thread, hjoins, hlive⟩
  cases hpc : s.pc with
  | idle => exact absurd hpc hbusy
  | updating toStop toStart =>
      refine .of_isSome .manager rfl ?_
      cases toStop with
      | cons id toStop =>
          -- the outcome of the call exists, so the lookup of the id succeeds
          rcases h.outcome with ⟨manager, hfinish, -⟩
          simp only [finish, hpc, List.foldlM_cons] at hfinish
          cases hthread : s.manager.streamThreads[id.toInt32]? with
          | some thread => simp [machine, managerStep, hpc, hthread]
          | none =>
              have habsent : s.manager.streamThreads.contains id.toInt32 = false := by
                rw [← ExtTreeMap.isSome_getElem?_eq_contains, hthread]
                rfl
              have hstop : s.manager.stopStream id = none := by
                rw [StreamIoManager.stopStream, habsent]
                rfl
              rw [hstop] at hfinish
              cases hfinish
      | nil =>
          cases toStart with
          | nil => simp [machine, managerStep, hpc]
          | cons config toStart => simp [machine, managerStep, hpc]
  | erasing id thread toStop toStart =>
      have hreturned := hjoined thread (by simp [joins, hpc])
      exact .of_isSome .manager rfl (by simp [machine, managerStep, hpc, hreturned])
  | assigning thread toStart =>
      refine .of_isSome .manager rfl ?_
      cases hold : s.manager.streamThreads[thread.config.id.toInt32]? with
      | none => simp [machine, managerStep, hpc, hold]
      | some old =>
          have hreturned := hjoined old (by simp [joins, hpc, hold])
          simp [machine, managerStep, hpc, hold, hreturned]
  | clearing =>
      by_cases hempty : s.manager.streamThreads = ∅
      · exact .of_isSome .manager rfl (by simp [machine, managerStep, hpc, hempty])
      · rw [ExtTreeMap.eq_empty_iff_forall_contains, not_forall] at hempty
        rcases hempty with ⟨key, hkey⟩
        have hthread : (s.manager.streamThreads[key]?).isSome = true := by
          rw [ExtTreeMap.isSome_getElem?_eq_contains]
          simpa using hkey
        exact .of_isSome (.destroy key) rfl (by simpa [machine, destroy, hpc] using hthread)
  | destroying thread =>
      have hreturned := hjoined thread (by simp [joins, hpc])
      exact .of_isSome .manager rfl (by simp [machine, managerStep, hpc, hreturned])

/-! ## The mutex is released -/

/-- Every step keeps the call under way on the track of the whole call. -/
theorem tracked_step {a : Action φ} (h : s.Tracked) (hstep : (machine φ).step s a = some s') :
    s'.Tracked := by
  cases a with
  | updateStreams newConfigs => exact h.beginUpdate hstep
  | stopAll => exact h.beginStopAll hstep
  | manager => exact h.managerStep (managerStep_moves hstep)
  | destroy key => exact h.destroy hstep
  | push thread frame =>
      simp only [machine] at hstep
      split at hstep
      · cases hstep
        exact h
      · cases hstep
  | exit thread =>
      simp only [machine] at hstep
      split at hstep
      · cases hstep
        exact h.exit thread
      · cases hstep

/-- A reader that has returned does not begin again while a call waits for it. -/
theorem stays_unblocked {a : Action φ} (hbusy : s.pc ≠ .idle)
    (hstep : (machine φ).step s a = some s') (hwork : callWork s' = callWork s)
    (hfree : ¬ s.Blocked) : ¬ s'.Blocked := by
  rintro ⟨thread, hjoins', hlive'⟩
  rcases callWork_lt hbusy hstep with hless | ⟨-, hjoins, hlive, -⟩
  · omega
  · rw [hjoins] at hjoins'
    exact hfree ⟨thread, hjoins', hlive.subset hlive'⟩

/-- In every fair behaviour whose readers return once they are joined, `manager_mutex_` is
released again after every call of `update_streams` and `stop_all`. -/
theorem calls_return (b : Behaviour (machine φ)) (hstart : (machine φ).Reachable (b.state 0))
    (hfair : ∀ t, b.Fair owner t)
    (hreaders : ∀ i thread, (b.state i).joins = some thread →
      ∃ j, i ≤ j ∧ thread ∉ (b.state j).live) :
    ∀ i, ∃ j, i ≤ j ∧ (b.state j).pc = .idle := by
  have hleads : b.LeadsTo Tracked (fun s => s.pc = .idle) := by
    refine Behaviour.leadsTo_of_rank_of_unblocked Blocked callWork joins
      (fun _ => ()) ?_ ?_ ?_ b hfair ?_
    · intro s a s' hs hbusy hstep
      have hs' : Tracked s' := tracked_step hs hstep
      rcases callWork_lt hbusy hstep with hless | ⟨hwork, hjoins, -, hown⟩
      · exact Or.inr ⟨hs', Or.inl hless⟩
      · exact Or.inr ⟨hs', Or.inr ⟨hwork, hjoins, hown⟩⟩
    · exact fun s a s' _ hbusy hstep hwork _ hfree => stays_unblocked hbusy hstep hwork hfree
    · exact fun s hs hbusy hfree => canStep_of_unblocked hs hbusy hfree
    · intro i hstalls
      cases hjoins : (b.state i).joins with
      | none =>
          refine ⟨i, Nat.le_refl i, ?_⟩
          rintro ⟨thread, hthread, -⟩
          rw [hjoins] at hthread
          cases hthread
      | some thread =>
          rcases hreaders i thread hjoins with ⟨j, hij, hreturned⟩
          refine ⟨j, hij, ?_⟩
          rintro ⟨thread', hthread', hlive⟩
          rw [(hstalls j hij).2.2.2, hjoins] at hthread'
          cases hthread'
          exact hreturned hlive
  intro i
  exact hleads i (tracked_of_reachable (b.reachable hstart i))

/-- Camera 1 is started, and `stop_all` joins its reader. -/
def startThenStop : List (Action Unit) :=
  [.updateStreams [StreamIoManager.camera 1 "rtsp://a" true], .manager, .manager, .manager,
    .stopAll, .destroy 1]

/-- The reader of camera 1 returns while `stop_all` joins it, and the mutex is free again. -/
theorem calls_return_stop_all :
    ∃ b : Behaviour (machine Unit), (b.state 0).Blocked ∧ ∃ j, (b.state j).pc = .idle := by
  let thread : JThread := ⟨0, StreamIoManager.camera 1 "rtsp://a" true⟩
  have hrun : ∃ s t, (machine Unit).exec {} startThenStop = some s ∧ s.pc = .destroying thread ∧
      s.live = [thread] ∧ (machine Unit).exec s [.exit thread, .manager, .manager] = some t ∧
      t.pc = .idle ∧ t.live = [] := ⟨_, _, rfl, rfl, rfl, rfl, rfl, rfl⟩
  rcases hrun with ⟨s, t, hbefore, hpc, hlive, hrun, hidle, hnone⟩
  have hsettled : ∀ k, ¬ (machine Unit).CanStep owner k t := by
    intro k
    rw [Machine.not_canStep_iff]
    intro a hown
    cases a with
    | manager => simp [machine, managerStep, hidle]
    | destroy key => simp [machine, destroy, hidle]
    | updateStreams newConfigs => cases hown
    | stopAll => cases hown
    | push thread frame => cases hown
    | exit thread => cases hown
  rcases Machine.exists_behaviour hrun hsettled with ⟨b, hzero, hend, hfair⟩
  have hstart : (machine Unit).Reachable (b.state 0) := by
    rw [hzero]
    exact ⟨{}, startThenStop, rfl, hbefore⟩
  have hreaders : ∀ i thread, (b.state i).joins = some thread →
      ∃ j, i ≤ j ∧ thread ∉ (b.state j).live := by
    intro i thread _
    refine ⟨max i 3, le_max_left i 3, ?_⟩
    rw [hend _ (le_max_right i 3), hnone]
    exact List.not_mem_nil
  have hblocked : (b.state 0).Blocked := by
    rw [hzero]
    exact ⟨thread, by simp [joins, hpc], by simp [hlive]⟩
  rcases calls_return b hstart hfair hreaders 0 with ⟨j, -, hj⟩
  exact ⟨b, hblocked, j, hj⟩

end ReaderThreads

end FrameProcessor
