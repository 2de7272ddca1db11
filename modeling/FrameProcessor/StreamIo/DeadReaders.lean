import FrameProcessor.StreamIo.Interference

/-!
# components/stream_io - Readers that return by themselves

`run_stream` returns when a stream has no video or its decoder or filter graph cannot be
opened.  The thread object stays in the table, and `update_streams` looks only at the
table: a reader that has returned counts as running.  This file puts the exits next to
the calls and states exactly when a call leaves every enabled id with a reader that was
alive when it began.

Main results:

- Theorem `StreamIoManager.lastKeyed_eq_some`: of the desired configurations that narrow to
  a key, the one with the largest id wins.
- Theorem `StreamIoManager.readThroughout_iff`: when a call leaves every enabled id read.
- Theorem `SupervisedStreams.updateStreams_revives_iff`: the same in every run.
-/

namespace FrameProcessor

open Std

/-- A manager whose readers may return by themselves; `exited` holds the numbers of the
threads that have. -/
structure SupervisedStreams where
  manager : StreamIoManager := {}
  exited : List Nat := []

namespace StreamIoManager

/-! ## Which desired configuration a key gets -/

/-- The desired configurations in the order of their ids. -/
theorem desiredList_sorted (newConfigs : List StreamConfig) :
    (desiredList newConfigs).Pairwise fun a b => a.id < b.id := by
  unfold desiredList
  rw [List.pairwise_map]
  refine ExtTreeMap.ordered_keys_toList.imp_of_mem fun {a b} ha hb hlt => ?_
  have hkey : ∀ entry ∈ (desiredConfigs newConfigs).toList, entry.2.id = entry.1 := by
    rintro ⟨id, cfg⟩ hentry
    rw [ExtTreeMap.mem_toList_iff_getElem?_eq_some, desiredConfigs_getElem?] at hentry
    exact (lastEnabled_eq_some hentry).2.2
  rw [hkey a ha, hkey b hb]
  exact compareOfLessAndEq_eq_lt.mp hlt

/-- Of the enabled ids that narrow to a key, the largest one gets it. -/
theorem lastKeyed_eq_some {newConfigs : List StreamConfig} {k : Int32} {cfg : StreamConfig}
    (h : lastKeyed (desiredList newConfigs) k = some cfg) :
    lastEnabled newConfigs cfg.id = some cfg ∧ cfg.id.toInt32 = k ∧
      ∀ id other, lastEnabled newConfigs id = some other → id.toInt32 = k → id ≤ cfg.id := by
  rcases List.mem_filter.mp (List.mem_of_getLast? h) with ⟨hmem, hkey⟩
  refine ⟨mem_desiredConfigs_toList.mp hmem, by simpa using hkey, fun id other hother hid => ?_⟩
  have hotherId := (lastEnabled_eq_some hother).2.2
  have hothermem : other ∈ (desiredList newConfigs).filter fun cfg => cfg.id.toInt32 == k := by
    refine List.mem_filter.mpr ⟨mem_desiredConfigs_toList.mpr (hotherId.symm ▸ hother), ?_⟩
    simpa [hotherId] using hid
  rcases List.getLast?_eq_some_iff.mp h with ⟨earlier, hlist⟩
  have hsorted := (desiredList_sorted newConfigs).filter fun cfg => cfg.id.toInt32 == k
  rw [hlist] at hsorted hothermem
  rw [← hotherId]
  rcases List.mem_append.mp hothermem with hearlier | hlast
  · exact Int64.le_of_lt ((List.pairwise_append.mp hsorted).2.2 other hearlier cfg (by simp))
  · rw [List.mem_singleton.mp hlast]
    exact Int64.le_refl _

/-! ## Threads that a call creates -/

/-- Phase 3 keeps a thread or puts one there that is newer than all before. -/
theorem startPhase_fresh (cfgs : List StreamConfig) (s : StreamIoManager) {k : Int32}
    {t : JThread} (h : (cfgs.foldl startStream s).streamThreads[k]? = some t) :
    s.streamThreads[k]? = some t ∨ s.started ≤ t.tid := by
  induction cfgs generalizing s with
  | nil => exact Or.inl h
  | cons cfg cfgs ih =>
      rcases ih (s.startStream cfg) h with hkept | hnew
      · by_cases hk : cfg.id.toInt32 = k
        · have heq : (⟨s.started, cfg⟩ : JThread) = t := by
            simpa [startStream, hk] using hkept
          exact Or.inr (heq ▸ Nat.le_refl _)
        · left
          simpa [startStream, ExtTreeMap.getElem?_insert, hk] using hkept
      · right
        simp only [startStream] at hnew
        omega

/-- Phase 2 leaves only threads that were there, and creates none. -/
theorem stopPhase_keeps (ids : List Int64) {s s' : StreamIoManager}
    (h : ids.foldlM stopStream s = some s') : s'.started = s.started ∧
      ∀ (k : Int32) (t : JThread),
        s'.streamThreads[k]? = some t → s.streamThreads[k]? = some t := by
  induction ids generalizing s with
  | nil =>
      cases h
      exact ⟨rfl, fun _ _ ht => ht⟩
  | cons id ids ih =>
      rw [List.foldlM_cons] at h
      rcases Option.bind_eq_some_iff.mp h with ⟨s₁, hstop, hrest⟩
      rcases ih hrest with ⟨hstarted, hkept⟩
      unfold stopStream at hstop
      split at hstop
      · cases hstop
        refine ⟨hstarted, fun k t ht => ?_⟩
        have hold := hkept k t ht
        rw [ExtTreeMap.getElem?_erase] at hold
        split at hold
        · cases hold
        · exact hold
      · cases hstop

/-- A call first leaves some of the threads that were there, then starts others. -/
theorem updateStreams_phases {s s' : StreamIoManager} {newConfigs : List StreamConfig}
    (h : s.updateStreams newConfigs = some s') :
    ∃ (stopped : StreamIoManager) (cfgs : List StreamConfig),
      s' = cfgs.foldl startStream stopped ∧ stopped.started = s.started ∧
        ∀ (k : Int32) (t : JThread),
          stopped.streamThreads[k]? = some t → s.streamThreads[k]? = some t := by
  unfold updateStreams at h
  rcases Option.bind_eq_some_iff.mp h with ⟨stopIds, -, h⟩
  rcases Option.bind_eq_some_iff.mp h with ⟨stopped, hstop, h⟩
  cases h
  exact ⟨stopped, _, rfl, stopPhase_keeps stopIds hstop⟩

/-- A thread in the table after a call was there before or is newer than all before. -/
theorem updateStreams_fresh {s s' : StreamIoManager} {newConfigs : List StreamConfig}
    (h : s.updateStreams newConfigs = some s') {k : Int32} {t : JThread}
    (ht : s'.streamThreads[k]? = some t) : s.streamThreads[k]? = some t ∨ s.started ≤ t.tid := by
  rcases updateStreams_phases h with ⟨stopped, cfgs, rfl, hstarted, hkept⟩
  rcases startPhase_fresh cfgs stopped ht with hold | hnew
  · exact Or.inl (hkept k t hold)
  · exact Or.inr (hstarted ▸ hnew)

/-- Thread numbers are given out in order of creation. -/
def Numbered (s : StreamIoManager) : Prop :=
  ∀ (k : Int32) (t : JThread), s.streamThreads[k]? = some t → t.tid < s.started

theorem Numbered.startPhase {s : StreamIoManager} (h : s.Numbered) (cfgs : List StreamConfig) :
    (cfgs.foldl startStream s).Numbered := by
  induction cfgs generalizing s with
  | nil => exact h
  | cons cfg cfgs ih =>
      refine ih fun k t ht => ?_
      by_cases hk : cfg.id.toInt32 = k
      · have heq : (⟨s.started, cfg⟩ : JThread) = t := by simpa [startStream, hk] using ht
        exact heq ▸ Nat.lt_succ_self s.started
      · have hold := h k t (by simpa [startStream, ExtTreeMap.getElem?_insert, hk] using ht)
        exact Nat.lt_succ_of_lt hold

/-- A call keeps thread numbers in order and creates no thread with an old number. -/
theorem Numbered.updateStreams {s s' : StreamIoManager} (h : s.Numbered)
    {newConfigs : List StreamConfig} (hrun : s.updateStreams newConfigs = some s') :
    s'.Numbered ∧ s.started ≤ s'.started := by
  rcases updateStreams_phases hrun with ⟨stopped, cfgs, rfl, hstarted, hkept⟩
  have hstopped : stopped.Numbered := fun k t ht => hstarted ▸ h k t (hkept k t ht)
  refine ⟨hstopped.startPhase _, ?_⟩
  rw [startPhase_started, hstarted]
  omega

/-! ## Reading every enabled id -/

/-- Every enabled id has a thread in the tables `s'` that is not one of `exited`. -/
def ReadThroughout (exited : List Nat) (s' : StreamIoManager)
    (newConfigs : List StreamConfig) : Prop :=
  ∀ id e, lastEnabled newConfigs id = some e →
    ∃ t : JThread, s'.streamThreads[id.toInt32]? = some t ∧ t.config.id = id ∧ t.tid ∉ exited

/-- Before the call, an enabled id has no thread object under its key, and no larger enabled
id has the same key; or it has one that is kept and has not returned. -/
def Revivable (exited : List Nat) (s : StreamIoManager) (newConfigs : List StreamConfig) : Prop :=
  ∀ id e, lastEnabled newConfigs id = some e →
    (s.streamThreads[id.toInt32]? = none ∧
      ∀ id' e', lastEnabled newConfigs id' = some e' → id'.toInt32 = id.toInt32 → id' ≤ id) ∨
    ∃ t : JThread, s.streamThreads[id.toInt32]? = some t ∧ t.tid ∉ exited ∧ InIntRange id ∧
      SameConfig t.config e

/-- A call starts a reader for an id exactly if it finds no thread object under the key and
the id is the largest one enabled for it. -/
theorem started_iff {s s' : StreamIoManager} {newConfigs : List StreamConfig}
    (hupd : Updated s s' newConfigs) {id : Int64} {e : StreamConfig}
    (he : lastEnabled newConfigs id = some e) (hnone : s.streamThreads[id.toInt32]? = none) :
    (∃ t : JThread, s'.streamThreads[id.toInt32]? = some t ∧ t.config.id = id) ↔
      ∀ id' e', lastEnabled newConfigs id' = some e' → id'.toInt32 = id.toInt32 → id' ≤ id := by
  have hconfigs := hupd.consistent.config_eq id.toInt32
  rw [hupd.fresh _ hnone] at hconfigs
  constructor
  · rintro ⟨t, ht, hid⟩ id' e' he' hkey
    rw [ht] at hconfigs
    rcases lastKeyed_eq_some hconfigs with ⟨-, -, hmax⟩
    rw [← hid]
    exact hmax id' e' he' hkey
  · intro hmax
    rcases Option.isSome_iff_exists.mp (lastKeyed_isSome he) with ⟨c, hc⟩
    rcases lastKeyed_eq_some hc with ⟨hlast, hkey, hge⟩
    have hid : c.id = id := Int64.le_antisymm (hmax c.id c hlast hkey) (hge id e he rfl)
    rw [hc] at hconfigs
    rcases Option.map_eq_some_iff.mp hconfigs.symm with ⟨t, ht, rfl⟩
    exact ⟨t, ht, hid⟩

/-- Under a key that had a thread, a call leaves this thread or none. -/
theorem Updated.eq_of_present {s s' : StreamIoManager} {newConfigs : List StreamConfig}
    (hupd : Updated s s' newConfigs) {k : Int32} {t t' : JThread}
    (ht : s.streamThreads[k]? = some t) (ht' : s'.streamThreads[k]? = some t') :
    s.stops newConfigs k = false ∧ t' = t := by
  cases hstops : s.stops newConfigs k with
  | true =>
      rw [hupd.stopped k t ht hstops] at ht'
      cases ht'
  | false =>
      rw [hupd.kept k t ht hstops] at ht'
      exact ⟨rfl, (Option.some.inj ht').symm⟩

/-- A call keeps a thread for an id exactly if its configuration is the one enabled for the
id, and the id fits. -/
theorem kept_for_iff {s s' : StreamIoManager} {newConfigs : List StreamConfig} (hs : s.Consistent)
    (hupd : Updated s s' newConfigs) {id : Int64} {e : StreamConfig}
    (he : lastEnabled newConfigs id = some e) {t : JThread}
    (ht : s.streamThreads[id.toInt32]? = some t) :
    (∃ t' : JThread, s'.streamThreads[id.toInt32]? = some t' ∧ t'.config.id = id) ↔
      InIntRange id ∧ SameConfig t.config e := by
  have hc : s.activeStreamConfigs[id.toInt32]? = some t.config := by
    rw [hs.config_eq, ht]
    rfl
  constructor
  · rintro ⟨t', ht', hid⟩
    rcases hupd.eq_of_present ht ht' with ⟨hstops, rfl⟩
    rcases (stops_eq_false_iff hc).mp hstops with ⟨e', he', hequal⟩
    have hid' : id.toInt32.toInt64 = id := by
      rw [← (lastEnabled_eq_some he').2.2, ← hid, StreamConfig.beq_iff.mp hequal]
    rw [hid', he] at he'
    cases he'
    exact ⟨hid' ▸ inIntRange_toInt64 id.toInt32, hequal⟩
  · rintro ⟨hrange, hequal⟩
    have hid : t.config.id = id := by
      rw [← (lastEnabled_eq_some he).2.2, StreamConfig.beq_iff.mp hequal]
    refine ⟨t, hupd.kept _ t ht ?_, hid⟩
    rw [stops_eq_false_iff hc, hrange.toInt64_toInt32]
    exact ⟨e, he, hequal⟩

/-- On consistent tables without returned readers newer than `exited`, a call leaves every
enabled id read exactly when all of them were revivable. -/
theorem readThroughout_iff {exited : List Nat} {s s' : StreamIoManager}
    {newConfigs : List StreamConfig} (hs : s.Consistent) (hupd : Updated s s' newConfigs)
    (hrun : s.updateStreams newConfigs = some s') (hold : ∀ tid ∈ exited, tid < s.started) :
    ReadThroughout exited s' newConfigs ↔ Revivable exited s newConfigs := by
  apply forall_congr'
  intro id
  apply forall_congr'
  intro e
  apply forall_congr'
  intro he
  cases hthread : s.streamThreads[id.toInt32]? with
  | none =>
      have hstarted := started_iff hupd he hthread
      constructor
      · rintro ⟨t, ht, hid, -⟩
        exact Or.inl ⟨rfl, hstarted.mp ⟨t, ht, hid⟩⟩
      · rintro (⟨-, hmax⟩ | ⟨t, ht, -⟩)
        · rcases hstarted.mpr hmax with ⟨t, ht, hid⟩
          refine ⟨t, ht, hid, fun hexited => ?_⟩
          have hlt := hold t.tid hexited
          rcases updateStreams_fresh hrun ht with hbefore | hnew
          · rw [hthread] at hbefore
            cases hbefore
          · omega
        · cases ht
  | some t =>
      have hkept := kept_for_iff hs hupd he hthread
      have hsame : ∀ t' : JThread, s'.streamThreads[id.toInt32]? = some t' → t' = t :=
        fun t' ht' => (hupd.eq_of_present hthread ht').2
      constructor
      · rintro ⟨t', ht', hid, halive⟩
        rcases hkept.mp ⟨t', ht', hid⟩ with ⟨hrange, hequal⟩
        exact Or.inr ⟨t, rfl, hsame t' ht' ▸ halive, hrange, hequal⟩
      · rintro (⟨hnone, -⟩ | ⟨t₁, ht₁, halive, hrange, hequal⟩)
        · cases hnone
        · cases ht₁
          rcases hkept.mpr ⟨hrange, hequal⟩ with ⟨t', ht', hid⟩
          exact ⟨t', ht', hid, hsame t' ht' ▸ halive⟩

end StreamIoManager

/-! ## Runs with exits -/

namespace SupervisedStreams

open StreamIoManager (camera lastEnabled ReadThroughout Revivable)

/-- A call, or the return of a reader that was not asked to stop. -/
inductive Action where
  | call (call : StreamIoManager.Call)
  | exit (tid : Nat)

/-- Whether a thread of the table has this number. -/
def isReader (s : SupervisedStreams) (tid : Nat) : Bool :=
  s.manager.streamThreads.toList.any fun entry => entry.2.tid == tid

/-- A manager and its readers under any interleaving of calls and exits. -/
def machine : Machine SupervisedStreams Action where
  init s := s = {}
  step
    | s, .call call =>
        (StreamIoManager.machine.step s.manager call).map fun manager => { s with manager }
    | s, .exit tid =>
        if s.isReader tid && !s.exited.contains tid then
          some { s with exited := tid :: s.exited }
        else none

/-- The calls form a run of the manager, and every thread that has returned is one that
the manager created. -/
structure Sound (s : SupervisedStreams) : Prop where
  reachable : StreamIoManager.machine.Reachable s.manager
  numbered : s.manager.Numbered
  exited : ∀ tid ∈ s.exited, tid < s.manager.started

theorem sound_init : Sound {} where
  reachable := Machine.Reachable.of_init StreamIoManager.machine rfl
  numbered k t ht := by simp at ht
  exited tid h := by cases h

theorem Sound.step {s s' : SupervisedStreams} {a : Action} (h : s.Sound)
    (hstep : machine.step s a = some s') : s'.Sound := by
  cases a with
  | call call =>
      rcases Option.map_eq_some_iff.mp hstep with ⟨manager, hcall, rfl⟩
      have hreach := h.reachable.step hcall
      cases call with
      | updateStreams newConfigs =>
          rcases h.numbered.updateStreams hcall with ⟨hnumbered, hle⟩
          exact ⟨hreach, hnumbered, fun tid htid => (h.exited tid htid).trans_le hle⟩
      | stopAll =>
          cases hcall
          refine ⟨hreach, fun k t ht => ?_, fun tid htid => ?_⟩
          · simp [StreamIoManager.stopAll_threads] at ht
          · simpa using h.exited tid htid
  | exit tid =>
      simp only [machine] at hstep
      split at hstep
      · next henabled =>
        cases hstep
        refine ⟨h.reachable, h.numbered, fun tid' htid' => ?_⟩
        rcases List.mem_cons.mp htid' with rfl | hold
        · have hreader : s.isReader tid' = true := (Bool.and_eq_true_iff.mp henabled).1
          rcases List.any_eq_true.mp hreader with ⟨⟨k, t⟩, hentry, hnumber⟩
          have ht := ExtTreeMap.mem_toList_iff_getElem?_eq_some.mp hentry
          exact beq_iff_eq.mp hnumber ▸ h.numbered k t ht
        · exact h.exited tid' hold
      · cases hstep

theorem sound_of_reachable {s : SupervisedStreams} (h : machine.Reachable s) : s.Sound := by
  refine Machine.reachable_induction ?_ (fun s a s' hs hstep => hs.step hstep) h
  rintro s rfl
  exact sound_init

/-- In every run, with readers returning by themselves at any time, and for every list: the
call returns, and every enabled id then has a reader that had not returned before it,
exactly when before the call each enabled id either has no thread object under its key and
is the largest one enabled for that key, or fits in `int` and has a thread that has not
returned and whose configuration is unchanged. -/
theorem updateStreams_revives_iff {s : SupervisedStreams} (h : machine.Reachable s)
    (newConfigs : List StreamConfig) :
    ∃ manager, s.manager.updateStreams newConfigs = some manager ∧
      (ReadThroughout s.exited manager newConfigs ↔ Revivable s.exited s.manager newConfigs) := by
  have hsound := sound_of_reachable h
  have hcons := StreamIoManager.consistent_of_reachable hsound.reachable
  rcases StreamIoManager.updateStreams_spec hcons newConfigs with ⟨manager, hrun, hupd⟩
  exact ⟨manager, hrun, StreamIoManager.readThroughout_iff hcons hupd hrun hsound.exited⟩

/-- Camera 1, started by a first call. -/
def oneCamera : SupervisedStreams where
  manager := ({} : StreamIoManager).startStream (camera 1 "rtsp://a" true)

theorem oneCamera_reachable : machine.Reachable oneCamera :=
  ⟨{}, [.call (.updateStreams [camera 1 "rtsp://a" true])], rfl, rfl⟩

/-- While camera 1 is being read, a call that adds camera 2 leaves both read. -/
theorem updateStreams_revives_alive :
    ∃ manager, oneCamera.manager.updateStreams
        [camera 1 "rtsp://a" true, camera 2 "rtsp://b" true] = some manager ∧
      ReadThroughout oneCamera.exited manager
        [camera 1 "rtsp://a" true, camera 2 "rtsp://b" true] := by
  rcases updateStreams_revives_iff oneCamera_reachable
    [camera 1 "rtsp://a" true, camera 2 "rtsp://b" true] with ⟨manager, hrun, hiff⟩
  refine ⟨manager, hrun, hiff.mpr fun id e he => ?_⟩
  have hids : ∀ id e,
      lastEnabled [camera 1 "rtsp://a" true, camera 2 "rtsp://b" true] id = some e →
        (id = 1 ∧ e = camera 1 "rtsp://a" true) ∨ (id = 2 ∧ e = camera 2 "rtsp://b" true) := by
    intro id e he
    rcases StreamIoManager.lastEnabled_eq_some he with ⟨hmem, -, rfl⟩
    simp only [List.mem_cons, List.not_mem_nil, or_false] at hmem
    rcases hmem with rfl | rfl
    · exact Or.inl ⟨rfl, rfl⟩
    · exact Or.inr ⟨rfl, rfl⟩
  rcases hids id e he with ⟨rfl, rfl⟩ | ⟨rfl, rfl⟩
  · exact Or.inr ⟨⟨0, camera 1 "rtsp://a" true⟩, rfl, by decide, by decide,
      StreamIoManager.sameConfig_refl _⟩
  · refine Or.inl ⟨rfl, fun id' e' he' hkey => ?_⟩
    rcases hids id' e' he' with ⟨rfl, -⟩ | ⟨rfl, -⟩ <;> decide

/-- The reader of camera 1 returns, say because its decoder could not be opened; applying
the configuration again leaves the camera without a reader. -/
theorem updateStreams_dead_reader_kept :
    ¬ ∀ (s : SupervisedStreams) (manager : StreamIoManager) (newConfigs : List StreamConfig),
      machine.Reachable s → s.manager.updateStreams newConfigs = some manager →
        ReadThroughout s.exited manager newConfigs := by
  intro hall
  have hreach : machine.Reachable { oneCamera with exited := [0] } :=
    ⟨{}, [.call (.updateStreams [camera 1 "rtsp://a" true]), .exit 0], rfl, rfl⟩
  have hread := hall _ oneCamera.manager [camera 1 "rtsp://a" true] hreach rfl
  rcases hread 1 (camera 1 "rtsp://a" true) (by decide) with ⟨t, ht, -, halive⟩
  have heq : t = ⟨0, camera 1 "rtsp://a" true⟩ := (Option.some.inj ht).symm
  rw [heq] at halive
  exact halive (by decide)

end SupervisedStreams

end FrameProcessor
