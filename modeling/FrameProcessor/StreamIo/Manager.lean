import Mathlib.Data.List.Basic
import Std.Data.ExtTreeMap.Lemmas
import FrameProcessor.Foundations.Machine
import FrameProcessor.Utils.Types

/-!
# components/stream_io - The stream manager's tables

`StreamIoManager` keeps two tables keyed by `int`: the reader threads and the
configurations they were started with.  `update_streams` computes which threads to
stop and which streams to start from the tables as they are, then stops, then
starts; `stop_all` clears both tables.  Both run under `manager_mutex_`, so a call
is one step.  Ids are 64-bit in the configuration and narrowed to `int` at every
access of a table; an `at()` on a missing key is a failing call.

Main results:

- Theorem `StreamIoManager.consistent_of_reachable`: after any sequence of calls the
  two tables have the same keys, the thread under a key runs the configuration
  recorded there, and that configuration is enabled and belongs to the key.
- Theorem `StreamIoManager.updateStreams_spec`: what a call does to every key.
- Theorem `StreamIoManager.calls_keep_tables`: every sequence of calls returns, and leaves
  tables on which no lookup can fail.
-/

namespace FrameProcessor

open Std

/-- A reader thread: its number in order of creation and the configuration its
`run_stream` call captured. -/
structure JThread where
  tid : Nat
  config : StreamConfig
deriving DecidableEq

/-- The state of a `StreamIoManager`; `started` counts the threads created so far. -/
structure StreamIoManager where
  streamThreads : ExtTreeMap Int32 JThread := ∅
  activeStreamConfigs : ExtTreeMap Int32 StreamConfig := ∅
  started : Nat := 0

namespace StreamIoManager

/-! ## update_streams and stop_all -/

/-- The loop that fills `desired_configs`: a later enabled entry replaces an earlier one. -/
def desiredConfigs (newConfigs : List StreamConfig) : ExtTreeMap Int64 StreamConfig :=
  newConfigs.foldl (fun desired cfg => if cfg.enabled then desired.insert cfg.id cfg else desired) ∅

/-- The test of phase 1 for one running thread; `none` when `at()` throws. -/
def needsStop (self : StreamIoManager) (desired : ExtTreeMap Int64 StreamConfig)
    (id : Int32) : Option Bool :=
  match desired[id.toInt64]? with
  | none => some true
  | some cfg => (self.activeStreamConfigs[id]?).map fun active => !(cfg == active)

/-- Phase 1, first loop: the ids to stop, in key order. -/
def toStop (self : StreamIoManager) (desired : ExtTreeMap Int64 StreamConfig) :
    Option (List Int64) :=
  self.streamThreads.keys.foldlM (fun ids id =>
    (self.needsStop desired id).map fun stop => if stop then ids ++ [id.toInt64] else ids) []

/-- Phase 1, second loop: the desired configurations whose narrowed id has no thread. -/
def toStart (self : StreamIoManager) (desired : ExtTreeMap Int64 StreamConfig) :
    List StreamConfig :=
  (desired.toList.map Prod.snd).filter fun cfg => !self.streamThreads.contains cfg.id.toInt32

/-- Phase 2 for one id: request the stop, join, and forget the stream. -/
def stopStream (self : StreamIoManager) (id : Int64) : Option StreamIoManager :=
  if self.streamThreads.contains id.toInt32 then
    some { self with
      streamThreads := self.streamThreads.erase id.toInt32
      activeStreamConfigs := self.activeStreamConfigs.erase id.toInt32 }
  else none

/-- Phase 3 for one configuration; assigning over a thread object would stop and join
the thread it held. -/
def startStream (self : StreamIoManager) (config : StreamConfig) : StreamIoManager where
  activeStreamConfigs := self.activeStreamConfigs.insert config.id.toInt32 config
  streamThreads := self.streamThreads.insert config.id.toInt32 ⟨self.started, config⟩
  started := self.started + 1

/-- `StreamIoManager::update_streams`; `none` when one of its `at()` lookups throws. -/
def updateStreams (self : StreamIoManager) (newConfigs : List StreamConfig) :
    Option StreamIoManager := do
  let desired := desiredConfigs newConfigs
  let stopIds ← self.toStop desired
  let startConfigs := self.toStart desired
  let stopped ← stopIds.foldlM stopStream self
  return startConfigs.foldl startStream stopped

/-- `StreamIoManager::stop_all`, with its early return on an empty thread table. -/
def stopAll (self : StreamIoManager) : StreamIoManager :=
  if self.streamThreads.isEmpty then self
  else { self with streamThreads := ∅, activeStreamConfigs := ∅ }

/-- The two public calls of a manager. -/
inductive Call where
  | updateStreams (newConfigs : List StreamConfig)
  | stopAll

/-- A manager under any sequence of calls. -/
def machine : Machine StreamIoManager Call where
  init s := s = {}
  step
    | s, .updateStreams newConfigs => s.updateStreams newConfigs
    | s, .stopAll => some s.stopAll

/-! ## Desired configurations -/

/-- The last enabled entry with a given id. -/
def lastEnabled (newConfigs : List StreamConfig) (id : Int64) : Option StreamConfig :=
  (newConfigs.filter fun cfg => cfg.enabled && cfg.id == id).getLast?

theorem lastEnabled_eq_some {newConfigs : List StreamConfig} {id : Int64} {cfg : StreamConfig}
    (h : lastEnabled newConfigs id = some cfg) :
    cfg ∈ newConfigs ∧ cfg.enabled = true ∧ cfg.id = id := by
  have hmem := List.mem_of_getLast? h
  simpa using hmem

/-- `desired_configs` maps an id to its last enabled entry. -/
theorem desiredConfigs_getElem? (newConfigs : List StreamConfig) (id : Int64) :
    (desiredConfigs newConfigs)[id]? = lastEnabled newConfigs id := by
  unfold desiredConfigs lastEnabled
  induction newConfigs using List.reverseRecOn with
  | nil => simp
  | append_singleton cfgs cfg ih =>
      rw [List.foldl_concat, List.filter_append, List.getLast?_append]
      cases henabled : cfg.enabled with
      | false => simpa [henabled] using ih
      | true =>
          by_cases hid : cfg.id = id
          · subst hid
            simp [henabled]
          · simpa [henabled, hid, ExtTreeMap.getElem?_insert] using ih

theorem mem_desiredConfigs_toList {newConfigs : List StreamConfig} {cfg : StreamConfig} :
    cfg ∈ (desiredConfigs newConfigs).toList.map Prod.snd ↔
      lastEnabled newConfigs cfg.id = some cfg := by
  simp only [List.mem_map, Prod.exists, exists_eq_right,
    ExtTreeMap.mem_toList_iff_getElem?_eq_some, desiredConfigs_getElem?]
  constructor
  · rintro ⟨id, h⟩
    rcases lastEnabled_eq_some h with ⟨_, _, rfl⟩
    exact h
  · exact fun h => ⟨cfg.id, h⟩

/-! ## The table invariant -/

/-- The two tables agree: the recorded configuration is the one the thread runs, it is
enabled, and its narrowed id is the key. -/
structure Consistent (s : StreamIoManager) : Prop where
  config_eq : ∀ k : Int32, s.activeStreamConfigs[k]? = (s.streamThreads[k]?).map JThread.config
  key_eq : ∀ (k : Int32) (c : StreamConfig), s.activeStreamConfigs[k]? = some c →
    c.enabled = true ∧ c.id.toInt32 = k

theorem Consistent.empty : Consistent {} where
  config_eq k := by simp
  key_eq k c h := by simp at h

/-- A stream is recorded exactly when a thread object exists for it. -/
theorem Consistent.contains_eq {s : StreamIoManager} (h : s.Consistent) (k : Int32) :
    s.streamThreads.contains k = s.activeStreamConfigs.contains k := by
  rw [← ExtTreeMap.isSome_getElem?_eq_contains, ← ExtTreeMap.isSome_getElem?_eq_contains,
    h.config_eq k, Option.isSome_map]

theorem Consistent.stopStream {s s' : StreamIoManager} {id : Int64} (h : s.Consistent)
    (hstop : s.stopStream id = some s') : s'.Consistent := by
  unfold StreamIoManager.stopStream at hstop
  split at hstop
  · cases hstop
    constructor
    · intro k
      by_cases hk : id.toInt32 = k
      · simp [hk]
      · simpa [ExtTreeMap.getElem?_erase, hk] using h.config_eq k
    · intro k c hc
      by_cases hk : id.toInt32 = k
      · simp [hk] at hc
      · exact h.key_eq k c (by simpa [ExtTreeMap.getElem?_erase, hk] using hc)
  · cases hstop

theorem Consistent.startStream {s : StreamIoManager} {config : StreamConfig} (h : s.Consistent)
    (henabled : config.enabled = true) : (s.startStream config).Consistent := by
  constructor
  · intro k
    by_cases hk : config.id.toInt32 = k
    · simp [StreamIoManager.startStream, hk]
    · simpa [StreamIoManager.startStream, ExtTreeMap.getElem?_insert, hk] using h.config_eq k
  · intro k c hc
    by_cases hk : config.id.toInt32 = k
    · have hconfig : config = c := by simpa [StreamIoManager.startStream, hk] using hc
      exact hconfig ▸ ⟨henabled, hk⟩
    · refine h.key_eq k c ?_
      simpa [StreamIoManager.startStream, ExtTreeMap.getElem?_insert, hk] using hc

theorem Consistent.stopAll {s : StreamIoManager} (h : s.Consistent) : s.stopAll.Consistent := by
  unfold StreamIoManager.stopAll
  split
  · exact h
  · constructor <;> intro k <;> simp

/-! ## Phase by phase -/

/-- The test of phase 1 on consistent tables: the running configuration is absent from
the desired ones or differs from its desired entry. -/
def stops (s : StreamIoManager) (newConfigs : List StreamConfig) (k : Int32) : Bool :=
  match lastEnabled newConfigs k.toInt64, s.activeStreamConfigs[k]? with
  | some cfg, some active => !(cfg == active)
  | _, _ => true

theorem Consistent.needsStop_eq {s : StreamIoManager} (h : s.Consistent)
    (newConfigs : List StreamConfig) {k : Int32} (hk : k ∈ s.streamThreads) :
    s.needsStop (desiredConfigs newConfigs) k = some (s.stops newConfigs k) := by
  have hactive : s.activeStreamConfigs[k]?.isSome = true := by
    rw [h.config_eq k, Option.isSome_map]
    exact ExtTreeMap.isSome_getElem?_iff_mem.mpr hk
  rcases Option.isSome_iff_exists.mp hactive with ⟨active, hactive⟩
  unfold needsStop stops
  rw [desiredConfigs_getElem?, hactive]
  cases lastEnabled newConfigs k.toInt64 <;> rfl

private theorem foldlM_collect {α β : Type*} {test : α → Option Bool} (stop : α → Bool)
    (f : α → β) {ids : List α} (h : ∀ a ∈ ids, test a = some (stop a)) (acc : List β) :
    ids.foldlM (fun acc a => (test a).map fun b => if b then acc ++ [f a] else acc) acc =
      some (acc ++ (ids.filter stop).map f) := by
  induction ids generalizing acc with
  | nil => simp
  | cons a ids ih =>
      have hrest : ∀ b ∈ ids, test b = some (stop b) := fun b hb => h b (by simp [hb])
      rw [List.foldlM_cons, h a (by simp)]
      cases hstop : stop a with
      | false => simpa [hstop] using ih hrest acc
      | true => simpa [hstop] using ih hrest (acc ++ [f a])

/-- Phase 1 never fails on consistent tables. -/
theorem Consistent.toStop_eq {s : StreamIoManager} (h : s.Consistent)
    (newConfigs : List StreamConfig) :
    s.toStop (desiredConfigs newConfigs) =
      some ((s.streamThreads.keys.filter (s.stops newConfigs)).map Int32.toInt64) := by
  unfold toStop
  rw [foldlM_collect (s.stops newConfigs) Int32.toInt64]
  · simp
  · exact fun k hk => h.needsStop_eq newConfigs (ExtTreeMap.mem_keys.mp hk)

/-- Phase 2 removes exactly the listed keys and starts nothing. -/
theorem stopPhase_spec (ids : List Int32) {s : StreamIoManager} (hnodup : ids.Nodup)
    (hmem : ∀ k ∈ ids, k ∈ s.streamThreads) :
    ∃ s', (ids.map Int32.toInt64).foldlM stopStream s = some s' ∧ s'.started = s.started ∧
      (∀ k, s'.streamThreads[k]? = if k ∈ ids then none else s.streamThreads[k]?) ∧
      (∀ k, s'.activeStreamConfigs[k]? = if k ∈ ids then none else s.activeStreamConfigs[k]?) := by
  induction ids generalizing s with
  | nil => exact ⟨s, by simp⟩
  | cons id ids ih =>
      rcases List.nodup_cons.mp hnodup with ⟨hid, hnodup⟩
      let s₁ : StreamIoManager :=
        { s with
          streamThreads := s.streamThreads.erase id
          activeStreamConfigs := s.activeStreamConfigs.erase id }
      have hstep : s.stopStream id.toInt64 = some s₁ := by
        have hcontains : s.streamThreads.contains id = true :=
          ExtTreeMap.mem_iff_contains.mp (hmem id (by simp))
        simp [stopStream, hcontains, s₁]
      have hrest : ∀ k ∈ ids, k ∈ s₁.streamThreads := by
        intro k hk
        have hne : id ≠ k := fun heq => hid (heq ▸ hk)
        exact ExtTreeMap.mem_erase.mpr ⟨by simpa using hne, hmem k (by simp [hk])⟩
      rcases ih hnodup hrest with ⟨s', hrun, hstarted, hthreads, hconfigs⟩
      refine ⟨s', by rw [List.map_cons, List.foldlM_cons, hstep]; exact hrun, hstarted, ?_, ?_⟩
      · intro k
        by_cases hk : id = k
        · subst hk
          simp [hthreads, hid, s₁]
        · simp [hthreads, s₁, ExtTreeMap.getElem?_erase, hk, Ne.symm hk]
      · intro k
        by_cases hk : id = k
        · subst hk
          simp [hconfigs, hid, s₁]
        · simp [hconfigs, s₁, ExtTreeMap.getElem?_erase, hk, Ne.symm hk]

/-- The last configuration of a list whose narrowed id is `k`. -/
def lastKeyed (cfgs : List StreamConfig) (k : Int32) : Option StreamConfig :=
  (cfgs.filter fun cfg => cfg.id.toInt32 == k).getLast?

/-- Phase 3 leaves under each key the last configuration started there, with its own
thread, and keeps the keys nothing was started for. -/
theorem startPhase_spec (cfgs : List StreamConfig) (s : StreamIoManager) (k : Int32) :
    ((cfgs.foldl startStream s).activeStreamConfigs[k]? =
        (lastKeyed cfgs k).or s.activeStreamConfigs[k]?) ∧
      ((cfgs.foldl startStream s).streamThreads[k]?.map JThread.config =
        (lastKeyed cfgs k).or (s.streamThreads[k]?.map JThread.config)) ∧
      (lastKeyed cfgs k = none →
        (cfgs.foldl startStream s).streamThreads[k]? = s.streamThreads[k]?) := by
  unfold lastKeyed
  induction cfgs using List.reverseRecOn with
  | nil => simp
  | append_singleton cfgs cfg ih =>
      rw [List.foldl_concat, List.filter_append, List.getLast?_append]
      by_cases hk : cfg.id.toInt32 = k
      · subst hk
        simp [startStream]
      · simpa [startStream, hk, ExtTreeMap.getElem?_insert] using ih

theorem Consistent.startPhase {cfgs : List StreamConfig} {s : StreamIoManager} (h : s.Consistent)
    (henabled : ∀ cfg ∈ cfgs, cfg.enabled = true) :
    (cfgs.foldl StreamIoManager.startStream s).Consistent := by
  induction cfgs generalizing s with
  | nil => exact h
  | cons cfg cfgs ih =>
      exact ih (h.startStream (henabled cfg (by simp))) fun c hc => henabled c (by simp [hc])

theorem startPhase_started (cfgs : List StreamConfig) (s : StreamIoManager) :
    (cfgs.foldl startStream s).started = s.started + cfgs.length := by
  induction cfgs generalizing s with
  | nil => simp
  | cons cfg cfgs ih =>
      rw [List.foldl_cons, ih, List.length_cons]
      simp only [startStream]
      omega

/-! ## One call of update_streams -/

/-- The desired configurations, in id order. -/
def desiredList (newConfigs : List StreamConfig) : List StreamConfig :=
  (desiredConfigs newConfigs).toList.map Prod.snd

/-- Nothing is desired exactly when no entry is enabled. -/
theorem desiredList_eq_nil {newConfigs : List StreamConfig} :
    desiredList newConfigs = [] ↔ ∀ cfg ∈ newConfigs, cfg.enabled = false := by
  constructor
  · intro hnil cfg hcfg
    by_contra henabled
    have hlast : (lastEnabled newConfigs cfg.id).isSome = true := by
      rw [lastEnabled, Option.isSome_iff_ne_none, Ne, List.getLast?_eq_none_iff]
      exact List.ne_nil_of_mem (List.mem_filter.mpr ⟨hcfg, by simpa using henabled⟩)
    rcases Option.isSome_iff_exists.mp hlast with ⟨last, hlast⟩
    have hid := (lastEnabled_eq_some hlast).2.2
    have hmem : last ∈ desiredList newConfigs :=
      mem_desiredConfigs_toList.mpr (by rw [hid, hlast])
    rw [hnil] at hmem
    cases hmem
  · intro hnone
    apply List.eq_nil_iff_forall_not_mem.mpr
    intro cfg hcfg
    rcases lastEnabled_eq_some (mem_desiredConfigs_toList.mp hcfg) with ⟨hmem, henabled, -⟩
    rw [hnone cfg hmem] at henabled
    cases henabled

/-- What one call does to the tables, key by key. -/
structure Updated (s s' : StreamIoManager) (newConfigs : List StreamConfig) : Prop where
  consistent : s'.Consistent
  /-- A thread whose configuration is still desired is the same thread afterwards. -/
  kept : ∀ (k : Int32) (t : JThread), s.streamThreads[k]? = some t →
    s.stops newConfigs k = false → s'.streamThreads[k]? = some t
  /-- A thread that phase 1 decides to stop leaves its key empty. -/
  stopped : ∀ (k : Int32) (t : JThread), s.streamThreads[k]? = some t →
    s.stops newConfigs k = true → s'.streamThreads[k]? = none
  /-- A key without a thread gets the last desired configuration that narrows to it. -/
  fresh : ∀ k : Int32, s.streamThreads[k]? = none →
    s'.activeStreamConfigs[k]? = lastKeyed (desiredList newConfigs) k
  /-- One thread is created per desired configuration that had no thread. -/
  started_eq : s'.started = s.started + (s.toStart (desiredConfigs newConfigs)).length

theorem lastKeyed_toStart {s : StreamIoManager} {newConfigs : List StreamConfig} {k : Int32} :
    lastKeyed (s.toStart (desiredConfigs newConfigs)) k =
      if s.streamThreads.contains k then none else lastKeyed (desiredList newConfigs) k := by
  unfold lastKeyed toStart desiredList
  rw [List.filter_filter]
  split
  · next hk =>
    rw [List.filter_eq_nil_iff.mpr]
    · rfl
    · intro cfg _ hcfg
      simp only [Bool.and_eq_true, beq_iff_eq, Bool.not_eq_eq_eq_not, Bool.not_true] at hcfg
      rw [hcfg.1, hk] at hcfg
      simp at hcfg
  · next hk =>
    congr 1
    refine List.filter_congr fun cfg _ => ?_
    by_cases hcfg : cfg.id.toInt32 = k
    · simp [hcfg, hk]
    · simp [hcfg]

theorem contains_of_getElem? {s : StreamIoManager} {k : Int32} {t : JThread}
    (h : s.streamThreads[k]? = some t) : s.streamThreads.contains k = true := by
  rw [← ExtTreeMap.isSome_getElem?_eq_contains, h]
  rfl

/-- A key that has a thread when the call begins gets nothing in phase 3. -/
theorem startPhase_keeps {s : StreamIoManager} {k : Int32} {t : JThread}
    (h : s.streamThreads[k]? = some t) (newConfigs : List StreamConfig) (s₁ : StreamIoManager) :
    ((s.toStart (desiredConfigs newConfigs)).foldl startStream s₁).streamThreads[k]? =
      s₁.streamThreads[k]? := by
  apply (startPhase_spec _ s₁ k).2.2
  rw [lastKeyed_toStart, if_pos (contains_of_getElem? h)]

/-- Removing keys from both tables keeps them consistent. -/
theorem Consistent.erase {s s₁ : StreamIoManager} (h : s.Consistent) {ids : List Int32}
    (hthreads : ∀ k, s₁.streamThreads[k]? = if k ∈ ids then none else s.streamThreads[k]?)
    (hconfigs : ∀ k, s₁.activeStreamConfigs[k]? =
      if k ∈ ids then none else s.activeStreamConfigs[k]?) : s₁.Consistent := by
  constructor
  · intro k
    rw [hconfigs, hthreads]
    split
    · rfl
    · exact h.config_eq k
  · intro k c hc
    rw [hconfigs] at hc
    split at hc
    · cases hc
    · exact h.key_eq k c hc

/-- On consistent tables a call succeeds and acts on every key as `Updated` says. -/
theorem updateStreams_spec {s : StreamIoManager} (h : s.Consistent)
    (newConfigs : List StreamConfig) :
    ∃ s', s.updateStreams newConfigs = some s' ∧ Updated s s' newConfigs := by
  let ids := s.streamThreads.keys.filter (s.stops newConfigs)
  have hmem : ∀ k, k ∈ ids ↔ k ∈ s.streamThreads ∧ s.stops newConfigs k = true := by
    simp [ids]
  obtain ⟨s₁, hrun, hstarted, hthreads, hconfigs⟩ :=
    stopPhase_spec ids (s.streamThreads.nodup_keys.filter _)
      fun k hk => ((hmem k).mp hk).1
  let cfgs := s.toStart (desiredConfigs newConfigs)
  refine ⟨cfgs.foldl startStream s₁, ?_, ?_, ?_, ?_, ?_, ?_⟩
  · simp only [updateStreams, h.toStop_eq newConfigs]
    change ((ids.map Int32.toInt64).foldlM stopStream s).bind _ = _
    rw [hrun]
    rfl
  · refine (h.erase hthreads hconfigs).startPhase fun cfg hcfg => ?_
    have hdesired := mem_desiredConfigs_toList.mp (List.mem_of_mem_filter hcfg)
    exact (lastEnabled_eq_some hdesired).2.1
  · intro k t ht hstops
    rw [startPhase_keeps ht, hthreads, if_neg, ht]
    rw [hmem, hstops]
    simp
  · intro k t ht hstops
    have hcontains := contains_of_getElem? ht
    rw [startPhase_keeps ht, hthreads, if_pos]
    exact (hmem k).mpr ⟨ExtTreeMap.mem_iff_contains.mpr hcontains, hstops⟩
  · intro k hk
    have hcontains : s.streamThreads.contains k = false := by
      rw [← ExtTreeMap.isSome_getElem?_eq_contains, hk]
      rfl
    have hold : s₁.activeStreamConfigs[k]? = none := by
      rw [hconfigs]
      split
      · rfl
      · rw [h.config_eq k, hk]
        rfl
    rw [(startPhase_spec cfgs s₁ k).1, lastKeyed_toStart, hold, hcontains]
    simp
  · rw [startPhase_started, hstarted]

/-- What a call on an empty table starts: one thread per desired configuration. -/
theorem Updated.started_of_empty {s s' : StreamIoManager} {newConfigs : List StreamConfig}
    (h : Updated s s' newConfigs) (hempty : s.streamThreads = ∅) :
    s'.started = s.started + (desiredList newConfigs).length := by
  rw [h.started_eq, toStart, hempty]
  simp [desiredList]

/-- A call without desired configurations leaves an empty table empty. -/
theorem Updated.threads_of_empty {s s' : StreamIoManager} {newConfigs : List StreamConfig}
    (h : Updated s s' newConfigs) (hempty : s.streamThreads = ∅)
    (hnone : desiredList newConfigs = []) : s'.streamThreads = ∅ := by
  apply ExtTreeMap.ext_getElem?
  intro k
  have hfresh := h.fresh k (by simp [hempty])
  rw [h.consistent.config_eq k, hnone] at hfresh
  simpa [lastKeyed] using hfresh

/-- `stop_all` leaves no thread. -/
theorem stopAll_threads (s : StreamIoManager) : s.stopAll.streamThreads = ∅ := by
  unfold stopAll
  split
  · next hempty => exact ExtTreeMap.isEmpty_iff.mp hempty
  · rfl

@[simp]
theorem stopAll_started (s : StreamIoManager) : s.stopAll.started = s.started := by
  unfold stopAll
  split <;> rfl

/-- The tables agree after any sequence of calls. -/
theorem consistent_of_reachable {s : StreamIoManager} (h : machine.Reachable s) :
    s.Consistent := by
  refine Machine.reachable_induction ?_ ?_ h
  · rintro s rfl
    exact Consistent.empty
  · intro s call s' hs hstep
    cases call with
    | updateStreams newConfigs =>
        rcases updateStreams_spec hs newConfigs with ⟨s₁, hrun, hupdated⟩
        have heq : s₁ = s' := Option.some.inj (hrun.symm.trans hstep)
        exact heq ▸ hupdated.consistent
    | stopAll =>
        cases hstep
        exact hs.stopAll

/-! ## Every sequence of calls -/

/-- What the two tables promise to the next call. -/
structure TablesAgree (s : StreamIoManager) : Prop where
  /-- The tables have the same keys. -/
  keys : ∀ k, k ∈ s.streamThreads ↔ k ∈ s.activeStreamConfigs
  /-- A thread was started with exactly the configuration recorded under its key. -/
  config_eq : ∀ (k : Int32) (t : JThread), s.streamThreads[k]? = some t →
    s.activeStreamConfigs[k]? = some t.config
  /-- A recorded configuration is enabled, and its narrowed id is the key. -/
  key_eq : ∀ (k : Int32) (c : StreamConfig), s.activeStreamConfigs[k]? = some c →
    c.enabled = true ∧ c.id.toInt32 = k
  /-- No `at()` of `update_streams` throws, for any list. -/
  returns : ∀ newConfigs, ∃ s', s.updateStreams newConfigs = some s'
  /-- The early return of `stop_all` leaves no configuration behind. -/
  early : s.streamThreads.isEmpty = true → s.activeStreamConfigs.isEmpty = true

theorem Consistent.tablesAgree {s : StreamIoManager} (h : s.Consistent) : s.TablesAgree := by
  have hkeys : ∀ k, k ∈ s.streamThreads ↔ k ∈ s.activeStreamConfigs := by
    intro k
    rw [ExtTreeMap.mem_iff_contains, ExtTreeMap.mem_iff_contains, h.contains_eq k]
  refine ⟨hkeys, fun k t ht => by rw [h.config_eq k, ht]; rfl, h.key_eq, ?_, fun hempty => ?_⟩
  · intro newConfigs
    rcases updateStreams_spec h newConfigs with ⟨s', hrun, -⟩
    exact ⟨s', hrun⟩
  · rw [ExtTreeMap.isEmpty_iff] at hempty ⊢
    apply ExtTreeMap.ext_getElem?
    intro k
    rw [h.config_eq k, hempty]
    simp

/-- Tables that agree do not stop a call from returning. -/
theorem exec_isSome {s : StreamIoManager} (h : s.Consistent) (calls : List Call) :
    ∃ s', machine.exec s calls = some s' := by
  induction calls generalizing s with
  | nil => exact ⟨s, rfl⟩
  | cons call calls ih =>
      cases call with
      | updateStreams newConfigs =>
          rcases updateStreams_spec h newConfigs with ⟨s₁, hrun, hupdated⟩
          rcases ih hupdated.consistent with ⟨s', hrest⟩
          exact ⟨s', machine.exec_cons_eq_some.mpr ⟨s₁, hrun, hrest⟩⟩
      | stopAll =>
          rcases ih h.stopAll with ⟨s', hrest⟩
          exact ⟨s', machine.exec_cons_eq_some.mpr ⟨_, rfl, hrest⟩⟩

/-- Every sequence of calls with arbitrary lists runs to its end, and its tables agree. -/
theorem calls_keep_tables (calls : List Call) :
    ∃ s, machine.exec {} calls = some s ∧ s.TablesAgree := by
  rcases exec_isSome Consistent.empty calls with ⟨s, hrun⟩
  exact ⟨s, hrun, (consistent_of_reachable ⟨{}, calls, rfl, hrun⟩).tablesAgree⟩

end StreamIoManager

end FrameProcessor
