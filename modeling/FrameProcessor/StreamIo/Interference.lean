import FrameProcessor.StreamIo.Reconciliation

/-!
# components/stream_io - Streams that a reconciliation should leave alone

A call of `update_streams` looks running streams up among the desired ones by their table
key widened to 64 bits, and desired streams up among the running ones by their id
narrowed to `int`.  The two directions agree only for ids that fit in `int`.  This file
states exactly when a call neither disturbs an unchanged stream nor lets two ids share a
table entry.

Main results:

- Theorem `StreamIoManager.stops_of_not_inIntRange`: a running stream whose id does not fit
  is always stopped.
- Theorem `StreamIoManager.undisturbed_iff`: on consistent tables, the streams are left
  alone exactly when the unchanged ids fit and no two ids narrow to the same key.
- Theorem `StreamIoManager.updateStreams_undisturbed_iff`: the same from every reachable
  state.
-/

namespace FrameProcessor

open Std

namespace StreamIoManager

/-! ## Ids and keys -/

/-- A key is an id that fits. -/
theorem inIntRange_toInt64 (k : Int32) : InIntRange k.toInt64 := by
  have hlow := k.le_toInt
  have hhigh := k.toInt_lt
  unfold InIntRange
  rw [Int32.toInt_toInt64]
  omega

/-- A running stream is found under its narrowed id. -/
theorem Consistent.key_of_thread {s : StreamIoManager} (h : s.Consistent) {k : Int32}
    {t : JThread} (ht : s.streamThreads[k]? = some t) : t.config.id.toInt32 = k := by
  refine (h.key_eq k t.config ?_).2
  rw [h.config_eq k, ht]
  rfl

/-- An enabled entry leaves some desired configuration for its key. -/
theorem lastKeyed_isSome {newConfigs : List StreamConfig} {id : Int64} {cfg : StreamConfig}
    (h : lastEnabled newConfigs id = some cfg) :
    (lastKeyed (desiredList newConfigs) id.toInt32).isSome = true := by
  have hid := (lastEnabled_eq_some h).2.2
  have hmem : cfg ∈ desiredList newConfigs := mem_desiredConfigs_toList.mpr (hid.symm ▸ h)
  rw [lastKeyed, Option.isSome_iff_ne_none, Ne, List.getLast?_eq_none_iff]
  exact List.ne_nil_of_mem (List.mem_filter.mpr ⟨hmem, by simp [hid]⟩)

/-- Phase 1 stops every running stream whose id does not fit: the desired entry it finds,
if any, has another id. -/
theorem stops_of_not_inIntRange {s : StreamIoManager} {k : Int32} {c : StreamConfig}
    (hc : s.activeStreamConfigs[k]? = some c) (hrange : ¬ InIntRange c.id)
    (newConfigs : List StreamConfig) : s.stops newConfigs k = true := by
  by_contra hstops
  have hkept : s.stops newConfigs k = false := by simpa using hstops
  rcases (stops_eq_false_iff hc).mp hkept with ⟨e, he, hsame⟩
  have hid : e.id = c.id := by rw [StreamConfig.beq_iff.mp hsame]
  rw [← hid, (lastEnabled_eq_some he).2.2] at hrange
  exact hrange (inIntRange_toInt64 k)

/-! ## Leaving streams alone -/

/-- The ids that run before the call, and those its list enables. -/
def Concerned (s : StreamIoManager) (newConfigs : List StreamConfig) (id : Int64) : Prop :=
  (∃ (k : Int32) (t : JThread), s.streamThreads[k]? = some t ∧ t.config.id = id) ∨
    ∃ cfg, lastEnabled newConfigs id = some cfg

/-- Two ids are served by one entry of a table. -/
def SharesEntry (s : StreamIoManager) (i j : Int64) : Prop :=
  i.toInt32 = j.toInt32 ∧ (i.toInt32 ∈ s.streamThreads ∨ i.toInt32 ∈ s.activeStreamConfigs)

/-- The stream of a thread has the configuration that the list asks for. -/
def StaysSame (newConfigs : List StreamConfig) (t : JThread) : Prop :=
  ∃ e, lastEnabled newConfigs t.config.id = some e ∧ SameConfig t.config e

/-- The call neither stops nor replaces the thread of an unchanged stream, and no two of
the ids it deals with share a table entry, before or after it. -/
structure Undisturbed (s s' : StreamIoManager) (newConfigs : List StreamConfig) : Prop where
  kept : ∀ (k : Int32) (t : JThread), s.streamThreads[k]? = some t → StaysSame newConfigs t →
    s'.streamThreads[k]? = some t
  apart : ∀ i j, Concerned s newConfigs i → Concerned s newConfigs j → i ≠ j →
    ¬ SharesEntry s i j ∧ ¬ SharesEntry s' i j

/-- The ids of unchanged streams fit in `int`, and no two ids narrow to the same key. -/
structure IdsFit (s : StreamIoManager) (newConfigs : List StreamConfig) : Prop where
  fits : ∀ (k : Int32) (t : JThread), s.streamThreads[k]? = some t → StaysSame newConfigs t →
    InIntRange t.config.id
  distinct : ∀ i j, Concerned s newConfigs i → Concerned s newConfigs j → i ≠ j →
    i.toInt32 ≠ j.toInt32

/-- An unchanged stream keeps its thread exactly if its id fits. -/
theorem kept_iff {s s' : StreamIoManager} {newConfigs : List StreamConfig} (hs : s.Consistent)
    (hupd : Updated s s' newConfigs) {k : Int32} {t : JThread}
    (ht : s.streamThreads[k]? = some t) (hsame : StaysSame newConfigs t) :
    s'.streamThreads[k]? = some t ↔ InIntRange t.config.id := by
  have hc : s.activeStreamConfigs[k]? = some t.config := by
    rw [hs.config_eq k, ht]
    rfl
  constructor
  · intro hkept
    by_contra hrange
    rw [hupd.stopped k t ht (stops_of_not_inIntRange hc hrange newConfigs)] at hkept
    cases hkept
  · intro hrange
    apply hupd.kept k t ht
    rw [stops_eq_false_iff hc, ← hs.key_of_thread ht, hrange.toInt64_toInt32]
    exact hsame

/-- When two of the ids narrow to the same key, they share an entry: the one of a running
stream, or the one the call creates. -/
theorem sharesEntry_of_toInt32_eq {s s' : StreamIoManager} {newConfigs : List StreamConfig}
    (hs : s.Consistent) (hupd : Updated s s' newConfigs) {i j : Int64}
    (hi : Concerned s newConfigs i) (hkey : i.toInt32 = j.toInt32) :
    SharesEntry s i j ∨ SharesEntry s' i j := by
  cases hthread : s.streamThreads[i.toInt32]? with
  | some t =>
      exact Or.inl ⟨hkey, Or.inl (ExtTreeMap.isSome_getElem?_iff_mem.mp (by rw [hthread]; rfl))⟩
  | none =>
      rcases hi with ⟨k, t, ht, hid⟩ | ⟨cfg, hcfg⟩
      · have hk := hs.key_of_thread ht
        rw [hid] at hk
        rw [hk, ht] at hthread
        cases hthread
      · refine Or.inr ⟨hkey, Or.inr (ExtTreeMap.isSome_getElem?_iff_mem.mp ?_)⟩
        rw [hupd.fresh _ hthread]
        exact lastKeyed_isSome hcfg

/-- On consistent tables, the streams are left alone exactly when the ids fit. -/
theorem undisturbed_iff {s s' : StreamIoManager} {newConfigs : List StreamConfig}
    (hs : s.Consistent) (hupd : Updated s s' newConfigs) :
    Undisturbed s s' newConfigs ↔ IdsFit s newConfigs := by
  constructor
  · intro h
    refine ⟨fun k t ht hsame => (kept_iff hs hupd ht hsame).mp (h.kept k t ht hsame), ?_⟩
    intro i j hi hj hne hkey
    rcases sharesEntry_of_toInt32_eq hs hupd hi hkey with hshared | hshared
    · exact (h.apart i j hi hj hne).1 hshared
    · exact (h.apart i j hi hj hne).2 hshared
  · intro h
    refine ⟨fun k t ht hsame => (kept_iff hs hupd ht hsame).mpr (h.fits k t ht hsame), ?_⟩
    intro i j hi hj hne
    have hkey := h.distinct i j hi hj hne
    exact ⟨fun hshared => hkey hshared.1, fun hshared => hkey hshared.1⟩

/-- From every reachable state and for every list the call returns; it leaves unchanged
streams alone and keeps all ids apart exactly when the ids of the unchanged streams fit in
`int` and no two ids narrow to the same key. -/
theorem updateStreams_undisturbed_iff {s : StreamIoManager} (hs : machine.Reachable s)
    (newConfigs : List StreamConfig) :
    ∃ s', s.updateStreams newConfigs = some s' ∧
      (Undisturbed s s' newConfigs ↔ IdsFit s newConfigs) := by
  have hcons := consistent_of_reachable hs
  rcases updateStreams_spec hcons newConfigs with ⟨s', hrun, hupd⟩
  exact ⟨s', hrun, undisturbed_iff hcons hupd⟩

/-- Camera 1 runs on while camera 2 is added and changed. -/
theorem updateStreams_undisturbed_small :
    ∃ s', (({} : StreamIoManager).startStream (camera 1 "rtsp://a" true)).updateStreams
        [camera 1 "rtsp://a" true, camera 2 "rtsp://b" true] = some s' ∧
      Undisturbed (({} : StreamIoManager).startStream (camera 1 "rtsp://a" true)) s'
        [camera 1 "rtsp://a" true, camera 2 "rtsp://b" true] := by
  have hreach : machine.Reachable (({} : StreamIoManager).startStream (camera 1 "rtsp://a" true)) :=
    ⟨{}, [.updateStreams [camera 1 "rtsp://a" true]], rfl, rfl⟩
  rcases updateStreams_undisturbed_iff hreach
    [camera 1 "rtsp://a" true, camera 2 "rtsp://b" true] with ⟨s', hrun, hiff⟩
  have hids : ∀ id, Concerned (({} : StreamIoManager).startStream (camera 1 "rtsp://a" true))
      [camera 1 "rtsp://a" true, camera 2 "rtsp://b" true] id → id = 1 ∨ id = 2 := by
    rintro id (⟨k, t, ht, rfl⟩ | ⟨cfg, hcfg⟩)
    · by_cases hk : (1 : Int32) = k
      · subst hk
        have heq : t = ⟨0, camera 1 "rtsp://a" true⟩ := by
          simpa [startStream, camera, eq_comm] using ht
        rw [heq]
        exact Or.inl rfl
      · simp [startStream, camera, hk] at ht
    · rcases lastEnabled_eq_some hcfg with ⟨hmem, -, rfl⟩
      simp only [List.mem_cons, List.not_mem_nil, or_false] at hmem
      rcases hmem with rfl | rfl
      · exact Or.inl rfl
      · exact Or.inr rfl
  refine ⟨s', hrun, hiff.mpr ⟨?_, ?_⟩⟩
  · intro k t ht _
    rcases hids _ (Or.inl ⟨k, t, ht, rfl⟩) with hid | hid <;> rw [hid] <;> decide
  · intro i j hi hj hne
    rcases hids i hi with rfl | rfl <;> rcases hids j hj with rfl | rfl <;> first
      | exact absurd rfl hne
      | decide

/-- A camera whose id is 2^32 + 1 is stopped by a second call with the same list. -/
theorem updateStreams_wide_id_disturbed :
    ¬ ∀ (s s' : StreamIoManager) (newConfigs : List StreamConfig), machine.Reachable s →
      s.updateStreams newConfigs = some s' → Undisturbed s s' newConfigs := by
  intro h
  let s : StreamIoManager := ({} : StreamIoManager).startStream (camera 4294967297 "rtsp://a" true)
  have hreach : machine.Reachable s :=
    ⟨{}, [.updateStreams [camera 4294967297 "rtsp://a" true]], rfl, rfl⟩
  have hrun : s.updateStreams [camera 4294967297 "rtsp://a" true] = some { started := 1 } := rfl
  have hkept := (h s _ _ hreach hrun).kept 1 ⟨0, camera 4294967297 "rtsp://a" true⟩ rfl
    ⟨camera 4294967297 "rtsp://a" true, by decide, sameConfig_refl _⟩
  simp at hkept

end StreamIoManager

end FrameProcessor
