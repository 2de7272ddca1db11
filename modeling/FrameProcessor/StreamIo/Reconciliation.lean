import FrameProcessor.StreamIo.Manager

/-!
# components/stream_io - Convergence of one reconciliation

What `update_streams` is for: after one call the running streams are exactly the
enabled entries of the list.  A call starts only ids that had no thread when it was
entered, so a stream it stops because its configuration changed is not started
again; this file states exactly when a call converges.

Main results:

- Theorem `StreamIoManager.converged_iff`: on consistent tables a call converges
  exactly when every stream that is already running and stays enabled is unchanged.
- Theorem `StreamIoManager.updateStreams_converges_iff`: the same from every
  reachable state, for literal equality and for `StreamConfig::operator==`.
-/

namespace FrameProcessor

open Std

namespace StreamIoManager

/-! ## Ids in the range of int -/

/-- The id survives the narrowing to `int`. -/
def InIntRange (id : Int64) : Prop :=
  -2147483648 ≤ id.toInt ∧ id.toInt < 2147483648

instance (id : Int64) : Decidable (InIntRange id) :=
  inferInstanceAs (Decidable (_ ∧ _))

theorem InIntRange.toInt64_toInt32 {id : Int64} (h : InIntRange id) :
    id.toInt32.toInt64 = id := by
  rcases h with ⟨hlow, hhigh⟩
  apply Int64.toInt_inj.mp
  rw [Int32.toInt_toInt64, Int64.toInt_toInt32]
  exact Int.bmod_eq_of_le (by omega) (by omega)

/-- For ids in range, the entry that ends up under a key is the last enabled entry of
that id. -/
theorem lastKeyed_desiredList {newConfigs : List StreamConfig}
    (hrange : ∀ cfg ∈ newConfigs, InIntRange cfg.id) (k : Int32) :
    lastKeyed (desiredList newConfigs) k = lastEnabled newConfigs k.toInt64 := by
  have hkey : ∀ cfg, lastKeyed (desiredList newConfigs) k = some cfg →
      lastEnabled newConfigs k.toInt64 = some cfg := by
    intro cfg hcfg
    rcases List.mem_filter.mp (List.mem_of_getLast? hcfg) with ⟨hmem, hid⟩
    have hlast := mem_desiredConfigs_toList.mp hmem
    have hid : cfg.id.toInt32 = k := by simpa using hid
    have hround := (hrange cfg (lastEnabled_eq_some hlast).1).toInt64_toInt32
    rw [← hid, hround]
    exact hlast
  cases hentry : lastEnabled newConfigs k.toInt64 with
  | none =>
      cases hlast : lastKeyed (desiredList newConfigs) k with
      | none => rfl
      | some cfg => rw [hkey cfg hlast] at hentry; cases hentry
  | some entry =>
      have hid : entry.id = k.toInt64 := (lastEnabled_eq_some hentry).2.2
      have hmem : entry ∈ desiredList newConfigs :=
        mem_desiredConfigs_toList.mpr (by rw [hid]; exact hentry)
      cases hlast : lastKeyed (desiredList newConfigs) k with
      | some cfg => rw [← hkey cfg hlast, hentry]
      | none =>
          have hempty := List.getLast?_eq_none_iff.mp hlast
          have hfilter : entry ∈ (desiredList newConfigs).filter
              fun cfg => cfg.id.toInt32 == k := List.mem_filter.mpr ⟨hmem, by simp [hid]⟩
          rw [hempty] at hfilter
          cases hfilter

/-! ## Convergence -/

/-- Both tables hold exactly one entry per id with an enabled entry in the list; the
recorded configuration and the one the thread runs are that id's last enabled entry, up
to `R`. -/
structure Converged (R : StreamConfig → StreamConfig → Prop) (s : StreamIoManager)
    (newConfigs : List StreamConfig) : Prop where
  configs : ∀ k : Int32, Option.Rel R s.activeStreamConfigs[k]? (lastEnabled newConfigs k.toInt64)
  threads : ∀ k : Int32, Option.Rel R (s.streamThreads[k]?.map JThread.config)
    (lastEnabled newConfigs k.toInt64)

/-- Every recorded stream that still has an enabled entry has the same configuration, up
to `R`, as its last enabled entry. -/
def Unchanged (R : StreamConfig → StreamConfig → Prop) (s : StreamIoManager)
    (newConfigs : List StreamConfig) : Prop :=
  ∀ (k : Int32) (c e : StreamConfig), s.activeStreamConfigs[k]? = some c →
    lastEnabled newConfigs k.toInt64 = some e → R c e

/-- `StreamConfig::operator==` as the update test applies it: desired against recorded. -/
def SameConfig (c e : StreamConfig) : Prop :=
  (e == c) = true

theorem stops_eq_false_iff {s : StreamIoManager} {newConfigs : List StreamConfig} {k : Int32}
    {c : StreamConfig} (hc : s.activeStreamConfigs[k]? = some c) :
    s.stops newConfigs k = false ↔ ∃ e, lastEnabled newConfigs k.toInt64 = some e ∧
      SameConfig c e := by
  unfold stops SameConfig
  rw [hc]
  cases lastEnabled newConfigs k.toInt64 with
  | none => simp
  | some e => simp

/-- A converged manager is a fixed point of the call. -/
theorem Converged.updateStreams_eq {R : StreamConfig → StreamConfig → Prop}
    (hR : ∀ c e, R c e → SameConfig c e) {s : StreamIoManager}
    {newConfigs : List StreamConfig} (hs : s.Consistent)
    (hrange : ∀ cfg ∈ newConfigs, InIntRange cfg.id) (h : Converged R s newConfigs) :
    s.updateStreams newConfigs = some s := by
  have hstop : s.streamThreads.keys.filter (s.stops newConfigs) = [] := by
    refine List.filter_eq_nil_iff.mpr fun k hk => ?_
    have hthread := ExtTreeMap.isSome_getElem?_iff_mem.mpr (ExtTreeMap.mem_keys.mp hk)
    have hactive : s.activeStreamConfigs[k]?.isSome = true := by
      rw [hs.config_eq k, Option.isSome_map, hthread]
    rcases Option.isSome_iff_exists.mp hactive with ⟨c, hc⟩
    have hrel := h.configs k
    rw [hc] at hrel
    cases hentry : lastEnabled newConfigs k.toInt64 with
    | none => rw [hentry] at hrel; cases hrel
    | some e =>
        rw [hentry] at hrel
        cases hrel with
        | some hce =>
            have hfalse := (stops_eq_false_iff hc).mpr ⟨e, hentry, hR c e hce⟩
            simp [hfalse]
  have hstart : s.toStart (desiredConfigs newConfigs) = [] := by
    refine List.filter_eq_nil_iff.mpr fun cfg hcfg => ?_
    have hlast := mem_desiredConfigs_toList.mp hcfg
    have hround := (hrange cfg (lastEnabled_eq_some hlast).1).toInt64_toInt32
    have hrel := h.threads cfg.id.toInt32
    rw [hround, hlast] at hrel
    cases hthread : s.streamThreads[cfg.id.toInt32]? with
    | none => rw [hthread] at hrel; cases hrel
    | some t => simp [← ExtTreeMap.isSome_getElem?_eq_contains, hthread]
  simp only [updateStreams, hs.toStop_eq newConfigs, hstop, hstart]
  rfl

/-- On consistent tables one call converges, and a second call changes nothing, exactly
when no running stream changed. -/
theorem converged_iff {R : StreamConfig → StreamConfig → Prop} (hrefl : ∀ c, R c c)
    (hR : ∀ c e, R c e → SameConfig c e) {s s' : StreamIoManager}
    {newConfigs : List StreamConfig} (hs : s.Consistent)
    (hrange : ∀ cfg ∈ newConfigs, InIntRange cfg.id) (hupd : Updated s s' newConfigs) :
    (Converged R s' newConfigs ∧ s'.updateStreams newConfigs = some s') ↔
      Unchanged R s newConfigs := by
  constructor
  · rintro ⟨hconv, -⟩ k c e hc he
    have hthread : s.streamThreads[k]?.map JThread.config = some c :=
      (hs.config_eq k).symm.trans hc
    rcases Option.map_eq_some_iff.mp hthread with ⟨t, ht, rfl⟩
    have hrel := hconv.threads k
    rw [he] at hrel
    cases hstops : s.stops newConfigs k with
    | true =>
        rw [hupd.stopped k t ht hstops] at hrel
        cases hrel
    | false =>
        rw [hupd.kept k t ht hstops] at hrel
        cases hrel with
        | some hce => exact hce
  · intro hsame
    have hthreads : ∀ k : Int32, Option.Rel R (s'.streamThreads[k]?.map JThread.config)
        (lastEnabled newConfigs k.toInt64) := by
      intro k
      cases hthread : s.streamThreads[k]? with
      | none =>
          rw [← hupd.consistent.config_eq k, hupd.fresh k hthread, lastKeyed_desiredList hrange]
          cases lastEnabled newConfigs k.toInt64 with
          | none => exact Option.Rel.none
          | some e => exact Option.Rel.some (hrefl e)
      | some t =>
          have hc : s.activeStreamConfigs[k]? = some t.config := by
            rw [hs.config_eq k, hthread]
            rfl
          cases hentry : lastEnabled newConfigs k.toInt64 with
          | none =>
              have hstops : s.stops newConfigs k = true := by
                simp [stops, hentry]
              rw [hupd.stopped k t hthread hstops]
              exact Option.Rel.none
          | some e =>
              have hce := hsame k t.config e hc hentry
              have hstops := (stops_eq_false_iff hc).mpr ⟨e, hentry, hR _ _ hce⟩
              rw [hupd.kept k t hthread hstops]
              exact Option.Rel.some hce
    have hconv : Converged R s' newConfigs :=
      ⟨fun k => by rw [hupd.consistent.config_eq k]; exact hthreads k, hthreads⟩
    exact ⟨hconv, hconv.updateStreams_eq hR hupd.consistent hrange⟩

theorem sameConfig_refl (c : StreamConfig) : SameConfig c c :=
  StreamConfig.beq_self c

/-- From every reachable state and for every list of `int` ids the call returns; it
converges, and a second call with the list changes nothing, exactly when no running
stream that stays enabled has a changed configuration.  This holds with configurations
compared field by field and with configurations compared by `operator==`. -/
theorem updateStreams_converges_iff {s : StreamIoManager} (hs : machine.Reachable s)
    (newConfigs : List StreamConfig) (hrange : ∀ cfg ∈ newConfigs, InIntRange cfg.id) :
    ∃ s', s.updateStreams newConfigs = some s' ∧
      ((Converged Eq s' newConfigs ∧ s'.updateStreams newConfigs = some s') ↔
        Unchanged Eq s newConfigs) ∧
      ((Converged SameConfig s' newConfigs ∧ s'.updateStreams newConfigs = some s') ↔
        Unchanged SameConfig s newConfigs) := by
  have hcons := consistent_of_reachable hs
  rcases updateStreams_spec hcons newConfigs with ⟨s', hrun, hupd⟩
  refine ⟨s', hrun, ?_, ?_⟩
  · refine converged_iff (fun _ => rfl) ?_ hcons hrange hupd
    rintro c _ rfl
    exact sameConfig_refl c
  · exact converged_iff sameConfig_refl (fun _ _ h => h) hcons hrange hupd

/-- A camera entry with one event, as the parser would produce it. -/
def camera (id : Int64) (url : String) (enabled : Bool) : StreamConfig where
  id := id
  url := url
  targetFps := 1
  waitForKeyframe := false
  enabled := enabled
  events := [{ name := "person_analytics", batchSize := 2 }]

/-- Two cameras run.  A list in which the first is unchanged, the second disabled and a third one
new converges. -/
theorem updateStreams_converges_running :
    ∃ s, machine.exec {} [.updateStreams [camera 1 "rtsp://a" true, camera 2 "rtsp://b" true]] =
        some s ∧
      ∃ s', s.updateStreams
          [camera 1 "rtsp://a" true, camera 2 "rtsp://b" false, camera 3 "rtsp://c" true] =
          some s' ∧
        Converged Eq s'
          [camera 1 "rtsp://a" true, camera 2 "rtsp://b" false, camera 3 "rtsp://c" true] := by
  let s : StreamIoManager := (({} : StreamIoManager).startStream
    (camera 1 "rtsp://a" true)).startStream (camera 2 "rtsp://b" true)
  have hstart : machine.exec {}
      [.updateStreams [camera 1 "rtsp://a" true, camera 2 "rtsp://b" true]] = some s := rfl
  rcases updateStreams_converges_iff ⟨{}, _, rfl, hstart⟩
    [camera 1 "rtsp://a" true, camera 2 "rtsp://b" false, camera 3 "rtsp://c" true]
    (by decide) with ⟨s', hrun, hconv, -⟩
  refine ⟨s, hstart, s', hrun, (hconv.mpr ?_).1⟩
  intro k c e hc he
  have hkeys : (2 : Int32) = k ∧ c = camera 2 "rtsp://b" true ∨
      (1 : Int32) = k ∧ c = camera 1 "rtsp://a" true := by
    have hsecond : (camera 2 "rtsp://b" true).id.toInt32 = 2 := rfl
    have hfirst : (camera 1 "rtsp://a" true).id.toInt32 = 1 := rfl
    simp only [s, startStream, hsecond, hfirst, ExtTreeMap.getElem?_insert,
      Std.compare_eq_iff_eq] at hc
    split at hc
    · next hk => exact Or.inl ⟨hk, (Option.some.inj hc).symm⟩
    · split at hc
      · next hk => exact Or.inr ⟨hk, (Option.some.inj hc).symm⟩
      · simp at hc
  rcases hkeys with ⟨rfl, rfl⟩ | ⟨rfl, rfl⟩
  · have hdisabled : lastEnabled [camera 1 "rtsp://a" true, camera 2 "rtsp://b" false,
        camera 3 "rtsp://c" true] (2 : Int32).toInt64 = none := by decide
    rw [hdisabled] at he
    cases he
  · have hunchanged : lastEnabled [camera 1 "rtsp://a" true, camera 2 "rtsp://b" false,
        camera 3 "rtsp://c" true] (1 : Int32).toInt64 = some (camera 1 "rtsp://a" true) := by
      decide
    rw [hunchanged] at he
    exact Option.some.inj he

/-- Changing the url of a running camera stops it and starts nothing: the call does not
converge. -/
theorem updateStreams_changed_not_converged :
    ¬ ∀ (s s' : StreamIoManager) (newConfigs : List StreamConfig), machine.Reachable s →
      (∀ cfg ∈ newConfigs, InIntRange cfg.id) → s.updateStreams newConfigs = some s' →
      Converged Eq s' newConfigs ∧ s'.updateStreams newConfigs = some s' := by
  intro h
  let s : StreamIoManager := ({} : StreamIoManager).startStream (camera 1 "rtsp://a" true)
  have hreach : machine.Reachable s := ⟨{}, [.updateStreams [camera 1 "rtsp://a" true]], rfl, rfl⟩
  have hrun : s.updateStreams [camera 1 "rtsp://b" true] = some { started := 1 } := rfl
  have hrel := (h s _ _ hreach (by decide) hrun).1.configs 1
  have hentry : lastEnabled [camera 1 "rtsp://b" true] (1 : Int32).toInt64 =
      some (camera 1 "rtsp://b" true) := by decide
  rw [hentry] at hrel
  simp at hrel

end StreamIoManager

end FrameProcessor
