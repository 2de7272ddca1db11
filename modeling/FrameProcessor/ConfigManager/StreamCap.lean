import FrameProcessor.ConfigManager.Parse

/-!
# components/config_manager - The stream cap

`parse_config_json` tests the cap against the streams loaded so far, before the rest of
an entry is read.  An entry that fails its own tests therefore takes no place, and what
is loaded is a prefix of what each entry gives on its own.  A disabled entry passes these
tests: it is loaded, takes a place, and is dropped only by `update_streams`.

Main results:

- Theorem `ConfigManager.parseConfigJson_entrywise`: loading is entry-wise, with the cap
  as a prefix.
- Theorem `ConfigManager.loadedStreams_starve_iff`: the cap starves no stream exactly when
  no disabled entry within it precedes an enabled one beyond it.
-/

namespace FrameProcessor

/-! ## Ranks in a filtered list -/

section Rank

variable {α β : Type*}

/-- How many of the entries before position `i` a partial map keeps. -/
def keptBefore (f : α → Option β) (entries : List α) (i : Nat) : Nat :=
  (entries.take i).countP fun entry => (f entry).isSome

theorem keptBefore_zero (f : α → Option β) (entries : List α) : keptBefore f entries 0 = 0 :=
  rfl

theorem keptBefore_succ (f : α → Option β) (entry : α) (entries : List α) (i : Nat) :
    keptBefore f (entry :: entries) (i + 1) =
      keptBefore f entries i + if (f entry).isSome then 1 else 0 := by
  rw [keptBefore, List.take_succ_cons, List.countP_cons, keptBefore]

/-- The `k`-th value a partial map keeps comes from an entry with `k` kept ones before it. -/
theorem getElem?_filterMap_iff {f : α → Option β} {entries : List α} {k : Nat} {b : β} :
    (entries.filterMap f)[k]? = some b ↔
      ∃ i entry, entries[i]? = some entry ∧ f entry = some b ∧ keptBefore f entries i = k := by
  induction entries generalizing k with
  | nil => simp
  | cons entry entries ih =>
      constructor
      · intro hget
        cases hentry : f entry with
        | none =>
            rw [List.filterMap_cons_none hentry] at hget
            rcases ih.mp hget with ⟨i, e, he, hkeep, hrank⟩
            exact ⟨i + 1, e, by simpa using he, hkeep, by simpa [keptBefore_succ, hentry]⟩
        | some c =>
            rw [List.filterMap_cons_some hentry] at hget
            cases k with
            | zero => exact ⟨0, entry, rfl, by simpa [hentry] using hget, keptBefore_zero f _⟩
            | succ k =>
                rw [List.getElem?_cons_succ] at hget
                rcases ih.mp hget with ⟨i, e, he, hkeep, hrank⟩
                exact ⟨i + 1, e, by simpa using he, hkeep, by simpa [keptBefore_succ, hentry]⟩
      · rintro ⟨i, e, he, hkeep, hrank⟩
        cases i with
        | zero =>
            have hfirst : entry = e := by simpa using he
            have hzero : 0 = k := by simpa [keptBefore_zero] using hrank
            subst hfirst hzero
            rw [List.filterMap_cons_some hkeep, List.getElem?_cons_zero]
        | succ i =>
            rw [List.getElem?_cons_succ] at he
            rw [keptBefore_succ] at hrank
            cases hentry : f entry with
            | none =>
                rw [List.filterMap_cons_none hentry]
                exact ih.mpr ⟨i, e, he, hkeep, by simpa [hentry] using hrank⟩
            | some c =>
                have hsucc : keptBefore f entries i + 1 = k := by simpa [hentry] using hrank
                rw [List.filterMap_cons_some hentry, ← hsucc, List.getElem?_cons_succ]
                exact ih.mpr ⟨i, e, he, hkeep, rfl⟩

/-- What a filtered list holds before position `m`. -/
theorem mem_take_filterMap_iff {f : α → Option β} {entries : List α} {m : Nat} {b : β} :
    b ∈ (entries.filterMap f).take m ↔
      ∃ i entry, entries[i]? = some entry ∧ f entry = some b ∧ keptBefore f entries i < m := by
  rw [List.mem_iff_getElem?]
  constructor
  · rintro ⟨k, hget⟩
    rw [List.getElem?_take] at hget
    split at hget
    · next hlt =>
      rcases getElem?_filterMap_iff.mp hget with ⟨i, entry, hi, hkeep, hrank⟩
      exact ⟨i, entry, hi, hkeep, hrank ▸ hlt⟩
    · cases hget
  · rintro ⟨i, entry, hi, hkeep, hlt⟩
    refine ⟨keptBefore f entries i, ?_⟩
    rw [List.getElem?_take, if_pos hlt]
    exact getElem?_filterMap_iff.mpr ⟨i, entry, hi, hkeep, rfl⟩

/-- What a filtered list holds from position `m` on. -/
theorem mem_drop_filterMap_iff {f : α → Option β} {entries : List α} {m : Nat} {b : β} :
    b ∈ (entries.filterMap f).drop m ↔
      ∃ i entry, entries[i]? = some entry ∧ f entry = some b ∧ m ≤ keptBefore f entries i := by
  rw [List.mem_iff_getElem?]
  constructor
  · rintro ⟨k, hget⟩
    rw [List.getElem?_drop] at hget
    rcases getElem?_filterMap_iff.mp hget with ⟨i, entry, hi, hkeep, hrank⟩
    exact ⟨i, entry, hi, hkeep, by omega⟩
  · rintro ⟨i, entry, hi, hkeep, hle⟩
    refine ⟨keptBefore f entries i - m, ?_⟩
    rw [List.getElem?_drop]
    exact getElem?_filterMap_iff.mpr ⟨i, entry, hi, hkeep, by omega⟩

/-- In a list without repetitions, what the first `m` entries leave out comes later. -/
theorem notMem_take_iff {l : List β} {m : Nat} {b : β} (hl : l.Nodup) (hb : b ∈ l) :
    b ∉ l.take m ↔ b ∈ l.drop m := by
  rw [← List.take_append_drop m l, List.mem_append] at hb
  constructor
  · exact hb.resolve_left
  · intro hdrop htake
    exact List.disjoint_take_drop hl le_rfl htake hdrop

/-- When something comes later, there are `m` first entries, and `m` of them have a property
exactly when all have it. -/
theorem countP_take_eq_iff {p : β → Bool} {l : List β} {m : Nat} {b : β} (hb : b ∈ l.drop m) :
    (l.take m).countP p = m ↔ ∀ c ∈ l.take m, p c = true := by
  have hlong : m ≤ l.length := by
    by_contra hshort
    rw [List.drop_eq_nil_of_le (by omega)] at hb
    cases hb
  have hlength : (l.take m).length = m := by
    rw [List.length_take, Nat.min_eq_left hlong]
  rw [← List.countP_eq_length, hlength]

end Rank

namespace ConfigManager

/-! ## Loading entry by entry -/

/-- The configuration an entry has when its id and url are valid and the instance's two
filters let it pass. -/
theorem eligible_eq_some_iff {self : ConfigManager} {streamElem : Json} {cfg : StreamConfig} :
    self.eligible streamElem = some cfg ↔
      ∃ id url, streamElem.atKey "id" >>= Json.getInt64 = .ok id ∧
        streamElem.atKey "url" >>= Json.getString = .ok url ∧ url ≠ "" ∧
        self.isStreamWhitelisted id = true ∧ self.ownsStream id = true ∧
        cfg = parseStream streamElem id url := by
  unfold eligible entryConfig
  cases hid : streamElem.atKey "id" >>= Json.getInt64 with
  | error code => simp
  | ok id =>
      cases hurl : streamElem.atKey "url" >>= Json.getString with
      | error code => simp
      | ok url =>
          by_cases hempty : url = ""
          · simp [hempty]
          · have hkeep : url.isEmpty = false := by simpa using hempty
            simp only [hkeep, Bool.false_eq_true, if_false, Option.filter_eq_some_iff,
              Option.some.injEq, accepts, Bool.and_eq_true, Except.ok.injEq]
            constructor
            · rintro ⟨rfl, hwhite, howns⟩
              exact ⟨id, url, rfl, rfl, hempty, hwhite, howns, rfl⟩
            · rintro ⟨_, _, rfl, rfl, -, hwhite, howns, rfl⟩
              exact ⟨rfl, hwhite, howns⟩

/-- The loaded streams as a prefix, with the source's reading of the cap. -/
theorem loadStreams_eq_take (self : ConfigManager) (streamsArr : List Json) :
    streamsArr.foldl self.loadStream [] =
      if self.maxStreams.toInt ≤ 0 then streamsArr.filterMap self.eligible
      else (streamsArr.filterMap self.eligible).take self.maxStreams.toInt.toNat := by
  rw [loadStreams_eq]
  unfold cap
  by_cases hcap : 0 < self.maxStreams.toInt
  · rw [if_pos hcap, if_neg (by omega)]
  · rw [if_neg hcap, if_pos (by omega)]

/-- A readable file with a `streams` array parses, and its entries are loaded one by one. -/
theorem parseConfigJson_streams (self : ConfigManager) {lib : Simdjson} {file : Option Bytes}
    {doc : Json} {streamsArr : List Json} (hload : lib.load file = .ok doc)
    (hstreams : doc.atKey "streams" >>= Json.getArray = .ok streamsArr) :
    ∃ config, self.parseConfigJson lib file = some config ∧
      config.streamConfigs = streamsArr.foldl self.loadStream [] := by
  unfold parseConfigJson
  rw [hload]
  simp only [hstreams]
  exact ⟨_, rfl, rfl⟩

/-- Each entry read on its own, the unwanted ones dropped, and the rest cut at the cap. -/
structure LoadsEntrywise (manager : ConfigManager) (streamsArr : List Json)
    (loaded : List StreamConfig) : Prop where
  eq_take : loaded =
    if manager.maxStreams.toInt ≤ 0 then streamsArr.filterMap manager.eligible
    else (streamsArr.filterMap manager.eligible).take manager.maxStreams.toInt.toNat
  /-- What the loop body alone makes of an entry. -/
  alone : ∀ streamElem ∈ streamsArr,
    manager.loadStream [] streamElem = (manager.eligible streamElem).toList
  /-- Which entries are kept, and with which configuration. -/
  kept : ∀ streamElem ∈ streamsArr, ∀ cfg, manager.eligible streamElem = some cfg ↔
    ∃ id url, streamElem.atKey "id" >>= Json.getInt64 = .ok id ∧
      streamElem.atKey "url" >>= Json.getString = .ok url ∧ url ≠ "" ∧
      manager.isStreamWhitelisted id = true ∧ manager.ownsStream id = true ∧
      cfg = parseStream streamElem id url
  /-- An unwanted entry could as well be missing. -/
  unwanted : ∀ entries streamElem rest, streamsArr = entries ++ streamElem :: rest →
    manager.eligible streamElem = none → loaded = (entries ++ rest).foldl manager.loadStream []

/-- For every document whose `streams` is an array, and every setting of the instance,
loading succeeds entry by entry with the cap as a prefix. -/
theorem parseConfigJson_entrywise (self : ConfigManager) {lib : Simdjson} {file : Option Bytes}
    {doc : Json} {streamsArr : List Json} (hload : lib.load file = .ok doc)
    (hstreams : doc.atKey "streams" >>= Json.getArray = .ok streamsArr) :
    ∃ config, self.parseConfigJson lib file = some config ∧
      self.LoadsEntrywise streamsArr config.streamConfigs := by
  rcases self.parseConfigJson_streams hload hstreams with ⟨config, hparse, hconfig⟩
  refine ⟨config, hparse, ?_⟩
  constructor
  · rw [hconfig, loadStreams_eq_take]
  · intro streamElem _
    have hroom : self.capReached [] = false := by
      simp [capReached]
    rw [loadStream_eq, hroom]
    simp
  · intro streamElem _ cfg
    exact eligible_eq_some_iff
  · intro entries streamElem rest hsplit hnone
    rw [hconfig, hsplit, loadStreams_eq_take, loadStreams_eq_take]
    simp [hnone]

/-- A file with a malformed entry, one with an empty url and three good ones. -/
def mixedStreamsText : Bytes :=
  Bytes.ofString "\x7b\"streams\":[7,\x7b\"id\":1,\"url\":\"a\"\x7d,\x7b\"id\":2,\"url\":\"\"\x7d,"
    ++ Bytes.ofString "\x7b\"id\":3,\"url\":\"b\"\x7d,\x7b\"id\":4,\"url\":\"c\"\x7d]\x7d"

/-- The entries of that file. -/
def mixedStreams : List Json :=
  [.int64 7, .object [("id", .int64 1), ("url", .string "a")],
    .object [("id", .int64 2), ("url", .string "")],
    .object [("id", .int64 3), ("url", .string "b")],
    .object [("id", .int64 4), ("url", .string "c")]]

/-- simdjson on that file. -/
def mixedLibrary : Simdjson where
  parse text :=
    if text = mixedStreamsText then .ok (.object [("streams", .array mixedStreams)])
    else .error .tapeError
  minify _ := []

/-- With a cap of two the streams 1 and 3 are loaded. -/
theorem parseConfigJson_entrywise_mixed :
    ∃ config, ({ maxStreams := 2 } : ConfigManager).parseConfigJson mixedLibrary
        (some mixedStreamsText) = some config ∧
      config.streamConfigs.map StreamConfig.id = [1, 3] := by
  have hload : mixedLibrary.load (some mixedStreamsText) =
      .ok (.object [("streams", .array mixedStreams)]) := by
    simp [Simdjson.load, mixedLibrary]
  rcases ({ maxStreams := 2 } : ConfigManager).parseConfigJson_entrywise hload rfl with
    ⟨config, hparse, hloads⟩
  refine ⟨config, hparse, ?_⟩
  rw [hloads.eq_take]
  decide

/-! ## Streams that starve -/

/-- The id of an entry that has a valid one. -/
def entryId (streamElem : Json) : Option Int64 :=
  (streamElem.atKey "id" >>= Json.getInt64).toOption

theorem entryId_of_eligible {self : ConfigManager} {streamElem : Json} {cfg : StreamConfig}
    (h : self.eligible streamElem = some cfg) : entryId streamElem = some cfg.id := by
  rcases eligible_eq_some_iff.mp h with ⟨id, url, hid, -, -, -, -, rfl⟩
  rw [entryId, hid]
  rfl

/-- In a file with distinct ids no configuration is loaded twice. -/
theorem nodup_eligible (self : ConfigManager) {streamsArr : List Json}
    (hids : (streamsArr.filterMap entryId).Nodup) :
    (streamsArr.filterMap self.eligible).Nodup := by
  induction streamsArr with
  | nil => exact List.nodup_nil
  | cons streamElem rest ih =>
      cases heligible : self.eligible streamElem with
      | none =>
          rw [List.filterMap_cons_none heligible]
          apply ih
          cases hid : entryId streamElem with
          | none => rwa [List.filterMap_cons_none hid] at hids
          | some id =>
              rw [List.filterMap_cons_some hid] at hids
              exact hids.of_cons
      | some cfg =>
          have hid := entryId_of_eligible heligible
          rw [List.filterMap_cons_some hid, List.nodup_cons] at hids
          rw [List.filterMap_cons_some heligible, List.nodup_cons]
          refine ⟨?_, ih hids.2⟩
          intro hmem
          rcases List.mem_filterMap.mp hmem with ⟨other, hother, hcfg⟩
          exact hids.1 (List.mem_filterMap.mpr ⟨other, hother, entryId_of_eligible hcfg⟩)

/-- What the cap is for: at most `m` running streams, and all places taken by running
streams when one that would run has none. -/
structure CapServes (manager : ConfigManager) (streamsArr : List Json) (m : Nat)
    (loaded : List StreamConfig) : Prop where
  bounded : loaded.countP StreamConfig.enabled ≤ m
  full : ∀ streamElem ∈ streamsArr, ∀ cfg, manager.eligible streamElem = some cfg →
    cfg.enabled = true → cfg ∉ loaded → loaded.countP StreamConfig.enabled = m

/-- Some eligible entry that is disabled has fewer than `m` eligible ones before it, and some
enabled one has at least `m` before it. -/
def Displaces (self : ConfigManager) (streamsArr : List Json) (m : Nat) : Prop :=
  (∃ i streamElem cfg, streamsArr[i]? = some streamElem ∧ self.eligible streamElem = some cfg ∧
    cfg.enabled = false ∧ keptBefore self.eligible streamsArr i < m) ∧
  ∃ j streamElem cfg, streamsArr[j]? = some streamElem ∧ self.eligible streamElem = some cfg ∧
    cfg.enabled = true ∧ m ≤ keptBefore self.eligible streamsArr j

theorem loadedStreams_eq_take {self : ConfigManager} (hcap : 1 ≤ self.maxStreams.toInt)
    {lib : Simdjson} {file : Option Bytes} {doc : Json} {streamsArr : List Json}
    (hload : lib.load file = .ok doc)
    (hstreams : doc.atKey "streams" >>= Json.getArray = .ok streamsArr) :
    self.loadedStreams lib file =
      (streamsArr.filterMap self.eligible).take self.maxStreams.toInt.toNat := by
  rcases self.parseConfigJson_streams hload hstreams with ⟨config, hparse, hconfig⟩
  rw [loadedStreams, hparse]
  simp only [hconfig]
  rw [loadStreams_eq_take, if_neg (by omega)]

/-- For a file with distinct ids and a cap of at least one, the cap starves no stream exactly
when no disabled entry takes the place of an enabled one. -/
theorem loadedStreams_starve_iff {self : ConfigManager} (hcap : 1 ≤ self.maxStreams.toInt)
    {lib : Simdjson} {file : Option Bytes} {doc : Json} {streamsArr : List Json}
    (hload : lib.load file = .ok doc)
    (hstreams : doc.atKey "streams" >>= Json.getArray = .ok streamsArr)
    (hids : (streamsArr.filterMap entryId).Nodup) :
    self.CapServes streamsArr self.maxStreams.toInt.toNat (self.loadedStreams lib file) ↔
      ¬ self.Displaces streamsArr self.maxStreams.toInt.toNat := by
  have hnodup := self.nodup_eligible hids
  rw [loadedStreams_eq_take hcap hload hstreams]
  generalize self.maxStreams.toInt.toNat = m
  constructor
  · rintro hserves ⟨⟨i, early, off, hi, hoff, hdisabled, hbefore⟩,
      ⟨j, late, on, hj, hon, henabled, hafter⟩⟩
    have hofftake := mem_take_filterMap_iff.mpr ⟨i, early, hi, hoff, hbefore⟩
    have hondrop := mem_drop_filterMap_iff.mpr ⟨j, late, hj, hon, hafter⟩
    have hnottake := (notMem_take_iff hnodup (List.mem_of_mem_drop hondrop)).mpr hondrop
    have hfull := hserves.full late (List.mem_of_getElem? hj) on hon henabled hnottake
    rw [(countP_take_eq_iff hondrop).mp hfull off hofftake] at hdisabled
    cases hdisabled
  · intro hdisplaces
    constructor
    · exact List.countP_le_length.trans (List.length_take_le _ _)
    · intro streamElem hmem cfg hcfg henabled hnottake
      have hkept : cfg ∈ streamsArr.filterMap self.eligible :=
        List.mem_filterMap.mpr ⟨streamElem, hmem, hcfg⟩
      have hdrop := (notMem_take_iff hnodup hkept).mp hnottake
      apply (countP_take_eq_iff hdrop).mpr
      intro other hother
      by_contra hoff
      apply hdisplaces
      rcases mem_take_filterMap_iff.mp hother with ⟨i, early, hi, hearly, hbefore⟩
      rcases mem_drop_filterMap_iff.mp hdrop with ⟨j, late, hj, hlate, hafter⟩
      exact ⟨⟨i, early, other, hi, hearly, by simpa using hoff, hbefore⟩,
        ⟨j, late, cfg, hj, hlate, henabled, hafter⟩⟩

/-- A file with a disabled and an enabled stream. -/
def disabledFirstText : Bytes :=
  Bytes.ofString "\x7b\"streams\":[\x7b\"id\":1,\"url\":\"a\",\"enabled\":false\x7d,"
    ++ Bytes.ofString "\x7b\"id\":2,\"url\":\"b\",\"enabled\":true\x7d]\x7d"

/-- The same streams in the other order. -/
def enabledFirstText : Bytes :=
  Bytes.ofString "\x7b\"streams\":[\x7b\"id\":2,\"url\":\"b\",\"enabled\":true\x7d,"
    ++ Bytes.ofString "\x7b\"id\":1,\"url\":\"a\",\"enabled\":false\x7d]\x7d"

/-- The disabled stream. -/
def disabledStream : Json :=
  .object [("id", .int64 1), ("url", .string "a"), ("enabled", .bool false)]

/-- The enabled stream. -/
def enabledStream : Json :=
  .object [("id", .int64 2), ("url", .string "b"), ("enabled", .bool true)]

/-- simdjson on the two files. -/
def enabledLibrary : Simdjson where
  parse text :=
    if text = disabledFirstText then
      .ok (.object [("streams", .array [disabledStream, enabledStream])])
    else if text = enabledFirstText then
      .ok (.object [("streams", .array [enabledStream, disabledStream])])
    else .error .tapeError
  minify _ := []

theorem enabledLibrary_disabledFirst : enabledLibrary.load (some disabledFirstText) =
    .ok (.object [("streams", .array [disabledStream, enabledStream])]) := by
  simp [Simdjson.load, enabledLibrary]

theorem enabledLibrary_enabledFirst : enabledLibrary.load (some enabledFirstText) =
    .ok (.object [("streams", .array [enabledStream, disabledStream])]) := by
  have hne : enabledFirstText ≠ disabledFirstText := by decide
  simp [Simdjson.load, enabledLibrary, hne]

/-- With the enabled stream first, a cap of one serves it. -/
theorem loadedStreams_starve_enabledFirst :
    ({ maxStreams := 1 } : ConfigManager).CapServes [enabledStream, disabledStream] 1
      (({ maxStreams := 1 } : ConfigManager).loadedStreams enabledLibrary
        (some enabledFirstText)) := by
  apply (loadedStreams_starve_iff (by decide) enabledLibrary_enabledFirst rfl (by decide)).mpr
  rintro ⟨⟨i, streamElem, cfg, hi, hcfg, hdisabled, hbefore⟩, -⟩
  match i with
  | 0 =>
      obtain rfl : enabledStream = streamElem := by simpa using hi
      obtain rfl : parseStream enabledStream 2 "b" = cfg := Option.some.inj hcfg
      revert hdisabled
      decide
  | 1 =>
      revert hbefore
      decide
  | i + 2 => simp at hi

/-- With the disabled stream first, a cap of one starves the enabled one. -/
theorem loadedStreams_starve_disabledFirst :
    ¬ ∀ (self : ConfigManager), 1 ≤ self.maxStreams.toInt →
      ∀ (lib : Simdjson) (file : Option Bytes) (doc : Json) (streamsArr : List Json),
        lib.load file = .ok doc → doc.atKey "streams" >>= Json.getArray = .ok streamsArr →
        (streamsArr.filterMap entryId).Nodup →
        self.CapServes streamsArr self.maxStreams.toInt.toNat (self.loadedStreams lib file) := by
  intro hall
  have hserves := hall { maxStreams := 1 } (by decide) enabledLibrary (some disabledFirstText) _ _
    enabledLibrary_disabledFirst rfl (by decide)
  have hids : (({ maxStreams := 1 } : ConfigManager).loadedStreams enabledLibrary
      (some disabledFirstText)).map StreamConfig.id = [1] := by decide
  have hnone : (({ maxStreams := 1 } : ConfigManager).loadedStreams enabledLibrary
      (some disabledFirstText)).countP StreamConfig.enabled = 0 := by decide
  have hfull := hserves.full enabledStream (by simp) (parseStream enabledStream 2 "b") rfl rfl
  rw [hnone] at hfull
  have hnotmem : parseStream enabledStream 2 "b" ∉ ({ maxStreams := 1 } :
      ConfigManager).loadedStreams enabledLibrary (some disabledFirstText) := by
    intro hmem
    have hid : (2 : Int64) ∈ ([1] : List Int64) := hids ▸ List.mem_map_of_mem hmem
    revert hid
    decide
  have hzero := hfull hnotmem
  revert hzero
  decide

end ConfigManager

end FrameProcessor
