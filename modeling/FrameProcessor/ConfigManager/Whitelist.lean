import FrameProcessor.ConfigManager.Parse
import FrameProcessor.Utils.Environment

/-!
# components/config_manager - The stream whitelist

The constructor of `ConfigManager` reads its settings from the environment.  It cuts
`FP_STREAM_IDS` at the commas and inserts the integer that `std::stoll` reads from every
field that is not empty; a flag of its own says that the variable was set.  Values of the
environment are arbitrary bytes.

Main results:

- Theorem `ConfigManager.insertStreamIds_eq`: the loop ends, and it inserts the fields of the
  value from left to right.
- Theorem `ConfigManager.whitelistMeaning_iff`: streams are processed as the value says,
  all of them when it lists none, if and only if it is empty or has a character other than
  a comma.
-/

namespace FrameProcessor

/-- The variables of the environment that the settings are read from. -/
structure Environment where
  configReloadIntervalS : Option Bytes := none
  instanceSlot : Option Bytes := none
  totalInstances : Option Bytes := none
  maxStreams : Option Bytes := none
  streamIds : Option Bytes := none

namespace ConfigManager

/-! ## The constructor -/

/-- The comma between the ids. -/
def comma : UInt8 := 44

/-- A field is inserted unless it is empty. -/
def insertStreamId (whitelist : Finset Int64) (idStr : Bytes) :
    Except StdException (Finset Int64) :=
  if idStr.isEmpty then .ok whitelist
  else
    match stoll idStr with
    | .error e => .error e
    | .ok id => .ok (insert id whitelist)

/-- The loop that takes the text before the first comma, inserts it and erases it with the
comma, and then the insertion of what is left.  `rounds` bounds the loop, the source does
not; `none` when they do not suffice. -/
def insertStreamIds : (rounds : Nat) → (streamIds : Bytes) → (whitelist : Finset Int64) →
    Option (Except StdException (Finset Int64))
  | 0, _, _ => none
  | rounds + 1, streamIds, whitelist =>
      match streamIds.findIdx? (· == comma) with
      | none => some (insertStreamId whitelist streamIds)
      | some pos =>
          match insertStreamId whitelist (streamIds.take pos) with
          | .error e => some (.error e)
          | .ok whitelist => insertStreamIds rounds (streamIds.drop (pos + 1)) whitelist

/-- `FP_CONFIG_RELOAD_INTERVAL_S` in seconds. -/
def readReloadInterval (env : Environment) : Except StdException Int64 :=
  let intervalStr := getEnv env.configReloadIntervalS "60"
  match stoll intervalStr with
  | .ok interval => .ok interval
  | .error (.invalidArgument _) =>
      .error (.invalidArgument
        (Bytes.ofString "Invalid format for FP_CONFIG_RELOAD_INTERVAL_S:" ++ intervalStr))
  | .error (.outOfRange _) =>
      .error (.outOfRange
        (Bytes.ofString "FP_CONFIG_RELOAD_INTERVAL_S is out of range: " ++ intervalStr))

/-- The settings before the whitelist. -/
def readSettings (env : Environment) : Except StdException ConfigManager := do
  let _ ← readReloadInterval env
  let instanceSlot ← stoi (getEnv env.instanceSlot "0")
  let totalInstances ← stoi (getEnv env.totalInstances "1")
  let maxStreams ← stoi (getEnv env.maxStreams "0")
  return { instanceSlot, totalInstances, maxStreams }

/-- The whitelist and its flag from the value of `FP_STREAM_IDS`. -/
def readStreamIds (rounds : Nat) (streamIds : Bytes) :
    Option (Except StdException (Bool × Finset Int64)) :=
  if streamIds.isEmpty then some (.ok (false, ∅))
  else (insertStreamIds rounds streamIds ∅).map (Except.map fun whitelist => (true, whitelist))

/-- `ConfigManager::ConfigManager`; `none` when the rounds do not suffice. -/
def construct (rounds : Nat) (env : Environment) :
    Option (Except StdException ConfigManager) :=
  match readSettings env with
  | .error e => some (.error e)
  | .ok settings =>
      (readStreamIds rounds (getEnv env.streamIds "")).map <|
        Except.map fun (hasStreamWhitelist, streamIdWhitelist) =>
          { settings with hasStreamWhitelist, streamIdWhitelist }

/-! ## The fields of the value -/

/-- With a round for every character and one more the loop ends, having inserted the fields
of the value from left to right. -/
theorem insertStreamIds_eq {rounds : Nat} {streamIds : Bytes} (h : streamIds.length < rounds)
    (whitelist : Finset Int64) :
    insertStreamIds rounds streamIds whitelist =
      some ((streamIds.splitOn comma).foldlM insertStreamId whitelist) := by
  induction rounds generalizing streamIds whitelist with
  | zero => exact absurd h (Nat.not_lt_zero _)
  | succ rounds ih =>
      unfold insertStreamIds
      cases hfind : streamIds.findIdx? (· == comma) with
      | none =>
          have habsent : comma ∉ streamIds := by
            intro hmem
            have hnone := List.findIdx?_eq_none_iff.mp hfind comma hmem
            rw [beq_self_eq_true] at hnone
            cases hnone
          rw [List.splitOn_eq_singleton habsent]
          simp
      | some pos =>
          rcases List.findIdx?_eq_some_iff_getElem.mp hfind with ⟨hpos, hcomma, hbefore⟩
          have habsent : comma ∉ streamIds.take pos := by
            intro hmem
            rcases List.mem_take_iff_getElem.mp hmem with ⟨i, hi, heq⟩
            have hlt : i < pos := by omega
            exact hbefore i hlt (beq_iff_eq.mpr heq)
          have hcut : streamIds = streamIds.take pos ++ comma :: streamIds.drop (pos + 1) := by
            have hdrop := List.drop_eq_getElem_cons hpos
            rw [beq_iff_eq.mp hcomma] at hdrop
            rw [← hdrop, List.take_append_drop]
          have hshort : (streamIds.drop (pos + 1)).length < rounds := by
            rw [List.length_drop]
            omega
          have hfields : streamIds.splitOn comma =
              streamIds.take pos :: (streamIds.drop (pos + 1)).splitOn comma := by
            conv_lhs => rw [hcut]
            exact List.splitOn_append_cons_self_of_not_mem habsent _
          rw [hfields, List.foldlM_cons]
          dsimp only
          cases insertStreamId whitelist (streamIds.take pos) with
          | error e => rfl
          | ok whitelist' => exact ih hshort whitelist'

/-- What is whitelisted after the fields were inserted, and that every field that is not
empty was read as an integer. -/
theorem foldlM_insertStreamId {fields : List Bytes} {whitelist whitelist' : Finset Int64}
    (h : fields.foldlM insertStreamId whitelist = .ok whitelist') :
    (∀ field ∈ fields, field ≠ [] → ∃ id, stoll field = .ok id) ∧
      ∀ id, id ∈ whitelist' ↔
        id ∈ whitelist ∨ ∃ field ∈ fields, field ≠ [] ∧ stoll field = .ok id := by
  induction fields generalizing whitelist with
  | nil =>
      cases h
      simp
  | cons field fields ih =>
      rw [List.foldlM_cons] at h
      unfold insertStreamId at h
      by_cases hempty : field = []
      · subst hempty
        rcases ih h with ⟨hread, hmem⟩
        constructor
        · intro field hfield hne
          rcases List.mem_cons.mp hfield with heq | hfield
          · exact absurd heq hne
          · exact hread field hfield hne
        · intro id
          rw [hmem id]
          simp
      · have hisEmpty : field.isEmpty = false := by
          cases field with
          | nil => exact absurd rfl hempty
          | cons c field => rfl
        rw [hisEmpty] at h
        cases hstoll : stoll field with
        | error e =>
            rw [hstoll] at h
            cases h
        | ok id =>
            rw [hstoll] at h
            rcases ih h with ⟨hread, hmem⟩
            constructor
            · intro field' hfield' hne
              rcases List.mem_cons.mp hfield' with heq | hfield'
              · exact ⟨id, heq ▸ hstoll⟩
              · exact hread field' hfield' hne
            · intro id'
              rw [hmem id', Finset.mem_insert]
              simp only [List.mem_cons, exists_eq_or_imp, hstoll, Except.ok.injEq]
              tauto

/-- A text has a field that is not empty exactly when it has a character other than a
comma. -/
theorem exists_field_iff (streamIds : Bytes) :
    (∃ field ∈ streamIds.splitOn comma, field ≠ []) ↔ ∃ c ∈ streamIds, c ≠ comma := by
  induction streamIds with
  | nil => simp
  | cons c streamIds ih =>
      rw [List.splitOn_cons_eq_if_modifyHead]
      by_cases hcomma : c = comma
      · subst hcomma
        simpa using ih
      · rw [if_neg (by simpa using hcomma)]
        rcases List.exists_cons_of_ne_nil (List.splitOn_ne_nil comma streamIds) with
          ⟨field, fields, hfields⟩
        rw [hfields, List.modifyHead_cons]
        constructor
        · intro _
          exact ⟨c, List.mem_cons_self, hcomma⟩
        · intro _
          exact ⟨c :: field, List.mem_cons_self, List.cons_ne_nil _ _⟩

/-! ## The meaning of the value -/

/-- The value of `FP_STREAM_IDS`, empty when it is not set. -/
def streamIdsValue (env : Environment) : Bytes :=
  getEnv env.streamIds ""

/-- The integers that `std::stoll` reads from the fields that are not empty. -/
def listedIds (streamIds : Bytes) : Set Int64 :=
  { id | ∃ field ∈ streamIds.splitOn comma, field ≠ [] ∧ stoll field = .ok id }

/-- The constructor ends, and the streams it whitelists are the listed ones, or all when
none is listed. -/
structure WhitelistMeaning (env : Environment) : Prop where
  ends : ∀ rounds, (streamIdsValue env).length < rounds → (construct rounds env).isSome = true
  whitelisted : ∀ rounds manager, (streamIdsValue env).length < rounds →
    construct rounds env = some (.ok manager) →
    ∀ id, manager.isStreamWhitelisted id = true ↔
      listedIds (streamIdsValue env) = ∅ ∨ id ∈ listedIds (streamIdsValue env)

/-- The constructor ends on every value. -/
theorem construct_isSome {rounds : Nat} {env : Environment}
    (h : (streamIdsValue env).length < rounds) : (construct rounds env).isSome = true := by
  unfold construct
  cases readSettings env with
  | error e => rfl
  | ok settings =>
      simp only [Option.isSome_map]
      unfold readStreamIds
      split
      · rfl
      · rw [Option.isSome_map]
        exact Option.isSome_of_eq_some (insertStreamIds_eq h ∅)

/-- A value that is not set or empty leaves the whitelist switched off. -/
theorem construct_of_empty {rounds : Nat} {env : Environment} {manager : ConfigManager}
    (hempty : streamIdsValue env = []) (h : construct rounds env = some (.ok manager)) :
    manager.hasStreamWhitelist = false := by
  unfold construct at h
  cases hsettings : readSettings env with
  | error e =>
      rw [hsettings] at h
      cases h
  | ok settings =>
      have hvalue : getEnv env.streamIds "" = [] := hempty
      rw [hsettings] at h
      dsimp only at h
      rw [hvalue] at h
      cases h
      rfl

/-- Any other value switches the whitelist on; it holds the listed ids, and every field that
is not empty is one of them. -/
theorem construct_of_nonempty {rounds : Nat} {env : Environment} {manager : ConfigManager}
    (hrounds : (streamIdsValue env).length < rounds) (hne : streamIdsValue env ≠ [])
    (h : construct rounds env = some (.ok manager)) :
    manager.hasStreamWhitelist = true ∧
      (∀ id, id ∈ manager.streamIdWhitelist ↔ id ∈ listedIds (streamIdsValue env)) ∧
      ∀ field ∈ (streamIdsValue env).splitOn comma, field ≠ [] →
        ∃ id, stoll field = .ok id := by
  unfold construct at h
  cases hsettings : readSettings env with
  | error e =>
      rw [hsettings] at h
      cases h
  | ok settings =>
      have hread : readStreamIds rounds (streamIdsValue env) =
          some (((streamIdsValue env).splitOn comma).foldlM insertStreamId ∅ |>.map
            fun whitelist => (true, whitelist)) := by
        unfold readStreamIds
        rw [if_neg (by simpa using hne), insertStreamIds_eq hrounds]
        rfl
      have hvalue : getEnv env.streamIds "" = streamIdsValue env := rfl
      rw [hsettings] at h
      dsimp only at h
      rw [hvalue, hread] at h
      cases hfold : ((streamIdsValue env).splitOn comma).foldlM insertStreamId ∅ with
      | error e =>
          rw [hfold] at h
          cases h
      | ok whitelist =>
          rw [hfold] at h
          cases h
          rcases foldlM_insertStreamId hfold with ⟨hfields, hmem⟩
          refine ⟨rfl, fun id => ?_, hfields⟩
          rw [hmem id]
          simp [listedIds]

/-- A value without a field that is not empty lists nothing. -/
theorem listedIds_eq_empty {streamIds : Bytes} (h : ¬∃ c ∈ streamIds, c ≠ comma) :
    listedIds streamIds = ∅ := by
  ext id
  constructor
  · intro ⟨field, hfield, hne, _⟩
    exact h ((exists_field_iff streamIds).mp ⟨field, hfield, hne⟩)
  · intro hmem
    exact absurd hmem (Set.notMem_empty id)

/-- Where the constructor does not throw, the whitelist means what the value says exactly
when the value is empty or has a character other than a comma. -/
theorem whitelistMeaning_iff {rounds : Nat} {env : Environment} {manager : ConfigManager}
    (hrounds : (streamIdsValue env).length < rounds)
    (h : construct rounds env = some (.ok manager)) :
    WhitelistMeaning env ↔
      streamIdsValue env = [] ∨ ∃ c ∈ streamIdsValue env, c ≠ comma := by
  constructor
  · intro hmeaning
    by_contra hneither
    rw [not_or] at hneither
    rcases hneither with ⟨hne, hcommas⟩
    rcases construct_of_nonempty hrounds hne h with ⟨hflag, hmem, -⟩
    have hnone := listedIds_eq_empty hcommas
    have hwhite := (hmeaning.whitelisted rounds manager hrounds h 0).mpr (Or.inl hnone)
    simp only [isStreamWhitelisted, hflag, hmem, hnone, Set.mem_empty_iff_false] at hwhite
    cases hwhite
  · intro hvalue
    refine ⟨fun rounds hrounds => construct_isSome hrounds, ?_⟩
    intro rounds' manager' hrounds' h' id
    by_cases hempty : streamIdsValue env = []
    · have hcommas : ¬∃ c ∈ streamIdsValue env, c ≠ comma := by
        rw [hempty]
        simp
      have hflag := construct_of_empty hempty h'
      simp [isStreamWhitelisted, hflag, listedIds_eq_empty hcommas]
    · rcases hvalue with hnil | hchar
      · exact absurd hnil hempty
      · rcases construct_of_nonempty hrounds' hempty h' with ⟨hflag, hmem, hfields⟩
        rcases (exists_field_iff _).mpr hchar with ⟨field, hfield, hne⟩
        rcases hfields field hfield hne with ⟨listed, hlisted⟩
        have hsome : listedIds (streamIdsValue env) ≠ ∅ := by
          intro hnone
          have hin : listed ∈ listedIds (streamIdsValue env) := ⟨field, hfield, hne, hlisted⟩
          rw [hnone] at hin
          exact hin
        simp [isStreamWhitelisted, hflag, hmem, hsome]

/-- An instance whose whitelist is `2,,5`. -/
def twoAndFive : Environment where
  streamIds := some [50, 44, 44, 53]

/-- An instance whose whitelist is a comma. -/
def onlyComma : Environment where
  streamIds := some [44]

theorem twoAndFive_whitelistMeaning : WhitelistMeaning twoAndFive :=
  (whitelistMeaning_iff (show (streamIdsValue twoAndFive).length < 5 by decide)
    (show construct 5 twoAndFive =
      some (.ok { streamIdWhitelist := {5, 2}, hasStreamWhitelist := true }) from rfl)).mpr
    (Or.inr ⟨50, by decide, by decide⟩)

/-- With a comma as its value the variable turns off every stream of the instance. -/
theorem onlyComma_not_whitelistMeaning :
    (∃ manager, construct 2 onlyComma = some (.ok manager) ∧
      ∀ id, manager.isStreamWhitelisted id = false) ∧
    ¬WhitelistMeaning onlyComma := by
  have hconstruct : construct 2 onlyComma = some (.ok { hasStreamWhitelist := true }) := rfl
  constructor
  · exact ⟨_, hconstruct, fun id => rfl⟩
  · intro hmeaning
    have hnone : listedIds (streamIdsValue onlyComma) = ∅ :=
      listedIds_eq_empty (by decide)
    have hwhite := (hmeaning.whitelisted 2 _ (by decide) hconstruct 0).mpr (Or.inl hnone)
    cases hwhite

end ConfigManager

end FrameProcessor
