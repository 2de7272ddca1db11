import FrameProcessor.ConfigManager.ApiSafety
import FrameProcessor.ConfigManager.Whitelist
import FrameProcessor.Core.ChangeDetection
import FrameProcessor.Core.Storing
import FrameProcessor.Core.Supervisor
import FrameProcessor.Utils.FrameSaver

/-!
# core/main - Starting the application

`app_logic` builds its components from the environment, one after the other.  Only the
`ConfigManager` is built in a `try` block; an exception of a later constructor, or of a
publisher thread that reads its own settings, ends the process by `std::terminate`.  The
number of workers passes through a text and through 16 bits before threads are started.
`start_reloader` calls the callback once for the configuration that has been loaded, which
starts the readers; only they push frames.

Main results:

- Theorem `AppLogic.getWorkerCount_default`: without a variable, the number of workers is the
  number of cores less two, and at least one.
- Theorem `AppLogic.start_serving_iff`: the application gets to its services exactly when
  every number it reads can be read and the configuration file can be loaded.
- Theorem `AppLogic.startReloader_reads`: the readers of the loaded configuration.
- Theorem `Services.stores_iff`: what has started can store a frame exactly when a Redis host
  is set, the run is no dry run, the number of workers is positive as a 16-bit integer, and a
  stream that a reader has been started for has an event.
-/

namespace FrameProcessor

/-! ## Reading the environment -/

/-- The environment variables of the process. -/
structure ProcessEnvironment where
  configManager : Environment := {}
  numWorkerThreads : Option Bytes := none
  frameSaver : SaverEnvironment := {}
  publisher : PublisherEnvironment := {}
  publisherDryRun : Option Bytes := none
  publisherDryRunDelayMs : Option Bytes := none

/-- What a publisher thread reads before its loop: `dry_run_mode` and `dry_run_delay_ms`. -/
def Publisher.readDryRun (env : ProcessEnvironment) : Except StdException (Bool × Int32) := do
  let dryRunMode := getEnv env.publisherDryRun "false" == Bytes.ofString "true"
  let dryRunDelayMs ← stoi (getEnv env.publisherDryRunDelayMs "10")
  return (dryRunMode, dryRunDelayMs)

/-- What the threads of a publisher have read; a disabled one has none. -/
def Publisher.readSettings (env : ProcessEnvironment) (settings : PublisherSettings) :
    Except StdException (Option (Bool × Int32)) :=
  if settings.isEnabled then (readDryRun env).map some else .ok none

/-- What runs while `app_logic` waits for the shutdown request. -/
structure Services where
  configManager : ConfigManager
  initialConfig : GlobalConfig
  /-- `num_threads_` of the workers. -/
  numThreads : Int32
  frameSaver : FrameSaver
  publisher : PublisherSettings
  /-- What the publisher threads have read; without threads nobody reads it. -/
  dryRun : Option (Bool × Int32)
  /-- `G_LOG_LEVEL`. -/
  logLevel : LogLevel
  streamManager : StreamIoManager

/-- How far `app_logic` gets. -/
inductive AppStart where
  /-- It returns `EXIT_FAILURE`. -/
  | failed
  /-- An exception leaves `main`, or the function of a thread. -/
  | terminated (exception : StdException)
  | serving (services : Services)

/-- How the process ends when it does not get to its services; `std::terminate` aborts. -/
def AppStart.status : AppStart → Option ExitStatus
  | .failed => some (.exited 1)
  | .terminated _ => some (.signaled 6)
  | .serving _ => none

namespace AppLogic

/-- `get_worker_count`; the number of cores is 0 where it is not known. -/
def getWorkerCount (hardwareConcurrency : UInt32) (numWorkerThreads : Option Bytes) :
    Except StdException Int32 :=
  let cores := hardwareConcurrency.toInt32
  let workers := max 1 (cores - 2)
  stoi (getEnv numWorkerThreads (toString workers))

/-- The first call of the callback, by `start_reloader`, on a new `StreamIoManager`: the log
level, and the manager with the readers it has started. -/
def startReloader (initialConfig : GlobalConfig) :
    Except StdException (LogLevel × StreamIoManager) :=
  match updateCallback initialConfig {} with
  | (logLevel, some streamManager) => .ok (logLevel, streamManager)
  | (_, none) => .error (.outOfRange (Bytes.ofString "map::at"))

/-- `app_logic` from the number of workers on: the constructors, what the threads that the
publisher starts read first, and the start of the readers. -/
def startServices (hardwareConcurrency : UInt32) (env : ProcessEnvironment)
    (configManager : ConfigManager) (initialConfig : GlobalConfig) :
    Except StdException Services := do
  let workerCount ← getWorkerCount hardwareConcurrency env.numWorkerThreads
  let numWorkers := workerCount.toInt16
  let _ ← stoi (getEnv env.publisher.queueWarningThreshold "1000")
  let frameSaver ← FrameSaver.construct env.frameSaver
  let publisher ← Publisher.construct env.publisher
  let dryRun ← Publisher.readSettings env publisher
  let (logLevel, streamManager) ← startReloader initialConfig
  pure
    { configManager, initialConfig, numThreads := numWorkers.toInt32,
      frameSaver, publisher, dryRun, logLevel, streamManager }

/-- `app_logic` up to its wait for the shutdown request; `file` is the configuration file that
`load_initial_config` finds. -/
def start (hardwareConcurrency : UInt32) (env : ProcessEnvironment) (lib : Simdjson)
    (file : Option Bytes) : Option AppStart :=
  match ConfigManager.construct ((ConfigManager.streamIdsValue env.configManager).length + 1)
      env.configManager with
  | none => none
  | some (.error _) => some .failed
  | some (.ok configManager) =>
      match configManager.parseConfigJson lib file with
      | none => some .failed
      | some initialConfig =>
          match startServices hardwareConcurrency env configManager initialConfig with
          | .error exception => some (.terminated exception)
          | .ok services => some (.serving services)

/-! ## The number of workers -/

/-- Without a variable, the number of workers is the number of cores less two, and at least
one: the text that it passes through does not change it. -/
theorem getWorkerCount_default (hardwareConcurrency : UInt32) :
    getWorkerCount hardwareConcurrency none = .ok (max 1 (hardwareConcurrency.toInt32 - 2)) := by
  generalize hworkers : max 1 (hardwareConcurrency.toInt32 - 2) = workers
  have hpos : 1 ≤ workers.toInt := by
    have hmax : workers =
        if 1 ≤ hardwareConcurrency.toInt32 - 2 then hardwareConcurrency.toInt32 - 2 else 1 :=
      hworkers.symm
    rw [hmax]
    split
    · next hle => exact Int32.le_iff_toInt_le.mp hle
    · decide
  have hlt : workers.toInt.toNat < 2 ^ 31 := by
    have hmax := workers.toInt_lt
    omega
  have hcast : (workers.toInt.toNat : Int) = workers.toInt := Int.toNat_of_nonneg (by omega)
  have htext : toString workers = toString workers.toInt.toNat := by
    change toString workers.toInt = _
    rw [← hcast]
    rfl
  have hvalue : Int32.ofNat workers.toInt.toNat = workers := by
    refine Int32.toInt_inj.mp ?_
    rw [Int32.toInt_ofNat_of_lt hlt, hcast]
  simp only [getWorkerCount, hworkers, getEnv, Option.getD_none]
  rw [htext, stoi_toString hlt, hvalue]

end AppLogic

/-! ## Which environments are read -/

/-- The variable, or its default, begins with a number that an `int` can hold. -/
def Reads (val : Option Bytes) (defaultValue : String) : Prop :=
  ∃ value, stoi (getEnv val defaultValue) = .ok value

/-- A computation succeeds when its first part does and the rest does on its result. -/
theorem exists_bind_eq_ok {ε α β : Type} {first : Except ε α} {rest : α → Except ε β} :
    (∃ result, (first >>= rest) = .ok result) ↔
      ∃ a, first = .ok a ∧ ∃ result, rest a = .ok result := by
  constructor
  · rintro ⟨result, h⟩
    rcases bind_eq_ok h with ⟨a, hfirst, hrest⟩
    exact ⟨a, hfirst, result, hrest⟩
  · rintro ⟨a, hfirst, result, hrest⟩
    refine ⟨result, ?_⟩
    rw [hfirst]
    exact hrest

namespace ConfigManager

/-- The constructor can read its variables. -/
structure Readable (env : Environment) : Prop where
  reloadInterval : ∃ value, stoll (getEnv env.configReloadIntervalS "60") = .ok value
  instanceSlot : Reads env.instanceSlot "0"
  totalInstances : Reads env.totalInstances "1"
  maxStreams : Reads env.maxStreams "0"
  streamIds : ∀ field ∈ (streamIdsValue env).splitOn comma, field ≠ [] →
    ∃ id, stoll field = .ok id

theorem readReloadInterval_ok_iff {env : Environment} :
    (∃ value, readReloadInterval env = .ok value) ↔
      ∃ value, stoll (getEnv env.configReloadIntervalS "60") = .ok value := by
  cases hvalue : stoll (getEnv env.configReloadIntervalS "60") with
  | ok value => simp [readReloadInterval, hvalue]
  | error e => cases e <;> simp [readReloadInterval, hvalue]

theorem readSettings_ok_iff {env : Environment} :
    (∃ settings, readSettings env = .ok settings) ↔
      (∃ value, stoll (getEnv env.configReloadIntervalS "60") = .ok value) ∧
        Reads env.instanceSlot "0" ∧ Reads env.totalInstances "1" ∧ Reads env.maxStreams "0" := by
  unfold readSettings
  simp only [exists_bind_eq_ok, exists_and_right, readReloadInterval_ok_iff]
  simp [Reads, pure, Except.pure]

/-- The fields can be inserted exactly when each of them that is not empty is a number. -/
theorem foldlM_insertStreamId_ok_iff (fields : List Bytes) (whitelist : Finset Int64) :
    (∃ whitelist', fields.foldlM insertStreamId whitelist = .ok whitelist') ↔
      ∀ field ∈ fields, field ≠ [] → ∃ id, stoll field = .ok id := by
  constructor
  · rintro ⟨whitelist', h⟩
    exact (foldlM_insertStreamId h).1
  · intro h
    induction fields generalizing whitelist with
    | nil => exact ⟨whitelist, rfl⟩
    | cons field fields ih =>
        have hrest : ∀ field ∈ fields, field ≠ [] → ∃ id, stoll field = .ok id :=
          fun field' hfield' => h field' (List.mem_cons_of_mem field hfield')
        have hfirst : ∃ whitelist', insertStreamId whitelist field = .ok whitelist' := by
          unfold insertStreamId
          by_cases hempty : field = []
          · subst hempty
            exact ⟨whitelist, rfl⟩
          · rcases h field List.mem_cons_self hempty with ⟨id, hid⟩
            rw [if_neg (by simpa using hempty), hid]
            exact ⟨_, rfl⟩
        rcases hfirst with ⟨whitelist', hinsert⟩
        rw [List.foldlM_cons, hinsert]
        exact ih whitelist' hrest

/-- The constructor of `ConfigManager` succeeds exactly when it can read its variables. -/
theorem construct_ok_iff {rounds : Nat} {env : Environment}
    (hrounds : (streamIdsValue env).length < rounds) :
    (∃ manager, construct rounds env = some (.ok manager)) ↔ Readable env := by
  have hids : (∃ result, readStreamIds rounds (streamIdsValue env) = some (.ok result)) ↔
      ∀ field ∈ (streamIdsValue env).splitOn comma, field ≠ [] → ∃ id, stoll field = .ok id := by
    rw [← foldlM_insertStreamId_ok_iff _ ∅]
    unfold readStreamIds
    by_cases hempty : streamIdsValue env = []
    · rw [hempty]
      exact iff_of_true ⟨_, rfl⟩ ⟨∅, rfl⟩
    · rw [if_neg (by simpa using hempty), insertStreamIds_eq hrounds]
      cases ((streamIdsValue env).splitOn comma).foldlM insertStreamId ∅ with
      | error e => simp [Except.map]
      | ok whitelist => simp [Except.map]
  have hsplit : (∃ manager, construct rounds env = some (.ok manager)) ↔
      (∃ settings, readSettings env = .ok settings) ∧
        ∃ result, readStreamIds rounds (streamIdsValue env) = some (.ok result) := by
    have hvalue : getEnv env.streamIds "" = streamIdsValue env := rfl
    unfold construct
    rw [hvalue]
    cases readSettings env with
    | error e => simp
    | ok settings =>
        cases readStreamIds rounds (streamIdsValue env) with
        | none => simp
        | some result => cases result <;> simp [Except.map]
  rw [hsplit, readSettings_ok_iff, hids]
  constructor
  · rintro ⟨⟨hinterval, hslot, htotal, hmax⟩, hfields⟩
    exact ⟨hinterval, hslot, htotal, hmax, hfields⟩
  · rintro ⟨hinterval, hslot, htotal, hmax, hfields⟩
    exact ⟨⟨hinterval, hslot, htotal, hmax⟩, hfields⟩

end ConfigManager

theorem Publisher.redisHost_isEmpty {env : PublisherEnvironment} :
    (getEnv env.redisHost "").isEmpty = true ↔ Publisher.NoRedisHost env := by
  unfold Publisher.NoRedisHost
  cases env.redisHost with
  | none => simp [getEnv, Bytes.ofString]
  | some host => simp [getEnv]

/-- The publisher is enabled exactly when a Redis host is set. -/
theorem Publisher.construct_enabled_iff {env : PublisherEnvironment} {settings : PublisherSettings}
    (h : Publisher.construct env = .ok settings) :
    settings.isEnabled = true ↔ ¬ Publisher.NoRedisHost env := by
  constructor
  · intro henabled hhost
    rw [Publisher.construct_disabled hhost h] at henabled
    cases henabled
  · intro hhost
    rcases bind_eq_ok h with ⟨threshold, -, hrest⟩
    rcases bind_eq_ok hrest with ⟨threads, -, hsettings⟩
    rw [if_neg fun hempty => hhost (redisHost_isEmpty.mp hempty)] at hsettings
    rcases bind_eq_ok hsettings with ⟨port, -, hsettings⟩
    rcases bind_eq_ok hsettings with ⟨threads', -, hsettings⟩
    rw [← Except.ok.inj hsettings]

/-- The constructor of `Publisher` succeeds exactly when it can read its variables; the port is
read only when there is a host. -/
theorem Publisher.construct_ok_iff {env : PublisherEnvironment} :
    (∃ settings, Publisher.construct env = .ok settings) ↔
      Reads env.queueWarningThreshold "1000" ∧ Reads env.publisherThreads "4" ∧
        (¬ Publisher.NoRedisHost env → Reads env.redisPort "6379") := by
  unfold Publisher.construct
  simp only [exists_bind_eq_ok, exists_and_right]
  refine and_congr_right fun _ => and_congr_right fun hthreads => ?_
  by_cases hhost : Publisher.NoRedisHost env
  · rw [if_pos (redisHost_isEmpty.mpr hhost)]
    simp [hhost, pure, Except.pure]
  · rw [if_neg fun hempty => hhost (redisHost_isEmpty.mp hempty)]
    rcases hthreads with ⟨threads, hthreads⟩
    simp [exists_bind_eq_ok, hhost, Reads, hthreads, pure, Except.pure]

/-- Everything that `app_logic` and the threads of the publisher read can be read. -/
structure ProcessEnvironment.Readable (env : ProcessEnvironment) : Prop where
  configManager : ConfigManager.Readable env.configManager
  numWorkerThreads : ∀ text, env.numWorkerThreads = some text → ∃ value, stoi text = .ok value
  queueWarningThreshold : Reads env.publisher.queueWarningThreshold "1000"
  saveFrameInterval : Reads env.frameSaver.saveFrameInterval "1"
  publisherThreads : Reads env.publisher.publisherThreads "4"
  redisPort : ¬ Publisher.NoRedisHost env.publisher → Reads env.publisher.redisPort "6379"
  dryRunDelay : ¬ Publisher.NoRedisHost env.publisher → Reads env.publisherDryRunDelayMs "10"

/-! ## What has started -/

/-- A frame that a reader can push: a reader runs for its stream, and its event is one of the
stream's. -/
def Services.Reads (services : Services) (frame : DecodedFrame AVFrame) : Prop :=
  (services.streamManager.streamThreads[frame.sourceConfig.id.toInt32]?).map JThread.config =
      some frame.sourceConfig ∧
    frame.eventConfig ∈ frame.sourceConfig.events

instance (services : Services) : DecidablePred services.Reads := fun frame =>
  inferInstanceAs (Decidable
    ((services.streamManager.streamThreads[frame.sourceConfig.id.toInt32]?).map JThread.config =
        some frame.sourceConfig ∧
      frame.eventConfig ∈ frame.sourceConfig.events))

/-- The pipeline that runs with the services, fed by the readers that have been started. -/
def Services.machine {γ : Type*} (services : Services) (av : Avfilter γ) :
    Machine
      (Pipeline γ services.numThreads.toInt.toNat (services.publisher.publisherThreads - 1))
      (Pipeline.Action services.numThreads.toInt.toNat (services.publisher.publisherThreads - 1)) :=
  Pipeline.readingMachine services.Reads services.publisher.isEnabled av
    ((services.dryRun.map Prod.fst).getD false) _ _

variable {hardwareConcurrency : UInt32} {env : ProcessEnvironment} {lib : Simdjson}
  {file : Option Bytes} {services : Services}

/-- What `app_logic` has started comes from the environment. -/
theorem AppLogic.startServices_ok {configManager : ConfigManager} {initialConfig : GlobalConfig}
    (h : AppLogic.startServices hardwareConcurrency env configManager initialConfig =
      .ok services) :
    (∃ workerCount, AppLogic.getWorkerCount hardwareConcurrency env.numWorkerThreads =
        .ok workerCount ∧ services.numThreads = workerCount.toInt16.toInt32) ∧
      Publisher.construct env.publisher = .ok services.publisher ∧
      (services.publisher.isEnabled = true →
        services.dryRun.map Prod.fst =
          some (getEnv env.publisherDryRun "false" == Bytes.ofString "true")) ∧
      AppLogic.startReloader services.initialConfig =
        .ok (services.logLevel, services.streamManager) := by
  rcases bind_eq_ok h with ⟨workerCount, hcount, h⟩
  rcases bind_eq_ok h with ⟨threshold, -, h⟩
  rcases bind_eq_ok h with ⟨frameSaver, -, h⟩
  rcases bind_eq_ok h with ⟨publisher, hpublisher, h⟩
  rcases bind_eq_ok h with ⟨dryRun, hdry, h⟩
  rcases bind_eq_ok h with ⟨⟨logLevel, streamManager⟩, hreloader, h⟩
  cases Except.ok.inj h
  refine ⟨⟨workerCount, hcount, rfl⟩, hpublisher, fun henabled => ?_, hreloader⟩
  rw [Publisher.readSettings, if_pos henabled, Publisher.readDryRun] at hdry
  cases hdelay : stoi (getEnv env.publisherDryRunDelayMs "10") with
  | error e =>
      rw [hdelay] at hdry
      cases hdry
  | ok delay =>
      rw [hdelay] at hdry
      cases hdry
      rfl

theorem AppLogic.start_serving
    (h : AppLogic.start hardwareConcurrency env lib file = some (.serving services)) :
    ∃ configManager initialConfig,
      AppLogic.startServices hardwareConcurrency env configManager initialConfig =
        .ok services := by
  unfold AppLogic.start at h
  split at h
  · cases h
  · cases h
  · next configManager _ =>
    split at h
    · cases h
    · next initialConfig _ =>
      split at h
      · cases h
      · next services' hservices =>
        cases h
        exact ⟨configManager, initialConfig, hservices⟩

theorem FrameSaver.construct_ok_iff {env : SaverEnvironment} :
    (∃ frameSaver, FrameSaver.construct env = .ok frameSaver) ↔
      Reads env.saveFrameInterval "1" := by
  unfold FrameSaver.construct Reads
  cases stoi (getEnv env.saveFrameInterval "1") with
  | error e => simp
  | ok interval => simp

theorem AppLogic.getWorkerCount_ok_iff {numWorkerThreads : Option Bytes} :
    (∃ workerCount, AppLogic.getWorkerCount hardwareConcurrency numWorkerThreads =
      .ok workerCount) ↔
      ∀ text, numWorkerThreads = some text → ∃ value, stoi text = .ok value := by
  cases numWorkerThreads with
  | none => simp [getWorkerCount_default]
  | some text => simp [getWorkerCount, getEnv]

theorem Publisher.readSettings_ok_iff {settings : PublisherSettings} :
    (∃ dryRun, Publisher.readSettings env settings = .ok dryRun) ↔
      (settings.isEnabled = true → Reads env.publisherDryRunDelayMs "10") := by
  unfold Publisher.readSettings Publisher.readDryRun Reads
  cases settings.isEnabled with
  | false => simp
  | true =>
      cases stoi (getEnv env.publisherDryRunDelayMs "10") with
      | error e => simp [bind, Except.bind, Except.map]
      | ok delay => simp [bind, Except.bind, pure, Except.pure, Except.map]

/-- The first call of the callback succeeds, and leaves under every key a reader of the last
desired stream of the loaded configuration that narrows to it. -/
theorem AppLogic.startReloader_reads (initialConfig : GlobalConfig) :
    ∃ logLevel streamManager,
      AppLogic.startReloader initialConfig = .ok (logLevel, streamManager) ∧
      streamManager.Consistent ∧
      ∀ k : Int32, (streamManager.streamThreads[k]?).map JThread.config =
        StreamIoManager.lastKeyed
          (StreamIoManager.desiredList initialConfig.streamConfigs) k := by
  rcases StreamIoManager.updateStreams_spec .empty initialConfig.streamConfigs with
    ⟨streamManager, hupdate, hupdated⟩
  refine ⟨stringToLoglevel initialConfig.logLevelStr, streamManager, ?_, hupdated.consistent,
    fun k => ?_⟩
  · rw [AppLogic.startReloader, updateCallback, hupdate]
  · rw [← hupdated.consistent.config_eq k]
    exact hupdated.fresh k (by simp)

/-- There is a frame to read exactly when a stream with an event has a reader. -/
theorem Services.exists_reads_iff
    (h : AppLogic.startReloader services.initialConfig =
      .ok (services.logLevel, services.streamManager)) :
    (∃ frame, services.Reads frame) ↔
      ∃ k config, StreamIoManager.lastKeyed
          (StreamIoManager.desiredList services.initialConfig.streamConfigs) k = some config ∧
        config.events ≠ [] := by
  rcases AppLogic.startReloader_reads services.initialConfig with
    ⟨logLevel, streamManager, hreloader, hconsistent, hreaders⟩
  rw [h] at hreloader
  cases Except.ok.inj hreloader
  constructor
  · rintro ⟨frame, hreader, hevent⟩
    exact ⟨_, frame.sourceConfig, (hreaders _).symm.trans hreader, List.ne_nil_of_mem hevent⟩
  · rintro ⟨k, config, hlast, hevents⟩
    rcases List.exists_mem_of_ne_nil _ hevents with ⟨event, hevent⟩
    have hreader := (hreaders k).trans hlast
    have hkey : config.id.toInt32 = k :=
      (hconsistent.key_eq k config ((hconsistent.config_eq k).trans hreader)).2
    exact ⟨⟨(Pipeline.tinyFrame 1 1).frame, config, event⟩, hkey ▸ hreader, hevent⟩

/-- From the number of workers on, everything succeeds when everything can be read. -/
theorem AppLogic.startServices_ok_iff {configManager : ConfigManager}
    {initialConfig : GlobalConfig} (hmanager : ConfigManager.Readable env.configManager) :
    (∃ services, AppLogic.startServices hardwareConcurrency env configManager initialConfig =
      .ok services) ↔ env.Readable := by
  unfold AppLogic.startServices
  simp only [exists_bind_eq_ok]
  constructor
  · rintro ⟨workerCount, hcount, threshold, hthreshold, frameSaver, hsaver, publisher, hpublisher,
      dryRun, hdry, -⟩
    have hworkers := getWorkerCount_ok_iff.mp ⟨workerCount, hcount⟩
    have hinterval := FrameSaver.construct_ok_iff.mp ⟨frameSaver, hsaver⟩
    rcases Publisher.construct_ok_iff.mp ⟨publisher, hpublisher⟩ with ⟨-, hthreads, hport⟩
    refine ⟨hmanager, hworkers, ⟨threshold, hthreshold⟩, hinterval, hthreads, hport, ?_⟩
    intro hhost
    have henabled := (Publisher.construct_enabled_iff hpublisher).mpr hhost
    exact Publisher.readSettings_ok_iff.mp ⟨dryRun, hdry⟩ henabled
  · intro h
    rcases getWorkerCount_ok_iff.mpr h.numWorkerThreads with ⟨workerCount, hcount⟩
    rcases h.queueWarningThreshold with ⟨threshold, hthreshold⟩
    rcases FrameSaver.construct_ok_iff.mpr h.saveFrameInterval with ⟨frameSaver, hsaver⟩
    rcases Publisher.construct_ok_iff.mpr
      ⟨h.queueWarningThreshold, h.publisherThreads, h.redisPort⟩ with ⟨publisher, hpublisher⟩
    have henabled := Publisher.construct_enabled_iff hpublisher
    rcases Publisher.readSettings_ok_iff.mpr fun hyes => h.dryRunDelay (henabled.mp hyes) with
      ⟨dryRun, hdry⟩
    rcases startReloader_reads initialConfig with ⟨logLevel, streamManager, hreloader, -⟩
    exact ⟨workerCount, hcount, threshold, hthreshold, frameSaver, hsaver, publisher, hpublisher,
      dryRun, hdry, (logLevel, streamManager), hreloader, _, rfl⟩

/-- `app_logic` gets to its services exactly when everything that is read of the environment can
be read and the configuration file can be loaded. -/
theorem AppLogic.start_serving_iff :
    (∃ services, AppLogic.start hardwareConcurrency env lib file = some (.serving services)) ↔
      env.Readable ∧ ∃ manager,
        ConfigManager.construct ((ConfigManager.streamIdsValue env.configManager).length + 1)
          env.configManager = some (.ok manager) ∧
        (manager.parseConfigJson lib file).isSome = true := by
  have hrounds := Nat.lt_succ_self (ConfigManager.streamIdsValue env.configManager).length
  unfold AppLogic.start
  cases hconstruct : ConfigManager.construct
      ((ConfigManager.streamIdsValue env.configManager).length + 1) env.configManager with
  | none => simp
  | some result =>
      cases result with
      | error e => simp
      | ok manager =>
          have hmanager := (ConfigManager.construct_ok_iff hrounds).mp ⟨manager, hconstruct⟩
          cases hparse : manager.parseConfigJson lib file with
          | none => simp [hparse]
          | some initialConfig =>
              have hloaded : ∃ manager', some (Except.ok manager) =
                  some (Except.ok (ε := StdException) manager') ∧
                    (manager'.parseConfigJson lib file).isSome = true :=
                ⟨manager, rfl, by rw [hparse]; rfl⟩
              rw [and_iff_left hloaded, ← startServices_ok_iff hmanager]
              simp only [hparse]
              cases startServices hardwareConcurrency env manager initialConfig with
              | error e => simp
              | ok services => simp

/-- What has started can store a frame exactly when a Redis host is set, the run is no dry run,
the number of workers that the environment asks for is positive when it is reduced to 16 bits,
and a stream of the loaded configuration that gets a reader has an event.  A reader is taken to
deliver frames of each event of its stream, and every graph of a worker to be built and to yield
one frame for each. -/
theorem Services.stores_iff {γ : Type*} {av : Avfilter γ} {Idle : γ → Prop}
    (hav : Worker.OneToOne av Idle)
    (hstart : AppLogic.start hardwareConcurrency env lib file = some (.serving services))
    {workerCount : Int32}
    (hcount : AppLogic.getWorkerCount hardwareConcurrency env.numWorkerThreads =
      .ok workerCount) :
    (∃ schedule t, (services.machine av).exec {} schedule = some t ∧ t.stored ≠ []) ↔
      ¬ Publisher.NoRedisHost env.publisher ∧
        env.publisherDryRun ≠ some (Bytes.ofString "true") ∧
        0 < workerCount.toInt.bmod (2 ^ 16) ∧
        ∃ k config, StreamIoManager.lastKeyed
            (StreamIoManager.desiredList services.initialConfig.streamConfigs) k = some config ∧
          config.events ≠ [] := by
  rcases AppLogic.start_serving hstart with ⟨configManager, initialConfig, hservices⟩
  rcases AppLogic.startServices_ok hservices with
    ⟨⟨count, hcount', hthreads⟩, hpublisher, hdry, hreloader⟩
  rw [hcount] at hcount'
  cases Except.ok.inj hcount'
  have hworkers : 0 < services.numThreads.toInt.toNat ↔ 0 < workerCount.toInt.bmod (2 ^ 16) := by
    rw [hthreads, Int16.toInt_toInt32, Int32.toInt_toInt16]
    omega
  rw [← Publisher.construct_enabled_iff hpublisher, ← hworkers, ← exists_reads_iff hreloader]
  refine (Pipeline.stores_frame_iff hav services.Reads _ _ _ _).trans ?_
  refine and_congr_right fun henabled => and_congr_left fun _ => ?_
  rw [hdry henabled]
  cases hvalue : env.publisherDryRun with
  | none =>
    simp [getEnv]
    decide
  | some value => simp [getEnv]

/-- An environment with nothing but a Redis host and perhaps a number of workers. -/
def redisEnvironment (numWorkerThreads : Option Bytes) : ProcessEnvironment where
  numWorkerThreads
  publisher := { redisHost := some (Bytes.ofString "redis") }

/-- A file with one enabled stream that has one event. -/
def motionText : Bytes :=
  Bytes.ofString ("\x7b\"streams\":[\x7b\"id\":1,\"url\":\"a\",\"enabled\":true," ++
    "\"events\":[\x7b\"name\":\"motion\"\x7d]\x7d]\x7d")

/-- Its entry. -/
def motionEntry : Json :=
  .object [("id", .int64 1), ("url", .string "a"), ("enabled", .bool true),
    ("events", .array [.object [("name", .string "motion")]])]

/-- simdjson on that file, and on the file without a stream. -/
def motionLibrary : Simdjson where
  parse text :=
    if text = motionText then .ok (.object [("streams", .array [motionEntry])])
    else if text = ConfigManager.streamsOnlyText then .ok (.object [("streams", .array [])])
    else .error .tapeError
  minify _ := []

/-- On eight cores there are six workers, and a frame of the event can be stored; without a
stream, or with 65536 workers asked for, which are none, nothing is ever stored. -/
theorem Services.stores_iff_workers :
    (∃ services, AppLogic.start 8 (redisEnvironment none) motionLibrary (some motionText) =
        some (.serving services) ∧
      ∃ schedule t, (services.machine Worker.passThrough).exec {} schedule = some t ∧
        t.stored ≠ []) ∧
    (∃ services, AppLogic.start 8 (redisEnvironment none) motionLibrary
        (some ConfigManager.streamsOnlyText) = some (.serving services) ∧
      ¬ ∃ schedule t, (services.machine Worker.passThrough).exec {} schedule = some t ∧
        t.stored ≠ []) ∧
    ∃ services, AppLogic.start 8 (redisEnvironment (some (Bytes.ofString "65536")))
        motionLibrary (some motionText) = some (.serving services) ∧
      ¬ ∃ schedule t, (services.machine Worker.passThrough).exec {} schedule = some t ∧
        t.stored ≠ [] := by
  have hhost : ¬ Publisher.NoRedisHost { redisHost := some (Bytes.ofString "redis") } := by
    rintro (h | h) <;> cases h
  have hcores : AppLogic.getWorkerCount 8 none = .ok 6 := AppLogic.getWorkerCount_default 8
  refine ⟨?_, ?_, ?_⟩
  · have hstart : ∃ services, AppLogic.start 8 (redisEnvironment none) motionLibrary
        (some motionText) = some (.serving services) ∧
          services.initialConfig.streamConfigs =
            [ConfigManager.parseStream motionEntry 1 "a"] := ⟨_, rfl, rfl⟩
    rcases hstart with ⟨services, hstart, hconfigs⟩
    refine ⟨services, hstart, ?_⟩
    refine (stores_iff Worker.passThrough_oneToOne hstart hcores).mpr ⟨hhost, nofun, by decide, ?_⟩
    rw [hconfigs]
    exact ⟨1, ConfigManager.parseStream motionEntry 1 "a", by decide, by decide⟩
  · have hstart : ∃ services, AppLogic.start 8 (redisEnvironment none) motionLibrary
        (some ConfigManager.streamsOnlyText) = some (.serving services) ∧
          services.initialConfig.streamConfigs = [] := ⟨_, rfl, rfl⟩
    rcases hstart with ⟨services, hstart, hconfigs⟩
    refine ⟨services, hstart, fun hstored => ?_⟩
    rcases ((stores_iff Worker.passThrough_oneToOne hstart hcores).mp hstored).2.2.2 with
      ⟨k, config, hlast, -⟩
    rw [hconfigs] at hlast
    cases hlast
  · have hstart : ∃ services, AppLogic.start 8 (redisEnvironment (some (Bytes.ofString "65536")))
        motionLibrary (some motionText) = some (.serving services) := ⟨_, rfl⟩
    rcases hstart with ⟨services, hstart⟩
    have hcount : AppLogic.getWorkerCount 8 (some (Bytes.ofString "65536")) = .ok 65536 := rfl
    refine ⟨services, hstart, fun hstored => ?_⟩
    have hpositive := ((stores_iff Worker.passThrough_oneToOne hstart hcount).mp hstored).2.2.1
    exact absurd hpositive (by decide)

end FrameProcessor
