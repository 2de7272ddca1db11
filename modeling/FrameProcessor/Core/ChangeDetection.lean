import FrameProcessor.Publisher.Batching
import FrameProcessor.StreamIo.Manager
import FrameProcessor.StreamIo.Sampling
import FrameProcessor.Utils.Logger
import FrameProcessor.Worker.Processing

/-!
# core/main - What change detection may ignore

The reloader calls `update_callback` only for a configuration that differs from the
current one by the hand-written `operator==`, which ignores the `target_fps` of a
stream.  Forgetting this field commutes with everything the pipeline does: with
`update_streams`, with the frames a reader pushes, with the work of a worker and with the
batches.

Main results:

- Theorem `StreamIoManager.updateStreams_compared`, `StreamIoManager.connection_compared`,
  `Worker.processFrame_compared`, `Publisher.batchingLoop_compared`: no consumer reads what
  equality ignores.
- Theorem `changeDetection_complete`: equality is an equivalence, and equal configurations
  have the same effect.
-/

namespace FrameProcessor

open Std

/-! ## The update callback -/

/-- `update_callback`: the log level and the manager's tables afterwards. -/
def updateCallback (config : GlobalConfig) (streamManager : StreamIoManager) :
    LogLevel × Option StreamIoManager :=
  (stringToLoglevel config.logLevelStr, streamManager.updateStreams config.streamConfigs)

/-! ## Stream configurations -/

/-- Equality does not see what it ignores. -/
theorem StreamConfig.compared_beq (a b : StreamConfig) :
    (a.compared == b.compared) = (a == b) := by
  rw [Bool.eq_iff_iff, StreamConfig.beq_iff_compared, StreamConfig.beq_iff_compared]
  rfl

/-! ## The stream manager -/

namespace StreamIoManager

/-- A thread up to what the equality of its configuration ignores. -/
def comparedThread (thread : JThread) : JThread :=
  { thread with config := thread.config.compared }

/-- A manager up to what equality ignores. -/
def compared (s : StreamIoManager) : StreamIoManager where
  streamThreads := s.streamThreads.map fun _ => comparedThread
  activeStreamConfigs := s.activeStreamConfigs.map fun _ => StreamConfig.compared
  started := s.started

/-- The desired configurations, compared. -/
theorem desiredConfigs_compared (newConfigs : List StreamConfig) :
    desiredConfigs (newConfigs.map StreamConfig.compared) =
      (desiredConfigs newConfigs).map fun _ => StreamConfig.compared := by
  unfold desiredConfigs
  induction newConfigs using List.reverseRecOn with
  | nil => simp
  | append_singleton newConfigs config ih =>
      have henabled : config.compared.enabled = config.enabled := rfl
      have hid : config.compared.id = config.id := rfl
      rw [List.map_append, List.map_singleton, List.foldl_concat, List.foldl_concat, ih, henabled,
        hid]
      cases config.enabled with
      | false => rfl
      | true => exact (Table.map_insert _ _ _ _).symm

/-- The test of phase 1 does not see what equality ignores. -/
theorem needsStop_compared (s : StreamIoManager) (desired : ExtTreeMap Int64 StreamConfig)
    (id : Int32) :
    s.compared.needsStop (desired.map fun _ => StreamConfig.compared) id =
      s.needsStop desired id := by
  unfold needsStop
  rw [ExtTreeMap.getElem?_map]
  cases desired[id.toInt64]? with
  | none => rfl
  | some cfg =>
      simp only [Option.map_some, compared, ExtTreeMap.getElem?_map, Option.map_map]
      cases s.activeStreamConfigs[id]? with
      | none => rfl
      | some active => simp [StreamConfig.compared_beq]

/-- The same threads are stopped. -/
theorem toStop_compared (s : StreamIoManager) (desired : ExtTreeMap Int64 StreamConfig) :
    s.compared.toStop (desired.map fun _ => StreamConfig.compared) = s.toStop desired := by
  unfold toStop
  have hkeys : s.compared.streamThreads.keys = s.streamThreads.keys := ExtTreeMap.keys_map
  have hstep : (fun (ids : List Int64) id =>
        (s.compared.needsStop (desired.map fun _ => StreamConfig.compared) id).map
          fun stop => if stop then ids ++ [id.toInt64] else ids) =
      fun ids id =>
        (s.needsStop desired id).map fun stop => if stop then ids ++ [id.toInt64] else ids := by
    funext ids id
    rw [needsStop_compared]
  rw [hkeys, hstep]

/-- The same streams are started. -/
theorem toStart_compared (s : StreamIoManager) (desired : ExtTreeMap Int64 StreamConfig) :
    s.compared.toStart (desired.map fun _ => StreamConfig.compared) =
      (s.toStart desired).map StreamConfig.compared := by
  have hcontains : ∀ id, s.compared.streamThreads.contains id = s.streamThreads.contains id :=
    fun id => ExtTreeMap.contains_map
  have hvalues : (desired.map fun _ => StreamConfig.compared).toList.map Prod.snd =
      (desired.toList.map Prod.snd).map StreamConfig.compared := by
    rw [ExtTreeMap.toList_map, List.map_map, List.map_map]
    rfl
  unfold toStart
  rw [hvalues, List.filter_map]
  congr 1
  apply List.filter_congr
  intro config _
  exact congrArg not (hcontains config.id.toInt32)

theorem stopStream_compared (s : StreamIoManager) (id : Int64) :
    s.compared.stopStream id = (s.stopStream id).map compared := by
  have hcontains : s.compared.streamThreads.contains id.toInt32 =
      s.streamThreads.contains id.toInt32 :=
    ExtTreeMap.contains_map
  unfold stopStream
  rw [hcontains]
  split
  · simp only [Option.map_some, compared, Table.map_erase]
  · rfl

theorem startStream_compared (s : StreamIoManager) (config : StreamConfig) :
    s.compared.startStream config.compared = (s.startStream config).compared := by
  have hid : config.compared.id = config.id := rfl
  simp only [startStream, compared, Table.map_insert, hid]
  rfl

theorem stopPhase_compared (s : StreamIoManager) (ids : List Int64) :
    ids.foldlM stopStream s.compared = (ids.foldlM stopStream s).map compared := by
  induction ids generalizing s with
  | nil => rfl
  | cons id ids ih =>
      rw [List.foldlM_cons, List.foldlM_cons, stopStream_compared]
      cases s.stopStream id with
      | none => rfl
      | some s' => exact ih s'

theorem startPhase_compared (s : StreamIoManager) (configs : List StreamConfig) :
    (configs.map StreamConfig.compared).foldl startStream s.compared =
      (configs.foldl startStream s).compared := by
  induction configs generalizing s with
  | nil => rfl
  | cons config configs ih =>
      rw [List.map_cons, List.foldl_cons, List.foldl_cons, startStream_compared, ih]

/-- `update_streams` does not read what equality ignores, whatever state the manager is in. -/
theorem updateStreams_compared (s : StreamIoManager) (newConfigs : List StreamConfig) :
    s.compared.updateStreams (newConfigs.map StreamConfig.compared) =
      (s.updateStreams newConfigs).map compared := by
  unfold updateStreams
  simp only [desiredConfigs_compared, toStop_compared, toStart_compared]
  cases s.toStop (desiredConfigs newConfigs) with
  | none => rfl
  | some ids =>
      have hstop := stopPhase_compared s ids
      simp only [Option.bind_eq_bind, Option.bind_some, hstop]
      cases ids.foldlM stopStream s with
      | none => rfl
      | some stopped => exact congrArg some (startPhase_compared stopped _)

end StreamIoManager

/-! ## Readers -/

/-- A frame up to what the equality of its configuration ignores. -/
def DecodedFrame.compared {φ : Type*} (frame : DecodedFrame φ) : DecodedFrame φ :=
  { frame with sourceConfig := frame.sourceConfig.compared }

namespace StreamIoManager

variable {γ : Type*}

theorem pushEvents_compared (av : MultiOutputAvfilter γ) (rounds : Nat) (config : StreamConfig)
    (events : List EventConfig) (graph : γ) :
    pushEvents av rounds config.compared events graph =
      ((pushEvents av rounds config events graph).1.map DecodedFrame.compared,
        (pushEvents av rounds config events graph).2) := by
  induction events generalizing graph with
  | nil => rfl
  | cons event events ih =>
      have hevents : config.compared.events = config.events := rfl
      simp only [pushEvents, hevents]
      cases sinkContexts config.events event.name with
      | none => rfl
      | some sink =>
          simp only [ih, List.map_append, List.map_map]
          rfl

theorem readFrames_compared (av : MultiOutputAvfilter γ) (rounds : Nat) (config : StreamConfig)
    (rawFrames : List AVFrame) (graph : γ) :
    readFrames av rounds config.compared rawFrames graph =
      (readFrames av rounds config rawFrames graph).map DecodedFrame.compared := by
  induction rawFrames generalizing graph with
  | nil => rfl
  | cons rawFrame rawFrames ih =>
      have hevents : config.compared.events = config.events := rfl
      simp only [readFrames, hevents]
      rcases av.addFrame graph rawFrame with ⟨added, graph'⟩
      cases added with
      | false => rfl
      | true => simp only [pushEvents_compared, ih, List.map_append]

/-- A connection pushes the same frames for the same events in the same order. -/
theorem connection_compared (quotient : RateQuotient) (av : MultiOutputAvfilter γ) (rounds : Nat)
    (config : StreamConfig) (videoStream : AVStream) (rawFrames : List AVFrame) :
    connection quotient av rounds config.compared videoStream rawFrames =
      (connection quotient av rounds config videoStream rawFrames).map DecodedFrame.compared := by
  have hevents : config.compared.events = config.events := rfl
  unfold connection
  rw [hevents]
  cases setupMultiOutputFilterGraph quotient av videoStream config.events with
  | none => rfl
  | some graph => exact readFrames_compared av rounds config rawFrames graph

end StreamIoManager

/-! ## Workers -/

namespace Worker

variable {γ : Type*}

/-- An iteration makes the same outputs of a frame and leaves the same contexts. -/
theorem processFrame_compared (av : Avfilter γ) (contexts : StreamContexts γ)
    (frame : DecodedFrame AVFrame) :
    processFrame av contexts frame.compared =
      ((processFrame av contexts frame).1.map DecodedFrame.compared,
        (processFrame av contexts frame).2) := by
  have hkey : ctxKey frame.compared = ctxKey frame := rfl
  have hframe : frame.compared.frame = frame.frame := rfl
  have hacquire : acquireContext av contexts frame.compared = acquireContext av contexts frame :=
    rfl
  unfold processFrame
  rw [hacquire, hkey, hframe]
  cases acquireContext av contexts frame with
  | none => rfl
  | some ctx =>
      cases hclone : av.cloneFrame frame.frame with
      | none => simp
      | some frameToProcess =>
          rcases hadd : av.addFrame ctx.graph frameToProcess with ⟨added, graph⟩
          cases added with
          | false => simp [hadd]
          | true =>
              simp only [hadd, List.map_map]
              rfl

/-- The iterations of a worker thread over the frames it pops. -/
def processFrames (av : Avfilter γ) :
    StreamContexts γ → List (DecodedFrame AVFrame) → List (DecodedFrame AVFrame) × StreamContexts γ
  | contexts, [] => ([], contexts)
  | contexts, frame :: frames =>
      let (processed, contexts') := processFrame av contexts frame
      let (rest, final) := processFrames av contexts' frames
      (processed ++ rest, final)

theorem processFrames_compared (av : Avfilter γ) (contexts : StreamContexts γ)
    (frames : List (DecodedFrame AVFrame)) :
    processFrames av contexts (frames.map DecodedFrame.compared) =
      ((processFrames av contexts frames).1.map DecodedFrame.compared,
        (processFrames av contexts frames).2) := by
  induction frames generalizing contexts with
  | nil => rfl
  | cons frame frames ih =>
      simp only [List.map_cons, processFrames, processFrame_compared, ih, List.map_append]

end Worker

/-! ## Batches -/

namespace Publisher

/-- A batch that names its frames up to what equality ignores. -/
def PackedBatch.compared (batch : PackedBatch) : PackedBatch where
  toFrameBatch := batch.toFrameBatch
  frames := batch.frames.map DecodedFrame.compared
  nonempty := by simpa using batch.nonempty
  counted := by rw [List.length_map, batch.counted]
  packed := by
    rw [List.flatMap_map, batch.packed]
    rfl

theorem PackedBatch.single_compared (frame : DecodedFrame AVFrame) :
    PackedBatch.single frame.compared = (PackedBatch.single frame).compared :=
  rfl

theorem PackedBatch.add_compared (batch : PackedBatch) (frame : DecodedFrame AVFrame) :
    batch.compared.add frame.compared = (batch.add frame).compared := by
  simp only [PackedBatch.add, PackedBatch.compared, List.map_append, List.map_singleton]
  rfl

/-- The open batches, compared. -/
def comparedBatches (current : CurrentBatches) : CurrentBatches :=
  current.map fun _ => PackedBatch.compared

theorem extendBatch_compared (current : CurrentBatches) (frame : DecodedFrame AVFrame) :
    extendBatch (comparedBatches current) frame.compared =
      (extendBatch current frame).compared := by
  have hkey : batchKey frame.compared = batchKey frame := rfl
  unfold extendBatch comparedBatches
  rw [hkey, ExtTreeMap.getElem?_map]
  cases current[batchKey frame]? with
  | none => exact PackedBatch.single_compared frame
  | some batch => exact batch.add_compared frame

/-- A batch is full at the same frame. -/
theorem batchFrame_compared (current : CurrentBatches) (frame : DecodedFrame AVFrame) :
    batchFrame (comparedBatches current) frame.compared =
      (comparedBatches (batchFrame current frame).1,
        (batchFrame current frame).2.map PackedBatch.compared) := by
  have hkey : batchKey frame.compared = batchKey frame := rfl
  have hevent : frame.compared.eventConfig = frame.eventConfig := rfl
  have hcount : (extendBatch current frame).compared.frameCount =
      (extendBatch current frame).frameCount :=
    rfl
  simp only [batchFrame, extendBatch_compared, hkey, hevent, hcount]
  split
  · simp only [Option.map_some, comparedBatches, Table.map_erase]
  · simp only [Option.map_none, comparedBatches, Table.map_insert]

theorem batchFrames_compared (current : CurrentBatches) (popped : List (DecodedFrame AVFrame)) :
    batchFrames (comparedBatches current) (popped.map DecodedFrame.compared) =
      ((batchFrames current popped).1.map PackedBatch.compared,
        comparedBatches (batchFrames current popped).2) := by
  induction popped generalizing current with
  | nil => rfl
  | cons frame popped ih =>
      simp only [List.map_cons, batchFrames, batchFrame_compared, ih, List.map_append]
      cases (batchFrame current frame).2 <;> rfl

theorem flush_compared (current : CurrentBatches) :
    flush (comparedBatches current) = (flush current).map PackedBatch.compared := by
  rw [flush_eq, flush_eq, comparedBatches, ExtTreeMap.toList_map, List.map_map, List.map_map]
  rfl

/-- The same batches are pushed, with the same contents. -/
theorem batchingLoop_compared (popped : List (DecodedFrame AVFrame)) :
    batchingLoop (popped.map DecodedFrame.compared) =
      (batchingLoop popped).map PackedBatch.compared := by
  have hempty : comparedBatches ∅ = ∅ := by simp [comparedBatches]
  have hloop := batchFrames_compared ∅ popped
  rw [hempty] at hloop
  simp only [batchingLoop, hloop, flush_compared, List.map_append]

end Publisher

/-! ## Equal configurations have the same effect -/

/-- Readers started with the two configurations connect to the same place, select the same
frames for the same events, push the same frames in the same order, and have them cropped
and scaled alike. -/
structure SameReader (a b : StreamConfig) : Prop where
  id : a.id = b.id
  url : a.url = b.url
  events : a.events = b.events
  intervals : ∀ quotient videoStream,
    StreamIoManager.selectIntervals quotient videoStream a.events =
      StreamIoManager.selectIntervals quotient videoStream b.events
  spec : Worker.filterSpec a.processing = Worker.filterSpec b.processing
  pushed : ∀ {γ : Type} quotient (av : MultiOutputAvfilter γ) rounds videoStream rawFrames,
    (StreamIoManager.connection quotient av rounds a videoStream rawFrames).map
        DecodedFrame.compared =
      (StreamIoManager.connection quotient av rounds b videoStream rawFrames).map
        DecodedFrame.compared

/-- Two sequences of frames that differ in what equality ignores only are processed and
batched alike. -/
structure SameConsumption (frames₁ frames₂ : List (DecodedFrame AVFrame)) : Prop where
  worker : ∀ {γ : Type} (av : Avfilter γ) contexts,
    (Worker.processFrames av contexts frames₁).1.map DecodedFrame.compared =
        (Worker.processFrames av contexts frames₂).1.map DecodedFrame.compared ∧
      (Worker.processFrames av contexts frames₁).2 = (Worker.processFrames av contexts frames₂).2
  batcher : (Publisher.batchingLoop frames₁).map Publisher.PackedBatch.toFrameBatch =
    (Publisher.batchingLoop frames₂).map Publisher.PackedBatch.toFrameBatch

/-- Delivering one or the other configuration makes no observable difference. -/
structure SameEffect (g₁ g₂ : GlobalConfig) : Prop where
  logLevel : ∀ s, (updateCallback g₁ s).1 = (updateCallback g₂ s).1
  stopped : ∀ s : StreamIoManager, s.toStop (StreamIoManager.desiredConfigs g₁.streamConfigs) =
    s.toStop (StreamIoManager.desiredConfigs g₂.streamConfigs)
  started : ∀ s : StreamIoManager, List.Forall₂ SameReader
    (s.toStart (StreamIoManager.desiredConfigs g₁.streamConfigs))
    (s.toStart (StreamIoManager.desiredConfigs g₂.streamConfigs))
  tables : ∀ s, (updateCallback g₁ s).2.map StreamIoManager.compared =
    (updateCallback g₂ s).2.map StreamIoManager.compared

/-- Configurations that equality does not tell apart start the same reader. -/
theorem sameReader_of_compared {a b : StreamConfig} (h : a.compared = b.compared) :
    SameReader a b := by
  have hevents : a.events = b.events := by
    show a.compared.events = b.compared.events
    rw [h]
  constructor
  · show a.compared.id = b.compared.id
    rw [h]
  · show a.compared.url = b.compared.url
    rw [h]
  · exact hevents
  · intro quotient videoStream
    rw [hevents]
  · show Worker.filterSpec a.compared.processing = Worker.filterSpec b.compared.processing
    rw [h]
  · intro γ quotient av rounds videoStream rawFrames
    rw [← StreamIoManager.connection_compared, ← StreamIoManager.connection_compared, h]

theorem sameConsumption_of_compared {frames₁ frames₂ : List (DecodedFrame AVFrame)}
    (h : frames₁.map DecodedFrame.compared = frames₂.map DecodedFrame.compared) :
    SameConsumption frames₁ frames₂ := by
  constructor
  · intro γ av contexts
    have hfirst := Worker.processFrames_compared av contexts frames₁
    have hsecond := Worker.processFrames_compared av contexts frames₂
    rw [h, hsecond, Prod.mk.injEq] at hfirst
    exact ⟨hfirst.1.symm, hfirst.2.symm⟩
  · have hbatches := Publisher.batchingLoop_compared frames₁
    rw [h, Publisher.batchingLoop_compared] at hbatches
    have hcontents := congrArg (List.map Publisher.PackedBatch.toFrameBatch) hbatches
    rw [List.map_map, List.map_map] at hcontents
    exact hcontents.symm

theorem sameEffect_of_beq {g₁ g₂ : GlobalConfig} (h : (g₁ == g₂) = true) : SameEffect g₁ g₂ := by
  have hcompared := GlobalConfig.beq_iff.mp h
  have hlevel : g₁.logLevelStr = g₂.logLevelStr := by
    show g₁.compared.logLevelStr = g₂.compared.logLevelStr
    rw [hcompared]
  have hstreams : g₁.streamConfigs.map StreamConfig.compared =
      g₂.streamConfigs.map StreamConfig.compared := by
    show g₁.compared.streamConfigs = g₂.compared.streamConfigs
    rw [hcompared]
  have hdesired : (StreamIoManager.desiredConfigs g₁.streamConfigs).map
        (fun _ => StreamConfig.compared) =
      (StreamIoManager.desiredConfigs g₂.streamConfigs).map fun _ => StreamConfig.compared := by
    rw [← StreamIoManager.desiredConfigs_compared, ← StreamIoManager.desiredConfigs_compared,
      hstreams]
  constructor
  · intro s
    exact congrArg stringToLoglevel hlevel
  · intro s
    have hstop := s.toStop_compared (StreamIoManager.desiredConfigs g₁.streamConfigs)
    rw [hdesired, StreamIoManager.toStop_compared] at hstop
    exact hstop.symm
  · intro s
    have hstart := s.toStart_compared (StreamIoManager.desiredConfigs g₁.streamConfigs)
    rw [hdesired, StreamIoManager.toStart_compared, ← List.forall₂_eq_eq_eq,
      List.forall₂_map_left_iff, List.forall₂_map_right_iff] at hstart
    exact hstart.flip.imp fun _ _ hsame => sameReader_of_compared hsame.symm
  · intro s
    have hfirst := StreamIoManager.updateStreams_compared s g₁.streamConfigs
    rw [hstreams, StreamIoManager.updateStreams_compared] at hfirst
    exact hfirst.symm

/-- Change detection misses nothing observable: equality is reflexive, symmetric and
transitive, equal configurations have the same effect on a manager in any state, and what
readers started with equal configurations push is consumed alike. -/
theorem changeDetection_complete {g₁ g₂ : GlobalConfig} (h : (g₁ == g₂) = true) :
    Equivalence (fun a b : GlobalConfig => (a == b) = true) ∧ SameEffect g₁ g₂ ∧
      ∀ frames₁ frames₂ : List (DecodedFrame AVFrame),
        frames₁.map DecodedFrame.compared = frames₂.map DecodedFrame.compared →
          SameConsumption frames₁ frames₂ := by
  refine ⟨?_, sameEffect_of_beq h, fun _ _ => sameConsumption_of_compared⟩
  constructor
  · exact GlobalConfig.beq_refl
  · intro a b hab
    exact GlobalConfig.beq_iff.mpr (GlobalConfig.beq_iff.mp hab).symm
  · intro a b c hab hbc
    exact GlobalConfig.beq_iff.mpr
      ((GlobalConfig.beq_iff.mp hab).trans (GlobalConfig.beq_iff.mp hbc))

/-- A configuration with one enabled stream. -/
def oneStreamConfig (targetFps : Double) : GlobalConfig where
  streamConfigs :=
    [{ id := 1, url := "a", targetFps, waitForKeyframe := false, enabled := true,
       events := [{ name := "motion" }] }]

/-- Two configurations that differ in the frame rate of the stream only. -/
theorem changeDetection_targetFps :
    oneStreamConfig 1 ≠ oneStreamConfig 25 ∧
      SameEffect (oneStreamConfig 1) (oneStreamConfig 25) := by
  have hequal : (oneStreamConfig 1 == oneStreamConfig 25) = true := by decide
  exact ⟨by decide, (changeDetection_complete hequal).2.1⟩

end FrameProcessor
