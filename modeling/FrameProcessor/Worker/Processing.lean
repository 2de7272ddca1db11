import FrameProcessor.Utils.AVFrame

/-!
# components/worker - Processing one frame

A worker keeps one filter graph per stream and event, rebuilds it when the settings,
the size or the pixel format changed, feeds the frame to it and takes out what it
yields.  libavfilter is a parameter; graph creation reports one failure for all the
library calls in it that can fail.

Main results:

- Theorem `Worker.processFrame_oneToOne`: with a library that never fails and yields
  one frame per frame, processing a frame produces exactly one output, which carries the
  configuration of its source.
-/

namespace FrameProcessor

/-- What a worker uses of libavfilter and libavutil; `γ` is a configured graph together
with the frames buffered in it. -/
structure Avfilter (γ : Type*) where
  /-- Build a graph from the arguments of its buffer source, the only pixel format its
  buffer sink accepts and the filter chain. -/
  configure : String → Int32 → String → Option γ
  /-- `av_frame_clone`. -/
  cloneFrame : AVFrame → Option AVFrame
  /-- `av_buffersrc_add_frame`, with whether it succeeded. -/
  addFrame : γ → AVFrame → Bool × γ
  /-- `av_buffersink_get_frame_flags`; the flag is `AV_BUFFERSINK_FLAG_NO_REQUEST`. -/
  getFrame : γ → Bool → SinkResult × γ

/-- `StreamProcessingContext`. -/
structure StreamProcessingContext (γ : Type*) where
  graph : γ
  activeConfig : ProcessingConfig
  lastInputWidth : Int32
  lastInputHeight : Int32
  lastInputPixFmt : Int32

namespace Worker

variable {γ : Type*}

/-! ## The filter graph of a frame -/

/-- The arguments of the buffer source. -/
def bufferArgs (inputFrame : AVFrame) : String :=
  s!"width={inputFrame.width}:height={inputFrame.height}:pix_fmt={inputFrame.format}" ++
    s!":time_base={1}/{1000}" ++
    s!":pixel_aspect={inputFrame.sampleAspectRatio.num}/{inputFrame.sampleAspectRatio.den}"

/-- The filter chain: crop, then scale, each only when its size is positive. -/
def filterSpec (procCfg : ProcessingConfig) : String :=
  let crop :=
    if procCfg.crop.width > 0 && procCfg.crop.height > 0 then
      s!"crop={procCfg.crop.width}:{procCfg.crop.height}:{procCfg.crop.x}:{procCfg.crop.y}"
    else ""
  let spec :=
    if procCfg.scale.width > 0 && procCfg.scale.height > 0 then
      (if crop.isEmpty then crop else crop ++ ",") ++
        s!"scale={procCfg.scale.width}:{procCfg.scale.height}"
    else crop
  if spec.isEmpty then "null" else spec

/-- `create_processing_filter`: the sink keeps the pixel format of the input frame. -/
def createProcessingFilter (av : Avfilter γ) (inputFrame : AVFrame)
    (procCfg : ProcessingConfig) : Option γ :=
  av.configure (bufferArgs inputFrame) inputFrame.format (filterSpec procCfg)

/-! ## The cache of filter graphs -/

/-- `stream_contexts`: the graphs of one worker thread by stream and event. -/
abbrev StreamContexts (γ : Type*) := String → Option (StreamProcessingContext γ)

/-- The key of a frame's context. -/
def ctxKey (frame : DecodedFrame AVFrame) : String :=
  s!"{frame.sourceConfig.id}_{frame.eventConfig.name}"

/-- Whether a cached context was made for other parameters. -/
def needsReinit (ctx : StreamProcessingContext γ) (inputFrame : AVFrame)
    (procCfg : ProcessingConfig) : Bool :=
  !(ctx.activeConfig == procCfg && ctx.lastInputWidth == inputFrame.width &&
    ctx.lastInputHeight == inputFrame.height && ctx.lastInputPixFmt == inputFrame.format)

/-- The context to process a frame with; `none` when the graph cannot be created, which
leaves the cache as it was. -/
def acquireContext (av : Avfilter γ) (contexts : StreamContexts γ)
    (frame : DecodedFrame AVFrame) : Option (StreamProcessingContext γ) :=
  let inputFrame := frame.frame
  let procCfg := frame.sourceConfig.processing
  match (contexts (ctxKey frame)).filter fun ctx => !needsReinit ctx inputFrame procCfg with
  | some ctx => some ctx
  | none =>
      (createProcessingFilter av inputFrame procCfg).map fun graph =>
        { graph
          activeConfig := procCfg
          lastInputWidth := inputFrame.width
          lastInputHeight := inputFrame.height
          lastInputPixFmt := inputFrame.format }

/-! ## One iteration of the loop -/

/-- The drain loop with `budget` rounds left; only its first call may request frames
from the graph. -/
def drain (av : Avfilter γ) : (budget : Nat) → (noRequest : Bool) → γ → List AVFrame × γ
  | 0, _, graph => ([], graph)
  | budget + 1, noRequest, graph =>
      match av.getFrame graph noRequest with
      | (.frame procFrame, graph') =>
          let (procFrames, graph'') := drain av budget true graph'
          (procFrame :: procFrames, graph'')
      | (_, graph') => ([], graph')

/-- What one iteration of `worker_loop` makes of a frame: its outputs, in order, and the
contexts afterwards. -/
def processFrame (av : Avfilter γ) (contexts : StreamContexts γ) (frame : DecodedFrame AVFrame) :
    List (DecodedFrame AVFrame) × StreamContexts γ :=
  match acquireContext av contexts frame with
  | none => ([], contexts)
  | some ctx =>
      let store (graph : γ) : StreamContexts γ :=
        Function.update contexts (ctxKey frame) (some { ctx with graph })
      match av.cloneFrame frame.frame with
      | none => ([], store ctx.graph)
      | some frameToProcess =>
          match av.addFrame ctx.graph frameToProcess with
          | (false, graph) => ([], store graph)
          | (true, graph) =>
              let (procFrames, graph') := drain av 5 false graph
              (procFrames.map fun procFrame => { frame with frame := procFrame }, store graph')

/-- A frame made from a source frame carries the source's configuration. -/
def MadeFrom (source output : DecodedFrame AVFrame) : Prop :=
  output = { source with frame := output.frame }

/-- Every output of a frame was made from it. -/
theorem madeFrom_of_mem_processFrame {av : Avfilter γ} {contexts : StreamContexts γ}
    {frame output : DecodedFrame AVFrame} (h : output ∈ (processFrame av contexts frame).1) :
    MadeFrom frame output := by
  unfold processFrame at h
  split at h
  · cases h
  · next ctx hctx =>
    cases hclone : av.cloneFrame frame.frame with
    | none =>
        rw [hclone] at h
        cases h
    | some frameToProcess =>
        rcases hadd : av.addFrame ctx.graph frameToProcess with ⟨added, graph⟩
        simp only [hclone, hadd] at h
        cases added with
        | false => cases h
        | true =>
            rcases List.mem_map.mp h with ⟨procFrame, -, rfl⟩
            rfl

/-! ## Graphs that never fail -/

/-- A library that never fails and whose crop and scale graphs yield one frame per frame.
`Idle` holds of the graphs that have no frame buffered. -/
structure OneToOne (av : Avfilter γ) (Idle : γ → Prop) : Prop where
  configure : ∀ args pixFmt spec, ∃ graph, av.configure args pixFmt spec = some graph ∧ Idle graph
  cloneFrame : ∀ frame, (av.cloneFrame frame).isSome
  addFrame : ∀ graph frame, Idle graph → ∃ fed, av.addFrame graph frame = (true, fed) ∧
    ∃ procFrame taken, av.getFrame fed false = (.frame procFrame, taken) ∧
      ∃ rest, av.getFrame taken true = (.again, rest) ∧ Idle rest

/-- Every cached graph is idle between two frames. -/
def ContextsIdle (Idle : γ → Prop) (contexts : StreamContexts γ) : Prop :=
  ∀ key ctx, contexts key = some ctx → Idle ctx.graph

theorem acquireContext_idle {av : Avfilter γ} {Idle : γ → Prop} (h : OneToOne av Idle)
    {contexts : StreamContexts γ} (hidle : ContextsIdle Idle contexts)
    (frame : DecodedFrame AVFrame) :
    ∃ ctx, acquireContext av contexts frame = some ctx ∧ Idle ctx.graph := by
  simp only [acquireContext]
  split
  · next ctx hcached =>
    exact ⟨ctx, rfl, hidle _ ctx (Option.filter_eq_some_iff.mp hcached).1⟩
  · rcases h.configure (bufferArgs frame.frame) frame.frame.format
      (filterSpec frame.sourceConfig.processing) with ⟨graph, hgraph, hready⟩
    rw [createProcessingFilter, hgraph]
    exact ⟨_, rfl, hready⟩

/-- Processing a frame yields one output for the same stream and event, and leaves every
graph idle. -/
theorem processFrame_oneToOne {av : Avfilter γ} {Idle : γ → Prop} (h : OneToOne av Idle)
    {contexts : StreamContexts γ} (hidle : ContextsIdle Idle contexts)
    (frame : DecodedFrame AVFrame) :
    ∃ procFrame, (processFrame av contexts frame).1 = [{ frame with frame := procFrame }] ∧
      ContextsIdle Idle (processFrame av contexts frame).2 := by
  rcases acquireContext_idle h hidle frame with ⟨ctx, hctx, hready⟩
  rcases Option.isSome_iff_exists.mp (h.cloneFrame frame.frame) with ⟨clone, hclone⟩
  rcases h.addFrame ctx.graph clone hready with
    ⟨fed, hfed, procFrame, taken, hget, rest, hagain, hrest⟩
  have hdrain : drain av 5 false fed = ([procFrame], rest) := by
    simp [drain, hget, hagain]
  unfold processFrame
  simp only [hctx, hclone, hfed, hdrain]
  refine ⟨procFrame, rfl, fun key ctx' hctx' => ?_⟩
  by_cases hkey : key = ctxKey frame
  · subst hkey
    rw [Function.update_self] at hctx'
    cases hctx'
    exact hrest
  · rw [Function.update_of_ne hkey] at hctx'
    exact hidle key ctx' hctx'

/-! ## Pixel formats -/

/-- A library whose buffer sinks deliver the pixel format they are restricted to, which
`sinkFormat` reads off a graph. -/
structure DeliversSinkFormat (av : Avfilter γ) (sinkFormat : γ → Int32) : Prop where
  configure : ∀ args pixFmt spec graph, av.configure args pixFmt spec = some graph →
    sinkFormat graph = pixFmt
  addFrame : ∀ graph frame, sinkFormat (av.addFrame graph frame).2 = sinkFormat graph
  getFrame : ∀ graph noRequest, sinkFormat (av.getFrame graph noRequest).2 = sinkFormat graph
  delivered : ∀ graph noRequest frame, (av.getFrame graph noRequest).1 = .frame frame →
    frame.format = sinkFormat graph

/-- Every cached graph delivers the pixel format it was made for. -/
def ContextsFormat (sinkFormat : γ → Int32) (contexts : StreamContexts γ) : Prop :=
  ∀ key ctx, contexts key = some ctx → sinkFormat ctx.graph = ctx.lastInputPixFmt

/-- Storing a graph of the right format keeps the cache right. -/
theorem ContextsFormat.update {sinkFormat : γ → Int32} {contexts : StreamContexts γ}
    (hcontexts : ContextsFormat sinkFormat contexts) (key : String)
    {ctx : StreamProcessingContext γ} (hctx : sinkFormat ctx.graph = ctx.lastInputPixFmt) :
    ContextsFormat sinkFormat (Function.update contexts key (some ctx)) := by
  intro key' ctx' hctx'
  by_cases hkey : key' = key
  · subst hkey
    rw [Function.update_self] at hctx'
    cases hctx'
    exact hctx
  · rw [Function.update_of_ne hkey] at hctx'
    exact hcontexts key' ctx' hctx'

/-- The context for a frame was made for the frame's pixel format. -/
theorem acquireContext_format {av : Avfilter γ} {sinkFormat : γ → Int32}
    (h : DeliversSinkFormat av sinkFormat) {contexts : StreamContexts γ}
    (hcontexts : ContextsFormat sinkFormat contexts) {frame : DecodedFrame AVFrame}
    {ctx : StreamProcessingContext γ} (hctx : acquireContext av contexts frame = some ctx) :
    sinkFormat ctx.graph = frame.frame.format ∧ ctx.lastInputPixFmt = frame.frame.format := by
  simp only [acquireContext] at hctx
  split at hctx
  · next cached hcached =>
    have heq : cached = ctx := Option.some.inj hctx
    subst heq
    rcases Option.filter_eq_some_iff.mp hcached with ⟨hfound, hvalid⟩
    have hformat : cached.lastInputPixFmt = frame.frame.format := by
      simp only [needsReinit, Bool.not_not, Bool.and_eq_true, beq_iff_eq] at hvalid
      exact hvalid.2
    exact ⟨(hcontexts _ cached hfound).trans hformat, hformat⟩
  · rcases Option.map_eq_some_iff.mp hctx with ⟨graph, hgraph, rfl⟩
    exact ⟨h.configure _ _ _ graph hgraph, rfl⟩

/-- Everything the drain loop takes out of a graph has the graph's format. -/
theorem drain_format {av : Avfilter γ} {sinkFormat : γ → Int32}
    (h : DeliversSinkFormat av sinkFormat) (budget : Nat) (noRequest : Bool) (graph : γ) :
    (∀ procFrame ∈ (drain av budget noRequest graph).1, procFrame.format = sinkFormat graph) ∧
      sinkFormat (drain av budget noRequest graph).2 = sinkFormat graph := by
  induction budget generalizing noRequest graph with
  | zero => exact ⟨List.forall_mem_nil _, rfl⟩
  | succ budget ih =>
      have hgraph := h.getFrame graph noRequest
      have hdelivered := h.delivered graph noRequest
      simp only [drain]
      rcases hget : av.getFrame graph noRequest with ⟨result, graph'⟩
      rw [hget] at hgraph hdelivered
      rcases ih true graph' with ⟨hrest, hend⟩
      cases result with
      | frame procFrame =>
          refine ⟨fun frame hframe => ?_, hend.trans hgraph⟩
          rcases List.mem_cons.mp hframe with rfl | hframe
          · exact hdelivered frame rfl
          · exact (hrest frame hframe).trans hgraph
      | again | endOfFile | error => exact ⟨List.forall_mem_nil _, hgraph⟩

/-- The outputs for a frame have the pixel format of the frame. -/
theorem processFrame_format {av : Avfilter γ} {sinkFormat : γ → Int32}
    (h : DeliversSinkFormat av sinkFormat) {contexts : StreamContexts γ}
    (hcontexts : ContextsFormat sinkFormat contexts) (frame : DecodedFrame AVFrame) :
    (∀ out ∈ (processFrame av contexts frame).1, out.frame.format = frame.frame.format) ∧
      ContextsFormat sinkFormat (processFrame av contexts frame).2 := by
  unfold processFrame
  split
  · exact ⟨List.forall_mem_nil _, hcontexts⟩
  · next ctx hctx =>
    rcases acquireContext_format h hcontexts hctx with ⟨hgraph, hlast⟩
    have hstore : ∀ graph, sinkFormat graph = sinkFormat ctx.graph →
        ContextsFormat sinkFormat
          (Function.update contexts (ctxKey frame) (some { ctx with graph })) :=
      fun graph hsame => hcontexts.update _ (hsame.trans (hgraph.trans hlast.symm))
    cases av.cloneFrame frame.frame with
    | none => exact ⟨List.forall_mem_nil _, hstore _ rfl⟩
    | some frameToProcess =>
        have hfed := h.addFrame ctx.graph frameToProcess
        rcases hadd : av.addFrame ctx.graph frameToProcess with ⟨added, graph⟩
        rw [hadd] at hfed
        simp only [hadd]
        cases added with
        | false => exact ⟨List.forall_mem_nil _, hstore _ hfed⟩
        | true =>
            rcases drain_format h 5 false graph with ⟨hformat, hend⟩
            refine ⟨fun out hout => ?_, hstore _ (hend.trans hfed)⟩
            rcases List.mem_map.mp hout with ⟨procFrame, hprocFrame, rfl⟩
            exact (hformat procFrame hprocFrame).trans (hfed.trans hgraph)

/-- The contexts of a worker thread that has handled some frames. -/
def contextsAfter (av : Avfilter γ) (frames : List (DecodedFrame AVFrame)) : StreamContexts γ :=
  frames.foldl (fun contexts frame => (processFrame av contexts frame).2) fun _ => none

theorem contextsAfter_format {av : Avfilter γ} {sinkFormat : γ → Int32}
    (h : DeliversSinkFormat av sinkFormat) (frames : List (DecodedFrame AVFrame)) :
    ContextsFormat sinkFormat (contextsAfter av frames) := by
  unfold contextsAfter
  induction frames using List.reverseRecOn with
  | nil => exact nofun
  | append_singleton frames frame ih =>
      rw [List.foldl_concat]
      exact (processFrame_format h ih frame).2

end Worker

end FrameProcessor
