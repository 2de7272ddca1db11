import FrameProcessor.Foundations.Decimals
import FrameProcessor.Foundations.Histories
import FrameProcessor.Worker.Processing

/-!
# components/worker - Reusing filter graphs

A worker reuses the graph of a stream and event while the settings, the size and the
pixel format stay the same.  The arguments of the buffer source also contain the sample
aspect ratio, which the reuse test does not look at; the time base in them is constant.

Every graph here carries a record of what it was built with.  The record is read by
nobody: the worker behaves as without it.

Main results:

- Theorem `Worker.processFrame_recording`: the records change nothing.
- Theorem `Worker.cacheTransparent_iff`: reuse agrees with rebuilding exactly when no reused
  graph was built for another sample aspect ratio.
-/

namespace FrameProcessor

namespace Worker

variable {γ : Type*}

attribute [ext] AVRational

/-! ## The arguments of a graph -/

/-- The arguments of frames that differ in nothing but the sample aspect ratio tell the two
ratios apart. -/
theorem bufferArgs_eq_iff {a b : AVFrame} (hwidth : a.width = b.width)
    (hheight : a.height = b.height) (hformat : a.format = b.format) :
    bufferArgs a = bufferArgs b ↔ a.sampleAspectRatio = b.sampleAspectRatio := by
  constructor
  · intro h
    have htext : ∀ z : Int32, (toString z).toList = z.toInt.repr.toList := fun _ => rfl
    have hslash : (toString "/").toList = ['/'] := rfl
    have hratio : a.sampleAspectRatio.num.toInt.repr.toList ++
          '/' :: a.sampleAspectRatio.den.toInt.repr.toList =
        b.sampleAspectRatio.num.toInt.repr.toList ++
          '/' :: b.sampleAspectRatio.den.toInt.repr.toList := by
      have hlist := congrArg String.toList h
      simpa [bufferArgs, hwidth, hheight, hformat, hslash, htext] using hlist
    rcases (Decimals.repr_append_inj (by decide) (by decide)).mp hratio with ⟨hnum, hden⟩
    ext
    · exact Int32.toInt_inj.mp hnum
    · exact Int32.toInt_inj.mp (Int.repr_injective (String.toList_inj.mp hden))
  · intro h
    rw [bufferArgs, bufferArgs, hwidth, hheight, hformat, h]

/-! ## Graphs that remember what they were built with -/

/-- What a graph was built with, and the sample aspect ratio of the frame it was built for. -/
structure GraphRecord where
  args : String
  pixFmt : Int32
  spec : String
  sampleAspectRatio : AVRational

/-- libavfilter while a frame is handled, with a record on every graph. -/
def recording (inputFrame : AVFrame) (av : Avfilter γ) : Avfilter (GraphRecord × γ) where
  configure args pixFmt spec :=
    (av.configure args pixFmt spec).map fun graph =>
      ({ args, pixFmt, spec, sampleAspectRatio := inputFrame.sampleAspectRatio }, graph)
  cloneFrame := av.cloneFrame
  addFrame graph frame :=
    let (added, graph') := av.addFrame graph.2 frame
    (added, (graph.1, graph'))
  getFrame graph noRequest :=
    let (result, graph') := av.getFrame graph.2 noRequest
    (result, (graph.1, graph'))

/-- A context without its record. -/
def eraseRecord (ctx : StreamProcessingContext (GraphRecord × γ)) : StreamProcessingContext γ where
  graph := ctx.graph.2
  activeConfig := ctx.activeConfig
  lastInputWidth := ctx.lastInputWidth
  lastInputHeight := ctx.lastInputHeight
  lastInputPixFmt := ctx.lastInputPixFmt

/-- The contexts without their records. -/
def eraseRecords (contexts : StreamContexts (GraphRecord × γ)) : StreamContexts γ :=
  fun key => (contexts key).map eraseRecord

theorem eraseRecords_update (contexts : StreamContexts (GraphRecord × γ)) (key : String)
    (ctx : StreamProcessingContext (GraphRecord × γ)) :
    eraseRecords (Function.update contexts key (some ctx)) =
      Function.update (eraseRecords contexts) key (some (eraseRecord ctx)) := by
  funext key'
  by_cases hkey : key' = key
  · subst hkey
    simp [eraseRecords]
  · simp [eraseRecords, Function.update_of_ne hkey]

/-- The reuse test does not see the record. -/
theorem needsReinit_eraseRecord (ctx : StreamProcessingContext (GraphRecord × γ))
    (inputFrame : AVFrame) (procCfg : ProcessingConfig) :
    needsReinit (eraseRecord ctx) inputFrame procCfg = needsReinit ctx inputFrame procCfg :=
  rfl

theorem acquireContext_recording (av : Avfilter γ)
    (contexts : StreamContexts (GraphRecord × γ)) (frame : DecodedFrame AVFrame) :
    (acquireContext (recording frame.frame av) contexts frame).map eraseRecord =
      acquireContext av (eraseRecords contexts) frame := by
  have hfilter : (eraseRecords contexts (ctxKey frame)).filter (fun ctx =>
        !needsReinit ctx frame.frame frame.sourceConfig.processing) =
      ((contexts (ctxKey frame)).filter fun ctx =>
        !needsReinit ctx frame.frame frame.sourceConfig.processing).map eraseRecord := by
    cases hcached : contexts (ctxKey frame) with
    | none => simp [eraseRecords, hcached]
    | some ctx =>
        have herased : eraseRecords contexts (ctxKey frame) = some (eraseRecord ctx) := by
          simp [eraseRecords, hcached]
        rw [herased, Option.filter_some, Option.filter_some, needsReinit_eraseRecord]
        split <;> rfl
  simp only [acquireContext]
  rw [hfilter]
  cases hcached : (contexts (ctxKey frame)).filter fun ctx =>
      !needsReinit ctx frame.frame frame.sourceConfig.processing with
  | some ctx => rfl
  | none =>
      simp only [Option.map_none, createProcessingFilter, recording, Option.map_map]
      rfl

theorem drain_recording (inputFrame : AVFrame) (av : Avfilter γ) (budget : Nat)
    (noRequest : Bool) (graph : GraphRecord × γ) :
    drain (recording inputFrame av) budget noRequest graph =
      ((drain av budget noRequest graph.2).1, graph.1,
        (drain av budget noRequest graph.2).2) := by
  induction budget generalizing noRequest graph with
  | zero => rfl
  | succ budget ih =>
      rcases hget : av.getFrame graph.2 noRequest with ⟨result, graph'⟩
      have hrecorded : (recording inputFrame av).getFrame graph noRequest =
          (result, (graph.1, graph')) := by
        simp [recording, hget]
      cases result with
      | frame procFrame => simp [drain, hget, hrecorded, ih]
      | again | endOfFile | error => simp [drain, hget, hrecorded]

/-- The worker behaves the same with and without the records. -/
theorem processFrame_recording (av : Avfilter γ) (contexts : StreamContexts (GraphRecord × γ))
    (frame : DecodedFrame AVFrame) :
    (processFrame (recording frame.frame av) contexts frame).1 =
        (processFrame av (eraseRecords contexts) frame).1 ∧
      eraseRecords (processFrame (recording frame.frame av) contexts frame).2 =
        (processFrame av (eraseRecords contexts) frame).2 := by
  have hacquire := acquireContext_recording av contexts frame
  unfold processFrame
  cases hctx : acquireContext (recording frame.frame av) contexts frame with
  | none =>
      rw [hctx, Option.map_none] at hacquire
      simp [← hacquire]
  | some ctx =>
      rw [hctx, Option.map_some] at hacquire
      simp only [← hacquire]
      have hclone : (recording frame.frame av).cloneFrame = av.cloneFrame := rfl
      rw [hclone]
      cases av.cloneFrame frame.frame with
      | none => exact ⟨rfl, eraseRecords_update _ _ _⟩
      | some frameToProcess =>
          rcases hadd : av.addFrame ctx.graph.2 frameToProcess with ⟨added, graph⟩
          have hrecorded : (recording frame.frame av).addFrame ctx.graph frameToProcess =
              (added, (ctx.graph.1, graph)) := by
            simp [recording, hadd]
          have hadd' : av.addFrame (eraseRecord ctx).graph frameToProcess = (added, graph) := hadd
          simp only [hrecorded, hadd']
          cases added with
          | false => exact ⟨rfl, eraseRecords_update _ _ _⟩
          | true =>
              have hdrain := drain_recording frame.frame av 5 false (ctx.graph.1, graph)
              simp only [hdrain]
              exact ⟨trivial, eraseRecords_update _ _ _⟩

/-! ## The cache after some frames -/

/-- One iteration of the loop: the frame and what the library does while it is handled. -/
structure Iteration (γ : Type*) where
  av : Avfilter γ
  frame : DecodedFrame AVFrame

/-- The library of an iteration, with records. -/
def Iteration.library (iteration : Iteration γ) : Avfilter (GraphRecord × γ) :=
  recording iteration.frame.frame iteration.av

/-- The contexts of a worker thread after some iterations. -/
def contextsThrough (iterations : List (Iteration γ)) : StreamContexts (GraphRecord × γ) :=
  iterations.foldl
    (fun contexts iteration => (processFrame iteration.library contexts iteration.frame).2)
    fun _ => none

/-- The record is that of a graph built for the frame with these settings. -/
def GraphRecord.BuiltFor (record : GraphRecord) (inputFrame : AVFrame)
    (procCfg : ProcessingConfig) : Prop :=
  record.args = bufferArgs inputFrame ∧ record.pixFmt = inputFrame.format ∧
    record.spec = filterSpec procCfg

/-- The context was made for a frame of its own size, format and settings. -/
def ContextRecorded (ctx : StreamProcessingContext (GraphRecord × γ)) : Prop :=
  ∃ inputFrame : AVFrame, inputFrame.width = ctx.lastInputWidth ∧
    inputFrame.height = ctx.lastInputHeight ∧ inputFrame.format = ctx.lastInputPixFmt ∧
    inputFrame.sampleAspectRatio = ctx.graph.1.sampleAspectRatio ∧
    ctx.graph.1.BuiltFor inputFrame ctx.activeConfig

/-- Every cached context was. -/
def ContextsRecorded (contexts : StreamContexts (GraphRecord × γ)) : Prop :=
  ∀ key ctx, contexts key = some ctx → ContextRecorded ctx

/-- A context that is reused is the cached one and passes the reuse test; any other was built
for the frame. -/
theorem acquireContext_cases {av : Avfilter γ} {contexts : StreamContexts (GraphRecord × γ)}
    {frame : DecodedFrame AVFrame} {ctx : StreamProcessingContext (GraphRecord × γ)}
    (h : acquireContext (recording frame.frame av) contexts frame = some ctx) :
    (contexts (ctxKey frame) = some ctx ∧
        needsReinit ctx frame.frame frame.sourceConfig.processing = false) ∨
      ((∀ cached, contexts (ctxKey frame) = some cached →
          needsReinit cached frame.frame frame.sourceConfig.processing = true) ∧
        ctx.graph.1.BuiltFor frame.frame frame.sourceConfig.processing ∧ ContextRecorded ctx) := by
  simp only [acquireContext] at h
  split at h
  · next cached hcached =>
    cases h
    rcases Option.filter_eq_some_iff.mp hcached with ⟨hfound, hvalid⟩
    exact Or.inl ⟨hfound, by simpa using hvalid⟩
  · next hnone =>
    right
    constructor
    · intro cached hcached
      rw [hcached] at hnone
      simpa using hnone
    · rcases Option.map_eq_some_iff.mp h with ⟨graph, hgraph, rfl⟩
      rcases Option.map_eq_some_iff.mp hgraph with ⟨built, -, rfl⟩
      exact ⟨⟨rfl, rfl, rfl⟩, frame.frame, rfl, rfl, rfl, rfl, rfl, rfl, rfl⟩

/-- What an iteration does to the cache: nothing, or it stores the context it used with the
same record. -/
theorem processFrame_contexts (av : Avfilter γ) (contexts : StreamContexts (GraphRecord × γ))
    (frame : DecodedFrame AVFrame) :
    (acquireContext (recording frame.frame av) contexts frame = none ∧
        (processFrame (recording frame.frame av) contexts frame).2 = contexts) ∨
      ∃ ctx graph, acquireContext (recording frame.frame av) contexts frame = some ctx ∧
        (processFrame (recording frame.frame av) contexts frame).2 =
          Function.update contexts (ctxKey frame)
            (some { ctx with graph := (ctx.graph.1, graph) }) := by
  unfold processFrame
  cases hctx : acquireContext (recording frame.frame av) contexts frame with
  | none => exact Or.inl ⟨rfl, rfl⟩
  | some ctx =>
      right
      cases hclone : (recording frame.frame av).cloneFrame frame.frame with
      | none => exact ⟨ctx, ctx.graph.2, rfl, rfl⟩
      | some frameToProcess =>
          rcases hadd : av.addFrame ctx.graph.2 frameToProcess with ⟨added, graph⟩
          have hrecorded : (recording frame.frame av).addFrame ctx.graph frameToProcess =
              (added, (ctx.graph.1, graph)) := by
            simp [recording, hadd]
          simp only [hrecorded]
          cases added with
          | false => exact ⟨ctx, graph, rfl, rfl⟩
          | true =>
              have hdrain := drain_recording frame.frame av 5 false (ctx.graph.1, graph)
              simp only [hdrain]
              exact ⟨ctx, _, rfl, rfl⟩

theorem ContextsRecorded.processFrame {av : Avfilter γ}
    {contexts : StreamContexts (GraphRecord × γ)} (h : ContextsRecorded contexts)
    (frame : DecodedFrame AVFrame) :
    ContextsRecorded (processFrame (recording frame.frame av) contexts frame).2 := by
  rcases processFrame_contexts av contexts frame with
    ⟨-, hsame⟩ | ⟨ctx, graph, hctx, hstored⟩
  · rw [hsame]
    exact h
  · have hrecorded : ContextRecorded ctx := by
      rcases acquireContext_cases hctx with ⟨hcached, -⟩ | ⟨-, -, hbuilt⟩
      · exact h _ ctx hcached
      · exact hbuilt
    rw [hstored]
    intro key stored hkey
    by_cases hown : key = ctxKey frame
    · subst hown
      rw [Function.update_self] at hkey
      cases hkey
      exact hrecorded
    · rw [Function.update_of_ne hown] at hkey
      exact h key stored hkey

theorem contextsThrough_recorded (iterations : List (Iteration γ)) :
    ContextsRecorded (contextsThrough iterations) := by
  induction iterations using List.reverseRecOn with
  | nil => exact nofun
  | append_singleton iterations iteration ih =>
      rw [contextsThrough, List.foldl_concat]
      exact ih.processFrame iteration.frame

/-! ## Transparency -/

/-- In one iteration: a frame that is fed goes to a graph built with its own arguments, and a
graph that cannot be built leaves the cache as it was. -/
structure TransparentIn (contexts : StreamContexts (GraphRecord × γ))
    (iteration : Iteration γ) : Prop where
  fed : ∀ ctx, acquireContext iteration.library contexts iteration.frame = some ctx →
    (iteration.av.cloneFrame iteration.frame.frame).isSome = true →
    ctx.graph.1.BuiltFor iteration.frame.frame iteration.frame.sourceConfig.processing
  failed : acquireContext iteration.library contexts iteration.frame = none →
    (processFrame iteration.library contexts iteration.frame).2 = contexts

/-- In one iteration: a cached context that a frame is fed to without a rebuild was built for
the frame's sample aspect ratio. -/
def SameAspect (contexts : StreamContexts (GraphRecord × γ)) (iteration : Iteration γ) : Prop :=
  (iteration.av.cloneFrame iteration.frame.frame).isSome = true →
    ∀ cached, contexts (ctxKey iteration.frame) = some cached →
      needsReinit cached iteration.frame.frame iteration.frame.sourceConfig.processing = false →
      cached.graph.1.sampleAspectRatio = iteration.frame.frame.sampleAspectRatio

/-- What passes the reuse test was built with the frame's arguments exactly when the sample
aspect ratio is the same as well. -/
theorem builtFor_iff {ctx : StreamProcessingContext (GraphRecord × γ)} {inputFrame : AVFrame}
    {procCfg : ProcessingConfig} (hctx : ContextRecorded ctx)
    (hreuse : needsReinit ctx inputFrame procCfg = false) :
    ctx.graph.1.BuiltFor inputFrame procCfg ↔
      ctx.graph.1.sampleAspectRatio = inputFrame.sampleAspectRatio := by
  rcases hctx with ⟨origin, hwidth, hheight, hformat, haspect, hargs, hpixFmt, hspec⟩
  simp only [needsReinit, Bool.not_eq_false', Bool.and_eq_true, beq_iff_eq] at hreuse
  rcases hreuse with ⟨⟨⟨hconfig, hsameWidth⟩, hsameHeight⟩, hsameFormat⟩
  rw [GraphRecord.BuiltFor, hargs, hpixFmt, hspec, hconfig, ← haspect,
    bufferArgs_eq_iff (hwidth.trans hsameWidth) (hheight.trans hsameHeight)
      (hformat.trans hsameFormat)]
  constructor
  · exact fun h => h.1
  · exact fun h => ⟨h, hformat.trans hsameFormat, rfl⟩

theorem transparentIn_iff {contexts : StreamContexts (GraphRecord × γ)}
    (hcontexts : ContextsRecorded contexts) (iteration : Iteration γ) :
    TransparentIn contexts iteration ↔ SameAspect contexts iteration := by
  constructor
  · intro h hclone cached hcached hreuse
    have hvalid : (some cached).filter (fun ctx => !needsReinit ctx iteration.frame.frame
        iteration.frame.sourceConfig.processing) = some cached := by
      rw [Option.filter_some, hreuse]
      rfl
    have hacquire : acquireContext iteration.library contexts iteration.frame = some cached := by
      simp only [acquireContext, hcached, hvalid]
    exact (builtFor_iff (hcontexts _ cached hcached) hreuse).mp (h.fed cached hacquire hclone)
  · intro h
    constructor
    · intro ctx hctx hclone
      rcases acquireContext_cases hctx with ⟨hcached, hreuse⟩ | ⟨-, hbuilt, -⟩
      · exact (builtFor_iff (hcontexts _ ctx hcached) hreuse).mpr (h hclone ctx hcached hreuse)
      · exact hbuilt
    · intro hfailed
      rcases processFrame_contexts iteration.av contexts iteration.frame with
        ⟨-, hsame⟩ | ⟨ctx, graph, hctx, -⟩
      · exact hsame
      · rw [Iteration.library, hctx] at hfailed
        cases hfailed

/-- For every sequence of iterations, with any failures of the library in each: the cache is
transparent in all of them exactly when no frame is fed to a cached graph that was built for
another sample aspect ratio. -/
theorem cacheTransparent_iff (iterations : List (Iteration γ)) :
    Lawful (fun before iteration => TransparentIn (contextsThrough before) iteration)
        iterations ↔
      Lawful (fun before iteration => SameAspect (contextsThrough before) iteration)
        iterations := by
  have hsame : (fun before iteration => TransparentIn (contextsThrough before) iteration) =
      fun (before : List (Iteration γ)) iteration =>
        SameAspect (contextsThrough before) iteration := by
    funext before iteration
    exact propext (transparentIn_iff (contextsThrough_recorded before) iteration)
  rw [hsame]

/-- A library that builds every graph and buffers nothing. -/
def nullLibrary : Avfilter Unit where
  configure _ _ _ := some ()
  cloneFrame := some
  addFrame graph _ := (true, graph)
  getFrame graph _ := (.again, graph)

/-- The black picture with another sample aspect ratio. -/
def wideFrame : DecodedFrame AVFrame :=
  let black := blackFrame 2 2 2
  { black with frame := { black.frame with sampleAspectRatio := ⟨4, 3⟩ } }

/-- A stream that changes its sample aspect ratio only: its second frame is fed to the graph
of the first. -/
theorem cacheTransparent_aspect :
    ¬ ∀ iterations : List (Iteration Unit),
      Lawful (fun before iteration => TransparentIn (contextsThrough before) iteration)
        iterations := by
  intro hall
  have hsecond := hall [⟨nullLibrary, blackFrame 2 2 2⟩, ⟨nullLibrary, wideFrame⟩]
    [⟨nullLibrary, blackFrame 2 2 2⟩] ⟨nullLibrary, wideFrame⟩ [] rfl
  have haspect := (transparentIn_iff (contextsThrough_recorded _) _).mp hsecond rfl
  have hfirst : (contextsThrough [⟨nullLibrary, blackFrame 2 2 2⟩] (ctxKey wideFrame)).map
      (fun ctx => (ctx.graph.1.sampleAspectRatio,
        needsReinit ctx wideFrame.frame wideFrame.sourceConfig.processing)) =
      some (⟨1, 1⟩, false) := by
    decide
  rcases Option.map_eq_some_iff.mp hfirst with ⟨cached, hcached, hpair⟩
  rw [Prod.mk.injEq] at hpair
  have hsame := haspect cached hcached hpair.2
  rw [hpair.1] at hsame
  revert hsame
  decide

end Worker

end FrameProcessor
