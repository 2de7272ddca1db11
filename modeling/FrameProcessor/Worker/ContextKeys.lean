import FrameProcessor.Foundations.Decimals
import FrameProcessor.Worker.CacheTransparency

/-!
# components/worker - The keys of the cached filter graphs

A worker finds the context of a frame under the decimal id of its stream, an underscore and
the name of its event.  Names are arbitrary: they may be empty, begin with digits or
contain underscores.  The id contains no underscore, so the first one ends it.

Main results:

- Theorem `Worker.ctxKey_eq_iff`: two frames have one key if and only if they have one
  stream id and one event name.
- Theorem `Worker.cachedAfter_separate`: what a worker has cached for a stream and an
  event after any frames is what the frames of that stream and event alone leave.
-/

namespace FrameProcessor

namespace Worker

variable {γ : Type*}

/-! ## Stream and event of a key -/

/-- The frames are of the same stream id and event name. -/
def SamePair (a b : DecodedFrame AVFrame) : Prop :=
  a.sourceConfig.id = b.sourceConfig.id ∧ a.eventConfig.name = b.eventConfig.name

instance (a b : DecodedFrame AVFrame) : Decidable (SamePair a b) :=
  inferInstanceAs (Decidable (_ = _ ∧ _ = _))

/-- The characters of a key: the id, the underscore, the name. -/
theorem toList_ctxKey (frame : DecodedFrame AVFrame) :
    (ctxKey frame).toList =
      frame.sourceConfig.id.toInt.repr.toList ++ '_' :: frame.eventConfig.name.toList := by
  have hid : (toString frame.sourceConfig.id).toList =
      frame.sourceConfig.id.toInt.repr.toList := rfl
  have hunderscore : (toString "_").toList = ['_'] := rfl
  have hname : (toString frame.eventConfig.name).toList = frame.eventConfig.name.toList := rfl
  simp [ctxKey, hid, hunderscore, hname]

/-- A key determines the stream id and the event name. -/
theorem ctxKey_eq_iff (a b : DecodedFrame AVFrame) : ctxKey a = ctxKey b ↔ SamePair a b := by
  rw [← String.toList_inj, toList_ctxKey, toList_ctxKey,
    Decimals.repr_append_inj (by decide) (by decide), Int64.toInt_inj, String.toList_inj]
  rfl

/-! ## What a frame reads and writes -/

/-- A frame reads no context but its own. -/
theorem acquireContext_congr (av : Avfilter γ) {contexts contexts' : StreamContexts γ}
    {frame : DecodedFrame AVFrame} (h : contexts (ctxKey frame) = contexts' (ctxKey frame)) :
    acquireContext av contexts frame = acquireContext av contexts' frame := by
  unfold acquireContext
  rw [h]

/-- The graph of a context after a frame was offered to it. -/
def graphAfter (av : Avfilter γ) (graph : γ) (inputFrame : AVFrame) : γ :=
  match av.cloneFrame inputFrame with
  | none => graph
  | some frameToProcess =>
      match av.addFrame graph frameToProcess with
      | (false, graph) => graph
      | (true, graph) => (drain av 5 false graph).2

/-- The cache after a frame: the context it used is stored under its key. -/
theorem processFrame_stores (av : Avfilter γ) (contexts : StreamContexts γ)
    (frame : DecodedFrame AVFrame) :
    (processFrame av contexts frame).2 =
      match acquireContext av contexts frame with
      | none => contexts
      | some ctx => Function.update contexts (ctxKey frame)
          (some { ctx with graph := graphAfter av ctx.graph frame.frame }) := by
  unfold processFrame graphAfter
  cases acquireContext av contexts frame with
  | none => rfl
  | some ctx =>
      cases av.cloneFrame frame.frame with
      | none => rfl
      | some frameToProcess =>
          rcases hadd : av.addFrame ctx.graph frameToProcess with ⟨added, graph⟩
          cases added with
          | false => simp only [hadd]
          | true => simp only [hadd]

/-- A frame leaves every context but its own as it was. -/
theorem processFrame_contexts_of_ne (av : Avfilter γ) (contexts : StreamContexts γ)
    {frame : DecodedFrame AVFrame} {key : String} (hkey : key ≠ ctxKey frame) :
    (processFrame av contexts frame).2 key = contexts key := by
  rw [processFrame_stores]
  cases acquireContext av contexts frame with
  | none => rfl
  | some ctx => exact Function.update_of_ne hkey _ _

/-- What a frame leaves as its own context depends on that context only. -/
theorem processFrame_contexts_congr (av : Avfilter γ) {contexts contexts' : StreamContexts γ}
    {frame : DecodedFrame AVFrame} (h : contexts (ctxKey frame) = contexts' (ctxKey frame)) :
    (processFrame av contexts frame).2 (ctxKey frame) =
      (processFrame av contexts' frame).2 (ctxKey frame) := by
  rw [processFrame_stores, processFrame_stores, acquireContext_congr av h]
  cases acquireContext av contexts' frame with
  | none => exact h
  | some ctx =>
      dsimp only
      rw [Function.update_self, Function.update_self]

/-! ## The cache after some frames -/

/-- `stream_contexts` of a worker thread after some iterations. -/
def cachedAfter (iterations : List (Iteration γ)) : StreamContexts γ :=
  iterations.foldl
    (fun contexts iteration => (processFrame iteration.av contexts iteration.frame).2)
    fun _ => none

theorem cachedAfter_concat (iterations : List (Iteration γ)) (iteration : Iteration γ) :
    cachedAfter (iterations ++ [iteration]) =
      (processFrame iteration.av (cachedAfter iterations) iteration.frame).2 :=
  List.foldl_concat ..

/-- The iterations over frames of one stream and event. -/
def iterationsOf (frame : DecodedFrame AVFrame) (iterations : List (Iteration γ)) :
    List (Iteration γ) :=
  iterations.filter fun iteration => SamePair frame iteration.frame

theorem iterationsOf_concat (frame : DecodedFrame AVFrame) (iterations : List (Iteration γ))
    (iteration : Iteration γ) :
    iterationsOf frame (iterations ++ [iteration]) =
      iterationsOf frame iterations ++
        if SamePair frame iteration.frame then [iteration] else [] := by
  unfold iterationsOf
  rw [List.filter_append]
  by_cases hpair : SamePair frame iteration.frame
  · simp [hpair]
  · simp [hpair]

/-- The context of a stream and event is what its own frames leave. -/
theorem cachedAfter_iterationsOf (iterations : List (Iteration γ))
    (frame : DecodedFrame AVFrame) :
    cachedAfter (iterationsOf frame iterations) (ctxKey frame) =
      cachedAfter iterations (ctxKey frame) := by
  induction iterations using List.reverseRecOn with
  | nil => rfl
  | append_singleton iterations iteration ih =>
      rw [iterationsOf_concat, cachedAfter_concat]
      by_cases hpair : SamePair frame iteration.frame
      · have hkey := (ctxKey_eq_iff frame iteration.frame).mpr hpair
        rw [if_pos hpair, cachedAfter_concat, hkey]
        rw [hkey] at ih
        exact processFrame_contexts_congr iteration.av ih
      · have hkey : ctxKey frame ≠ ctxKey iteration.frame := by
          intro heq
          exact hpair ((ctxKey_eq_iff frame iteration.frame).mp heq)
        rw [if_neg hpair, List.append_nil, processFrame_contexts_of_ne iteration.av _ hkey]
        exact ih

/-- Keys agree only for one stream id and one event name, so whatever frames a worker has
handled, the context of a stream and event is what its own frames alone leave. -/
theorem cachedAfter_separate :
    (∀ a b : DecodedFrame AVFrame, ctxKey a = ctxKey b ↔
      a.sourceConfig.id = b.sourceConfig.id ∧ a.eventConfig.name = b.eventConfig.name) ∧
    ∀ (iterations : List (Iteration γ)) (frame : DecodedFrame AVFrame),
      cachedAfter iterations (ctxKey frame) =
        cachedAfter (iterationsOf frame iterations) (ctxKey frame) := by
  constructor
  · exact ctxKey_eq_iff
  · intro iterations frame
    exact (cachedAfter_iterationsOf iterations frame).symm

end Worker

end FrameProcessor
