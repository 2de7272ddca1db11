import Mathlib.Data.Rat.Floor
import FrameProcessor.Utils.AVFrame

/-!
# components/stream_io - The reader's filter graph

One graph per connection splits the decoded frames, keeps every n-th of them for each
event and hands them out at one buffer sink per event.  Every sink accepts a single
pixel format: that of the codec parameters, or YUV420P when they name none.  libavfilter
and the conversion of a quotient of rates to `int` are parameters; graph creation reports
one failure for all the library calls in it that can fail.

Main results:

- Theorem `StreamIoManager.connection_format`: when buffer sinks deliver the pixel format
  they are restricted to, every frame pushed during a connection has the preferred one.
-/

namespace FrameProcessor

/-- What is read of `AVCodecParameters`. -/
structure AVCodecParameters where
  width : Int32
  height : Int32
  /-- The `AVPixelFormat`, or `AV_PIX_FMT_NONE` when unknown. -/
  format : Int32
  sampleAspectRatio : AVRational

/-- What is read of `AVStream`. -/
structure AVStream where
  codecpar : AVCodecParameters
  timeBase : AVRational
  avgFrameRate : AVRational
  rFrameRate : AVRational

/-- `AV_PIX_FMT_NONE`. -/
def avPixFmtNone : Int32 := -1

/-- `AV_PIX_FMT_YUV420P`. -/
def avPixFmtYuv420p : Int32 := 0

/-- What a reader uses of libavfilter; `γ` is a configured graph together with the frames
buffered in it. -/
structure MultiOutputAvfilter (γ : Type*) where
  /-- Build a graph from the arguments of its buffer source, the only pixel format that
  each of its buffer sinks accepts and the filter chain. -/
  configure : String → List Int32 → String → Option γ
  /-- `av_buffersrc_add_frame_flags`, with whether it succeeded. -/
  addFrame : γ → AVFrame → Bool × γ
  /-- `av_buffersink_get_frame` at the sink of a number. -/
  getFrame : γ → Nat → SinkResult × γ

/-- `static_cast<int>` of a `double`, undefined when what is left without the fraction is
no `int`. -/
def Double.toInt32? (x : Double) : Option Int32 :=
  let truncated := x.num.tdiv x.den
  if -2 ^ 31 ≤ truncated ∧ truncated < 2 ^ 31 then some (Int32.ofInt truncated) else none

/-- `static_cast<int>(source_fps / target)`.  The machine rounds both rates and their quotient,
and any value may come out where the quotient is no `int`. -/
abbrev RateQuotient := Double → Double → Int32

/-- The exact quotient without its fraction, or 0 where that is no `int`. -/
def exactQuotient : RateQuotient := fun fps target =>
  (fps / target).toInt32?.getD 0

namespace StreamIoManager

variable {γ : Type*}

/-! ## Setting up the graph -/

/-- The arguments of the buffer source; the pixel format is left out when unknown. -/
def bufferArgs (videoStream : AVStream) : String :=
  let codecpar := videoStream.codecpar
  s!"width={codecpar.width}:height={codecpar.height}:" ++
    (if codecpar.format != avPixFmtNone then s!"pix_fmt={codecpar.format}:" else "") ++
    s!"time_base={videoStream.timeBase.num}/{videoStream.timeBase.den}:" ++
    s!"pixel_aspect={codecpar.sampleAspectRatio.num}/{codecpar.sampleAspectRatio.den}"

/-- `av_q2d`. -/
def avQ2d (q : AVRational) : Double :=
  q.num.toInt / q.den.toInt

/-- `source_fps`: the average frame rate, else the real base rate, else 1. -/
def sourceFps (videoStream : AVStream) : Double :=
  if videoStream.avgFrameRate.den > 0 && videoStream.avgFrameRate.num > 0 then
    avQ2d videoStream.avgFrameRate
  else if videoStream.rFrameRate.den > 0 && videoStream.rFrameRate.num > 0 then
    avQ2d videoStream.rFrameRate
  else 1

/-- `target`: the rate of the event, or 1 when it is not positive. -/
def targetRate (event : EventConfig) : Double :=
  if event.targetFps ≤ 0 then 1 else event.targetFps

/-- `interval`, at least 1. -/
def selectInterval (quotient : RateQuotient) (fps : Double) (event : EventConfig) : Int32 :=
  let interval := quotient fps (targetRate event)
  if interval < 1 then 1 else interval

/-- The filter chain: split once, then select every n-th frame per event. -/
def multiOutputFilterSpec (quotient : RateQuotient) (videoStream : AVStream)
    (events : List EventConfig) : String :=
  let fps := sourceFps videoStream
  let split := (List.range events.length).foldl (fun spec i => spec ++ "[s" ++ toString i ++ "]")
    ("[in]split=" ++ toString events.length)
  events.zipIdx.foldl (fun spec (event, i) =>
    spec ++ ";[s" ++ toString i ++ "]select='not(mod(n\\," ++
      toString (selectInterval quotient fps event) ++ "))'[sink" ++ toString i ++ "]") split

/-- `preferred`: the pixel format every sink is restricted to. -/
def preferredFormat (codecpar : AVCodecParameters) : Int32 :=
  if codecpar.format != avPixFmtNone then codecpar.format else avPixFmtYuv420p

/-- `sink_contexts`: the sink of an event name, where a later event of the name replaces
the entry of an earlier one. -/
def sinkContexts (events : List EventConfig) : String → Option Nat :=
  events.zipIdx.foldl (fun contexts (event, i) => Function.update contexts event.name (some i))
    fun _ => none

/-- `setup_multi_output_filter_graph`. -/
def setupMultiOutputFilterGraph (quotient : RateQuotient) (av : MultiOutputAvfilter γ)
    (videoStream : AVStream) (events : List EventConfig) : Option γ :=
  av.configure (bufferArgs videoStream)
    (events.map fun _ => preferredFormat videoStream.codecpar)
    (multiOutputFilterSpec quotient videoStream events)

/-! ## Reading frames -/

/-- The loop that empties one sink; `rounds` bounds it, the source does not. -/
def pullFrames (av : MultiOutputAvfilter γ) (sink : Nat) : (rounds : Nat) → γ → List AVFrame × γ
  | 0, graph => ([], graph)
  | rounds + 1, graph =>
      match av.getFrame graph sink with
      | (.frame filteredFrame, graph') =>
          let (filteredFrames, graph'') := pullFrames av sink rounds graph'
          (filteredFrame :: filteredFrames, graph'')
      | (_, graph') => ([], graph')

/-- The loop over the events after a decoded frame was accepted: what is pushed, in order. -/
def pushEvents (av : MultiOutputAvfilter γ) (rounds : Nat) (config : StreamConfig) :
    (events : List EventConfig) → γ → List (DecodedFrame AVFrame) × γ
  | [], graph => ([], graph)
  | event :: events, graph =>
      match sinkContexts config.events event.name with
      | none => ([], graph)
      | some sink =>
          let (filteredFrames, graph') := pullFrames av sink rounds graph
          let (pushed, graph'') := pushEvents av rounds config events graph'
          (filteredFrames.map (fun filteredFrame =>
            { frame := filteredFrame, sourceConfig := config, eventConfig := event }) ++ pushed,
            graph'')

/-- The frames pushed for a sequence of decoded frames; the connection ends when the graph
does not accept one. -/
def readFrames (av : MultiOutputAvfilter γ) (rounds : Nat) (config : StreamConfig) :
    (rawFrames : List AVFrame) → γ → List (DecodedFrame AVFrame)
  | [], _ => []
  | rawFrame :: rawFrames, graph =>
      match av.addFrame graph rawFrame with
      | (false, _) => []
      | (true, graph) =>
          let (pushed, graph') := pushEvents av rounds config config.events graph
          pushed ++ readFrames av rounds config rawFrames graph'

/-- The frames that one connection pushes to `decoded_frame_queue_`. -/
def connection (quotient : RateQuotient) (av : MultiOutputAvfilter γ) (rounds : Nat)
    (config : StreamConfig) (videoStream : AVStream) (rawFrames : List AVFrame) :
    List (DecodedFrame AVFrame) :=
  match setupMultiOutputFilterGraph quotient av videoStream config.events with
  | none => []
  | some graph => readFrames av rounds config rawFrames graph

/-! ## The pixel format of what is pushed -/

/-- A library whose buffer sinks deliver the pixel format they are restricted to, which
`sinkFormat` reads off a graph. -/
structure DeliversSinkFormats (av : MultiOutputAvfilter γ)
    (sinkFormat : γ → Nat → Option Int32) : Prop where
  configure : ∀ args pixFmts spec graph, av.configure args pixFmts spec = some graph →
    ∀ sink, sinkFormat graph sink = pixFmts[sink]?
  addFrame : ∀ graph frame, sinkFormat (av.addFrame graph frame).2 = sinkFormat graph
  getFrame : ∀ graph sink, sinkFormat (av.getFrame graph sink).2 = sinkFormat graph
  delivered : ∀ graph sink frame, (av.getFrame graph sink).1 = .frame frame →
    ∀ pixFmt, sinkFormat graph sink = some pixFmt → frame.format = pixFmt

/-- The entry of a name after one more event. -/
theorem sinkContexts_append (events : List EventConfig) (event : EventConfig) (name : String) :
    sinkContexts (events ++ [event]) name =
      if name = event.name then some events.length else sinkContexts events name := by
  unfold sinkContexts
  rw [List.zipIdx_append, List.foldl_append, List.zipIdx_singleton, List.foldl_cons,
    List.foldl_nil, Nat.zero_add]
  exact Function.update_apply _ _ _ _

/-- A name is mapped to the sink of an event. -/
theorem sinkContexts_lt {events : List EventConfig} {name : String} {sink : Nat}
    (h : sinkContexts events name = some sink) : sink < events.length := by
  induction events using List.reverseRecOn with
  | nil => cases h
  | append_singleton events event ih =>
      rw [sinkContexts_append] at h
      rw [List.length_append, List.length_singleton]
      split at h
      · cases h
        omega
      · have hlt := ih h
        omega

/-- The sinks of a graph deliver the preferred format. -/
def Prefers (sinkFormat : γ → Nat → Option Int32) (config : StreamConfig) (pixFmt : Int32)
    (graph : γ) : Prop :=
  ∀ sink < config.events.length, sinkFormat graph sink = some pixFmt

section Formats

variable {av : MultiOutputAvfilter γ} {sinkFormat : γ → Nat → Option Int32}
  (h : DeliversSinkFormats av sinkFormat) {config : StreamConfig} {pixFmt : Int32}

include h

theorem pullFrames_format {sink : Nat} (hsink : sink < config.events.length) (rounds : Nat)
    {graph : γ} (hgraph : Prefers sinkFormat config pixFmt graph) :
    (∀ frame ∈ (pullFrames av sink rounds graph).1, frame.format = pixFmt) ∧
      Prefers sinkFormat config pixFmt (pullFrames av sink rounds graph).2 := by
  induction rounds generalizing graph with
  | zero => exact ⟨List.forall_mem_nil _, hgraph⟩
  | succ rounds ih =>
      have hsame := h.getFrame graph sink
      have hdelivered := h.delivered graph sink
      simp only [pullFrames]
      rcases hget : av.getFrame graph sink with ⟨result, graph'⟩
      rw [hget] at hsame hdelivered
      have hgraph' : Prefers sinkFormat config pixFmt graph' := by
        intro sink' hsink'
        exact (congrFun hsame sink').trans (hgraph sink' hsink')
      cases result with
      | frame filteredFrame =>
          rcases ih hgraph' with ⟨hrest, hend⟩
          refine ⟨fun frame hframe => ?_, hend⟩
          rcases List.mem_cons.mp hframe with rfl | hframe
          · exact hdelivered frame rfl pixFmt (hgraph sink hsink)
          · exact hrest frame hframe
      | again | endOfFile | error => exact ⟨List.forall_mem_nil _, hgraph'⟩

theorem pushEvents_format (rounds : Nat) (events : List EventConfig) {graph : γ}
    (hgraph : Prefers sinkFormat config pixFmt graph) :
    (∀ frame ∈ (pushEvents av rounds config events graph).1, frame.frame.format = pixFmt) ∧
      Prefers sinkFormat config pixFmt (pushEvents av rounds config events graph).2 := by
  induction events generalizing graph with
  | nil => exact ⟨List.forall_mem_nil _, hgraph⟩
  | cons event events ih =>
      simp only [pushEvents]
      split
      · exact ⟨List.forall_mem_nil _, hgraph⟩
      · next sink hsink =>
        rcases pullFrames_format h (sinkContexts_lt hsink) rounds hgraph with ⟨hpulled, hgraph'⟩
        rcases ih hgraph' with ⟨hrest, hend⟩
        refine ⟨fun frame hframe => ?_, hend⟩
        rcases List.mem_append.mp hframe with hframe | hframe
        · rcases List.mem_map.mp hframe with ⟨filteredFrame, hmem, rfl⟩
          exact hpulled filteredFrame hmem
        · exact hrest frame hframe

theorem readFrames_format (rounds : Nat) (rawFrames : List AVFrame) {graph : γ}
    (hgraph : Prefers sinkFormat config pixFmt graph) :
    ∀ frame ∈ readFrames av rounds config rawFrames graph, frame.frame.format = pixFmt := by
  induction rawFrames generalizing graph with
  | nil => exact List.forall_mem_nil _
  | cons rawFrame rawFrames ih =>
      have hsame := h.addFrame graph rawFrame
      simp only [readFrames]
      rcases hadd : av.addFrame graph rawFrame with ⟨added, graph'⟩
      rw [hadd] at hsame
      cases added with
      | false => exact List.forall_mem_nil _
      | true =>
          have hgraph' : Prefers sinkFormat config pixFmt graph' := by
            intro sink hsink
            exact (congrFun hsame sink).trans (hgraph sink hsink)
          rcases pushEvents_format h rounds config.events hgraph' with ⟨hpushed, hend⟩
          intro frame hframe
          rcases List.mem_append.mp hframe with hframe | hframe
          · exact hpushed frame hframe
          · exact ih hend frame hframe

/-- Every frame pushed during a connection has the preferred pixel format. -/
theorem connection_format (quotient : RateQuotient) (rounds : Nat) (videoStream : AVStream)
    (rawFrames : List AVFrame) :
    ∀ frame ∈ connection quotient av rounds config videoStream rawFrames,
      frame.frame.format = preferredFormat videoStream.codecpar := by
  unfold connection
  split
  · exact List.forall_mem_nil _
  · next graph hgraph =>
    refine readFrames_format h rounds rawFrames fun sink hsink => ?_
    rw [h.configure _ _ _ graph hgraph sink, List.getElem?_map,
      List.getElem?_eq_getElem hsink]
    rfl

end Formats

end StreamIoManager

end FrameProcessor
