import FrameProcessor.StreamIo.FilterGraph

/-!
# components/stream_io - The frames that each event receives

The filter chain copies every decoded frame to one `select` filter per position of the
event list.  The reader looks a sink up by the name of its event, in a map to which a later
event of the same name has written its own sink.  This module follows the frames by
position: which decoded frames the reader pushes for the event at a position, and what is
left in the sinks.

Main results:

- Theorem `StreamIoManager.readFrames_eq`: a connection pushes what `readRounds` lists by
  position, tagged with the event of the position.
- Theorem `StreamIoManager.sampled_iff`: every position receives exactly its own sampled
  frames, with nothing left in a sink, if and only if no frame is decoded or the names of
  the events are distinct.
-/

namespace FrameProcessor

/-! ## What split, select and the buffer sinks do -/

/-- A chain that copies each frame to one `select` filter per interval, each followed by
a FIFO. -/
structure SampledGraph where
  intervals : List Int32
  /-- `n` of the select filters, the number of frames that went in. -/
  seen : Nat
  /-- The frames waiting in each buffer sink. -/
  queues : Nat → List AVFrame

namespace SampledGraph

/-- A graph in which no frame waits. -/
def idle (intervals : List Int32) (seen : Nat) : SampledGraph :=
  { intervals, seen, queues := fun _ => [] }

/-- Whether the select filter of a position keeps the next frame. -/
def selects (graph : SampledGraph) (position : Nat) : Bool :=
  match graph.intervals[position]? with
  | some interval => (graph.seen : Int) % interval.toInt == 0
  | none => false

/-- A frame goes in. -/
def add (graph : SampledGraph) (frame : AVFrame) : SampledGraph :=
  { graph with
    seen := graph.seen + 1
    queues := fun position =>
      graph.queues position ++ if graph.selects position then [frame] else [] }

/-- What waits in one sink is replaced. -/
def setQueue (graph : SampledGraph) (sink : Nat) (frames : List AVFrame) : SampledGraph :=
  { graph with queues := Function.update graph.queues sink frames }

@[simp] theorem setQueue_queues_self (graph : SampledGraph) (sink : Nat)
    (frames : List AVFrame) : (graph.setQueue sink frames).queues sink = frames :=
  Function.update_self _ _ _

theorem setQueue_queues_of_ne (graph : SampledGraph) {sink sink' : Nat} (h : sink' ≠ sink)
    (frames : List AVFrame) : (graph.setQueue sink frames).queues sink' = graph.queues sink' :=
  Function.update_of_ne h _ _

/-- The last replacement counts. -/
@[simp] theorem setQueue_setQueue (graph : SampledGraph) (sink : Nat)
    (frames frames' : List AVFrame) :
    (graph.setQueue sink frames).setQueue sink frames' = graph.setQueue sink frames' := by
  unfold setQueue
  rw [Function.update_idem]

/-- Replacing what waits in a sink by itself changes nothing. -/
@[simp] theorem setQueue_eq_self (graph : SampledGraph) (sink : Nat) :
    graph.setQueue sink (graph.queues sink) = graph := by
  unfold setQueue
  rw [Function.update_eq_self]

/-- The sinks from `first` on, as many as `count`, are emptied. -/
def drain (graph : SampledGraph) (first count : Nat) : SampledGraph :=
  { graph with
    queues := fun sink =>
      if first ≤ sink ∧ sink < first + count then [] else graph.queues sink }

theorem drain_zero (graph : SampledGraph) (first : Nat) : graph.drain first 0 = graph := by
  have hnone : ∀ sink, ¬(first ≤ sink ∧ sink < first + 0) := by omega
  simp only [drain, hnone, if_false]

/-- The sinks are emptied one after the other. -/
theorem drain_succ (graph : SampledGraph) (first count : Nat) :
    graph.drain first (count + 1) = (graph.setQueue first []).drain (first + 1) count := by
  simp only [drain, setQueue, mk.injEq, true_and]
  funext sink
  by_cases hne : sink = first
  · subst hne
    simp
  · have hiff : (first + 1 ≤ sink ∧ sink < first + 1 + count) ↔
        (first ≤ sink ∧ sink < first + (count + 1)) := by omega
    simp only [hiff, Function.update_of_ne hne]

/-- What a frame that goes into an idle graph leaves in the sink of an interval. -/
theorem add_idle_queues {intervals : List Int32} {position : Nat} {interval : Int32}
    (hposition : intervals[position]? = some interval) (seen : Nat) (frame : AVFrame) :
    ((idle intervals seen).add frame).queues position =
      if (seen : Int) % interval.toInt == 0 then [frame] else [] := by
  simp [add, idle, selects, hposition]

/-- A frame that goes into an idle graph leaves nothing beyond the sinks. -/
theorem add_idle_queues_of_le {intervals : List Int32} {position : Nat}
    (hposition : intervals.length ≤ position) (seen : Nat) (frame : AVFrame) :
    ((idle intervals seen).add frame).queues position = [] := by
  simp [add, idle, selects, List.getElem?_eq_none hposition]

/-- A frame that goes into an idle graph waits at most once in each sink. -/
theorem add_idle_length (intervals : List Int32) (seen : Nat) (frame : AVFrame)
    (position : Nat) : (((idle intervals seen).add frame).queues position).length ≤ 1 := by
  cases hposition : intervals[position]? with
  | none =>
      rw [add_idle_queues_of_le (List.getElem?_eq_none_iff.mp hposition)]
      exact Nat.zero_le _
  | some interval =>
      rw [add_idle_queues hposition]
      split
      · exact Nat.le_refl _
      · exact Nat.zero_le _

end SampledGraph

namespace StreamIoManager

variable {γ : Type*}

/-- The filter chain of `multiOutputFilterSpec`, from the intervals alone. -/
def splitSelectSpec (intervals : List Int32) : String :=
  let split := (List.range intervals.length).foldl
    (fun spec i => spec ++ "[s" ++ toString i ++ "]") ("[in]split=" ++ toString intervals.length)
  intervals.zipIdx.foldl (fun spec (interval, i) =>
    spec ++ ";[s" ++ toString i ++ "]select='not(mod(n\\," ++
      toString interval ++ "))'[sink" ++ toString i ++ "]") split

/-- `interval` of every event of a list. -/
def selectIntervals (quotient : RateQuotient) (videoStream : AVStream)
    (events : List EventConfig) : List Int32 :=
  events.map (selectInterval quotient (sourceFps videoStream))

/-- The reader asks for one select filter per event, with the interval of the event. -/
theorem multiOutputFilterSpec_eq (quotient : RateQuotient) (videoStream : AVStream)
    (events : List EventConfig) :
    multiOutputFilterSpec quotient videoStream events =
      splitSelectSpec (selectIntervals quotient videoStream events) := by
  unfold multiOutputFilterSpec splitSelectSpec selectIntervals
  rw [List.length_map, List.zipIdx_map, List.foldl_map]
  rfl

/-- What the reader relies on of libavfilter: `view` reads off a graph what waits in its
sinks; a chain made from the intervals starts empty, `split` copies each frame to every
`select`, which keeps the frames its expression accepts, and each buffer sink is a FIFO. -/
structure SplitsAndSelects (av : MultiOutputAvfilter γ) (view : γ → SampledGraph)
    (intervals : List Int32) : Prop where
  configure : ∀ args pixFmts graph,
    av.configure args pixFmts (splitSelectSpec intervals) = some graph →
      view graph = .idle intervals 0
  accepted : ∀ graph frame, (av.addFrame graph frame).1 = true
  addFrame : ∀ graph frame, view (av.addFrame graph frame).2 = (view graph).add frame
  getFrame_nil : ∀ graph sink, (view graph).queues sink = [] →
    (av.getFrame graph sink).1 = .again ∧ view (av.getFrame graph sink).2 = view graph
  getFrame_cons : ∀ graph sink frame frames, (view graph).queues sink = frame :: frames →
    (av.getFrame graph sink).1 = .frame frame ∧
      view (av.getFrame graph sink).2 = (view graph).setQueue sink frames

/-! ## Following the frames by position -/

/-- `pushEvents`, with the frames of each event of the list in a list of their own. -/
def pullEvents (av : MultiOutputAvfilter γ) (rounds : Nat) (config : StreamConfig) :
    (events : List EventConfig) → γ → List (List AVFrame) × γ
  | [], graph => ([], graph)
  | event :: events, graph =>
      match sinkContexts config.events event.name with
      | none => ([], graph)
      | some sink =>
          let (filteredFrames, graph') := pullFrames av sink rounds graph
          let (pulled, graph'') := pullEvents av rounds config events graph'
          (filteredFrames :: pulled, graph'')

/-- `readFrames` by position: per decoded frame what `pullEvents` lists, and the graph
that is left. -/
def readRounds (av : MultiOutputAvfilter γ) (rounds : Nat) (config : StreamConfig) :
    (rawFrames : List AVFrame) → γ → List (List (List AVFrame)) × γ
  | [], graph => ([], graph)
  | rawFrame :: rawFrames, graph =>
      match av.addFrame graph rawFrame with
      | (false, graph) => ([], graph)
      | (true, graph) =>
          let (pulled, graph') := pullEvents av rounds config config.events graph
          let (rest, graph'') := readRounds av rounds config rawFrames graph'
          (pulled :: rest, graph'')

/-- The output frames made from what one decoded frame let through. -/
def outputFrames (config : StreamConfig) (events : List EventConfig)
    (pulled : List (List AVFrame)) : List (DecodedFrame AVFrame) :=
  (List.zipWith (fun event filteredFrames => filteredFrames.map fun filteredFrame =>
    ({ frame := filteredFrame, sourceConfig := config, eventConfig := event } :
      DecodedFrame AVFrame)) events pulled).flatten

/-- The loop over the events pushes the frames listed by position. -/
theorem pushEvents_eq (av : MultiOutputAvfilter γ) (rounds : Nat) (config : StreamConfig)
    (events : List EventConfig) (graph : γ) :
    pushEvents av rounds config events graph =
      (outputFrames config events (pullEvents av rounds config events graph).1,
        (pullEvents av rounds config events graph).2) := by
  induction events generalizing graph with
  | nil => rfl
  | cons event events ih =>
      simp only [pushEvents, pullEvents]
      cases sinkContexts config.events event.name with
      | none => rfl
      | some sink =>
          simp only [ih]
          rfl

/-- A connection pushes, for each decoded frame, the frames listed by position. -/
theorem readFrames_eq (av : MultiOutputAvfilter γ) (rounds : Nat) (config : StreamConfig)
    (rawFrames : List AVFrame) (graph : γ) :
    readFrames av rounds config rawFrames graph =
      (readRounds av rounds config rawFrames graph).1.flatMap
        (outputFrames config config.events) := by
  induction rawFrames generalizing graph with
  | nil => rfl
  | cons rawFrame rawFrames ih =>
      simp only [readFrames, readRounds]
      rcases av.addFrame graph rawFrame with ⟨added, graph'⟩
      cases added with
      | false => rfl
      | true =>
          simp only [pushEvents_eq, ih]
          rfl

/-- The frames pushed for the event at a position of the list, in order. -/
def framesFor (position : Nat) (pulledRounds : List (List (List AVFrame))) : List AVFrame :=
  pulledRounds.flatMap fun pulled => pulled.getD position []

/-- The frames number `n`, counted from `first`, with `n` divisible by the interval. -/
def sampledFrames (interval : Int32) (first : Nat) (rawFrames : List AVFrame) : List AVFrame :=
  ((rawFrames.zipIdx first).filter fun (_, n) => (n : Int) % interval.toInt == 0).map Prod.fst

/-- Each position of the list receives its own sampled frames, and no frame is left in a
sink. -/
structure SampledExactly (quotient : RateQuotient) (av : MultiOutputAvfilter γ)
    (view : γ → SampledGraph) (rounds : Nat) (config : StreamConfig) (videoStream : AVStream)
    (rawFrames : List AVFrame) (graph : γ) : Prop where
  frames : ∀ position event, config.events[position]? = some event →
    framesFor position (readRounds av rounds config rawFrames graph).1 =
      sampledFrames (selectInterval quotient (sourceFps videoStream) event) 0 rawFrames
  drained : ∀ sink < config.events.length,
    (view (readRounds av rounds config rawFrames graph).2).queues sink = []

/-! ## The sink of a name -/

/-- The sink of a name is that of an event with this name. -/
theorem sinkContexts_name {events : List EventConfig} {name : String} {sink : Nat}
    (h : sinkContexts events name = some sink) :
    ∃ event, events[sink]? = some event ∧ event.name = name := by
  induction events using List.reverseRecOn with
  | nil => cases h
  | append_singleton events event ih =>
      rw [sinkContexts_append] at h
      split at h
      · next hname =>
        cases h
        exact ⟨event, List.getElem?_concat_length, hname.symm⟩
      · rcases ih h with ⟨event', hevent', hname'⟩
        have hlt := sinkContexts_lt h
        exact ⟨event', by rw [List.getElem?_append_left hlt, hevent'], hname'⟩

/-- The name of an event is mapped to its own sink or to a later one. -/
theorem sinkContexts_of_getElem? {events : List EventConfig} {position : Nat}
    {event : EventConfig} (h : events[position]? = some event) :
    ∃ sink, sinkContexts events event.name = some sink ∧ position ≤ sink := by
  induction events using List.reverseRecOn with
  | nil => cases h
  | append_singleton events event' ih =>
      have hlt := (List.getElem?_eq_some_iff.mp h).1
      rw [List.length_append, List.length_singleton] at hlt
      rw [sinkContexts_append]
      split
      · exact ⟨events.length, rfl, by omega⟩
      · next hname =>
        have hne : position ≠ events.length := by
          intro heq
          subst heq
          rw [List.getElem?_concat_length] at h
          cases h
          exact hname rfl
        rw [List.getElem?_append_left (by omega)] at h
        exact ih h

/-- With distinct names every event has its own sink. -/
theorem sinkContexts_of_nodup {events : List EventConfig}
    (hnodup : (events.map EventConfig.name).Nodup) {position : Nat} {event : EventConfig}
    (h : events[position]? = some event) :
    sinkContexts events event.name = some position := by
  rcases sinkContexts_of_getElem? h with ⟨sink, hsink, -⟩
  rcases sinkContexts_name hsink with ⟨event', hevent', hname'⟩
  have hlt : position < (events.map EventConfig.name).length := by
    rw [List.length_map]
    exact (List.getElem?_eq_some_iff.mp h).1
  have hsame : sink = position := by
    apply ((List.getElem?_inj hlt hnodup).mp _).symm
    rw [List.getElem?_map, List.getElem?_map, h, hevent', Option.map_some, Option.map_some,
      hname']
  rw [hsink, hsame]

/-- Where a name repeats, some sink belongs to no name. -/
theorem exists_shadowed {events : List EventConfig}
    (hnodup : ¬(events.map EventConfig.name).Nodup) :
    ∃ shadowed < events.length, ∀ name, sinkContexts events name ≠ some shadowed := by
  rw [List.nodup_iff_getElem?_ne_getElem?] at hnodup
  push Not at hnodup
  rcases hnodup with ⟨first, second, hlt, hsecond, hsame⟩
  rw [List.length_map] at hsecond
  have hfirst : first < events.length := by omega
  rw [List.getElem?_map, List.getElem?_map, List.getElem?_eq_getElem hfirst,
    List.getElem?_eq_getElem hsecond, Option.map_some, Option.map_some,
    Option.some.injEq] at hsame
  refine ⟨first, hfirst, fun name hname => ?_⟩
  rcases sinkContexts_name hname with ⟨event, hevent, rfl⟩
  rw [List.getElem?_eq_getElem hfirst, Option.some.injEq] at hevent
  subst hevent
  rcases sinkContexts_of_getElem? (List.getElem?_eq_getElem hsecond) with ⟨sink, hsink, hle⟩
  rw [hsame, hsink, Option.some.injEq] at hname
  omega

/-! ## One decoded frame -/

section Sampled

variable {av : MultiOutputAvfilter γ} {view : γ → SampledGraph} {intervals : List Int32}
  (h : SplitsAndSelects av view intervals)

include h

/-- The loop that empties a sink takes what waits there, up to its bound. -/
theorem pullFrames_view (sink rounds : Nat) (graph : γ) :
    (pullFrames av sink rounds graph).1 = ((view graph).queues sink).take rounds ∧
      view (pullFrames av sink rounds graph).2 =
        (view graph).setQueue sink (((view graph).queues sink).drop rounds) := by
  induction rounds generalizing graph with
  | zero => exact ⟨rfl, by simp [pullFrames]⟩
  | succ rounds ih =>
      have hnil := h.getFrame_nil graph sink
      have hcons := h.getFrame_cons graph sink
      simp only [pullFrames]
      rcases hget : av.getFrame graph sink with ⟨result, graph'⟩
      rw [hget] at hnil hcons
      cases hqueue : (view graph).queues sink with
      | nil =>
          rcases hnil hqueue with ⟨hresult, hview⟩
          obtain rfl : result = .again := hresult
          refine ⟨rfl, ?_⟩
          change view graph' = _ at hview
          change view graph' = _
          rw [hview, List.drop_nil, ← hqueue, SampledGraph.setQueue_eq_self]
      | cons frame frames =>
          rcases hcons frame frames hqueue with ⟨hresult, hview⟩
          obtain rfl : result = .frame frame := hresult
          change view graph' = _ at hview
          rcases ih graph' with ⟨hpulled, hleft⟩
          rw [hview] at hpulled hleft
          rw [SampledGraph.setQueue_queues_self] at hpulled hleft
          rw [SampledGraph.setQueue_setQueue] at hleft
          exact ⟨congrArg (frame :: ·) hpulled, hleft⟩

/-- A sink that belongs to no name keeps what waits in it. -/
theorem pullEvents_shadowed {config : StreamConfig} {shadowed : Nat}
    (hshadowed : ∀ name, sinkContexts config.events name ≠ some shadowed) (rounds : Nat)
    (events : List EventConfig) (graph : γ) :
    (view (pullEvents av rounds config events graph).2).queues shadowed =
      (view graph).queues shadowed := by
  induction events generalizing graph with
  | nil => rfl
  | cons event events ih =>
      simp only [pullEvents]
      cases hsink : sinkContexts config.events event.name with
      | none => rfl
      | some sink =>
          have hne : shadowed ≠ sink := by
            intro heq
            exact hshadowed event.name (heq ▸ hsink)
          simp only [ih, (pullFrames_view h sink rounds graph).2]
          exact SampledGraph.setQueue_queues_of_ne _ hne _

/-- Where each event of a suffix of the list has the sink of its own position, the loop
over the suffix takes everything that waits in these sinks, in the order of the list. -/
theorem pullEvents_view {config : StreamConfig} {rounds : Nat} (events : List EventConfig)
    (first : Nat)
    (hsinks : ∀ k event, events[k]? = some event →
      sinkContexts config.events event.name = some (first + k))
    (graph : γ) (hshort : ∀ sink, ((view graph).queues sink).length ≤ rounds) :
    (pullEvents av rounds config events graph).1 =
        (List.range' first events.length).map (view graph).queues ∧
      view (pullEvents av rounds config events graph).2 =
        (view graph).drain first events.length := by
  induction events generalizing first graph with
  | nil => exact ⟨rfl, (SampledGraph.drain_zero _ first).symm⟩
  | cons event events ih =>
      have hsink : sinkContexts config.events event.name = some first := hsinks 0 event rfl
      rcases pullFrames_view h first rounds graph with ⟨hpulled, hleft⟩
      rw [List.take_of_length_le (hshort first)] at hpulled
      rw [List.drop_of_length_le (hshort first)] at hleft
      simp only [pullEvents, hsink]
      rcases hpull : pullFrames av first rounds graph with ⟨filteredFrames, graph'⟩
      rw [hpull] at hpulled hleft
      simp only at hpulled hleft ⊢
      have hother : ∀ sink, sink ≠ first →
          (view graph').queues sink = (view graph).queues sink := by
        intro sink hne
        rw [hleft]
        exact SampledGraph.setQueue_queues_of_ne _ hne _
      have hself : (view graph').queues first = [] := by
        rw [hleft]
        exact SampledGraph.setQueue_queues_self _ _ _
      have hshort' : ∀ sink, ((view graph').queues sink).length ≤ rounds := by
        intro sink
        by_cases hne : sink = first
        · rw [hne, hself]
          exact Nat.zero_le _
        · rw [hother sink hne]
          exact hshort sink
      have hsinks' : ∀ k event, events[k]? = some event →
          sinkContexts config.events event.name = some (first + 1 + k) := by
        intro k event' hevent'
        rw [hsinks (k + 1) event' hevent']
        congr 1
        omega
      rcases ih (first + 1) hsinks' graph' hshort' with ⟨hrest, hend⟩
      constructor
      · rw [hpulled, hrest, List.length_cons, List.range'_succ, List.map_cons]
        congr 1
        apply List.map_congr_left
        intro sink hsink
        rw [List.mem_range'_1] at hsink
        exact hother sink (by omega)
      · rw [hend, hleft, List.length_cons, SampledGraph.drain_succ]

/-! ## A whole connection -/

/-- Where each event has the sink of its own position, one decoded frame is pulled at the
positions whose select filter keeps it, and the graph is idle again. -/
theorem pullEvents_idle {config : StreamConfig} {rounds : Nat} (hrounds : 1 ≤ rounds)
    (hlength : config.events.length = intervals.length)
    (hsinks : ∀ position event, config.events[position]? = some event →
      sinkContexts config.events event.name = some position)
    {seen : Nat} {frame : AVFrame} {graph : γ}
    (hgraph : view graph = (SampledGraph.idle intervals seen).add frame) :
    (∀ (position : Nat) (interval : Int32), intervals[position]? = some interval →
      (pullEvents av rounds config config.events graph).1.getD position [] =
        if (seen : Int) % interval.toInt == 0 then [frame] else []) ∧
      view (pullEvents av rounds config config.events graph).2 =
        .idle intervals (seen + 1) := by
  have hsinks' : ∀ k event, config.events[k]? = some event →
      sinkContexts config.events event.name = some (0 + k) := by
    intro k event hevent
    rw [Nat.zero_add]
    exact hsinks k event hevent
  have hshort : ∀ sink, ((view graph).queues sink).length ≤ rounds := by
    intro sink
    rw [hgraph]
    exact (SampledGraph.add_idle_length intervals seen frame sink).trans hrounds
  rcases pullEvents_view h config.events 0 hsinks' graph hshort with ⟨hpulled, hleft⟩
  constructor
  · intro position interval hposition
    have hlt : position < config.events.length := by
      rw [hlength]
      exact (List.getElem?_eq_some_iff.mp hposition).1
    rw [hpulled, List.getD_eq_getElem?_getD, List.getElem?_map, List.getElem?_range' hlt,
      Option.map_some, Option.getD_some, hgraph, Nat.zero_add, Nat.one_mul]
    exact SampledGraph.add_idle_queues hposition seen frame
  · rw [hleft, hgraph]
    simp only [SampledGraph.drain, SampledGraph.add, SampledGraph.idle, SampledGraph.mk.injEq,
      true_and]
    funext sink
    split
    · rfl
    · next hbeyond =>
      rw [hlength] at hbeyond
      exact SampledGraph.add_idle_queues_of_le (by omega) seen frame

/-- The loop over the decoded frames, whose graph accepts each of them. -/
theorem readRounds_cons (rounds : Nat) (config : StreamConfig) (rawFrame : AVFrame)
    (rawFrames : List AVFrame) (graph : γ) :
    readRounds av rounds config (rawFrame :: rawFrames) graph =
      let (pulled, graph') :=
        pullEvents av rounds config config.events (av.addFrame graph rawFrame).2
      let (rest, graph'') := readRounds av rounds config rawFrames graph'
      (pulled :: rest, graph'') := by
  have haccepted := h.accepted graph rawFrame
  simp only [readRounds]
  rcases hadd : av.addFrame graph rawFrame with ⟨added, graph'⟩
  rw [hadd] at haccepted
  obtain rfl : added = true := haccepted
  rfl

/-- Where each event has the sink of its own position, every position receives its own
sampled frames and the graph ends idle. -/
theorem readRounds_idle {config : StreamConfig} {rounds : Nat} (hrounds : 1 ≤ rounds)
    (hlength : config.events.length = intervals.length)
    (hsinks : ∀ position event, config.events[position]? = some event →
      sinkContexts config.events event.name = some position)
    (rawFrames : List AVFrame) (seen : Nat) (graph : γ)
    (hgraph : view graph = .idle intervals seen) :
    (∀ (position : Nat) (interval : Int32), intervals[position]? = some interval →
      framesFor position (readRounds av rounds config rawFrames graph).1 =
        sampledFrames interval seen rawFrames) ∧
      view (readRounds av rounds config rawFrames graph).2 =
        .idle intervals (seen + rawFrames.length) := by
  induction rawFrames generalizing seen graph with
  | nil => exact ⟨fun position interval hposition => rfl, hgraph⟩
  | cons rawFrame rawFrames ih =>
      have hadd := h.addFrame graph rawFrame
      rw [hgraph] at hadd
      rw [readRounds_cons h]
      rcases pullEvents_idle h hrounds hlength hsinks hadd with ⟨hpulled, hidle⟩
      rcases ih (seen + 1) _ hidle with ⟨hrest, hend⟩
      constructor
      · intro position interval hposition
        change (pullEvents av rounds config config.events _).1.getD position [] ++
          framesFor position (readRounds av rounds config rawFrames _).1 = _
        rw [hpulled position interval hposition, hrest position interval hposition]
        unfold sampledFrames
        rw [List.zipIdx_cons, List.filter_cons]
        by_cases hkept : (seen : Int) % interval.toInt == 0
        · simp only [hkept, if_true, List.map_cons, List.singleton_append]
        · simp only [hkept, if_false, List.nil_append, Bool.false_eq_true]
      · rw [List.length_cons, ← Nat.add_assoc, Nat.add_right_comm]
        exact hend

/-- A frame that waits in a sink of no name is never pulled. -/
theorem readRounds_shadowed {config : StreamConfig} {shadowed : Nat}
    (hshadowed : ∀ name, sinkContexts config.events name ≠ some shadowed) (rounds : Nat)
    (rawFrames : List AVFrame) (graph : γ) (hwaits : (view graph).queues shadowed ≠ []) :
    (view (readRounds av rounds config rawFrames graph).2).queues shadowed ≠ [] := by
  induction rawFrames generalizing graph with
  | nil => exact hwaits
  | cons rawFrame rawFrames ih =>
      rw [readRounds_cons h]
      apply ih
      rw [pullEvents_shadowed h hshadowed, h.addFrame]
      exact List.append_ne_nil_of_left_ne_nil hwaits _

/-- The first decoded frame waits in every sink, so one that belongs to no name is left
with it. -/
theorem readRounds_leaves {config : StreamConfig} {shadowed : Nat}
    (hshadowed : ∀ name, sinkContexts config.events name ≠ some shadowed)
    (hlt : shadowed < intervals.length) (rounds : Nat) {rawFrames : List AVFrame}
    (hframes : rawFrames ≠ []) (graph : γ) (hgraph : view graph = .idle intervals 0) :
    (view (readRounds av rounds config rawFrames graph).2).queues shadowed ≠ [] := by
  cases rawFrames with
  | nil => exact absurd rfl hframes
  | cons rawFrame rawFrames =>
      rw [readRounds_cons h]
      apply readRounds_shadowed h hshadowed
      rw [pullEvents_shadowed h hshadowed, h.addFrame, hgraph,
        SampledGraph.add_idle_queues (List.getElem?_eq_getElem hlt)]
      simp

end Sampled

/-- A library that does what the chain of the given intervals says. -/
def samplingAvfilter (intervals : List Int32) : MultiOutputAvfilter SampledGraph where
  configure := fun _ _ spec =>
    if spec = splitSelectSpec intervals then some (.idle intervals 0) else none
  addFrame := fun graph frame => (true, graph.add frame)
  getFrame := fun graph sink =>
    match graph.queues sink with
    | [] => (.again, graph)
    | frame :: frames => (.frame frame, graph.setQueue sink frames)

/-- It is one that the reader can rely on. -/
theorem samplingAvfilter_splitsAndSelects (intervals : List Int32) :
    SplitsAndSelects (samplingAvfilter intervals) id intervals := by
  constructor
  · intro args pixFmts graph hgraph
    simp only [samplingAvfilter, if_true, Option.some.injEq] at hgraph
    exact hgraph.symm
  · exact fun _ _ => rfl
  · exact fun _ _ => rfl
  · intro graph sink hqueue
    change graph.queues sink = [] at hqueue
    simp [samplingAvfilter, hqueue]
  · intro graph sink frame frames hqueue
    change graph.queues sink = _ at hqueue
    simp [samplingAvfilter, hqueue]

/-- A graph that the reader asks it for starts idle. -/
theorem samplingAvfilter_setup (quotient : RateQuotient) (videoStream : AVStream)
    (events : List EventConfig) :
    setupMultiOutputFilterGraph quotient
        (samplingAvfilter (selectIntervals quotient videoStream events)) videoStream events =
      some (.idle (selectIntervals quotient videoStream events) 0) := by
  unfold setupMultiOutputFilterGraph
  rw [multiOutputFilterSpec_eq]
  exact if_pos rfl

/-- A camera of 30 frames per second. -/
def thirtyFps : AVStream where
  codecpar := { width := 640, height := 480, format := 0, sampleAspectRatio := ⟨1, 1⟩ }
  timeBase := ⟨1, 90000⟩
  avgFrameRate := ⟨30, 1⟩
  rFrameRate := ⟨30, 1⟩

/-- A stream with two events, at 30 and at 15 frames per second. -/
def twoEvents (first second : String) : StreamConfig where
  id := 1
  url := "rtsp://a"
  targetFps := 30
  waitForKeyframe := false
  enabled := true
  events :=
    [{ id := 1, name := first, targetFps := 30 }, { id := 2, name := second, targetFps := 15 }]

/-- On a configured graph every position receives exactly its own sampled frames, with
nothing left in a sink, if and only if no frame is decoded or the names of the events are
distinct.  Two rounds let the loop that empties a sink end by itself. -/
theorem sampled_iff {quotient : RateQuotient} {av : MultiOutputAvfilter γ}
    {view : γ → SampledGraph} {config : StreamConfig} {videoStream : AVStream}
    (h : SplitsAndSelects av view (selectIntervals quotient videoStream config.events))
    {rounds : Nat} (hrounds : 2 ≤ rounds) {graph : γ}
    (hgraph : setupMultiOutputFilterGraph quotient av videoStream config.events = some graph)
    (rawFrames : List AVFrame) :
    SampledExactly quotient av view rounds config videoStream rawFrames graph ↔
      rawFrames = [] ∨ (config.events.map EventConfig.name).Nodup := by
  have hidle : view graph = .idle (selectIntervals quotient videoStream config.events) 0 := by
    unfold setupMultiOutputFilterGraph at hgraph
    rw [multiOutputFilterSpec_eq] at hgraph
    exact h.configure _ _ _ hgraph
  have hlength : config.events.length =
      (selectIntervals quotient videoStream config.events).length :=
    (List.length_map _).symm
  constructor
  · intro hexact
    by_contra hneither
    rcases not_or.mp hneither with ⟨hframes, hnames⟩
    rcases exists_shadowed hnames with ⟨shadowed, hlt, hshadowed⟩
    exact readRounds_leaves h hshadowed (hlength ▸ hlt) rounds hframes graph hidle
      (hexact.drained shadowed hlt)
  · rintro (rfl | hnames)
    · exact ⟨fun _ _ _ => rfl, fun sink _ => by rw [readRounds, hidle]; rfl⟩
    · rcases readRounds_idle h (Nat.le_of_succ_le hrounds) hlength
        (fun position event => sinkContexts_of_nodup hnames) rawFrames 0 graph hidle with
        ⟨hsampled, hend⟩
      constructor
      · intro position event hevent
        apply hsampled
        unfold selectIntervals
        rw [List.getElem?_map, hevent, Option.map_some]
      · intro sink _
        rw [hend]
        rfl

/-- At 30 and at 15 frames per second, of three frames. -/
theorem sampled_motion_face :
    let events := (twoEvents "motion" "face").events
    let intervals := selectIntervals exactQuotient thirtyFps events
    SampledExactly exactQuotient (samplingAvfilter intervals) id 2 (twoEvents "motion" "face")
      thirtyFps [(blackFrame 4 4 4).frame, (blackFrame 4 4 5).frame, (blackFrame 4 4 6).frame]
      (.idle intervals 0) :=
  (sampled_iff (samplingAvfilter_splitsAndSelects _) (Nat.le_refl 2)
    (samplingAvfilter_setup exactQuotient thirtyFps _) _).mpr (Or.inr (by decide))

/-- With the name `motion` twice, two decoded frames bring one frame to the event at 30
frames per second and none to the one at 15, and both frames stay in the first sink. -/
theorem repeated_name_sampled_wrong :
    let events := (twoEvents "motion" "motion").events
    let intervals := selectIntervals exactQuotient thirtyFps events
    let run := readRounds (samplingAvfilter intervals) 2 (twoEvents "motion" "motion")
      [(blackFrame 4 4 4).frame, (blackFrame 4 4 4).frame] (.idle intervals 0)
    (intervals = [1, 2] ∧ (framesFor 0 run.1).length = 1 ∧ (framesFor 1 run.1).length = 0 ∧
      (run.2.queues 0).length = 2) ∧
    ¬SampledExactly exactQuotient (samplingAvfilter intervals) id 2 (twoEvents "motion" "motion")
      thirtyFps [(blackFrame 4 4 4).frame, (blackFrame 4 4 4).frame] (.idle intervals 0) := by
  refine ⟨⟨?_, ?_, ?_, ?_⟩, ?_⟩
  · decide +kernel
  · decide +kernel
  · decide +kernel
  · decide +kernel
  · intro hexact
    have hdrained := congrArg List.length (hexact.drained 0 (by decide))
    exact absurd hdrained (by decide +kernel)

end StreamIoManager

end FrameProcessor
