import FrameProcessor.StreamIo.Connecting
import FrameProcessor.StreamIo.GraphObjects

/-!
# components/stream_io - What a reader allocates

`run_stream` with the objects it allocates, as a program over what the library calls return:
a list of connections, each with its attempts to connect and what it reads.  A list ends
where the source leaves the loop, because a stop was requested or the stream has failed.
Objects that a `unique_ptr` guards are freed at the end of their scope; filtered frames are
handed to `decoded_frame_queue_`.

Packets, frames and the nodes of the filter set-up are used without a look at whether they could
be allocated.  `Regular` says that these allocations succeed; without it nothing is claimed.

Main results:

- Theorem `ReaderObjects.connectLoop_obeys`: attempts that fail leave nothing behind, although
  `avformat_open_input` frees the context that was passed to it.
- Theorem `ReaderObjects.connection_obeys`: one connection frees what it allocates, whichever
  way it ends.
- Theorem `ReaderObjects.runStream_frees`: when the unchecked allocations succeed, over any
  number of reconnections no object is used or freed after it was freed or handed over, the
  number of live objects has a bound that does not depend on the run, and none is left when the
  reader returns.
-/

namespace FrameProcessor

open Ownership

/-- The calls of one round of the connect loop. -/
structure AttemptCalls where
  allocContext : Bool
  /-- Whether there is a dictionary after the options were set. -/
  dictSet : Bool
  openInput : Bool
  /-- Whether `avformat_open_input` returns a dictionary of options it did not know. -/
  leftOptions : Bool

/-- The calls of one round of the loop that takes frames from the decoder.  A sink is asked
for frames until it has none, once for each entry of its list; the entry tells whether the
frame for the answer could be allocated. -/
structure FrameCalls where
  rawFrameAlloc : Bool
  receiveFrame : CallResult
  addFrame : Bool
  sinks : ℕ → List Bool

/-- The calls of one round of the loop that reads packets. -/
structure ReadCalls where
  packetAlloc : Bool
  readFrame : CallResult
  sendPacket : Bool
  frames : List FrameCalls

/-- The calls of one round of the outer loop. -/
structure ConnectionCalls where
  attempts : List AttemptCalls
  /-- `st.stop_requested()` after the connect loop. -/
  stopped : Bool
  findStreamInfo : Bool
  bestStream : Bool
  findDecoder : Bool
  allocContext3 : Bool
  parametersToContext : Bool
  open2 : Bool
  graph : GraphCalls
  reads : List ReadCalls
  flushed : ℕ → List Bool

namespace ReaderObjects

/-! ## Connecting -/

/-- `avformat_open_input`: the context is freed and the pointer to it cleared when the stream
cannot be opened, and the options are replaced by those that were not used. -/
def openInput (calls : AttemptCalls) (rawFmtCtx : Handle ReaderObject)
    (options : Option (Handle ReaderObject)) :
    Routine ReaderObject (Option (Handle ReaderObject) × Option (Handle ReaderObject)) := do
  use rawFmtCtx
  free options
  let options ← tryAcquire calls.leftOptions .dictionary
  if calls.openInput then
    return (some rawFmtCtx, options)
  else
    release rawFmtCtx
    return (none, options)

/-- One round of the connect loop: the context, when the stream was opened. -/
def attempt (calls : AttemptCalls) : Routine ReaderObject (Option (Handle ReaderObject)) := do
  match ← tryAcquire calls.allocContext .formatContext with
  | none => return none
  | some rawFmtCtx =>
      use rawFmtCtx
      let options ← tryAcquire calls.dictSet .dictionary
      let (rawFmtCtx, options) ← openInput calls rawFmtCtx options
      free options
      if calls.openInput then
        return rawFmtCtx
      else
        free rawFmtCtx
        return none

/-- The connect loop; at the end of the list a stop was requested. -/
def connectLoop : List AttemptCalls → Routine ReaderObject (Option (Handle ReaderObject))
  | [] => pure none
  | calls :: rest => do
      match ← attempt calls with
      | some fmtCtx => return some fmtCtx
      | none => connectLoop rest

/-! ## Reading -/

/-- The loop that takes the filtered frames from a sink; the last round finds none. -/
def pullFrames (graph : Handle ReaderObject) : List Bool → Routine ReaderObject Unit
  | [] => pure ()
  | frameAlloc :: rounds => do
      let filteredFrame ← tryAcquire frameAlloc .frame
      use graph
      deref filteredFrame
      match filteredFrame, rounds with
      | some filteredFrame, _ :: _ => give filteredFrame
      | filteredFrame, _ => free filteredFrame
      pullFrames graph rounds

/-- One round of the loop that takes frames from the decoder; whether it is not the last. -/
def decodeFrame (events : ℕ) (calls : FrameCalls) (codecContext graph : Handle ReaderObject) :
    Routine ReaderObject CallResult := do
  let rawFrame ← tryAcquire calls.rawFrameAlloc .frame
  use codecContext
  deref rawFrame
  match calls.receiveFrame with
  | .ok =>
      use graph
      if calls.addFrame then
        forEach (fun i => pullFrames graph (calls.sinks i)) (List.range events)
        free rawFrame
        return .ok
      else
        free rawFrame
        return .failed
  | result =>
      free rawFrame
      return result

/-- The loop that takes frames from the decoder; whether the stream is still healthy. -/
def decodeFrames (events : ℕ) (codecContext graph : Handle ReaderObject) :
    List FrameCalls → Routine ReaderObject Bool
  | [] => pure true
  | calls :: rest => do
      match ← decodeFrame events calls codecContext graph with
      | .ok => decodeFrames events codecContext graph rest
      | .other => return true
      | .failed => return false

/-- One round of the loop that reads packets; whether the stream is still healthy. -/
def readPacket (events : ℕ) (calls : ReadCalls) (fmtCtx codecContext graph : Handle ReaderObject) :
    Routine ReaderObject Bool := do
  let packet ← tryAcquire calls.packetAlloc .packet
  deref packet
  use fmtCtx
  match calls.readFrame with
  | .failed =>
      free packet
      return false
  | .other =>
      free packet
      return true
  | .ok =>
      use codecContext
      let streamHealthy ←
        if calls.sendPacket then decodeFrames events codecContext graph calls.frames
        else pure true
      free packet
      return streamHealthy

/-- The loop that reads packets; at the end of the list a stop was requested. -/
def readLoop (events : ℕ) (fmtCtx codecContext graph : Handle ReaderObject) :
    List ReadCalls → Routine ReaderObject Unit
  | [] => pure ()
  | calls :: rest => do
      if ← readPacket events calls fmtCtx codecContext graph then
        readLoop events fmtCtx codecContext graph rest

/-- The loop that takes what is left in a sink. -/
def flushSink (graph : Handle ReaderObject) : List Bool → Routine ReaderObject Unit
  | [] => pure ()
  | frameAlloc :: rounds => do
      let flushedFrame ← tryAcquire frameAlloc .frame
      use graph
      deref flushedFrame
      free flushedFrame
      flushSink graph rounds

/-! ## One connection -/

/-- From the decoder to the end of the scope of `filter_graph`; whether the outer loop goes
on. -/
def decodeStream (events : ℕ) (calls : ConnectionCalls)
    (fmtCtx codecContext : Handle ReaderObject) : Routine ReaderObject Bool := do
  match ← setupMultiOutputFilterGraph calls.graph events with
  | (true, some graph) =>
      readLoop events fmtCtx codecContext graph calls.reads
      use graph
      forEach (fun i => flushSink graph (calls.flushed i)) (List.range events)
      release graph
      return true
  | (_, filterGraph) =>
      free filterGraph
      return false

/-- From the probe to the end of the scope of `codec_context`. -/
def openStream (events : ℕ) (calls : ConnectionCalls) (fmtCtx : Handle ReaderObject) :
    Routine ReaderObject Bool := do
  use fmtCtx
  if calls.findStreamInfo then
    use fmtCtx
    if calls.bestStream && calls.findDecoder then
      match ← tryAcquire calls.allocContext3 .codecContext with
      | none => return false
      | some codecContext =>
          use fmtCtx
          use codecContext
          let again ←
            if calls.parametersToContext && calls.open2 then
              decodeStream events calls fmtCtx codecContext
            else pure false
          release codecContext
          return again
    else
      return false
  else
    return true

/-- One round of the outer loop, to the end of the scope of `fmt_ctx_guard`; whether the loop
goes on. -/
def connection (events : ℕ) (calls : ConnectionCalls) : Routine ReaderObject Bool := do
  match ← connectLoop calls.attempts with
  | none => return false
  | some fmtCtx =>
      let again ← if calls.stopped then pure false else openStream events calls fmtCtx
      release fmtCtx
      return again

/-- `StreamIoManager::run_stream` for a configuration with so many events. -/
def runStream (events : ℕ) : List ConnectionCalls → Routine ReaderObject Unit
  | [] => pure ()
  | calls :: rest => do
      if ← connection events calls then
        runStream events rest

/-! ## Nothing is left behind -/

/-- The frames that are used unchecked could be allocated. -/
structure Decodes (calls : FrameCalls) : Prop where
  rawFrame : calls.rawFrameAlloc = true
  sinks : ∀ i, ∀ frameAlloc ∈ calls.sinks i, frameAlloc = true

/-- The packets and frames that are used unchecked could be allocated, and a successful parse
links every pad of the graph. -/
structure Regular (calls : ConnectionCalls) : Prop where
  nodes : ∀ i, (calls.graph.sinks i).nextAlloc = true
  links : FilterPads.LinksAll calls.graph.parse
  packets : ∀ read ∈ calls.reads, read.packetAlloc = true
  frames : ∀ read ∈ calls.reads, ∀ frame ∈ read.frames, Decodes frame
  flushed : ∀ i, ∀ frameAlloc ∈ calls.flushed i, frameAlloc = true

variable {S T : Finset (Handle ReaderObject)} {n events : ℕ}
  {fmtCtx codecContext graph : Handle ReaderObject}

/-- A stream that cannot be opened costs the context that was passed. -/
theorem openInput_obeys (calls : AttemptCalls) {rawFmtCtx : Handle ReaderObject}
    {options : Option (Handle ReaderObject)} (h : Disjoint {rawFmtCtx} options.toFinset)
    (hn : 2 ≤ n) :
    Obeys ∅ ({rawFmtCtx} ∪ options.toFinset) n (openInput calls rawFmtCtx options)
      fun result T => result.1 = (if calls.openInput then some rawFmtCtx else none) ∧
        T = result.1.toFinset ∪ result.2.toFinset ∧
        Disjoint result.1.toFinset result.2.toFinset := by
  refine .use_bind (by simp) (.free_bind Finset.subset_union_right ?_)
  rw [Finset.union_sdiff_cancel_right h]
  refine (Obeys.tryAcquire_toFinset (by simp; omega)).bind ?_
  rintro left T ⟨rfl, hleft, -⟩
  refine .ite (fun hopen => ?_) fun hopen => ?_
  · exact .pure ⟨by rw [hopen]; rfl, rfl, hleft⟩
  · refine .release_bind (by simp) (.pure ⟨by rw [hopen]; rfl, ?_, Finset.disjoint_empty_left _⟩)
    rw [Finset.disjoint_singleton_left] at hleft
    rw [Finset.singleton_union, Finset.erase_insert hleft]
    exact (Finset.empty_union _).symm

/-- A round of the connect loop keeps the context of an opened stream, and nothing else. -/
theorem attempt_obeys (calls : AttemptCalls) (hn : 2 ≤ n) :
    Obeys ∅ ∅ n (attempt calls) fun fmtCtx T => T = fmtCtx.toFinset := by
  refine .tryAcquire_bind (by simp; omega) (fun _ rawFmtCtx _ => ?_) fun _ => .pure rfl
  rw [insert_empty_eq]
  refine .use_bind (by simp) ((Obeys.tryAcquire_toFinset (by simp; omega)).bind ?_)
  rintro options T ⟨rfl, hoptions, -⟩
  refine (openInput_obeys calls hoptions hn).bind ?_
  rintro ⟨fmtCtx, left⟩ T ⟨hfmtCtx, rfl, hleft⟩
  refine .free_bind Finset.subset_union_right ?_
  rw [Finset.union_sdiff_cancel_right hleft]
  refine .ite (fun _ => .pure rfl) fun hfailed => ?_
  rw [hfailed] at hfmtCtx
  cases hfmtCtx
  exact .free_bind (by simp) (.pure (by simp))

theorem connectLoop_obeys (attempts : List AttemptCalls) (hn : 2 ≤ n) :
    Obeys ∅ ∅ n (connectLoop attempts) fun fmtCtx T => T = fmtCtx.toFinset := by
  induction attempts with
  | nil => exact .pure rfl
  | cons calls rest ih =>
      refine (attempt_obeys calls hn).bind ?_
      rintro fmtCtx T rfl
      cases fmtCtx with
      | some fmtCtx => exact .pure rfl
      | none => exact ih

/-- Every filtered frame is handed over or freed. -/
theorem pullFrames_obeys {rounds : List Bool} (halloc : ∀ frameAlloc ∈ rounds, frameAlloc = true)
    (hgraph : graph ∈ S ∨ graph ∈ T) (hn : T.card < n) :
    Obeys S T n (pullFrames graph rounds) fun _ T' => T' = T := by
  induction rounds with
  | nil => exact .pure rfl
  | cons frameAlloc rounds ih =>
      rcases List.forall_mem_cons.mp halloc with ⟨hfirst, hrest⟩
      refine .tryAcquire_bind_of_true hfirst hn fun frame hframe => ?_
      refine .use_bind (hgraph.imp_right (Finset.mem_insert_of_mem ·)) (.use_bind (by simp) ?_)
      cases rounds with
      | nil =>
          refine .release_bind (by simp) ?_
          rw [Finset.erase_insert hframe]
          exact .pure rfl
      | cons next rounds =>
          refine .give_bind (by simp) ?_
          rw [Finset.erase_insert hframe]
          exact ih hrest

/-- Every frame of the flush is freed. -/
theorem flushSink_obeys {rounds : List Bool} (halloc : ∀ frameAlloc ∈ rounds, frameAlloc = true)
    (hgraph : graph ∈ S ∨ graph ∈ T) (hn : T.card < n) :
    Obeys S T n (flushSink graph rounds) fun _ T' => T' = T := by
  induction rounds with
  | nil => exact .pure rfl
  | cons frameAlloc rounds ih =>
      rcases List.forall_mem_cons.mp halloc with ⟨hfirst, hrest⟩
      refine .tryAcquire_bind_of_true hfirst hn fun frame hframe => ?_
      refine .use_bind (hgraph.imp_right (Finset.mem_insert_of_mem ·)) (.use_bind (by simp) ?_)
      refine .release_bind (by simp) ?_
      rw [Finset.erase_insert hframe]
      exact ih hrest

theorem decodeFrame_obeys {calls : FrameCalls} (halloc : Decodes calls)
    (hcodec : codecContext ∈ T) (hgraph : graph ∈ T) (hn : T.card + 1 < n) :
    Obeys S T n (decodeFrame events calls codecContext graph) fun _ T' => T' = T := by
  refine .tryAcquire_bind_of_true halloc.rawFrame (Nat.lt_of_succ_lt hn) fun rawFrame hraw => ?_
  refine .use_bind (by simp [hcodec]) (.use_bind (by simp) ?_)
  have hfree : ∀ result, Obeys S (insert rawFrame T) n
      (do free (some rawFrame); return result : Routine ReaderObject CallResult)
      fun _ T' => T' = T := fun result =>
    .release_bind (by simp) (.pure (Finset.erase_insert hraw))
  have hcard : (insert rawFrame T).card < n := by
    rw [Finset.card_insert_of_notMem hraw]
    exact hn
  cases calls.receiveFrame with
  | other => exact hfree _
  | failed => exact hfree _
  | ok =>
      refine .use_bind (by simp [hgraph]) (.ite (fun _ => ?_) fun _ => hfree _)
      refine (Obeys.forEach (fun i => ?_) _).bind ?_
      · exact pullFrames_obeys (halloc.sinks i) (by simp [hgraph]) hcard
      · rintro - T' rfl
        exact hfree _

theorem decodeFrames_obeys {frames : List FrameCalls} (halloc : ∀ frame ∈ frames, Decodes frame)
    (hcodec : codecContext ∈ T) (hgraph : graph ∈ T) (hn : T.card + 1 < n) :
    Obeys S T n (decodeFrames events codecContext graph frames) fun _ T' => T' = T := by
  induction frames with
  | nil => exact .pure rfl
  | cons calls rest ih =>
      rcases List.forall_mem_cons.mp halloc with ⟨hfirst, hrest⟩
      refine (decodeFrame_obeys hfirst hcodec hgraph hn).bind ?_
      rintro result T' rfl
      cases result with
      | ok => exact ih hrest
      | other => exact .pure rfl
      | failed => exact .pure rfl

theorem readPacket_obeys {calls : ReadCalls} (hpacket : calls.packetAlloc = true)
    (halloc : ∀ frame ∈ calls.frames, Decodes frame) (hfmt : fmtCtx ∈ T)
    (hcodec : codecContext ∈ T) (hgraph : graph ∈ T) (hn : T.card + 2 < n) :
    Obeys S T n (readPacket events calls fmtCtx codecContext graph) fun _ T' => T' = T := by
  refine .tryAcquire_bind_of_true hpacket (by omega) fun packet hnew => ?_
  refine .use_bind (by simp) (.use_bind (by simp [hfmt]) ?_)
  have hfree : ∀ result, Obeys S (insert packet T) n
      (do free (some packet); return result : Routine ReaderObject Bool)
      fun _ T' => T' = T := fun result =>
    .release_bind (by simp) (.pure (Finset.erase_insert hnew))
  have hcard : (insert packet T).card + 1 < n := by
    rw [Finset.card_insert_of_notMem hnew]
    exact hn
  cases calls.readFrame with
  | failed => exact hfree _
  | other => exact hfree _
  | ok =>
      refine .use_bind (by simp [hcodec]) (.ite (fun _ => ?_) fun _ => ?_)
      · refine (decodeFrames_obeys halloc (by simp [hcodec]) (by simp [hgraph]) hcard).bind ?_
        rintro result T' rfl
        exact hfree _
      · exact hfree _

theorem readLoop_obeys {reads : List ReadCalls} (hpackets : ∀ read ∈ reads, read.packetAlloc = true)
    (halloc : ∀ read ∈ reads, ∀ frame ∈ read.frames, Decodes frame) (hfmt : fmtCtx ∈ T)
    (hcodec : codecContext ∈ T) (hgraph : graph ∈ T) (hn : T.card + 2 < n) :
    Obeys S T n (readLoop events fmtCtx codecContext graph reads) fun _ T' => T' = T := by
  induction reads with
  | nil => exact .pure rfl
  | cons calls rest ih =>
      rcases List.forall_mem_cons.mp hpackets with ⟨hpacket, hpackets⟩
      rcases List.forall_mem_cons.mp halloc with ⟨hfirst, hrest⟩
      refine (readPacket_obeys hpacket hfirst hfmt hcodec hgraph hn).bind ?_
      rintro healthy T' rfl
      exact .ite (fun _ => ih hpackets hrest) fun _ => .pure rfl

theorem decodeStream_obeys {calls : ConnectionCalls} (h : Regular calls) (hfmt : fmtCtx ∈ T)
    (hcodec : codecContext ∈ T) (hn : T.card + events + 4 ≤ n) :
    Obeys S T n (decodeStream events calls fmtCtx codecContext) fun _ T' => T' = T := by
  have hgraph : Obeys ∅ ∅ (events + 3) (setupMultiOutputFilterGraph calls.graph events) _ :=
    setupMultiOutputFilterGraph_obeys h.nodes h.links
  refine (hgraph.call (by omega)).bind ?_
  rintro ⟨succeeded, filterGraph⟩ T' ⟨T₁, rfl, hdisj, rfl, hgraph⟩
  have hrest : (filterGraph.toFinset ∪ T) \ filterGraph.toFinset = T := by
    rw [Finset.union_comm, Finset.union_sdiff_cancel_right hdisj.symm]
  have hfailed : Obeys S (filterGraph.toFinset ∪ T) n
      (do free filterGraph; return false : Routine ReaderObject Bool) fun _ T' => T' = T := by
    refine .free_bind Finset.subset_union_left (.pure hrest)
  cases succeeded with
  | false => exact hfailed
  | true =>
      rcases Option.isSome_iff_exists.mp (hgraph rfl) with ⟨graph, rfl⟩
      have hcard : (({graph} : Finset _) ∪ T).card + 2 < n := by
        have hle := Finset.card_union_le {graph} T
        rw [Finset.card_singleton] at hle
        omega
      refine (readLoop_obeys h.packets h.frames (by simp [hfmt]) (by simp [hcodec]) (by simp)
        hcard).bind ?_
      rintro - T' rfl
      refine .use_bind (by simp) ((Obeys.forEach (fun i => ?_) _).bind ?_)
      · exact flushSink_obeys (h.flushed i) (by simp) (by omega)
      · rintro - T' rfl
        refine .release_bind (by simp) (.pure ?_)
        rw [← Finset.sdiff_singleton_eq_erase]
        exact hrest

theorem openStream_obeys {calls : ConnectionCalls} (h : Regular calls)
    (hn : events + 6 ≤ n) :
    Obeys S {fmtCtx} n (openStream events calls fmtCtx) fun _ T' => T' = {fmtCtx} := by
  refine .use_bind (by simp) (.ite (fun _ => ?_) fun _ => .pure rfl)
  refine .use_bind (by simp) (.ite (fun _ => ?_) fun _ => .pure rfl)
  refine .tryAcquire_bind (by simp; omega) (fun _ codecContext hcodec => ?_) fun _ => .pure rfl
  have hfree : ∀ again, Obeys S {codecContext, fmtCtx} n
      (do release codecContext; return again : Routine ReaderObject Bool)
      fun _ T' => T' = {fmtCtx} := fun again =>
    .release_bind (by simp) (.pure (Finset.erase_insert hcodec))
  have hcard := Finset.card_le_two (a := codecContext) (b := fmtCtx)
  refine .use_bind (by simp) (.use_bind (by simp) (.ite (fun _ => ?_) fun _ => hfree _))
  refine (decodeStream_obeys h (by simp) (by simp) (by omega)).bind ?_
  rintro again T' rfl
  exact hfree again

/-- One connection frees what it allocates. -/
theorem connection_obeys {calls : ConnectionCalls} (h : Regular calls) (hn : events + 6 ≤ n) :
    Obeys ∅ ∅ n (connection events calls) fun _ T => T = ∅ := by
  refine (connectLoop_obeys calls.attempts (by omega)).bind ?_
  rintro fmtCtx T rfl
  cases fmtCtx with
  | none => exact .pure rfl
  | some fmtCtx =>
      have hfree : ∀ again, Obeys ∅ {fmtCtx} n
          (do release fmtCtx; return again : Routine ReaderObject Bool) fun _ T => T = ∅ :=
        fun again => .release_bind (by simp) (.pure (Finset.erase_singleton _))
      refine .ite (fun _ => hfree _) fun _ => ?_
      refine (openStream_obeys h hn).bind ?_
      rintro again T rfl
      exact hfree again

theorem runStream_obeys (events : ℕ) {connections : List ConnectionCalls}
    (h : ∀ calls ∈ connections, Regular calls) :
    Obeys ∅ ∅ (events + 6) (runStream events connections) fun _ T => T = ∅ := by
  induction connections with
  | nil => exact .pure rfl
  | cons calls rest ih =>
      rcases List.forall_mem_cons.mp h with ⟨hfirst, hrest⟩
      refine (connection_obeys hfirst (Nat.le_refl _)).bind ?_
      rintro again T rfl
      exact .ite (fun _ => ih hrest) fun _ => .pure rfl

/-- Over any number of reconnections, whatever the library calls return, as long as the unchecked
allocations succeed and a successful parse links every pad: no object is used or freed after it
was freed or handed over, at most `events + 6` objects are live at a time, and none is left when
`run_stream` returns. -/
theorem runStream_frees (events : ℕ) {connections : List ConnectionCalls}
    (h : ∀ calls ∈ connections, Regular calls) :
    ∃ l, runStream events connections Ledger.empty = some ((), l) ∧ l.live = ∅ ∧
      l.peak ≤ events + 6 := by
  have hobeys : Obeys ∅ ∅ (events + 6) (runStream events connections)
      fun _ T => T = ∅ ∧ True := (runStream_obeys events h).imp fun _ _ hT => ⟨hT, trivial⟩
  rcases hobeys.exists_run (Finset.empty_subset Ledger.empty.live) with
    ⟨⟨⟩, l, hrun, -, hlive, hpeak⟩
  exact ⟨l, hrun, hlive, by simpa [Ledger.empty] using hpeak⟩

/-- A connection that is refused once, reads a packet with one frame for two events, of which
the first takes it, and ends with a read error. -/
def oneConnection : ConnectionCalls where
  attempts := [⟨true, true, false, true⟩, ⟨true, true, true, false⟩]
  stopped := false
  findStreamInfo := true
  bestStream := true
  findDecoder := true
  allocContext3 := true
  parametersToContext := true
  open2 := true
  graph := ⟨true, true, true, true, fun _ => ⟨true, true⟩, ⟨true, fun _ => false, true⟩⟩
  reads := [⟨true, .ok, true, [⟨true, .ok, true, fun i => if i = 0 then [true, true] else [true]⟩]⟩,
    ⟨true, .failed, false, []⟩]
  flushed := fun _ => [true]

/-- Two such connections, one after the other. -/
theorem runStream_frees_two :
    ∃ l, runStream 2 [oneConnection, oneConnection] Ledger.empty = some ((), l) ∧
      l.live = ∅ ∧ l.peak ≤ 8 := by
  refine runStream_frees 2 fun calls hcalls => ?_
  have hcalls : calls = oneConnection := by simpa using hcalls
  subst hcalls
  refine ⟨fun _ => rfl, fun _ _ => rfl, by simp [oneConnection], ?_, by simp [oneConnection]⟩
  have hframe : Decodes ⟨true, .ok, true, fun i => if i = 0 then [true, true] else [true]⟩ := by
    refine ⟨rfl, fun i => ?_⟩
    by_cases hi : i = 0 <;> simp [hi]
  simpa [oneConnection] using hframe

end ReaderObjects

end FrameProcessor
