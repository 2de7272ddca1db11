import FrameProcessor.Foundations.Table
import FrameProcessor.Utils.FilterPads

/-!
# components/worker - What a worker thread allocates

`worker_loop` with the objects it allocates, as a program over what the library calls return
for each frame.  A context owns its graph and keeps raw pointers to the source and the sink in
it, which are modelled by the graph that they point into.  Storing a context under a key frees
the graph that was there, and the end of the thread frees the rest.

The frames that take the output of a graph are used without a look at whether they could be
allocated.  `Regular` says that these allocations succeed; without it nothing is claimed.

Main results:

- Theorem `WorkerObjects.createProcessingFilter_obeys`: on every path only the graph is left.
- Theorem `WorkerObjects.processFrame_obeys`: an iteration keeps the graphs of the contexts, and
  their pointers point into them.
- Theorem `WorkerObjects.workerLoop_frees`: when the unchecked allocations succeed, over any
  sequence of frames nothing is used or freed after it was freed, what is live at a time is
  bounded by the number of different keys, and nothing is left when the thread ends.
-/

namespace FrameProcessor

open Ownership FilterPads Std

/-- What a worker thread allocates or receives. -/
inductive WorkerObject where
  | filterGraph
  | filterInOut
  | frame
deriving DecidableEq

/-- What the calls of `create_processing_filter` return. -/
structure FilterCalls where
  graphAlloc : Bool
  outputsAlloc : Bool
  inputsAlloc : Bool
  createSource : Bool
  createSink : Bool
  parse : ParseCalls WorkerObject

/-- What the calls of one round of the drain loop return. -/
structure DrainCalls where
  frameAlloc : Bool
  getFrame : Bool

/-- What the calls for one frame return. -/
structure ProcessCalls where
  ctxKey : String
  /-- A cached context of the key was made for the parameters of the frame. -/
  fits : Bool
  filter : FilterCalls
  clone : Bool
  addFrame : Bool
  drained : List DrainCalls

/-- The objects of a `StreamProcessingContext`. -/
structure ContextObjects where
  filterGraph : Option (Handle WorkerObject) := none
  buffersrcCtx : Option (Handle WorkerObject) := none
  buffersinkCtx : Option (Handle WorkerObject) := none

namespace WorkerObjects

/-- `stream_contexts` -/
abbrev Contexts := ExtTreeMap String ContextObjects

/-! ## Creating a graph -/

/-- The part after the graph and both nodes have been allocated: whether it succeeded, and the
context. -/
def buildGraph (calls : FilterCalls) (graph inputs outputs : Handle WorkerObject) :
    Routine WorkerObject (Bool × ContextObjects) := do
  use graph
  if calls.createSource then
    use graph
    if calls.createSink then
      use outputs
      use inputs
      let succeeded ← parseAndConfig calls.parse graph [inputs] [outputs]
      return (succeeded, ⟨some graph, some graph, some graph⟩)
    else
      release inputs
      release outputs
      return (false, ⟨some graph, some graph, none⟩)
  else
    release inputs
    release outputs
    return (false, ⟨some graph, none, none⟩)

/-- `create_processing_filter` for a new context. -/
def createProcessingFilter (calls : FilterCalls) :
    Routine WorkerObject (Bool × ContextObjects) := do
  match ← tryAcquire calls.graphAlloc .filterGraph with
  | none => return (false, {})
  | some graph =>
      let outputs ← tryAcquire calls.outputsAlloc .filterInOut
      let inputs ← tryAcquire calls.inputsAlloc .filterInOut
      match outputs, inputs with
      | some outputs, some inputs => buildGraph calls graph inputs outputs
      | outputs, inputs =>
          free inputs
          free outputs
          return (false, ⟨some graph, none, none⟩)

/-! ## The contexts -/

/-- `stream_contexts[ctx_key] = std::move(new_ctx)`, which frees the graph that was there. -/
def store (contexts : Contexts) (ctxKey : String) (newCtx : ContextObjects) :
    Routine WorkerObject Contexts := do
  free (contexts[ctxKey]?.bind ContextObjects.filterGraph)
  return contexts.insert ctxKey newCtx

/-- The context of a frame, made anew when none fits; nothing when it cannot be created. -/
def acquireContext (contexts : Contexts) (calls : ProcessCalls) :
    Routine WorkerObject (Contexts × Option ContextObjects) := do
  match contexts[calls.ctxKey]?.filter fun _ => calls.fits with
  | some context => return (contexts, some context)
  | none =>
      match ← createProcessingFilter calls.filter with
      | (true, newCtx) =>
          let contexts ← store contexts calls.ctxKey newCtx
          return (contexts, some newCtx)
      | (false, newCtx) =>
          free newCtx.filterGraph
          return (contexts, none)

/-! ## The loop -/

/-- The drain loop with `budget` rounds left. -/
def drain (context : ContextObjects) : (budget : ℕ) → List DrainCalls → Routine WorkerObject Unit
  | 0, _ => pure ()
  | _, [] => pure ()
  | budget + 1, calls :: rounds => do
      let procFrame ← tryAcquire calls.frameAlloc .frame
      deref context.buffersinkCtx
      deref procFrame
      if calls.getFrame then
        match procFrame with
        | some procFrame => give procFrame
        | none => pure ()
        drain context budget rounds
      else
        free procFrame

/-- Feeding a clone of the frame to the graph and draining it. -/
def process (context : ContextObjects) (calls : ProcessCalls) (inputFrame : Handle WorkerObject) :
    Routine WorkerObject Unit := do
  use inputFrame
  match ← tryAcquire calls.clone .frame with
  | none => return
  | some frameToProcess =>
      deref context.buffersrcCtx
      use frameToProcess
      if calls.addFrame then
        drain context 5 calls.drained
        release frameToProcess
      else
        release frameToProcess

/-- One iteration of the loop, with the frame that was popped. -/
def processFrame (contexts : Contexts) (calls : ProcessCalls) :
    Routine WorkerObject Contexts := do
  let inputFrame ← acquire .frame
  let (contexts, context) ← acquireContext contexts calls
  match context with
  | none =>
      release inputFrame
      return contexts
  | some context =>
      process context calls inputFrame
      release inputFrame
      return contexts

/-- The frames that the thread pops. -/
def processFrames (contexts : Contexts) : List ProcessCalls → Routine WorkerObject Contexts
  | [] => pure contexts
  | calls :: rest => do
      let contexts ← processFrame contexts calls
      processFrames contexts rest

/-- `Worker::worker_loop`; at its end `stream_contexts` is destroyed. -/
def workerLoop (frames : List ProcessCalls) : Routine WorkerObject Unit := do
  let contexts ← processFrames ∅ frames
  releaseAll (contexts.toList.filterMap fun entry => entry.2.filterGraph)

/-! ## Creating a graph leaves the graph -/

variable {S T : Finset (Handle WorkerObject)} {n : ℕ} {graph : Handle WorkerObject}

/-- A context that is complete: its pointers point into its graph. -/
def completeContext (graph : Handle WorkerObject) : ContextObjects :=
  ⟨some graph, some graph, some graph⟩

/-- What is left of a new context: the graph, if there is one, and a complete context if it
can be used. -/
def Created (result : Bool × ContextObjects) (T : Finset (Handle WorkerObject)) : Prop :=
  T = result.2.filterGraph.toFinset ∧
    (result.1 = true → ∃ graph, result.2 = completeContext graph)

theorem buildGraph_obeys {calls : FilterCalls} (hlinks : LinksAll calls.parse)
    {inputs outputs : Handle WorkerObject} (hne : inputs ≠ outputs) (hgraph : graph ∈ S) :
    Obeys S {inputs, outputs} n (buildGraph calls graph inputs outputs) fun result T =>
      T = ∅ ∧ result.2.filterGraph = some graph ∧
        (result.1 = true → result.2 = completeContext graph) := by
  have hpads : ({inputs, outputs} : Finset _) = pads [inputs] outputs := by
    rw [pads, Finset.pair_comm]
    rfl
  have hfree : ∀ context : ContextObjects, context.filterGraph = some graph →
      Obeys S {inputs, outputs} n
        (do release inputs; release outputs; return (false, context) :
          Routine WorkerObject (Bool × ContextObjects)) fun result T =>
        T = ∅ ∧ result.2.filterGraph = some graph ∧
          (result.1 = true → result.2 = completeContext graph) := by
    intro context hcontext
    refine .release_bind (Finset.mem_insert_self _ _) ?_
    rw [Finset.erase_insert (by simpa using hne)]
    have hfailed : (false, context).1 = true → (false, context).2 = completeContext graph := by
      intro htrue
      cases htrue
    exact .release_bind (by simp) (.pure ⟨Finset.erase_singleton _, hcontext, hfailed⟩)
  refine .use_bind (Or.inl hgraph) (.ite (fun _ => ?_) fun _ => hfree _ rfl)
  refine .use_bind (Or.inl hgraph) (.ite (fun _ => ?_) fun _ => hfree _ rfl)
  refine .use_bind (by simp) (.use_bind (by simp) ?_)
  rw [hpads]
  refine (parseAndConfig_obeys hlinks hgraph (List.nodup_singleton _)
    (by simpa using hne.symm)).bind ?_
  rintro succeeded T rfl
  exact .pure ⟨rfl, rfl, fun _ => rfl⟩

/-- On every path the nodes are freed, and only the graph is left. -/
theorem createProcessingFilter_obeys {calls : FilterCalls} (hlinks : LinksAll calls.parse)
    (hn : 3 ≤ n) : Obeys ∅ ∅ n (createProcessingFilter calls) Created := by
  refine .tryAcquire_bind (by simp; omega) (fun _ graph _ => ?_) fun _ => .pure ⟨rfl, nofun⟩
  rw [insert_empty_eq]
  have hgraph : ∀ context : ContextObjects, context.filterGraph = some graph →
      Created (false, context) {graph} := by
    intro context hcontext
    exact ⟨by rw [hcontext]; rfl, nofun⟩
  refine .tryAcquire_bind (by simp; omega) (fun _ outputs houtputs => ?_) fun _ => ?_
  · refine .tryAcquire_bind (Finset.card_le_two.trans_lt (by omega)) (fun _ inputs hinputs => ?_)
      fun _ => ?_
    · have hne : inputs ≠ outputs := fun heq => hinputs (by simp [heq])
      have hpads : Disjoint ({inputs, outputs} : Finset (Handle WorkerObject)) {graph} := by
        rw [Finset.disjoint_singleton_right]
        simp only [Finset.mem_insert, Finset.mem_singleton, not_or] at hinputs houtputs ⊢
        exact ⟨fun heq => hinputs.2 heq.symm, fun heq => houtputs heq.symm⟩
      have hbuild : Obeys {graph} {inputs, outputs} 2 (buildGraph calls graph inputs outputs) _ :=
        buildGraph_obeys hlinks hne (Finset.mem_singleton_self graph)
      have hframe := hbuild.frame (S := ∅) (n := n) hpads Finset.subset_union_right
        (by rw [Finset.card_singleton]; omega)
      have hall : ({inputs, outputs} : Finset _) ∪ {graph} = {inputs, outputs, graph} := by
        rw [Finset.insert_union, Finset.singleton_union]
      rw [hall] at hframe
      refine hframe.imp ?_
      rintro ⟨succeeded, context⟩ T ⟨T₁, rfl, -, rfl, hcontext, hcomplete⟩
      exact ⟨by rw [hcontext, Finset.empty_union]; rfl, fun h => ⟨graph, hcomplete h⟩⟩
    · refine .free_bind (by simp) (.free_bind (by simp) (.pure ?_))
      rw [Option.toFinset_none, Finset.sdiff_empty, Option.toFinset_some,
        Finset.sdiff_singleton_eq_erase, Finset.erase_insert houtputs]
      exact hgraph _ rfl
  · refine .tryAcquire_bind (by simp; omega) (fun _ inputs hinputs => ?_) fun _ => ?_
    · refine .free_bind (by simp) (.free_bind (by simp) (.pure ?_))
      rw [Option.toFinset_none, Finset.sdiff_empty, Option.toFinset_some,
        Finset.sdiff_singleton_eq_erase, Finset.erase_insert hinputs]
      exact hgraph _ rfl
    · exact .free_bind (by simp) (.free_bind (by simp) (.pure (by simpa using hgraph _ rfl)))

/-! ## The graphs of the contexts -/

variable {contexts : Contexts} {K : Finset String}

/-- The graphs that the contexts own. -/
def graphs (contexts : Contexts) : List (Handle WorkerObject) :=
  contexts.toList.filterMap fun entry => entry.2.filterGraph

/-- Every context is complete, no two have the same graph, and their keys are among those
given. -/
structure Sound (K : Finset String) (contexts : Contexts) : Prop where
  complete : ∀ (key : String) (context : ContextObjects), contexts[key]? = some context →
    ∃ graph, context = completeContext graph
  nodup : (graphs contexts).Nodup
  keys : ∀ key ∈ contexts, key ∈ K

theorem sound_empty : Sound K ∅ where
  complete := by simp
  nodup := by rw [graphs, ExtTreeMap.toList_eq_nil_iff.mpr rfl]; exact List.nodup_nil
  keys := by simp

/-- There are no more contexts than keys. -/
theorem Sound.card_le (h : Sound K contexts) : (graphs contexts).toFinset.card ≤ K.card := by
  have hgraphs : (graphs contexts).length ≤ contexts.keys.length := by
    rw [ExtTreeMap.length_keys, ← ExtTreeMap.length_toList]
    exact List.length_filterMap_le _ _
  have hkeys : contexts.keys.toFinset ⊆ K := by
    intro key hkey
    exact h.keys key (by simpa using hkey)
  have hnodup : contexts.keys.toFinset.card = contexts.keys.length :=
    List.toFinset_card_of_nodup ExtTreeMap.nodup_keys
  have hcard := Finset.card_le_card hkeys
  have hgraphs' := List.toFinset_card_le (graphs contexts)
  omega

/-- The graph of one context, and those of the others. -/
theorem graphs_perm {key : String} (h : contexts[key]? = some (completeContext graph)) :
    (graphs contexts).Perm (graph :: graphs (contexts.erase key)) :=
  (Table.toList_perm_of_getElem? h).filterMap _

theorem graphs_insert_perm (contexts : Contexts) (key : String) (graph : Handle WorkerObject) :
    (graphs (contexts.insert key (completeContext graph))).Perm
      (graph :: graphs (contexts.erase key)) :=
  (Table.toList_insert_perm contexts key (completeContext graph)).filterMap _

/-- What is left when the graph of a key has been freed. -/
theorem Sound.graphs_sdiff (h : Sound K contexts) (key : String) :
    (contexts[key]?.bind ContextObjects.filterGraph).toFinset ⊆ (graphs contexts).toFinset ∧
      (graphs contexts).toFinset \ (contexts[key]?.bind ContextObjects.filterGraph).toFinset =
        (graphs (contexts.erase key)).toFinset ∧ (graphs (contexts.erase key)).Nodup := by
  cases hold : contexts[key]? with
  | none =>
      rw [Table.erase_of_getElem?_eq_none hold]
      exact ⟨Finset.empty_subset _, Finset.sdiff_empty, h.nodup⟩
  | some context =>
      rcases h.complete key context hold with ⟨old, rfl⟩
      have hperm := graphs_perm hold
      have hset := List.toFinset_eq_of_perm _ _ hperm
      rcases List.nodup_cons.mp (hperm.nodup_iff.mp h.nodup) with ⟨hnot, hnodup⟩
      rw [List.toFinset_cons] at hset
      rw [hset]
      refine ⟨by simp [completeContext], ?_, hnodup⟩
      have hnot' : old ∉ (graphs (contexts.erase key)).toFinset := by simpa using hnot
      exact (Finset.sdiff_singleton_eq_erase old _).trans (Finset.erase_insert hnot')

/-- Storing a complete context frees the graph it replaces. -/
theorem store_obeys (h : Sound K contexts) {key : String} (hkey : key ∈ K)
    (hgraph : graph ∉ (graphs contexts).toFinset) :
    Obeys S (insert graph (graphs contexts).toFinset) n (store contexts key (completeContext graph))
      fun contexts' T => T = (graphs contexts').toFinset ∧ Sound K contexts' ∧
        contexts'[key]? = some (completeContext graph) := by
  rcases h.graphs_sdiff key with ⟨hsub, hleft, hnodup⟩
  have hnot : graph ∉ (graphs (contexts.erase key)).toFinset := by
    rw [← hleft]
    exact fun hmem => hgraph (Finset.mem_sdiff.mp hmem).1
  have hperm := graphs_insert_perm contexts key graph
  refine .free_bind (hsub.trans (Finset.subset_insert _ _))
    (.pure ⟨?_, ⟨?_, ?_, ?_⟩, ExtTreeMap.getElem?_insert_self⟩)
  · have hold : graph ∉ (contexts[key]?.bind ContextObjects.filterGraph).toFinset :=
      fun hmem => hgraph (hsub hmem)
    rw [Finset.insert_sdiff_of_notMem _ hold, hleft, List.toFinset_eq_of_perm _ _ hperm,
      List.toFinset_cons]
  · intro key' context hcontext
    rw [ExtTreeMap.getElem?_insert] at hcontext
    split at hcontext
    · cases hcontext
      exact ⟨graph, rfl⟩
    · exact h.complete key' context hcontext
  · exact hperm.nodup_iff.mpr (List.nodup_cons.mpr ⟨by simpa using hnot, hnodup⟩)
  · intro key' hmem
    rcases ExtTreeMap.mem_insert.mp hmem with heq | hmem
    · exact LawfulEqCmp.compare_eq_iff_eq.mp heq ▸ hkey
    · exact h.keys key' hmem

/-- The context of a frame is one of the contexts, if there is one. -/
theorem acquireContext_obeys (h : Sound K contexts) {calls : ProcessCalls}
    (hlinks : LinksAll calls.filter.parse) (hkey : calls.ctxKey ∈ K) (hn : K.card + 3 ≤ n) :
    Obeys S (graphs contexts).toFinset n (acquireContext contexts calls) fun result T =>
      T = (graphs result.1).toFinset ∧ Sound K result.1 ∧
        ∀ context, result.2 = some context →
          ∃ graph ∈ T, context = completeContext graph := by
  have hmem : ∀ {contexts : Contexts} {key : String} {graph : Handle WorkerObject},
      contexts[key]? = some (completeContext graph) → graph ∈ (graphs contexts).toFinset := by
    intro contexts key graph hcontext
    rw [List.mem_toFinset, (graphs_perm hcontext).mem_iff]
    exact List.mem_cons_self
  cases hfits : contexts[calls.ctxKey]?.filter fun _ => calls.fits with
  | some context =>
      have hcached := (Option.filter_eq_some_iff.mp hfits).1
      rcases h.complete _ context hcached with ⟨graph, rfl⟩
      have hrun : acquireContext contexts calls =
          pure (contexts, some (completeContext graph)) := by
        simp only [acquireContext, hfits]
      rw [hrun]
      exact .pure ⟨rfl, h, fun context heq => ⟨graph, hmem hcached, (Option.some.inj heq).symm⟩⟩
  | none =>
      have hcreate : Obeys ∅ ∅ 3 (createProcessingFilter calls.filter) Created :=
        createProcessingFilter_obeys hlinks (Nat.le_refl _)
      have hgraphs := h.card_le
      have hrun : acquireContext contexts calls = (do
          match ← createProcessingFilter calls.filter with
          | (true, newCtx) =>
              let contexts ← store contexts calls.ctxKey newCtx
              return (contexts, some newCtx)
          | (false, newCtx) =>
              free newCtx.filterGraph
              return (contexts, none)) := by
        simp only [acquireContext, hfits]
      rw [hrun]
      refine (hcreate.call (by omega)).bind ?_
      rintro ⟨succeeded, newCtx⟩ T ⟨T₁, rfl, hdisj, rfl, hcomplete⟩
      cases succeeded with
      | true =>
          rcases hcomplete rfl with ⟨graph, rfl⟩
          have hgraph : graph ∉ (graphs contexts).toFinset :=
            Finset.disjoint_singleton_left.mp hdisj
          refine (store_obeys h hkey hgraph).bind ?_
          rintro contexts' T ⟨rfl, hsound, hstored⟩
          refine .pure ⟨rfl, hsound, fun context heq => ⟨graph, hmem hstored, ?_⟩⟩
          exact (Option.some.inj heq).symm
      | false =>
          refine .free_bind Finset.subset_union_left (.pure ⟨?_, h, nofun⟩)
          rw [Finset.union_comm, Finset.union_sdiff_cancel_right hdisj.symm]

/-! ## The loop -/

/-- The frames that take the output of a graph could be allocated, and a successful parse links
both pads. -/
structure Regular (calls : ProcessCalls) : Prop where
  links : LinksAll calls.filter.parse
  frames : ∀ round ∈ calls.drained, round.frameAlloc = true

theorem drain_obeys {rounds : List DrainCalls} (halloc : ∀ round ∈ rounds, round.frameAlloc = true)
    (budget : ℕ) (hgraph : graph ∈ T) (hn : T.card < n) :
    Obeys S T n (drain (completeContext graph) budget rounds) fun _ T' => T' = T := by
  induction budget generalizing rounds with
  | zero => exact .pure rfl
  | succ budget ih =>
      cases rounds with
      | nil => exact .pure rfl
      | cons calls rounds =>
          rcases List.forall_mem_cons.mp halloc with ⟨hfirst, hrest⟩
          refine .tryAcquire_bind_of_true hfirst hn fun procFrame hframe => ?_
          refine .use_bind (by simp [hgraph]) (.use_bind (by simp) (.ite (fun _ => ?_) fun _ => ?_))
          · refine .give_bind (by simp) ?_
            rw [Finset.erase_insert hframe]
            exact ih hrest
          · exact .release (by simp) (Finset.erase_insert hframe)

theorem process_obeys {calls : ProcessCalls} (h : Regular calls) {inputFrame : Handle WorkerObject}
    (hinput : inputFrame ∈ T) (hgraph : graph ∈ T) (hn : T.card + 1 < n) :
    Obeys S T n (process (completeContext graph) calls inputFrame) fun _ T' => T' = T := by
  refine .use_bind (Or.inr hinput) ?_
  refine .tryAcquire_bind (by omega) (fun _ frameToProcess hframe => ?_) fun _ => .pure rfl
  refine .use_bind (by simp [hgraph]) (.use_bind (by simp) (.ite (fun _ => ?_) fun _ => ?_))
  · refine (drain_obeys h.frames 5 (by simp [hgraph]) ?_).bind ?_
    · rw [Finset.card_insert_of_notMem hframe]
      exact hn
    · rintro - T' rfl
      exact .release (by simp) (Finset.erase_insert hframe)
  · exact .release (by simp) (Finset.erase_insert hframe)

/-- An iteration leaves the graphs of the contexts. -/
theorem processFrame_obeys (h : Sound K contexts) {calls : ProcessCalls} (hcalls : Regular calls)
    (hkey : calls.ctxKey ∈ K) (hn : K.card + 4 ≤ n) :
    Obeys S (graphs contexts).toFinset n (processFrame contexts calls) fun contexts' T =>
      T = (graphs contexts').toFinset ∧ Sound K contexts' := by
  have hcard := h.card_le
  refine .acquire_bind (by omega) fun inputFrame hinput => ?_
  have hacquire : Obeys (S ∪ {inputFrame}) (graphs contexts).toFinset (K.card + 3)
      (acquireContext contexts calls) _ := acquireContext_obeys h hcalls.links hkey (Nat.le_refl _)
  have hframe := hacquire.frame (S := S) (R := {inputFrame}) (n := n)
    (Finset.disjoint_singleton_right.mpr hinput) (Finset.Subset.refl _)
    (by rw [Finset.card_singleton]; omega)
  rw [Finset.union_comm, Finset.singleton_union] at hframe
  refine hframe.bind ?_
  rintro ⟨contexts', context⟩ T ⟨T₁, rfl, hdisj, rfl, hsound, hcontext⟩
  rw [Finset.disjoint_singleton_right] at hdisj
  rw [Finset.union_comm, Finset.singleton_union]
  have hrest : Obeys S (insert inputFrame (graphs contexts').toFinset) n
      (do release inputFrame; return contexts' : Routine WorkerObject Contexts)
      fun contexts' T => T = (graphs contexts').toFinset ∧ Sound K contexts' :=
    .release_bind (by simp) (.pure ⟨Finset.erase_insert hdisj, hsound⟩)
  cases context with
  | none => exact hrest
  | some context =>
      rcases hcontext context rfl with ⟨graph, hgraph, rfl⟩
      have hcard' := hsound.card_le
      refine (process_obeys hcalls (by simp) (by simp [hgraph]) ?_).bind ?_
      · rw [Finset.card_insert_of_notMem hdisj]
        omega
      · rintro - T rfl
        exact hrest

theorem processFrames_obeys (h : Sound K contexts) {frames : List ProcessCalls}
    (hcalls : ∀ calls ∈ frames, Regular calls) (hkeys : ∀ calls ∈ frames, calls.ctxKey ∈ K)
    (hn : K.card + 4 ≤ n) :
    Obeys S (graphs contexts).toFinset n (processFrames contexts frames) fun contexts' T =>
      T = (graphs contexts').toFinset ∧ Sound K contexts' := by
  induction frames generalizing contexts with
  | nil => exact .pure ⟨rfl, h⟩
  | cons calls rest ih =>
      rcases List.forall_mem_cons.mp hcalls with ⟨hfirst, hcalls⟩
      rcases List.forall_mem_cons.mp hkeys with ⟨hkey, hkeys⟩
      refine (processFrame_obeys h hfirst hkey hn).bind ?_
      rintro contexts' T ⟨rfl, hsound⟩
      exact ih hsound hcalls hkeys

/-- Whatever the library calls return, as long as the unchecked allocations succeed and a
successful parse links both pads: over any sequence of frames no graph or frame is used or freed
after it was freed or handed over, also not through the pointers of a context, no more objects
are live than there are keys and four more, and none is left when the thread ends. -/
theorem workerLoop_frees {frames : List ProcessCalls} (hcalls : ∀ calls ∈ frames, Regular calls) :
    ∃ l, workerLoop frames Ledger.empty = some ((), l) ∧ l.live = ∅ ∧
      l.peak ≤ (frames.map ProcessCalls.ctxKey).toFinset.card + 4 := by
  let K := (frames.map ProcessCalls.ctxKey).toFinset
  have hkeys : ∀ calls ∈ frames, calls.ctxKey ∈ K := fun calls hmem =>
    List.mem_toFinset.mpr (List.mem_map_of_mem hmem)
  have hempty : (graphs ∅).toFinset = ∅ := by
    rw [graphs, ExtTreeMap.toList_eq_nil_iff.mpr rfl]
    rfl
  have hloop : Obeys ∅ ∅ (K.card + 4) (workerLoop frames) fun _ T => T = ∅ ∧ True := by
    have hframes := processFrames_obeys (S := ∅) sound_empty hcalls hkeys (Nat.le_refl _)
    rw [hempty] at hframes
    refine hframes.bind ?_
    rintro contexts T ⟨rfl, hsound⟩
    refine (Obeys.releaseAll hsound.nodup fun o ho => List.mem_toFinset.mpr ho).imp ?_
    rintro - T rfl
    exact ⟨Finset.sdiff_self _, trivial⟩
  rcases hloop.exists_run (Finset.empty_subset Ledger.empty.live) with
    ⟨⟨⟩, l, hrun, -, hlive, hpeak⟩
  exact ⟨l, hrun, hlive, by simpa [Ledger.empty] using hpeak⟩

/-- The calls for a frame whose graph has to be made, and of which one frame is handed on. -/
def oneFrame (ctxKey : String) : ProcessCalls where
  ctxKey := ctxKey
  fits := false
  filter := ⟨true, true, true, true, true, ⟨true, fun _ => false, true⟩⟩
  clone := true
  addFrame := true
  drained := [⟨true, true⟩, ⟨true, false⟩]

/-- The graph of one key is replaced, and that of another is kept. -/
theorem workerLoop_frees_three :
    ∃ l, workerLoop [oneFrame "1_a", oneFrame "2_a", oneFrame "1_a"] Ledger.empty = some ((), l) ∧
      l.live = ∅ ∧ l.peak ≤ ({"1_a", "2_a", "1_a"} : Finset String).card + 4 := by
  refine workerLoop_frees fun calls hmem => ?_
  have hone : ∃ key, calls = oneFrame key := by
    simp only [List.mem_cons, List.not_mem_nil, or_false] at hmem
    rcases hmem with rfl | rfl | rfl <;> exact ⟨_, rfl⟩
  rcases hone with ⟨key, rfl⟩
  exact ⟨fun _ _ => rfl, by simp [oneFrame]⟩

end WorkerObjects

end FrameProcessor
