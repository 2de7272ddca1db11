import FrameProcessor.Utils.FilterPads

/-!
# components/stream_io - What setting up the filter graph allocates

`setup_multi_output_filter_graph` builds two lists of open pads by hand, one node for the
source and one for each sink, which the parser consumes.  The graph itself goes to the
caller's `UniqueAVFilterGraph`, and its filter contexts live as long as it does.  What the
library calls return is open.

The node after a sink is linked without looking at the allocation; when that fails, the next
sink is written to a null pointer.

Main results:

- Theorem `ReaderObjects.linkSinks_obeys`: the loop over the sinks.
- Theorem `ReaderObjects.setupMultiOutputFilterGraph_obeys`: on every path both lists are
  freed, whether by the parser or by the function, and only the graph is left.
-/

namespace FrameProcessor

open Ownership FilterPads

/-- What a reader allocates. -/
inductive ReaderObject where
  | formatContext
  | dictionary
  | codecContext
  | filterGraph
  | filterInOut
  | packet
  | frame
deriving DecidableEq

/-- The library calls for one sink. -/
structure SinkCalls where
  createFilter : Bool
  /-- The allocation of the node after it, if there is one. -/
  nextAlloc : Bool

/-- What the calls of `setup_multi_output_filter_graph` return. -/
structure GraphCalls where
  outputsAlloc : Bool
  inputsAlloc : Bool
  graphAlloc : Bool
  createSource : Bool
  sinks : ℕ → SinkCalls
  parse : ParseCalls ReaderObject

namespace ReaderObjects

/-- The loop over the sinks from number `i`, with so many to go; `lastInputs` is the node
that sink `i` is written to.  Gives the list of inputs, or nothing when a sink could not be
created. -/
def linkSinks (sinks : ℕ → SinkCalls) (graph outputs : Handle ReaderObject) (i : ℕ) :
    (left : ℕ) → (inputs : List (Handle ReaderObject)) →
      (lastInputs : Option (Handle ReaderObject)) →
      Routine ReaderObject (Option (List (Handle ReaderObject)))
  | 0, inputs, _ => pure (some inputs)
  | left + 1, inputs, lastInputs => do
      use graph
      if (sinks i).createFilter then
        deref lastInputs
        let next ← tryAcquire (decide (0 < left) && (sinks i).nextAlloc) .filterInOut
        linkSinks sinks graph outputs (i + 1) left (inputs ++ next.toList) next
      else
        releaseAll inputs
        release outputs
        return none

/-- The part after the graph has been allocated, for so many events. -/
def buildGraph (calls : GraphCalls) (events : ℕ) (graph inputs outputs : Handle ReaderObject) :
    Routine ReaderObject Bool := do
  use graph
  if calls.createSource then
    match ← linkSinks calls.sinks graph outputs 0 events [inputs] (some inputs) with
    | none => return false
    | some inputs =>
        use outputs
        parseAndConfig calls.parse graph inputs [outputs]
  else
    release inputs
    release outputs
    return false

/-- `setup_multi_output_filter_graph`: whether it succeeded, and what is left in
`filter_graph`. -/
def setupMultiOutputFilterGraph (calls : GraphCalls) (events : ℕ) :
    Routine ReaderObject (Bool × Option (Handle ReaderObject)) := do
  let outputs ← tryAcquire calls.outputsAlloc .filterInOut
  let inputs ← tryAcquire calls.inputsAlloc .filterInOut
  match outputs, inputs with
  | some outputs, some inputs =>
      match ← tryAcquire calls.graphAlloc .filterGraph with
      | none =>
          release inputs
          release outputs
          return (false, none)
      | some graph =>
          let succeeded ← buildGraph calls events graph inputs outputs
          return (succeeded, some graph)
  | outputs, inputs =>
      free inputs
      free outputs
      return (false, none)

/-! ## Both lists are freed -/

variable {calls : GraphCalls} {graph outputs : Handle ReaderObject}
  {inputs : List (Handle ReaderObject)} {n : ℕ}

/-- The loop over the sinks either frees both lists or hands them on. -/
theorem linkSinks_obeys {sinks : ℕ → SinkCalls} (halloc : ∀ i, (sinks i).nextAlloc = true)
    {i left : ℕ} {lastInputs : Option (Handle ReaderObject)} (hnodup : inputs.Nodup)
    (hout : outputs ∉ inputs) (hlast : 0 < left → ∃ o ∈ inputs, lastInputs = some o)
    (hn : inputs.length + left + 1 ≤ n) :
    Obeys {graph} (pads inputs outputs) n (linkSinks sinks graph outputs i left inputs lastInputs)
      fun result T => (result = none ∧ T = ∅) ∨ ∃ inputs', result = some inputs' ∧
        T = pads inputs' outputs ∧ inputs'.Nodup ∧ outputs ∉ inputs' := by
  induction left generalizing i inputs lastInputs with
  | zero => exact .pure (Or.inr ⟨inputs, rfl, rfl, hnodup, hout⟩)
  | succ left ih =>
      refine .use_bind (by simp) (.ite (fun hcreate => ?_) fun hcreate => ?_)
      · rcases hlast (Nat.succ_pos left) with ⟨last, hmem, rfl⟩
        refine .use_bind (Or.inr (by simp [pads, hmem])) ?_
        refine .tryAcquire_bind ?_ (fun hnext next hfresh => ?_) fun hnext => ?_
        · have hcard := card_pads_le inputs outputs
          omega
        · have hnot : next ∉ inputs ∧ next ≠ outputs := by
            simp only [pads, Finset.mem_insert, List.mem_toFinset, not_or] at hfresh
            exact ⟨hfresh.2, hfresh.1⟩
          have hpads : insert next (pads inputs outputs) =
              pads (inputs ++ (some next).toList) outputs := by
            ext o
            simp only [pads, Finset.mem_insert, List.mem_toFinset, List.mem_append,
              Option.toList_some, List.mem_singleton]
            tauto
          rw [hpads]
          refine ih ?_ ?_ (fun _ => ⟨next, by simp, rfl⟩) ?_
          · rw [Option.toList_some, List.nodup_append]
            refine ⟨hnodup, List.nodup_singleton next, ?_⟩
            intro a ha b hb
            rw [List.mem_singleton.mp hb]
            rintro rfl
            exact hnot.1 ha
          · rw [List.mem_append, Option.toList_some, List.mem_singleton, not_or]
            exact ⟨hout, hnot.2.symm⟩
          · rw [List.length_append, Option.toList_some, List.length_singleton]
            omega
        · -- without a next node no sink is left
          have hleft : left = 0 := by
            simp only [halloc, Bool.and_true, decide_eq_false_iff_not] at hnext
            omega
          subst hleft
          rw [Option.toList_none, List.append_nil]
          exact .pure (Or.inr ⟨inputs, rfl, rfl, hnodup, hout⟩)
      · refine (release_obeys hnodup hout).imp ?_
        rintro result T ⟨hT, rfl⟩
        exact Or.inl ⟨rfl, hT⟩

/-- On every path both lists are freed. -/
theorem buildGraph_obeys {events : ℕ} {inputs : Handle ReaderObject}
    (halloc : ∀ i, (calls.sinks i).nextAlloc = true)
    (hlinks : LinksAll calls.parse) (hne : inputs ≠ outputs)
    (hn : events + 2 ≤ n) :
    Obeys {graph} {inputs, outputs} n (buildGraph calls events graph inputs outputs)
      fun _ T => T = ∅ := by
  have hpads : ({inputs, outputs} : Finset _) = pads [inputs] outputs := by
    rw [pads, Finset.pair_comm]
    rfl
  have hout : outputs ∉ [inputs] := by simpa using hne.symm
  rw [hpads]
  refine .use_bind (by simp) (.ite (fun hsource => ?_) fun hsource => ?_)
  · refine (linkSinks_obeys halloc (List.nodup_singleton _) hout
      (fun _ => ⟨inputs, by simp, rfl⟩) (by simp; omega)).bind ?_
    rintro result T (⟨rfl, rfl⟩ | ⟨inputs', rfl, rfl, hnodup, hout'⟩)
    · exact .pure rfl
    · exact .use_bind (by simp [pads]) (parseAndConfig_obeys hlinks (by simp) hnodup hout')
  · rw [← hpads]
    refine .release_bind (Finset.mem_insert_self _ _) ?_
    rw [Finset.erase_insert (by simpa using hne)]
    exact .release_bind (by simp) (.pure (Finset.erase_singleton _))

/-- When the nodes that are not checked can be allocated and a successful parse links every
pad: the lists are freed on every path, and what is left is the graph, if there is one. -/
theorem setupMultiOutputFilterGraph_obeys {events : ℕ}
    (halloc : ∀ i, (calls.sinks i).nextAlloc = true)
    (hlinks : LinksAll calls.parse) :
    Obeys ∅ ∅ (events + 3) (setupMultiOutputFilterGraph calls events)
      fun result T => T = result.2.toFinset ∧ (result.1 = true → result.2.isSome = true) := by
  refine .tryAcquire_bind (by simp) (fun _ outputs _ => ?_) fun _ => ?_
  · refine .tryAcquire_bind (by simp) (fun _ inputs hinputs => ?_) fun _ => ?_
    · rw [insert_empty_eq] at hinputs ⊢
      have hne : inputs ≠ outputs := by simpa using hinputs
      refine .tryAcquire_bind (Finset.card_le_two.trans_lt (by omega)) (fun _ graph hgraph => ?_)
        fun _ => ?_
      · have hpads : Disjoint ({inputs, outputs} : Finset (Handle ReaderObject)) {graph} :=
          Finset.disjoint_singleton_right.mpr hgraph
        have hbuild : Obeys {graph} {inputs, outputs} (events + 2)
            (buildGraph calls events graph inputs outputs) fun _ T => T = ∅ :=
          buildGraph_obeys halloc hlinks hne (Nat.le_refl _)
        have hframe := hbuild.frame (S := ∅) hpads Finset.subset_union_right (Nat.le_refl _)
        rw [Finset.union_comm] at hframe
        refine hframe.bind ?_
        rintro succeeded T ⟨T₁, rfl, -, rfl⟩
        exact .pure ⟨Finset.empty_union _, fun _ => rfl⟩
      · refine .release_bind (Finset.mem_insert_self _ _) ?_
        rw [Finset.erase_insert hinputs]
        exact .release_bind (by simp) (.pure ⟨Finset.erase_singleton _, nofun⟩)
    · rw [insert_empty_eq]
      exact .free_bind (by simp) (.free_bind (by simp) (.pure ⟨by simp, nofun⟩))
  · refine .tryAcquire_bind (by simp) (fun _ inputs _ => ?_) fun _ => ?_
    · rw [insert_empty_eq]
      exact .free_bind (by simp) (.free_bind (by simp) (.pure ⟨by simp, nofun⟩))
    · exact .free_bind (by simp) (.free_bind (by simp) (.pure ⟨by simp, nofun⟩))

end ReaderObjects

end FrameProcessor
