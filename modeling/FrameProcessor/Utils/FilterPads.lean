import FrameProcessor.Foundations.Ownership

/-!
# utils - Lists of open pads

Both filter graphs of the program are described by a text, with a list of pads for its inputs
and one for its output.  `avfilter_graph_parse_ptr` takes the nodes of the pads that it links
out of the lists, and leaves the others to its caller, who frees them when it has failed.

Main results:

- Theorem `FilterPads.release_obeys`: the error paths before the parser free both lists.
- Theorem `FilterPads.parseAndConfig_obeys`: when a successful parse links every pad, both lists
  are freed on every path after it.
-/

namespace FrameProcessor

open Ownership

/-- What `avfilter_graph_parse_ptr` and `avfilter_graph_config` return; `leavesOpen` are the
nodes that the parser leaves in the lists. -/
structure ParseCalls (κ : Type) where
  parsePtr : Bool
  leavesOpen : Handle κ → Bool
  graphConfig : Bool

namespace FilterPads

variable {κ : Type} [DecidableEq κ]

/-- `avfilter_graph_parse_ptr` -/
def parsePtr (calls : ParseCalls κ) (graph : Handle κ) (inputs outputs : List (Handle κ)) :
    Routine κ (List (Handle κ) × List (Handle κ)) := do
  use graph
  releaseAll ((inputs ++ outputs).filter fun o => !calls.leavesOpen o)
  return (inputs.filter calls.leavesOpen, outputs.filter calls.leavesOpen)

/-- From the parser to the end of the functions that set up a graph. -/
def parseAndConfig (calls : ParseCalls κ) (graph : Handle κ) (inputs outputs : List (Handle κ)) :
    Routine κ Bool := do
  let (inputs, outputs) ← parsePtr calls graph inputs outputs
  if calls.parsePtr then
    use graph
    return calls.graphConfig
  else
    releaseAll inputs
    releaseAll outputs
    return false

/-- A successful parse links every pad. -/
def LinksAll (calls : ParseCalls κ) : Prop :=
  calls.parsePtr = true → ∀ o, calls.leavesOpen o = false

/-- The nodes of both lists; the output has one. -/
def pads (inputs : List (Handle κ)) (outputs : Handle κ) : Finset (Handle κ) :=
  insert outputs inputs.toFinset

theorem card_pads_le (inputs : List (Handle κ)) (outputs : Handle κ) :
    (pads inputs outputs).card ≤ inputs.length + 1 :=
  (Finset.card_insert_le _ _).trans (Nat.succ_le_succ (List.toFinset_card_le _))

variable {S : Finset (Handle κ)} {n : ℕ} {calls : ParseCalls κ} {graph outputs : Handle κ}
  {inputs : List (Handle κ)}

/-- Freeing both lists leaves nothing. -/
theorem release_obeys {α : Type} {result : α} (hnodup : inputs.Nodup) (hout : outputs ∉ inputs) :
    Obeys S (pads inputs outputs) n
      (do releaseAll inputs; release outputs; return result : Routine κ α)
      fun a T => T = ∅ ∧ a = result := by
  refine (Obeys.releaseAll hnodup fun o ho => by simp [pads, ho]).bind ?_
  rintro - T rfl
  have hrest : pads inputs outputs \ inputs.toFinset = {outputs} := by
    rw [pads, Finset.insert_sdiff_of_notMem _ (by simpa using hout), Finset.sdiff_self]
    rfl
  rw [hrest]
  exact .release_bind (by simp) (.pure ⟨Finset.erase_singleton _, rfl⟩)

/-- What the parser leaves in the lists is still owned. -/
theorem parsePtr_obeys (hgraph : graph ∈ S) (hnodup : inputs.Nodup) (hout : outputs ∉ inputs) :
    Obeys S (pads inputs outputs) n (parsePtr calls graph inputs [outputs])
      fun lists T => lists = (inputs.filter calls.leavesOpen, [outputs].filter calls.leavesOpen) ∧
        T = (pads inputs outputs).filter fun o => calls.leavesOpen o = true := by
  have hall : (inputs ++ [outputs]).Nodup :=
    List.nodup_append.mpr ⟨hnodup, List.nodup_singleton _, fun a ha b hb heq => by
      rw [List.mem_singleton.mp hb] at heq
      exact hout (heq ▸ ha)⟩
  refine .use_bind (Or.inl hgraph) ((Obeys.releaseAll (hall.filter _) fun o ho => ?_).bind ?_)
  · have hmem := List.mem_of_mem_filter ho
    simp only [List.mem_append, List.mem_singleton] at hmem
    simpa [pads] using hmem.symm
  · rintro - T rfl
    refine .pure ⟨rfl, ?_⟩
    ext o
    simp only [pads, Finset.mem_sdiff, Finset.mem_filter, Finset.mem_insert, List.mem_toFinset,
      List.mem_filter, List.mem_append, List.mem_singleton]
    cases calls.leavesOpen o with
    | true => simp
    | false =>
        simp only [Bool.false_eq_true, and_false, Bool.not_false, and_true]
        tauto

/-- A successful parse takes all nodes; after a failed one its caller frees the rest. -/
theorem parseAndConfig_obeys (hlinks : LinksAll calls) (hgraph : graph ∈ S)
    (hnodup : inputs.Nodup) (hout : outputs ∉ inputs) :
    Obeys S (pads inputs outputs) n (parseAndConfig calls graph inputs [outputs])
      fun _ T => T = ∅ := by
  refine (parsePtr_obeys hgraph hnodup hout).bind ?_
  rintro - T ⟨rfl, rfl⟩
  refine .ite (fun hok => ?_) fun hfailed => ?_
  · have hnone : ((pads inputs outputs).filter fun o => calls.leavesOpen o = true) = ∅ :=
      Finset.filter_eq_empty_iff.mpr fun o _ => by simp [hlinks hok o]
    rw [hnone]
    exact .use_bind (Or.inl hgraph) (.pure rfl)
  · refine (Obeys.releaseAll (hnodup.filter _) fun o ho => ?_).bind ?_
    · rcases List.mem_filter.mp ho with ⟨hmem, hopen⟩
      simp [pads, hmem, hopen]
    · rintro - T rfl
      refine (Obeys.releaseAll ((List.nodup_singleton _).filter _) fun o ho => ?_).bind ?_
      · rcases List.mem_filter.mp ho with ⟨hmem, hopen⟩
        rw [List.mem_singleton.mp hmem] at hopen ⊢
        simp [pads, hopen, hout]
      · rintro - T rfl
        refine .pure (Finset.eq_empty_of_forall_notMem fun o ho => ?_)
        simp only [pads, Finset.mem_sdiff, Finset.mem_filter, Finset.mem_insert,
          List.mem_toFinset, List.mem_filter, List.mem_singleton] at ho
        tauto

end FilterPads

end FrameProcessor
