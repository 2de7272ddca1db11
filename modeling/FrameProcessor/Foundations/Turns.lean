import Mathlib.Data.List.Basic
import Mathlib.Data.List.Induction
import Mathlib.Tactic.Common

/-!
# Foundations - Leaving in turn

Items are numbered as they enter a place that several threads share, and logged as they
leave it.  The log is in order as long as no item leaves while an earlier one is still
pending.  The pending numbers are a predicate: those in the hands of threads, those that
wait, and all numbers not given out yet.

Main results:

- Theorem `InTurn.leave`: an item that leaves in its turn keeps the log in order.
- Theorem `InTurn.leave_filter`: so it is when only some of the items count.
- Theorem `InTurn.mono`: a step after which fewer numbers are pending keeps it as well.
- Theorem `sublist_of_increasing`: entries with increasing positions of a list are a sublist.
-/

/-- What has left is in order, and comes before everything that is pending. -/
structure InTurn {α : Type*} (r : α → α → Prop) (log : List α) (pending : α → Prop) : Prop where
  sorted : log.Pairwise r
  before : ∀ logged ∈ log, ∀ number, pending number → r logged number

namespace InTurn

variable {α : Type*} {r : α → α → Prop} {log : List α} {pending pending' : α → Prop}

theorem nil : InTurn r [] pending :=
  ⟨List.Pairwise.nil, List.forall_mem_nil _⟩

/-- Fewer pending numbers. -/
theorem mono (h : InTurn r log pending) (hle : ∀ number, pending' number → pending number) :
    InTurn r log pending' :=
  ⟨h.sorted, fun logged hlogged number hnumber => h.before logged hlogged number (hle _ hnumber)⟩

/-- A pending item leaves, and comes before all that stay. -/
theorem leave (h : InTurn r log pending) {number : α} (hnumber : pending number)
    (hstay : ∀ number', pending' number' → pending number' ∧ r number number') :
    InTurn r (log ++ [number]) pending' := by
  constructor
  · rw [List.pairwise_append]
    refine ⟨h.sorted, List.pairwise_singleton _ _, fun logged hlogged last hlast => ?_⟩
    rw [List.mem_singleton.mp hlast]
    exact h.before logged hlogged number hnumber
  · intro logged hlogged number' hnumber'
    rcases hstay number' hnumber' with ⟨hpending, hlater⟩
    rcases List.mem_append.mp hlogged with hlogged | hlogged
    · exact h.before logged hlogged number' hpending
    · rw [List.mem_singleton.mp hlogged]
      exact hlater

/-- An item leaves.  If it counts, it was pending and comes before all that stay. -/
theorem leave_filter {β : Type*} {entries : List (α × β)} {counts : α × β → Bool}
    (h : InTurn r ((entries.filter counts).map Prod.fst) pending) {entry : α × β}
    (hle : ∀ number, pending' number → pending number)
    (hturn : counts entry = true →
      pending entry.1 ∧ ∀ number, pending' number → r entry.1 number) :
    InTurn r (((entries ++ [entry]).filter counts).map Prod.fst) pending' := by
  rw [List.filter_append, List.map_append]
  by_cases hcounts : counts entry = true
  · rcases hturn hcounts with ⟨hpending, hbefore⟩
    rw [List.filter_cons_of_pos hcounts]
    exact h.leave hpending fun number hnumber => ⟨hle number hnumber, hbefore number hnumber⟩
  · rw [List.filter_cons_of_neg hcounts, List.filter_nil, List.map_nil, List.append_nil]
    exact h.mono hle

end InTurn

/-- Entries of a list at increasing positions form a sublist. -/
theorem sublist_of_increasing {α : Type*} {l : List α} {entries : List (Nat × α)}
    (hsorted : entries.Pairwise fun earlier later => earlier.1 < later.1)
    (hentries : ∀ entry ∈ entries, l[entry.1]? = some entry.2) :
    (entries.map Prod.snd).Sublist l := by
  induction entries using List.reverseRecOn generalizing l with
  | nil => exact List.nil_sublist l
  | append_singleton entries last ih =>
      rcases List.pairwise_append.mp hsorted with ⟨hearlier, -, hlast⟩
      -- the earlier entries lie in the part of the list before the last one
      have hfront : (entries.map Prod.snd).Sublist (l.take last.1) := by
        apply ih hearlier
        intro entry hentry
        rw [List.getElem?_take_of_lt (hlast entry hentry last List.mem_cons_self)]
        exact hentries entry (List.mem_append_left _ hentry)
      have hback : l[last.1]? = some last.2 :=
        hentries last (List.mem_append_right _ List.mem_cons_self)
      have htake : l.take (last.1 + 1) = l.take last.1 ++ [last.2] := by
        rw [List.take_add_one, hback, Option.toList_some]
      rw [List.map_append, List.map_singleton]
      exact (htake ▸ hfront.append (List.Sublist.refl _)).trans (List.take_sublist _ _)
