import Mathlib.Data.List.Perm.Basic
import Mathlib.Data.Multiset.AddSub
import Std.Data.ExtTreeMap.Lemmas

/-!
# Foundations - What an ordered table holds

The entries of an ordered table as a list, up to order, under insertion and removal.
Conservation arguments over the values of a table use these rules.

Main results:

- Theorem `Table.toList_perm_of_getElem?`: taking out the entry of a key.
- Theorem `Table.toList_insert_perm`: putting in an entry replaces the one of its key.
- Theorem `Table.toList_filter_key`: the entries of one key are the one looked up.
- Theorems `Table.map_insert` and `Table.map_erase`: changing every value commutes with
  insertion and removal.
-/

open Std

namespace Table

variable {κ ν : Type*} {cmp : κ → κ → Ordering} [TransCmp cmp] [LawfulEqCmp cmp]

/-- A table lists every entry once. -/
theorem toList_nodup (t : ExtTreeMap κ ν cmp) : t.toList.Nodup := by
  refine t.distinct_keys_toList.imp fun {a b} hne heq => hne ?_
  rw [heq]
  exact ReflCmp.compare_self

/-- The entry of a key, and the rest of the table. -/
theorem toList_perm_of_getElem? {t : ExtTreeMap κ ν cmp} {k : κ} {v : ν} (h : t[k]? = some v) :
    t.toList.Perm ((k, v) :: (t.erase k).toList) := by
  have hfresh : (k, v) ∉ (t.erase k).toList := by
    rw [ExtTreeMap.mem_toList_iff_getElem?_eq_some]
    simp
  rw [List.perm_ext_iff_of_nodup (toList_nodup t)
    (List.nodup_cons.mpr ⟨hfresh, toList_nodup _⟩)]
  rintro ⟨k', v'⟩
  rw [List.mem_cons, ExtTreeMap.mem_toList_iff_getElem?_eq_some,
    ExtTreeMap.mem_toList_iff_getElem?_eq_some, ExtTreeMap.getElem?_erase]
  by_cases hk : k' = k
  · subst hk
    simp [h, eq_comm]
  · have hcmp : cmp k k' ≠ .eq := fun heq => hk (LawfulEqCmp.eq_of_compare heq).symm
    simp [hk, hcmp]

/-- Inserting replaces the entry of a key. -/
theorem toList_insert_perm (t : ExtTreeMap κ ν cmp) (k : κ) (v : ν) :
    (t.insert k v).toList.Perm ((k, v) :: (t.erase k).toList) := by
  have hsame : (t.insert k v).erase k = t.erase k := by
    apply ExtTreeMap.ext_getElem?
    intro k'
    rw [ExtTreeMap.getElem?_erase, ExtTreeMap.getElem?_erase, ExtTreeMap.getElem?_insert]
    split <;> rfl
  rw [← hsame]
  exact toList_perm_of_getElem? ExtTreeMap.getElem?_insert_self

/-- Removing a key the table does not have. -/
theorem erase_of_getElem?_eq_none {t : ExtTreeMap κ ν cmp} {k : κ} (h : t[k]? = none) :
    t.erase k = t := by
  apply ExtTreeMap.ext_getElem?
  intro k'
  rw [ExtTreeMap.getElem?_erase]
  split
  · next heq =>
    rw [← LawfulEqCmp.eq_of_compare heq, h]
  · rfl

/-- The entries of one key are the one that a lookup finds. -/
theorem toList_filter_key [DecidableEq κ] (t : ExtTreeMap κ ν cmp) (k : κ) :
    (t.toList.filter fun entry => entry.1 = k) = (t[k]?).toList.map fun v => (k, v) := by
  cases hentry : t[k]? with
  | none =>
      apply List.filter_eq_nil_iff.mpr
      rintro ⟨k', v⟩ hmem hsame
      have hk : k' = k := by simpa using hsame
      have hsome := ExtTreeMap.mem_toList_iff_getElem?_eq_some.mp hmem
      rw [hk, hentry] at hsome
      cases hsome
  | some v =>
      have hperm := (toList_perm_of_getElem? hentry).filter fun entry => entry.1 = k
      have hrest : ((t.erase k).toList.filter fun entry => entry.1 = k) = [] := by
        apply List.filter_eq_nil_iff.mpr
        rintro ⟨k', v'⟩ hmem hsame
        have hk : k' = k := by simpa using hsame
        have hsome := ExtTreeMap.mem_toList_iff_getElem?_eq_some.mp hmem
        rw [hk] at hsome
        simp at hsome
      rw [List.filter_cons_of_pos (by simp), hrest] at hperm
      exact List.perm_singleton.mp hperm

/-! ## Changing every value -/

/-- Insertion into a table whose values are changed. -/
theorem map_insert {ν' : Type*} (t : ExtTreeMap κ ν cmp) (f : ν → ν') (k : κ) (v : ν) :
    (t.insert k v).map (fun _ => f) = (t.map fun _ => f).insert k (f v) := by
  apply ExtTreeMap.ext_getElem?
  intro k'
  rw [ExtTreeMap.getElem?_map, ExtTreeMap.getElem?_insert, ExtTreeMap.getElem?_insert,
    ExtTreeMap.getElem?_map]
  split <;> rfl

/-- Removal from a table whose values are changed. -/
theorem map_erase {ν' : Type*} (t : ExtTreeMap κ ν cmp) (f : ν → ν') (k : κ) :
    (t.erase k).map (fun _ => f) = (t.map fun _ => f).erase k := by
  apply ExtTreeMap.ext_getElem?
  intro k'
  rw [ExtTreeMap.getElem?_map, ExtTreeMap.getElem?_erase, ExtTreeMap.getElem?_erase,
    ExtTreeMap.getElem?_map]
  split <;> rfl

end Table
