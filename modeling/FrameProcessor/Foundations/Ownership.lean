import Mathlib.Data.Finset.Card
import Mathlib.Data.Finset.Option
import Mathlib.Data.Finset.SDiff
import Mathlib.Data.List.Nodup
import Mathlib.Tactic.Common

/-!
# Foundations - Ownership of manually managed objects

A ledger lists the objects of a thread that are live.  A routine acquires and releases
objects; it faults when it uses or releases an object that is not live, such as a null
pointer, a dangling one or one that was handed to another thread.  Changes of an object are
recorded, so that a routine can be shown to change only what it owns.

`Obeys borrowed owned n r Q` is a rule of ownership: started with the objects `owned`, and
with the objects `borrowed` live in somebody else's hands, `r` does not fault, neither frees nor
changes what others own, holds at most `n` objects at a time and ends as `Q` says of its
result and of the objects that it then owns.

Main results:

- Theorems `Obeys.acquire`, `Obeys.release`, `Obeys.use`, `Obeys.write`, `Obeys.give` and
  `Obeys.bind`: the rules for the basic operations.
- Theorem `Obeys.frame`: a routine can be called by one that owns more.
- Theorem `Obeys.holding`: an object that is freed at the end of its scope.
- Theorem `Obeys.forEach`: a loop that keeps what it owns holds no more than one round of it.
- Theorem `Obeys.exists_run_spares`: a routine that owns nothing at its end runs without a
  fault, and leaves live and unchanged what was live before.
-/

namespace Ownership

/-- An object: what it is, and a number that is never given out again. -/
structure Handle (κ : Type) where
  kind : κ
  number : ℕ
deriving DecidableEq

/-- The objects of a thread, those it has handed to others, those it has changed, and how many
were live at most. -/
structure Ledger (κ : Type) [DecidableEq κ] where
  live : Finset (Handle κ)
  given : List (Handle κ)
  written : Finset (Handle κ)
  next : ℕ
  peak : ℕ
  fresh : ∀ h ∈ live, h.number < next
  le_peak : live.card ≤ peak

variable {κ : Type} [DecidableEq κ]

/-- Nothing has been acquired. -/
def Ledger.empty : Ledger κ :=
  ⟨∅, [], ∅, 0, 0, fun _ h => absurd h (Finset.notMem_empty _), Nat.le_refl 0⟩

/-- The next object is not live. -/
theorem Ledger.next_notMem (l : Ledger κ) (kind : κ) : ⟨kind, l.next⟩ ∉ l.live :=
  fun h => Nat.lt_irrefl _ (l.fresh _ h)

/-- One more object is live. -/
def Ledger.add (l : Ledger κ) (kind : κ) : Ledger κ where
  live := insert ⟨kind, l.next⟩ l.live
  given := l.given
  written := l.written
  next := l.next + 1
  peak := max l.peak (l.live.card + 1)
  fresh := by
    intro h hmem
    rcases Finset.mem_insert.mp hmem with rfl | hmem
    · exact Nat.lt_succ_self _
    · exact Nat.lt_succ_of_lt (l.fresh h hmem)
  le_peak := (Finset.card_insert_le _ _).trans (le_max_right _ _)

/-- An object is no longer live. -/
def Ledger.remove (l : Ledger κ) (h : Handle κ) : Ledger κ where
  live := l.live.erase h
  given := l.given
  written := l.written
  next := l.next
  peak := l.peak
  fresh := fun h' hmem => l.fresh h' (Finset.mem_of_mem_erase hmem)
  le_peak := (Finset.card_le_card (Finset.erase_subset _ _)).trans l.le_peak

/-- What a thread does to its ledger; `none` is a fault. -/
abbrev Routine (κ : Type) [DecidableEq κ] : Type → Type :=
  StateT (Ledger κ) Option

/-! ## Basic operations -/

/-- Allocate an object. -/
def acquire (kind : κ) : Routine κ (Handle κ) :=
  fun l => some (⟨kind, l.next⟩, l.add kind)

/-- Free an object. -/
def release (h : Handle κ) : Routine κ Unit :=
  fun l => if h ∈ l.live then some ((), l.remove h) else none

/-- Access an object. -/
def use (h : Handle κ) : Routine κ Unit :=
  fun l => if h ∈ l.live then some ((), l) else none

/-- Change an object, and record it. -/
def write (h : Handle κ) : Routine κ Unit :=
  fun l => if h ∈ l.live then some ((), { l with written := insert h l.written }) else none

/-- Hand an object to another thread. -/
def give (h : Handle κ) : Routine κ Unit :=
  fun l => if h ∈ l.live then some ((), { l.remove h with given := l.given ++ [h] }) else none

/-- Undefined behaviour. -/
def fault {α : Type} : Routine κ α :=
  fun _ => none

/-- An allocation that may fail and then yields a null pointer. -/
def tryAcquire (succeeds : Bool) (kind : κ) : Routine κ (Option (Handle κ)) :=
  if succeeds then some <$> acquire kind else pure none

/-- Free what a pointer points to, if it is not null. -/
def free : Option (Handle κ) → Routine κ Unit
  | none => pure ()
  | some h => release h

/-- Follow a pointer. -/
def deref : Option (Handle κ) → Routine κ Unit
  | none => fault
  | some h => use h

/-- An object that is allocated, if that succeeds, and freed at the end of its scope. -/
def holding {α : Type} (succeeds : Bool) (kind : κ) (body : Option (Handle κ) → Routine κ α) :
    Routine κ α := do
  let h ← tryAcquire succeeds kind
  let a ← body h
  free h
  return a

/-- Free a list of objects. -/
def releaseAll : List (Handle κ) → Routine κ Unit
  | [] => pure ()
  | h :: hs => do
      release h
      releaseAll hs

/-- A loop over a list. -/
def forEach {β : Type*} (body : β → Routine κ Unit) : List β → Routine κ Unit
  | [] => pure ()
  | b :: bs => do
      body b
      forEach body bs

/-! ## Rules of ownership -/

/-- `r` does not fault, neither frees nor changes what others own, holds at most `n` objects and
ends as `Q` says. -/
def Obeys {α : Type} (borrowed owned : Finset (Handle κ)) (n : ℕ) (r : Routine κ α)
    (Q : α → Finset (Handle κ) → Prop) : Prop :=
  ∀ (l : Ledger κ) (F : Finset (Handle κ)), l.live = F ∪ owned → Disjoint F owned →
    borrowed ⊆ F → ∃ a l' owned', r l = some (a, l') ∧ l'.live = F ∪ owned' ∧
      Disjoint F owned' ∧ Q a owned' ∧ l'.peak ≤ max l.peak (F.card + n) ∧
      ∀ h ∈ F, h ∈ l'.written → h ∈ l.written

variable {α β : Type} {S T : Finset (Handle κ)} {n : ℕ} {Q : α → Finset (Handle κ) → Prop}

theorem Obeys.pure {a : α} (h : Q a T) : Obeys S T n (pure a : Routine κ α) Q :=
  fun l _ hlive hdisj _ => ⟨a, l, T, rfl, hlive, hdisj, h, le_max_left _ _, fun _ _ => id⟩

theorem Obeys.bind {r : Routine κ α} {f : α → Routine κ β} {Q' : β → Finset (Handle κ) → Prop}
    (hr : Obeys S T n r Q) (hf : ∀ a T', Q a T' → Obeys S T' n (f a) Q') :
    Obeys S T n (r >>= f) Q' := by
  intro l F hlive hdisj hS
  rcases hr l F hlive hdisj hS with ⟨a, l₁, T₁, hrun, hlive₁, hdisj₁, hQ, hpeak₁, hwritten₁⟩
  rcases hf a T₁ hQ l₁ F hlive₁ hdisj₁ hS with
    ⟨b, l₂, T₂, hrun₂, hlive₂, hdisj₂, hQ', hpeak₂, hwritten₂⟩
  refine ⟨b, l₂, T₂, ?_, hlive₂, hdisj₂, hQ', hpeak₂.trans (max_le hpeak₁ (le_max_right _ _)),
    fun o ho hmem => hwritten₁ o ho (hwritten₂ o ho hmem)⟩
  change (r l).bind (fun p => f p.1 p.2) = some (b, l₂)
  rw [hrun]
  exact hrun₂

/-- What a routine is known to end with may be weakened. -/
theorem Obeys.imp {r : Routine κ α} {Q' : α → Finset (Handle κ) → Prop} (hr : Obeys S T n r Q)
    (h : ∀ a T', Q a T' → Q' a T') : Obeys S T n r Q' := by
  intro l F hlive hdisj hS
  rcases hr l F hlive hdisj hS with ⟨a, l', T', hrun, hlive', hdisj', hQ, hpeak, hwritten⟩
  exact ⟨a, l', T', hrun, hlive', hdisj', h a T' hQ, hpeak, hwritten⟩

theorem Obeys.acquire {kind : κ} {Q : Handle κ → Finset (Handle κ) → Prop} (hn : T.card < n)
    (h : ∀ o : Handle κ, o.kind = kind → o ∉ T → o ∉ S → Q o (insert o T)) :
    Obeys S T n (acquire kind) Q := by
  intro l F hlive hdisj hS
  have hnot := l.next_notMem kind
  rw [hlive, Finset.mem_union, not_or] at hnot
  have hdisj' : Disjoint F (insert ⟨kind, l.next⟩ T) :=
    Finset.disjoint_insert_right.mpr ⟨hnot.1, hdisj⟩
  refine ⟨_, l.add kind, _, rfl, ?_, hdisj', h _ rfl hnot.2 fun hmem => hnot.1 (hS hmem), ?_,
    fun _ _ => id⟩
  · simp only [Ledger.add]
    rw [hlive, Finset.union_insert]
  · have hcard : l.live.card = F.card + T.card := by
      rw [hlive, Finset.card_union_of_disjoint hdisj]
    simp only [Ledger.add]
    omega

/-- What is owned or borrowed is live. -/
private theorem mem_live {l : Ledger κ} {F : Finset (Handle κ)} {o : Handle κ}
    (hlive : l.live = F ∪ T) (hS : S ⊆ F) (ho : o ∈ S ∨ o ∈ T) : o ∈ l.live := by
  rw [hlive, Finset.mem_union]
  exact ho.imp (fun h => hS h) id

theorem Obeys.use {o : Handle κ} {Q : Unit → Finset (Handle κ) → Prop} (ho : o ∈ S ∨ o ∈ T)
    (h : Q () T) : Obeys S T n (use o) Q := by
  intro l F hlive hdisj hS
  exact ⟨(), l, T, if_pos (mem_live hlive hS ho), hlive, hdisj, h, le_max_left _ _,
    fun _ _ => id⟩

/-- Only what is owned may be changed. -/
theorem Obeys.write {o : Handle κ} {Q : Unit → Finset (Handle κ) → Prop} (ho : o ∈ T)
    (h : Q () T) : Obeys S T n (write o) Q := by
  intro l F hlive hdisj hS
  refine ⟨(), { l with written := insert o l.written }, T,
    if_pos (mem_live hlive hS (Or.inr ho)), hlive, hdisj, h, le_max_left _ _, ?_⟩
  intro o' ho' hmem
  rcases Finset.mem_insert.mp hmem with rfl | hmem
  · exact absurd ho (Finset.disjoint_left.mp hdisj ho')
  · exact hmem

/-- What is left when an owned object is gone. -/
private theorem erase_live {l : Ledger κ} {F : Finset (Handle κ)} {o : Handle κ}
    (hlive : l.live = F ∪ T) (hdisj : Disjoint F T) (ho : o ∈ T) :
    l.live.erase o = F ∪ T.erase o := by
  have hF : o ∉ F := fun hmem => Finset.disjoint_left.mp hdisj hmem ho
  rw [hlive, Finset.erase_union_distrib, Finset.erase_eq_of_notMem hF]

theorem Obeys.release {o : Handle κ} {Q : Unit → Finset (Handle κ) → Prop} (ho : o ∈ T)
    (h : Q () (T.erase o)) : Obeys S T n (release o) Q := by
  intro l F hlive hdisj hS
  exact ⟨(), l.remove o, T.erase o, if_pos (mem_live hlive hS (Or.inr ho)),
    erase_live hlive hdisj ho, hdisj.mono_right (Finset.erase_subset _ _), h, le_max_left _ _,
    fun _ _ => id⟩

theorem Obeys.give {o : Handle κ} {Q : Unit → Finset (Handle κ) → Prop} (ho : o ∈ T)
    (h : Q () (T.erase o)) : Obeys S T n (give o) Q := by
  intro l F hlive hdisj hS
  exact ⟨(), _, T.erase o, if_pos (mem_live hlive hS (Or.inr ho)), erase_live hlive hdisj ho,
    hdisj.mono_right (Finset.erase_subset _ _), h, le_max_left _ _, fun _ _ => id⟩

/-! ## The basic operations before a continuation -/

theorem Obeys.acquire_bind {kind : κ} {f : Handle κ → Routine κ α} (hn : T.card < n)
    (h : ∀ o, o ∉ T → Obeys S (insert o T) n (f o) Q) :
    Obeys S T n (Ownership.acquire kind >>= f) Q :=
  (Obeys.acquire (Q := fun o T' => T' = insert o T ∧ o ∉ T) hn fun _ _ hT _ => ⟨rfl, hT⟩).bind
    fun o _ hacquired => hacquired.1 ▸ h o hacquired.2

theorem Obeys.tryAcquire_bind {succeeds : Bool} {kind : κ} {f : Option (Handle κ) → Routine κ α}
    (hn : T.card < n)
    (hsome : succeeds = true → ∀ o, o ∉ T → Obeys S (insert o T) n (f (some o)) Q)
    (hnone : succeeds = false → Obeys S T n (f none) Q) :
    Obeys S T n (tryAcquire succeeds kind >>= f) Q := by
  cases succeeds with
  | false => exact hnone rfl
  | true =>
      have hrun : tryAcquire true kind >>= f = Ownership.acquire kind >>= fun o => f (some o) := by
        simp [tryAcquire]
      rw [hrun]
      exact .acquire_bind hn (hsome rfl)

/-- An allocation whose result is looked at later, if at all. -/
theorem Obeys.tryAcquire_toFinset {succeeds : Bool} {kind : κ} (hn : T.card < n) :
    Obeys S T n (tryAcquire succeeds kind) fun o T' => T' = T ∪ o.toFinset ∧
      Disjoint T o.toFinset ∧ o.isSome = succeeds := by
  have hrun : tryAcquire succeeds kind = tryAcquire succeeds kind >>= fun o => Pure.pure o :=
    (bind_pure _).symm
  rw [hrun]
  refine .tryAcquire_bind hn (fun hok o ho => .pure ⟨?_, ?_, hok.symm⟩)
    fun hno => .pure ⟨?_, ?_, hno.symm⟩
  · rw [Option.toFinset_some, Finset.union_comm]
    rfl
  · simpa using ho
  · exact (Finset.union_empty T).symm
  · exact Finset.disjoint_empty_right T

/-- An allocation that is known to succeed. -/
theorem Obeys.tryAcquire_bind_of_true {succeeds : Bool} {kind : κ}
    {f : Option (Handle κ) → Routine κ α} (hsucceeds : succeeds = true) (hn : T.card < n)
    (h : ∀ o, o ∉ T → Obeys S (insert o T) n (f (some o)) Q) :
    Obeys S T n (tryAcquire succeeds kind >>= f) Q :=
  .tryAcquire_bind hn (fun _ => h) fun hfails => by
    rw [hsucceeds] at hfails
    cases hfails

theorem Obeys.release_bind {o : Handle κ} {f : Unit → Routine κ α} (ho : o ∈ T)
    (h : Obeys S (T.erase o) n (f ()) Q) : Obeys S T n (Ownership.release o >>= f) Q :=
  (Obeys.release (Q := fun _ T' => T' = T.erase o) ho rfl).bind fun _ _ hT => hT ▸ h

theorem Obeys.give_bind {o : Handle κ} {f : Unit → Routine κ α} (ho : o ∈ T)
    (h : Obeys S (T.erase o) n (f ()) Q) : Obeys S T n (Ownership.give o >>= f) Q :=
  (Obeys.give (Q := fun _ T' => T' = T.erase o) ho rfl).bind fun _ _ hT => hT ▸ h

theorem Obeys.use_bind {o : Handle κ} {f : Unit → Routine κ α} (ho : o ∈ S ∨ o ∈ T)
    (h : Obeys S T n (f ()) Q) : Obeys S T n (Ownership.use o >>= f) Q :=
  (Obeys.use (Q := fun _ T' => T' = T) ho rfl).bind fun _ _ hT => hT ▸ h

theorem Obeys.write_bind {o : Handle κ} {f : Unit → Routine κ α} (ho : o ∈ T)
    (h : Obeys S T n (f ()) Q) : Obeys S T n (Ownership.write o >>= f) Q :=
  (Obeys.write (Q := fun _ T' => T' = T) ho rfl).bind fun _ _ hT => hT ▸ h

theorem Obeys.free_bind {o : Option (Handle κ)} {f : Unit → Routine κ α} (ho : o.toFinset ⊆ T)
    (h : Obeys S (T \ o.toFinset) n (f ()) Q) : Obeys S T n (Ownership.free o >>= f) Q := by
  cases o with
  | none =>
      rw [Option.toFinset_none, Finset.sdiff_empty] at h
      exact h
  | some o =>
      rw [Option.toFinset_some, Finset.sdiff_singleton_eq_erase] at h
      exact .release_bind (ho (by simp)) h

theorem Obeys.ite {b : Bool} {r r' : Routine κ α} (htrue : b = true → Obeys S T n r Q)
    (hfalse : b = false → Obeys S T n r' Q) : Obeys S T n (if b then r else r') Q := by
  cases b with
  | true => exact htrue rfl
  | false => exact hfalse rfl

/-! ## Calls, scopes and loops -/

/-- A routine can be called by one that owns more, and may borrow from its caller. -/
theorem Obeys.frame {R S' : Finset (Handle κ)} {m : ℕ} {r : Routine κ α} (hr : Obeys S' T m r Q)
    (hTR : Disjoint T R) (hS' : S' ⊆ S ∪ R) (hn : m + R.card ≤ n) :
    Obeys S (T ∪ R) n r fun a T' => ∃ T₁, T' = T₁ ∪ R ∧ Disjoint T₁ R ∧ Q a T₁ := by
  intro l F hlive hdisj hS
  rw [Finset.disjoint_union_right] at hdisj
  have hlive' : l.live = (F ∪ R) ∪ T := by
    rw [hlive, Finset.union_assoc, Finset.union_comm R T]
  have hdisj' : Disjoint (F ∪ R) T := Finset.disjoint_union_left.mpr ⟨hdisj.1, hTR.symm⟩
  have hborrowed : S' ⊆ F ∪ R := hS'.trans (Finset.union_subset_union_left hS)
  rcases hr l (F ∪ R) hlive' hdisj' hborrowed with
    ⟨a, l', T₁, hrun, hlive₁, hdisj₁, hQ, hpeak, hwritten⟩
  rw [Finset.disjoint_union_left] at hdisj₁
  refine ⟨a, l', T₁ ∪ R, hrun, ?_, Finset.disjoint_union_right.mpr ⟨hdisj₁.1, hdisj.2⟩,
    ⟨T₁, rfl, hdisj₁.2.symm, hQ⟩, hpeak.trans ?_,
    fun o ho => hwritten o (Finset.mem_union_left R ho)⟩
  · rw [hlive₁, Finset.union_assoc, Finset.union_comm R T₁]
  · rw [Finset.card_union_of_disjoint hdisj.2]
    omega

/-- A routine that needs nothing of its caller keeps what the caller owns. -/
theorem Obeys.call {m : ℕ} {r : Routine κ α} (hr : Obeys ∅ ∅ m r Q) (hn : m + T.card ≤ n) :
    Obeys S T n r fun a T' => ∃ T₁, T' = T₁ ∪ T ∧ Disjoint T₁ T ∧ Q a T₁ := by
  have hframe := hr.frame (Finset.disjoint_empty_left T) (Finset.empty_subset (S ∪ T)) hn
  rw [Finset.empty_union] at hframe
  exact hframe

/-- An object that is freed at the end of its scope, if there is one. -/
theorem Obeys.holding {succeeds : Bool} {kind : κ} {body : Option (Handle κ) → Routine κ α}
    (hn : T.card < n)
    (h : ∀ o : Option (Handle κ), o.isSome = succeeds → Disjoint T o.toFinset →
      Obeys S (T ∪ o.toFinset) n (body o) fun a T' =>
        ∃ T₁, T' = T₁ ∪ o.toFinset ∧ Disjoint T₁ o.toFinset ∧ Q a T₁) :
    Obeys S T n (holding succeeds kind body) Q := by
  refine (Obeys.tryAcquire_toFinset hn).bind ?_
  rintro o T' ⟨rfl, hdisj, hsome⟩
  refine (h o hsome hdisj).bind ?_
  rintro a T' ⟨T₁, rfl, hdisj₁, hQ⟩
  refine .free_bind Finset.subset_union_right (.pure ?_)
  rw [Finset.union_sdiff_cancel_right hdisj₁]
  exact hQ

theorem Obeys.releaseAll {hs : List (Handle κ)} (hnodup : hs.Nodup) (hmem : ∀ h ∈ hs, h ∈ T) :
    Obeys S T n (releaseAll hs) fun _ T' => T' = T \ hs.toFinset := by
  induction hs generalizing T with
  | nil => exact Obeys.pure (by simp)
  | cons h hs ih =>
      rcases List.nodup_cons.mp hnodup with ⟨hnot, hnodup⟩
      refine .release_bind (hmem h (by simp)) ?_
      have hrest : ∀ h' ∈ hs, h' ∈ T.erase h := fun h' hh' =>
        Finset.mem_erase.mpr ⟨fun heq => hnot (heq ▸ hh'), hmem h' (List.mem_cons_of_mem h hh')⟩
      refine (ih hnodup hrest).imp ?_
      rintro - T' rfl
      rw [List.toFinset_cons, Finset.sdiff_insert, Finset.erase_sdiff_comm]

/-- A loop that keeps what it owns holds no more than one round of it. -/
theorem Obeys.forEach {γ : Type*} {body : γ → Routine κ Unit}
    (h : ∀ c, Obeys S T n (body c) fun _ T' => T' = T) (cs : List γ) :
    Obeys S T n (forEach body cs) fun _ T' => T' = T := by
  induction cs with
  | nil => exact Obeys.pure rfl
  | cons c cs ih =>
      refine (h c).bind ?_
      rintro - T' rfl
      exact ih

/-- A routine that owns nothing at its end runs without a fault, and leaves live and unchanged what
was live before. -/
theorem Obeys.exists_run_spares {r : Routine κ α} {P : α → Prop}
    (h : Obeys S ∅ n r fun a T => T = ∅ ∧ P a) {l : Ledger κ} (hS : S ⊆ l.live) :
    ∃ a l', r l = some (a, l') ∧ P a ∧ l'.live = l.live ∧
      l'.peak ≤ max l.peak (l.live.card + n) ∧ ∀ o ∈ l.live, o ∈ l'.written → o ∈ l.written := by
  rcases h l l.live (Finset.union_empty _).symm (Finset.disjoint_empty_right _) hS with
    ⟨a, l', T, hrun, hlive, -, ⟨rfl, hP⟩, hpeak, hwritten⟩
  exact ⟨a, l', hrun, hP, hlive.trans (Finset.union_empty _), hpeak, hwritten⟩

/-- Of such a routine, what the ledger shows at its end. -/
theorem Obeys.exists_run {r : Routine κ α} {P : α → Prop}
    (h : Obeys S ∅ n r fun a T => T = ∅ ∧ P a) {l : Ledger κ} (hS : S ⊆ l.live) :
    ∃ a l', r l = some (a, l') ∧ P a ∧ l'.live = l.live ∧
      l'.peak ≤ max l.peak (l.live.card + n) := by
  rcases h.exists_run_spares hS with ⟨a, l', hrun, hP, hlive, hpeak, -⟩
  exact ⟨a, l', hrun, hP, hlive, hpeak⟩

end Ownership
