import Mathlib.Data.Finset.Card
import Mathlib.Data.Finset.Disjoint

/-!
# Foundations - Condition variables

A condition variable holds the threads that sleep on it, those that were notified and have
not run again, and those that woke without a notification.  A notified thread is no longer
in the wait set, so a later notification goes to another sleeper or is lost.

A waiting thread is needed while there is work for it.  The work is covered when the
notified threads suffice for it as long as anybody sleeps; the operations below keep this
with one notification per unit of work, whoever takes the unit.

Main results:

- Theorem `Condvar.Covers.notifyOne`: one notification covers one more unit.
- Theorem `Condvar.Covers.resume`: a thread that runs again may take one unit.
- Theorem `Condvar.Covers.nonempty_notified`: covered work has a notified thread or no
  sleeper.
-/

universe u

/-- The threads at a condition variable. -/
structure Condvar (ι : Type u) where
  /-- Asleep, without a pending notification. -/
  sleepers : Finset ι
  /-- Notified and not yet running. -/
  notified : Finset ι
  /-- Woken without a notification and not yet running. -/
  roused : Finset ι
  sleepers_notified : Disjoint sleepers notified
  sleepers_roused : Disjoint sleepers roused
  notified_roused : Disjoint notified roused

namespace Condvar

variable {ι : Type u}

/-- Nobody waits. -/
def empty : Condvar ι where
  sleepers := ∅
  notified := ∅
  roused := ∅
  sleepers_notified := Finset.disjoint_empty_left _
  sleepers_roused := Finset.disjoint_empty_left _
  notified_roused := Finset.disjoint_empty_left _

/-! ## Covered work -/

/-- While somebody sleeps, `work` units are no more than the notified threads. -/
def Covers (cv : Condvar ι) (work : Nat) : Prop :=
  cv.sleepers.Nonempty → work ≤ cv.notified.card

theorem covers_zero (cv : Condvar ι) : cv.Covers 0 :=
  fun _ => Nat.zero_le _

/-- Without sleepers everything is covered. -/
theorem covers_of_no_sleepers {cv : Condvar ι} (h : cv.sleepers = ∅) (work : Nat) :
    cv.Covers work := by
  intro hsome
  rw [h] at hsome
  exact absurd hsome Finset.not_nonempty_empty

/-- Less work is covered as well. -/
theorem Covers.mono {cv : Condvar ι} {work work' : Nat} (h : cv.Covers work)
    (hle : work' ≤ work) : cv.Covers work' :=
  fun hsome => hle.trans (h hsome)

/-- Covered work has a notified thread, unless nobody sleeps. -/
theorem Covers.nonempty_notified {cv : Condvar ι} {work : Nat} (h : cv.Covers work)
    (hwork : 0 < work) (hsome : cv.sleepers.Nonempty) : cv.notified.Nonempty := by
  apply Finset.card_pos.mp
  exact hwork.trans_le (h hsome)

/-! ## Operations -/

variable [DecidableEq ι] (cv : Condvar ι) (thread : ι)

/-- The thread has woken up and waits for the mutex. -/
def Awake : Prop :=
  thread ∈ cv.notified ∨ thread ∈ cv.roused

/-- The thread is inside a wait. -/
def Waiting : Prop :=
  thread ∈ cv.sleepers ∨ cv.Awake thread

instance : Decidable (cv.Awake thread) :=
  inferInstanceAs (Decidable (_ ∨ _))

instance : Decidable (cv.Waiting thread) :=
  inferInstanceAs (Decidable (_ ∨ _))

/-- The thread goes to sleep. -/
def sleep : Condvar ι where
  sleepers := insert thread cv.sleepers
  notified := cv.notified.erase thread
  roused := cv.roused.erase thread
  sleepers_notified := by
    apply Finset.disjoint_insert_left.mpr
    exact ⟨Finset.notMem_erase _ _, cv.sleepers_notified.mono_right (Finset.erase_subset _ _)⟩
  sleepers_roused := by
    apply Finset.disjoint_insert_left.mpr
    exact ⟨Finset.notMem_erase _ _, cv.sleepers_roused.mono_right (Finset.erase_subset _ _)⟩
  notified_roused :=
    cv.notified_roused.mono (Finset.erase_subset _ _) (Finset.erase_subset _ _)

/-- A woken thread goes on: it is no longer at the condition variable. -/
def resume : Condvar ι where
  sleepers := cv.sleepers
  notified := cv.notified.erase thread
  roused := cv.roused.erase thread
  sleepers_notified := cv.sleepers_notified.mono_right (Finset.erase_subset _ _)
  sleepers_roused := cv.sleepers_roused.mono_right (Finset.erase_subset _ _)
  notified_roused :=
    cv.notified_roused.mono (Finset.erase_subset _ _) (Finset.erase_subset _ _)

/-- `notify_one`: some sleeper is chosen; the notification is lost when nobody sleeps. -/
def notifyOne (chosen : Option ι) : Option (Condvar ι) :=
  match chosen with
  | none => if cv.sleepers = ∅ then some cv else none
  | some thread =>
      if h : thread ∈ cv.sleepers then
        some
          { sleepers := cv.sleepers.erase thread
            notified := insert thread cv.notified
            roused := cv.roused
            sleepers_notified := by
              apply Finset.disjoint_insert_right.mpr
              exact ⟨Finset.notMem_erase _ _,
                cv.sleepers_notified.mono_left (Finset.erase_subset _ _)⟩
            sleepers_roused := cv.sleepers_roused.mono_left (Finset.erase_subset _ _)
            notified_roused := by
              apply Finset.disjoint_insert_left.mpr
              exact ⟨Finset.disjoint_left.mp cv.sleepers_roused h, cv.notified_roused⟩ }
      else none

/-- `notify_all`. -/
def notifyAll : Condvar ι where
  sleepers := ∅
  notified := cv.sleepers ∪ cv.notified
  roused := cv.roused
  sleepers_notified := Finset.disjoint_empty_left _
  sleepers_roused := Finset.disjoint_empty_left _
  notified_roused := Finset.disjoint_union_left.mpr ⟨cv.sleepers_roused, cv.notified_roused⟩

/-- A sleeper wakes up spuriously. -/
def rouse : Option (Condvar ι) :=
  if h : thread ∈ cv.sleepers then
    some
      { sleepers := cv.sleepers.erase thread
        notified := cv.notified
        roused := insert thread cv.roused
        sleepers_notified := cv.sleepers_notified.mono_left (Finset.erase_subset _ _)
        sleepers_roused := by
          apply Finset.disjoint_insert_right.mpr
          exact ⟨Finset.notMem_erase _ _,
            cv.sleepers_roused.mono_left (Finset.erase_subset _ _)⟩
        notified_roused := by
          apply Finset.disjoint_insert_right.mpr
          exact ⟨Finset.disjoint_left.mp cv.sleepers_notified h, cv.notified_roused⟩ }
  else none

variable {cv} {thread}

/-- What `notify_one` does: it wakes a sleeper, or there is none. -/
theorem notifyOne_cases {cv' : Condvar ι} {chosen : Option ι}
    (h : cv.notifyOne chosen = some cv') :
    (chosen = none ∧ cv.sleepers = ∅ ∧ cv' = cv) ∨
      ∃ thread ∈ cv.sleepers, chosen = some thread ∧ cv'.sleepers = cv.sleepers.erase thread ∧
        cv'.notified = insert thread cv.notified ∧ cv'.roused = cv.roused := by
  cases chosen with
  | none =>
      simp only [notifyOne] at h
      split at h
      · next hempty =>
        cases h
        exact Or.inl ⟨rfl, hempty, rfl⟩
      · cases h
  | some thread =>
      simp only [notifyOne] at h
      split at h
      · next hmem =>
        cases h
        exact Or.inr ⟨thread, hmem, rfl, rfl, rfl, rfl⟩
      · cases h

theorem rouse_sleepers {cv' : Condvar ι} (h : cv.rouse thread = some cv') :
    cv'.sleepers = cv.sleepers.erase thread ∧ cv'.notified = cv.notified := by
  unfold rouse at h
  split at h
  · cases h
    exact ⟨rfl, rfl⟩
  · cases h

/-! ## What the operations cover -/

/-- One notification covers one more unit. -/
theorem Covers.notifyOne {cv' : Condvar ι} {chosen : Option ι} {work : Nat} (h : cv.Covers work)
    (hnotify : cv.notifyOne chosen = some cv') : cv'.Covers (work + 1) := by
  rcases notifyOne_cases hnotify with ⟨-, hempty, rfl⟩ |
    ⟨thread, hmem, -, -, hnotified, -⟩
  · exact covers_of_no_sleepers hempty _
  · intro _
    have hnew : thread ∉ cv.notified := Finset.disjoint_left.mp cv.sleepers_notified hmem
    rw [hnotified, Finset.card_insert_of_notMem hnew]
    exact Nat.succ_le_succ (h ⟨thread, hmem⟩)

/-- After `notify_all` nobody sleeps. -/
theorem covers_notifyAll (cv : Condvar ι) (work : Nat) : cv.notifyAll.Covers work :=
  covers_of_no_sleepers rfl work

/-- A woken thread that takes a unit leaves the rest covered. -/
theorem Covers.resume {work : Nat} (h : cv.Covers work) :
    (cv.resume thread).Covers (work - 1) := by
  intro hsome
  have hbefore : work ≤ cv.notified.card := h hsome
  have hcard : cv.notified.card - 1 ≤ (cv.notified.erase thread).card :=
    Finset.pred_card_le_card_erase
  show work - 1 ≤ (cv.notified.erase thread).card
  omega

/-- A spurious wakeup needs no unit. -/
theorem Covers.rouse {cv' : Condvar ι} {work : Nat} (h : cv.Covers work)
    (hrouse : cv.rouse thread = some cv') : cv'.Covers work := by
  rcases rouse_sleepers hrouse with ⟨hsleepers, hnotified⟩
  intro hsome
  rw [hsleepers] at hsome
  rw [hnotified]
  exact h (hsome.mono (Finset.erase_subset _ _))

end Condvar
