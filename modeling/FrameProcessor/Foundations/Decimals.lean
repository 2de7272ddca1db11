import Mathlib.Data.List.Basic
import Std.Data.String.ToInt

/-!
# Foundations - Decimal texts inside other texts

A number is written in decimal and followed by other text.  The decimal text of an integer
has no character but digits and a minus sign, so any other character that follows it shows
where it ends; padding it with zeros does not change what it stands for.

Main results:

- Theorem `Decimals.repr_append_inj`: a text made of a number, a character that no number
  contains and any rest determines the number and the rest.
- Theorem `Decimals.zeroPadded_injective`: a number padded with zeros determines the number.
-/

namespace FrameProcessor

namespace Decimals

/-! ## The characters of a number -/

/-- A decimal text of a natural number consists of digits. -/
theorem isDigit_of_mem_repr {n : Nat} {c : Char} (h : c ∈ n.repr.toList) : c.isDigit = true := by
  rw [Nat.toList_repr] at h
  exact Nat.isDigit_of_mem_toDigits (by decide) (by decide) h

/-- A character that is no digit and no minus sign is in no decimal text. -/
theorem notMem_repr {c : Char} (hdigit : c.isDigit = false) (hminus : c ≠ '-') (z : Int) :
    c ∉ z.repr.toList := by
  have hnat : ∀ n : Nat, c ∉ n.repr.toList := by
    intro n hmem
    rw [isDigit_of_mem_repr hmem] at hdigit
    cases hdigit
  rw [Int.repr_eq_if]
  split
  · exact hnat _
  · rw [String.toList_append, List.mem_append, not_or]
    exact ⟨fun hmem => hminus (List.mem_singleton.mp hmem), hnat _⟩

/-- Two lists agree when they agree before the first separator and after it; what comes
after may contain the separator again. -/
theorem append_separator_inj {α : Type*} {separator : α} {before before' after after' : List α}
    (hbefore : separator ∉ before) (hbefore' : separator ∉ before')
    (h : before ++ separator :: after = before' ++ separator :: after') :
    before = before' ∧ after = after' := by
  induction before generalizing before' with
  | nil =>
      cases before' with
      | nil => exact ⟨rfl, (List.cons.inj h).2⟩
      | cons head' before' =>
          have hhead := (List.cons.inj h).1
          exact absurd (hhead ▸ List.mem_cons_self) hbefore'
  | cons head before ih =>
      cases before' with
      | nil =>
          have hhead := (List.cons.inj h).1
          exact absurd (hhead ▸ List.mem_cons_self) hbefore
      | cons head' before' =>
          rcases List.cons.inj h with ⟨hhead, htail⟩
          rcases ih (fun hmem => hbefore (List.mem_cons_of_mem _ hmem))
            (fun hmem => hbefore' (List.mem_cons_of_mem _ hmem)) htail with ⟨hrest, hafter⟩
          exact ⟨by rw [hhead, hrest], hafter⟩

/-- The number before the first character that no number contains, and what follows it. -/
theorem repr_append_inj {c : Char} (hdigit : c.isDigit = false) (hminus : c ≠ '-')
    {y z : Int} {rest rest' : List Char} :
    y.repr.toList ++ c :: rest = z.repr.toList ++ c :: rest' ↔ y = z ∧ rest = rest' := by
  constructor
  · intro h
    rcases append_separator_inj (notMem_repr hdigit hminus y) (notMem_repr hdigit hminus z) h
      with ⟨hnumber, hrest⟩
    exact ⟨Int.repr_injective (String.toList_inj.mp hnumber), hrest⟩
  · intro ⟨hnumber, hrest⟩
    rw [hnumber, hrest]

/-! ## Padding with zeros -/

/-- A number in decimal, with zeros in front up to a width. -/
def zeroPadded (width n : Nat) : List Char :=
  (Nat.toDigits 10 n).leftpad width '0'

/-- The zeros do not change the number. -/
theorem ofDigitChars_zeroPadded (width n : Nat) :
    Nat.ofDigitChars 10 (zeroPadded width n) 0 = n := by
  unfold zeroPadded List.leftpad
  rw [Nat.ofDigitChars_append, Nat.ofDigitChars_replicate_zero, Nat.mul_zero]
  exact Nat.ofDigitChars_ten_toDigits

theorem zeroPadded_injective (width : Nat) : Function.Injective (zeroPadded width) := by
  intro m n h
  rw [← ofDigitChars_zeroPadded width m, h, ofDigitChars_zeroPadded]

end Decimals

end FrameProcessor
