import Mathlib.Data.Int.ModEq
import Mathlib.Data.Fin.Basic

/-!
# Foundations - Truncated remainders and residue classes

The remainder of a machine division truncates towards zero, so it is negative for a
negative dividend that the modulus does not divide.  Comparing such a remainder with
the remainder of a natural number therefore selects a residue class only on the
dividends whose truncated remainder is not negative.

Main results:

- Theorem `Residue.tmod_eq_tmod_iff`: which dividends have the truncated remainder of
  the `k`-th number after a base, and that such a `k` is unique.
-/

namespace Residue

/-- The position of the residue class of `x` when the classes are counted from `base`. -/
def position (n base : Nat) (hn : 0 < n) (x : Int) : Fin n :=
  ⟨((x - base) % n).toNat, by
    have hpos : (0 : Int) < n := by exact_mod_cast hn
    have hlow := Int.emod_nonneg (x - base) hpos.ne'
    have hhigh := Int.emod_lt_of_pos (x - base) hpos
    omega⟩

/-- The truncated remainder is the residue exactly on the dividends that are not negative
or divisible. -/
theorem tmod_eq_emod_iff {n : Nat} (hn : 0 < n) (x : Int) :
    x.tmod n = x % n ↔ 0 ≤ x ∨ (n : Int) ∣ x := by
  rw [Int.tmod_eq_emod]
  split
  · next h => simpa using h
  · next h =>
    refine iff_of_false ?_ h
    have hpos : (0 : Int) < ((n : Int).natAbs : Int) := by
      simpa using hn
    omega

/-- A truncated remainder that is not the residue is negative. -/
theorem tmod_neg {n : Nat} {x : Int} (hn : 0 < n) (h : ¬ (0 ≤ x ∨ (n : Int) ∣ x)) :
    x.tmod n < 0 := by
  rw [Int.tmod_eq_emod, if_neg h]
  have hpos : (0 : Int) < n := by exact_mod_cast hn
  have hhigh := Int.emod_lt_of_pos x hpos
  have habs : ((n : Int).natAbs : Int) = n := Int.natAbs_of_nonneg hpos.le
  omega

/-- Having the residue of the `k`-th number after the base means being at position `k`. -/
theorem emod_eq_iff_position {n base : Nat} (hn : 0 < n) (x : Int) (k : Fin n) :
    x % n = ((base + k : Nat) : Int) % n ↔ position n base hn x = k := by
  have hpos : (0 : Int) < n := by exact_mod_cast hn
  have hlow := Int.emod_nonneg (x - base) hpos.ne'
  have hk : ((k : Nat) : Int) % n = k :=
    Int.emod_eq_of_lt (by omega) (by exact_mod_cast k.isLt)
  have hshift : x % n = ((base + k : Nat) : Int) % n ↔ (x - base) % n = ((k : Nat) : Int) % n := by
    constructor
    · intro h
      have hmod := Int.ModEq.sub_right (base : Int) h
      simpa [Int.ModEq, Nat.cast_add] using hmod
    · intro h
      have hmod := Int.ModEq.add_right (base : Int) h
      simpa [Int.ModEq, Nat.cast_add, add_comm] using hmod
  rw [hshift, hk, Fin.ext_iff]
  simp only [position]
  omega

/-- Equal truncated remainders select the position, on the dividends with a residue only. -/
theorem tmod_eq_tmod_iff {n : Nat} (base : Nat) (hn : 0 < n) (x : Int) (k : Fin n) :
    x.tmod n = ((base + k : Nat) : Int).tmod n ↔
      (0 ≤ x ∨ (n : Int) ∣ x) ∧ position n base hn x = k := by
  have hright : ((base + k : Nat) : Int).tmod n = ((base + k : Nat) : Int) % n :=
    Int.tmod_eq_emod_of_nonneg (Int.natCast_nonneg _)
  rw [hright]
  by_cases hx : 0 ≤ x ∨ (n : Int) ∣ x
  · rw [(tmod_eq_emod_iff hn x).mpr hx, emod_eq_iff_position hn]
    simp [hx]
  · refine iff_of_false ?_ (fun h => hx h.1)
    have hneg := tmod_neg hn hx
    have hpos : (0 : Int) < n := by exact_mod_cast hn
    have hlow := Int.emod_nonneg ((base + k : Nat) : Int) hpos.ne'
    omega

end Residue
