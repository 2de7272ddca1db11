import Mathlib.Data.List.Basic
import Mathlib.Tactic.Common
import Mathlib.Tactic.Ring

/-!
# Foundations - Buffers of bytes

Overwriting part of a buffer, little-endian words, and streams of self-delimiting
entries: entries written one after the other that can be read back without a count.

Main results:

- Theorem `Buffer.fill`: writing equally long rows one after the other into a hole of the
  right size fills it with their concatenation.
- Theorem `LittleEndian.decode_encode`: a word that fits is read back.
- Theorem `Framing.decodeAll_flatMap`: a stream of entries, each of which can be read back
  from the front of any buffer, is read back entirely.
-/

universe u v

/-! ## Overwriting -/

namespace Buffer

variable {α : Type u}

/-- Overwrite the elements from `offset` on. -/
def writeAt (buffer : List α) (offset : Nat) (data : List α) : List α :=
  buffer.take offset ++ data ++ buffer.drop (offset + data.length)

/-- Overwriting a hole of the right size. -/
theorem writeAt_hole {front hole back data : List α} (h : hole.length = data.length) :
    writeAt (front ++ hole ++ back) front.length data = front ++ data ++ back := by
  simp [writeAt, ← h]

/-- Rows written one after the other fill a hole of the right size with their
concatenation. -/
theorem fill {front hole back : List α} {len : Nat} {row : Nat → List α} (n : Nat)
    (hrow : ∀ i, (row i).length = len) (hhole : hole.length = n * len) :
    (List.range n).foldl (fun buffer i => writeAt buffer (front.length + i * len) (row i))
        (front ++ hole ++ back) =
      front ++ (List.range n).flatMap row ++ back := by
  induction n generalizing hole back with
  | zero =>
      have hnil : hole = [] := by
        apply List.length_eq_zero_iff.mp
        simpa using hhole
      simp [hnil]
  | succ n ih =>
      have hsplit : hole = hole.take (n * len) ++ hole.drop (n * len) :=
        (List.take_append_drop _ _).symm
      have htake : (hole.take (n * len)).length = n * len := by
        rw [List.length_take, hhole]
        apply Nat.min_eq_left
        exact Nat.mul_le_mul_right _ (Nat.le_succ n)
      have hdrop : (hole.drop (n * len)).length = (row n).length := by
        rw [List.length_drop, hhole, hrow, Nat.succ_mul]
        omega
      have hrows : ((List.range n).flatMap row).length = n * len := by
        simp [List.length_flatMap, hrow]
      rw [List.range_succ, List.foldl_concat, hsplit, ← List.append_assoc front,
        List.append_assoc (front ++ _), ih htake, ← List.append_assoc _ (hole.drop _),
        List.flatMap_append, List.flatMap_singleton, ← List.append_assoc front]
      have hoffset : front.length + n * len = (front ++ (List.range n).flatMap row).length := by
        rw [List.length_append, hrows]
      rw [hoffset]
      exact writeAt_hole hdrop

/-- The element at row `r`, column `c` of equally long rows written one after the other. -/
theorem getElem?_rows {len n r c : Nat} {row : Nat → List α} (hrow : ∀ i, (row i).length = len)
    (hr : r < n) (hc : c < len) :
    ((List.range n).flatMap row)[r * len + c]? = (row r)[c]? := by
  induction n with
  | zero => cases hr
  | succ n ih =>
      have hrows : ((List.range n).flatMap row).length = n * len := by
        simp [List.length_flatMap, hrow]
      rw [List.range_succ, List.flatMap_append, List.flatMap_singleton]
      rcases Nat.lt_succ_iff_lt_or_eq.mp hr with hlt | heq
      · have hin : r * len + c < ((List.range n).flatMap row).length := by
          rw [hrows]
          have hle : (r + 1) * len ≤ n * len := Nat.mul_le_mul_right _ hlt
          rw [Nat.succ_mul] at hle
          omega
        rw [List.getElem?_append_left hin]
        exact ih hlt
      · subst heq
        rw [List.getElem?_append_right (by omega), hrows, Nat.add_sub_cancel_left]

/-- Split off exactly `n` elements. -/
def takeExactly (n : Nat) (buffer : List α) : Option (List α × List α) :=
  if n ≤ buffer.length then some (buffer.splitAt n) else none

@[simp]
theorem takeExactly_append (front back : List α) :
    takeExactly front.length (front ++ back) = some (front, back) := by
  simp [takeExactly]

/-- Splitting off a front part whose length is known under another name. -/
theorem takeExactly_append_of_length {n : Nat} {front : List α} (h : front.length = n)
    (back : List α) : takeExactly n (front ++ back) = some (front, back) := by
  subst h
  exact takeExactly_append front back

end Buffer

/-! ## Little-endian words -/

namespace LittleEndian

/-- The low-order bytes of a number, the least significant first. -/
def encode : (width : Nat) → Nat → List UInt8
  | 0, _ => []
  | width + 1, n => UInt8.ofNat n :: encode width (n / 256)

/-- The number with the given bytes. -/
def decode : List UInt8 → Nat
  | [] => 0
  | byte :: bytes => byte.toNat + 256 * decode bytes

@[simp]
theorem encode_length (width n : Nat) : (encode width n).length = width := by
  induction width generalizing n with
  | zero => rfl
  | succ width ih => simp [encode, ih]

/-- A word that fits is read back. -/
theorem decode_encode {width n : Nat} (h : n < 256 ^ width) : decode (encode width n) = n := by
  induction width generalizing n with
  | zero =>
      have hzero : n = 0 := by simpa using h
      simp [encode, decode, hzero]
  | succ width ih =>
      have hrest : n / 256 < 256 ^ width := by
        apply Nat.div_lt_of_lt_mul
        rwa [← Nat.pow_succ']
      simp only [encode, decode, ih hrest, UInt8.toNat_ofNat']
      omega

end LittleEndian

/-! ## Self-delimiting entries -/

namespace Framing

variable {α : Type u} {β : Type v}

/-- Read entries until the buffer is exhausted; `fuel` bounds their number. -/
def decodeAll (decodeOne : List β → Option (α × List β)) : (fuel : Nat) → List β →
    Option (List α)
  | _, [] => some []
  | 0, _ :: _ => none
  | fuel + 1, b :: bs =>
      (decodeOne (b :: bs)).bind fun (a, rest) => (decodeAll decodeOne fuel rest).map (a :: ·)

/-- A stream of non-empty entries that can each be read back from the front of any
buffer is read back entirely. -/
theorem decodeAll_flatMap {ι : Type*} {decodeOne : List β → Option (α × List β)}
    {encodeOne : ι → List β} {value : ι → α} {items : List ι} {fuel : Nat}
    (hone : ∀ item ∈ items, ∀ rest, decodeOne (encodeOne item ++ rest) = some (value item, rest))
    (hne : ∀ item ∈ items, encodeOne item ≠ []) (hfuel : items.length ≤ fuel) :
    decodeAll decodeOne fuel (items.flatMap encodeOne) = some (items.map value) := by
  induction items generalizing fuel with
  | nil => cases fuel <;> rfl
  | cons item items ih =>
      have hitem := hone item List.mem_cons_self (items.flatMap encodeOne)
      cases fuel with
      | zero => cases hfuel
      | succ fuel =>
          have hrest := ih (fun i hi => hone i (List.mem_cons_of_mem _ hi))
            (fun i hi => hne i (List.mem_cons_of_mem _ hi)) (Nat.le_of_succ_le_succ hfuel)
          rw [List.flatMap_cons]
          cases hhead : encodeOne item ++ items.flatMap encodeOne with
          | nil => exact absurd (List.append_eq_nil_iff.mp hhead).1 (hne item List.mem_cons_self)
          | cons b bs =>
              rw [decodeAll, ← hhead, hitem]
              simp [hrest]

/-- The number of non-empty entries of a stream is at most its length. -/
theorem length_le_flatMap {ι : Type*} {encodeOne : ι → List β} {items : List ι}
    (hne : ∀ item ∈ items, encodeOne item ≠ []) :
    items.length ≤ (items.flatMap encodeOne).length := by
  induction items with
  | nil => exact le_rfl
  | cons item items ih =>
      have hpos := List.length_pos_iff.mpr (hne item List.mem_cons_self)
      have hrest := ih fun i hi => hne i (List.mem_cons_of_mem _ hi)
      rw [List.flatMap_cons, List.length_append, List.length_cons]
      omega

end Framing
