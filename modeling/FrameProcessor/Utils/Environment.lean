import Mathlib.Data.List.TakeWhile
import FrameProcessor.Utils.Simdjson

/-!
# utils - Settings from the environment

The values of environment variables are arbitrary bytes.  `get_env`, which several components
define for themselves, replaces a variable that is not set by a text, and `std::stoll` and
`std::stoi` read integers from the front of a value.

Main results:

- Theorem `stoi_toString`: `std::stoi` reads back what `std::to_string` writes.
-/

namespace FrameProcessor

/-- `get_env`. -/
def getEnv (val : Option Bytes) (defaultValue : String) : Bytes :=
  val.getD (Bytes.ofString defaultValue)

/-! ## Integers in texts -/

/-- What the conversions throw, with the bytes of `what()`. -/
inductive StdException where
  | invalidArgument (what : Bytes)
  | outOfRange (what : Bytes)

/-- `std::isspace` in the default locale. -/
def isSpace (c : UInt8) : Bool :=
  c == 32 || (9 ≤ c && c ≤ 13)

/-- `std::isdigit`. -/
def isDigit (c : UInt8) : Bool :=
  48 ≤ c && c ≤ 57

/-- The number that a run of digits stands for. -/
def digitsValue (digits : Bytes) : Nat :=
  digits.foldl (fun value c => 10 * value + (c.toNat - 48)) 0

/-- The subject sequence of `strtoll` in base 10: after white space at most one sign, then
digits; what follows is ignored.  `none` without a digit. -/
def strtoll (text : Bytes) : Option Int :=
  let text := text.dropWhile isSpace
  let negative := text.head? == some 45
  let text := if text.head? == some 45 || text.head? == some 43 then text.drop 1 else text
  let digits := text.takeWhile isDigit
  if digits.isEmpty then none
  else if negative then some (-digitsValue digits)
  else some (digitsValue digits)

/-- `std::stoll`. -/
def stoll (text : Bytes) : Except StdException Int64 :=
  match strtoll text with
  | none => .error (.invalidArgument (Bytes.ofString "stoll"))
  | some value =>
      if Int64.minValue.toInt ≤ value ∧ value ≤ Int64.maxValue.toInt then
        .ok (Int64.ofInt value)
      else .error (.outOfRange (Bytes.ofString "stoll"))

/-- `std::stoi`. -/
def stoi (text : Bytes) : Except StdException Int32 :=
  match strtoll text with
  | none => .error (.invalidArgument (Bytes.ofString "stoi"))
  | some value =>
      if Int32.minValue.toInt ≤ value ∧ value ≤ Int32.maxValue.toInt then
        .ok (Int32.ofInt value)
      else .error (.outOfRange (Bytes.ofString "stoi"))

/-! ## Numbers that are written and read back -/

theorem byte_of_isDigit {c : Char} (h : c.isDigit = true) :
    String.utf8EncodeChar c = [c.val.toUInt8] ∧ c.val.toUInt8.toNat = c.toNat ∧
      isDigit c.val.toUInt8 = true := by
  simp only [Char.isDigit, Bool.and_eq_true, decide_eq_true_eq, ge_iff_le,
    UInt32.le_iff_toNat_le] at h
  rcases h with ⟨hlow, hhigh⟩
  have hlow' : 48 ≤ c.val.toNat := hlow
  have hhigh' : c.val.toNat ≤ 57 := hhigh
  have hbyte : c.val.toUInt8.toNat = c.val.toNat := by
    rw [UInt32.toNat_toUInt8]
    omega
  refine ⟨String.utf8EncodeChar_eq_singleton ?_, hbyte, ?_⟩
  · unfold Char.utf8Size
    rw [if_pos]
    rw [UInt32.le_iff_toNat_le]
    exact hhigh'.trans (by decide)
  · simp only [isDigit, Bool.and_eq_true, decide_eq_true_eq, UInt8.le_iff_toNat_le]
    rw [hbyte]
    exact ⟨hlow', hhigh'⟩

/-- The bytes of a text of digits. -/
theorem ofString_digits {cs : List Char} (h : ∀ c ∈ cs, c.isDigit = true) :
    Bytes.ofString (String.ofList cs) = cs.map fun c => c.val.toUInt8 := by
  induction cs with
  | nil => rfl
  | cons c cs ih =>
      have htail := ih fun d hd => h d (List.mem_cons_of_mem c hd)
      have hhead := (byte_of_isDigit (h c List.mem_cons_self)).1
      unfold Bytes.ofString at htail ⊢
      rw [String.toUTF8_eq_toByteArray, String.toByteArray_ofList] at htail ⊢
      rw [List.utf8Encode_cons, List.utf8Encode_singleton, ByteArray.data_append,
        Array.toList_append, htail, hhead]
      rfl

/-- The value of a text of digits. -/
theorem digitsValue_digits {cs : List Char} (h : ∀ c ∈ cs, c.isDigit = true) :
    digitsValue (cs.map fun c => c.val.toUInt8) = Nat.ofDigitChars 10 cs 0 := by
  unfold digitsValue Nat.ofDigitChars
  rw [List.foldl_map]
  generalize 0 = value
  induction cs generalizing value with
  | nil => rfl
  | cons c cs ih =>
      have hbyte := (byte_of_isDigit (h c List.mem_cons_self)).2.1
      rw [List.foldl_cons, List.foldl_cons, ih fun d hd => h d (List.mem_cons_of_mem c hd), hbyte]
      rfl

/-- What `std::to_string` writes for a number that is not negative is read back. -/
theorem strtoll_toString (n : Nat) : strtoll (Bytes.ofString (toString n)) = some n := by
  have hdigits : ∀ c ∈ Nat.toDigits 10 n, c.isDigit = true :=
    fun c hc => Nat.isDigit_of_mem_toDigits (by decide) (by decide) hc
  have hvalue := digitsValue_digits hdigits
  rw [Nat.ofDigitChars_ten_toDigits] at hvalue
  have htext : Bytes.ofString (toString n) =
      (Nat.toDigits 10 n).map fun c => c.val.toUInt8 := by
    rw [← ofString_digits hdigits, ← Nat.repr_eq_ofList_toDigits]
    rfl
  have hbytes : ∀ b ∈ (Nat.toDigits 10 n).map fun c => c.val.toUInt8, isDigit b = true := by
    intro b hb
    rcases List.mem_map.mp hb with ⟨c, hc, rfl⟩
    exact (byte_of_isDigit (hdigits c hc)).2.2
  have hnonempty : ((Nat.toDigits 10 n).map fun c => c.val.toUInt8) ≠ [] := by
    simp [Nat.toDigits_ne_nil]
  rw [htext]
  generalize (Nat.toDigits 10 n).map (fun c => c.val.toUInt8) = text at *
  rcases List.exists_cons_of_ne_nil hnonempty with ⟨b, rest, rfl⟩
  have hb := hbytes b List.mem_cons_self
  have hspace : isSpace b = false := by
    simp only [isDigit, Bool.and_eq_true, decide_eq_true_eq, UInt8.le_iff_toNat_le] at hb
    have hlow : 48 ≤ b.toNat := hb.1
    simp only [isSpace, Bool.or_eq_false_iff, Bool.and_eq_false_iff, beq_eq_false_iff_ne,
      decide_eq_false_iff_not, UInt8.le_iff_toNat_le, ne_eq, ← UInt8.toNat_inj]
    refine ⟨?_, Or.inr ?_⟩
    · change b.toNat ≠ 32
      omega
    · change ¬ b.toNat ≤ 13
      omega
  have hminus : b ≠ 45 := by
    rintro rfl
    cases hb
  have hplus : b ≠ 43 := by
    rintro rfl
    cases hb
  have htake : (b :: rest).takeWhile isDigit = b :: rest :=
    List.takeWhile_eq_self_iff.mpr hbytes
  have hdrop : (b :: rest).dropWhile isSpace = b :: rest :=
    List.dropWhile_cons_of_neg (by simp [hspace])
  unfold strtoll
  simp [hdrop, htake, hminus, hplus, hvalue]

/-- `std::stoi` reads back a number that an `int` can hold. -/
theorem stoi_toString {n : Nat} (h : n < 2 ^ 31) :
    stoi (Bytes.ofString (toString n)) = .ok (Int32.ofNat n) := by
  unfold stoi
  rw [strtoll_toString]
  have hrange : Int32.minValue.toInt ≤ (n : Int) ∧ (n : Int) ≤ Int32.maxValue.toInt := by
    constructor
    · exact le_trans (by decide) (Int.natCast_nonneg n)
    · have : (n : Int) ≤ 2147483647 := by omega
      exact this
  change (if _ then _ else _) = _
  rw [if_pos hrange]
  rfl

end FrameProcessor
