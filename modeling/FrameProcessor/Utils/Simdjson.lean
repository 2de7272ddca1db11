import Mathlib.Algebra.Group.Nat.Defs
import Mathlib.Data.List.Basic
import Mathlib.Data.Rat.Defs
import FrameProcessor.Utils.Types

/-!
# simdjson - The DOM the configuration code reads

The part of the simdjson DOM interface that the configuration manager relies on.
The parser and the minifier themselves are not part of the program: they are the two
function fields of `Simdjson`, and results that need their round trip say so.

A document is a value tree.  A `dom::element` is not a value but a reference: the
parser it came from and an index on that parser's tape, where the root has index 1, a
scalar takes one word (a number two), a container its contents and two words more, and
an object member one word for its key.  Reading an element reads the document the
parser holds at that moment.

Main results:

- Theorem `Parser.atKey_root`: a lookup at the root denotes the first member with that
  key in the document currently held.
-/

namespace FrameProcessor

/-- The bytes of a text. -/
def Bytes.ofString (text : String) : Bytes :=
  text.toUTF8.data.toList

/-- A computation that succeeds has succeeded in its first part. -/
theorem bind_eq_ok {ε α β : Type} {first : Except ε α} {rest : α → Except ε β} {result : β}
    (h : (first >>= rest) = .ok result) :
    ∃ value, first = .ok value ∧ rest value = .ok result := by
  cases first with
  | error code => cases h
  | ok value => exact ⟨value, rfl, h⟩

/-- A JSON value as the DOM stores it: integers that fit in `int64_t`, larger ones as
`uint64_t`, all other numbers as `double`. -/
inductive Json where
  | null
  | bool (value : Bool)
  | int64 (value : Int64)
  | uint64 (value : UInt64)
  | double (value : Double)
  | string (value : String)
  | array (elements : List Json)
  | object (fields : List (String × Json))

/-- The simdjson error codes the configuration code can meet. -/
inductive ErrorCode where
  | tapeError
  | ioError
  | incorrectType
  | noSuchField
  | numberOutOfRange
deriving DecidableEq

/-- The two library functions the program relies on. -/
structure Simdjson where
  parse : Bytes → Except ErrorCode Json
  minify : Json → Bytes

/-- `parser.load(path)`: an unreadable file is an I/O error. -/
def Simdjson.load (lib : Simdjson) (file : Option Bytes) : Except ErrorCode Json :=
  match file with
  | none => .error .ioError
  | some text => lib.parse text

namespace Json

/-! ## Typed access to a value -/

/-- `element[key]`: the first member with that key. -/
def atKey (value : Json) (key : String) : Except ErrorCode Json :=
  match value with
  | .object fields =>
      match fields.lookup key with
      | some member => .ok member
      | none => .error .noSuchField
  | _ => .error .incorrectType

/-- `get_bool`. -/
def getBool : Json → Except ErrorCode Bool
  | .bool value => .ok value
  | _ => .error .incorrectType

/-- `get_string`. -/
def getString : Json → Except ErrorCode String
  | .string value => .ok value
  | _ => .error .incorrectType

/-- `get_int64`: an unsigned value beyond the signed range is out of range. -/
def getInt64 : Json → Except ErrorCode Int64
  | .int64 value => .ok value
  | .uint64 value =>
      if value.toNat ≤ 9223372036854775807 then .ok value.toInt64 else .error .numberOutOfRange
  | _ => .error .incorrectType

/-- Rounding an integer to the nearest `double`, ties to even (53 significant bits). -/
def doubleOfInt (value : Int) : Double :=
  let magnitude := value.natAbs
  let exponent := Nat.log2 magnitude - 52
  let unit := 2 ^ exponent
  let quotient := magnitude / unit
  let remainder := magnitude % unit
  let rounded :=
    if unit < 2 * remainder ∨ (2 * remainder = unit ∧ quotient % 2 = 1) then quotient + 1
    else quotient
  if value < 0 then -((rounded * unit : Nat) : ℚ) else ((rounded * unit : Nat) : ℚ)

/-- `get_double`: integers are converted. -/
def getDouble : Json → Except ErrorCode Double
  | .double value => .ok value
  | .int64 value => .ok (doubleOfInt value.toInt)
  | .uint64 value => .ok (doubleOfInt value.toNat)
  | _ => .error .incorrectType

/-- `get_array`. -/
def getArray : Json → Except ErrorCode (List Json)
  | .array elements => .ok elements
  | _ => .error .incorrectType

/-- `get_object`; the object is kept as a value, to be read with `atKey`. -/
def getObject : Json → Except ErrorCode Json
  | .object fields => .ok (.object fields)
  | _ => .error .incorrectType

theorem atKey_eq_ok_iff {value member : Json} {key : String} :
    value.atKey key = .ok member ↔
      ∃ fields, value = .object fields ∧ fields.lookup key = some member := by
  cases value with
  | object fields =>
      cases h : fields.lookup key <;> simp [atKey, h]
  | _ => simp [atKey]

/-! ## Tape positions -/

mutual

/-- Number of tape words a value occupies. -/
def tapeLength : Json → Nat
  | .null | .bool _ | .string _ => 1
  | .int64 _ | .uint64 _ | .double _ => 2
  | .array elements => 2 + elementsLength elements
  | .object fields => 2 + fieldsLength fields

/-- Tape words of the elements of an array. -/
def elementsLength : List Json → Nat
  | [] => 0
  | element :: elements => tapeLength element + elementsLength elements

/-- Tape words of the members of an object, keys included. -/
def fieldsLength : List (String × Json) → Nat
  | [] => 0
  | (_, member) :: fields => 1 + tapeLength member + fieldsLength fields

end

mutual

/-- The value that starts `i` words after the start of a value. -/
def valueAt : Json → Nat → Option Json
  | value, 0 => some value
  | .array elements, i + 1 => elementAt elements i
  | .object fields, i + 1 => memberAt fields i
  | _, _ + 1 => none

/-- The value that starts `i` words into the elements of an array. -/
def elementAt : List Json → Nat → Option Json
  | [], _ => none
  | element :: elements, i =>
      if i < tapeLength element then valueAt element i
      else elementAt elements (i - tapeLength element)

/-- The value that starts `i` words into the members of an object; a key is no value. -/
def memberAt : List (String × Json) → Nat → Option Json
  | [], _ => none
  | _ :: _, 0 => none
  | (_, member) :: fields, i + 1 =>
      if i < tapeLength member then valueAt member i
      else memberAt fields (i - tapeLength member)

end

/-- Offset of the first member with a key from the start of the members. -/
def fieldOffset : List (String × Json) → String → Option Nat
  | [], _ => none
  | (name, member) :: fields, key =>
      if name = key then some 1
      else (fieldOffset fields key).map fun i => 1 + tapeLength member + i

theorem tapeLength_pos (value : Json) : 0 < value.tapeLength := by
  cases value <;> unfold tapeLength <;> omega

theorem valueAt_zero (value : Json) : value.valueAt 0 = some value := by
  cases value <;> rfl

/-- The offset of a member leads to the value an ordinary lookup finds. -/
theorem memberAt_fieldOffset (fields : List (String × Json)) (key : String) :
    (fieldOffset fields key).bind (memberAt fields) = fields.lookup key := by
  induction fields with
  | nil => rfl
  | cons field fields ih =>
      rcases field with ⟨name, member⟩
      by_cases hname : name = key
      · subst hname
        simp [fieldOffset, memberAt, valueAt_zero, tapeLength_pos]
      · have hne : (key == name) = false := by
          simpa using Ne.symm hname
        rw [List.lookup_cons, hne, ← ih]
        cases hoffset : fieldOffset fields key with
        | none => simp [fieldOffset, hname, hoffset]
        | some i =>
            have hshift : 1 + tapeLength member + i = (tapeLength member + i) + 1 := by omega
            simp [fieldOffset, hname, hoffset, hshift, memberAt]

/-- A key has an offset exactly when an ordinary lookup finds it. -/
theorem fieldOffset_isSome (fields : List (String × Json)) (key : String) :
    (fieldOffset fields key).isSome = (fields.lookup key).isSome := by
  induction fields with
  | nil => rfl
  | cons field fields ih =>
      rcases field with ⟨name, member⟩
      by_cases hname : name = key
      · subst hname
        simp [fieldOffset]
      · have hne : (key == name) = false := by
          simpa using Ne.symm hname
        simpa [fieldOffset, hname, List.lookup_cons, hne] using ih

end Json

/-! ## Parsers and elements -/

/-- A `dom::parser`: the document of its last successful parse or load. -/
structure Parser where
  doc : Option Json

/-- A `dom::element` of the parser: a tape index. -/
structure Element where
  tapeIndex : Nat
deriving DecidableEq

namespace Parser

/-- `parser.parse(text)` or `parser.load(path)`: the new document replaces the old one. -/
def read (result : Except ErrorCode Json) : Except ErrorCode Element × Parser :=
  match result with
  | .ok doc => (.ok ⟨1⟩, ⟨some doc⟩)
  | .error code => (.error code, ⟨none⟩)

/-- The value an element denotes in the document held now. -/
def value (self : Parser) (element : Element) : Option Json :=
  match self.doc, element.tapeIndex with
  | some doc, index + 1 => doc.valueAt index
  | _, _ => none

/-- `element[key]`, an element of the same parser. -/
def atKey (self : Parser) (element : Element) (key : String) : Except ErrorCode Element :=
  match self.value element with
  | some (.object fields) =>
      match Json.fieldOffset fields key with
      | some offset => .ok ⟨element.tapeIndex + 1 + offset⟩
      | none => .error .noSuchField
  | _ => .error .incorrectType

theorem value_root (doc : Json) : (Parser.mk (some doc)).value ⟨1⟩ = some doc :=
  Json.valueAt_zero doc

/-- A lookup at the root denotes the first member with that key in the document held. -/
theorem atKey_root {doc member : Json} {key : String} (h : doc.atKey key = .ok member) :
    ∃ element, (Parser.mk (some doc)).atKey ⟨1⟩ key = .ok element ∧
      (Parser.mk (some doc)).value element = some member := by
  rcases Json.atKey_eq_ok_iff.mp h with ⟨fields, rfl, hmember⟩
  rw [← Json.memberAt_fieldOffset] at hmember
  rcases Option.bind_eq_some_iff.mp hmember with ⟨offset, hoffset, hvalue⟩
  refine ⟨⟨1 + 1 + offset⟩, ?_, ?_⟩
  · simp [atKey, value_root, hoffset]
  · have hshift : 1 + 1 + offset = (offset + 1) + 1 := by omega
    simp [value, hshift, Json.valueAt, hvalue]

/-- A lookup that fails on the document held fails at the root with the same code. -/
theorem atKey_root_error {doc : Json} {key : String} {code : ErrorCode}
    (h : doc.atKey key = .error code) : (Parser.mk (some doc)).atKey ⟨1⟩ key = .error code := by
  cases doc with
  | object fields =>
      have hlookup : fields.lookup key = none := by
        cases hfields : fields.lookup key with
        | none => rfl
        | some member => simp [Json.atKey, hfields] at h
      have hcode : ErrorCode.noSuchField = code := by simpa [Json.atKey, hlookup] using h
      have hoffset : Json.fieldOffset fields key = none := by
        have hisSome := Json.fieldOffset_isSome fields key
        rw [hlookup] at hisSome
        simpa using hisSome
      simp [atKey, value_root, hoffset, hcode]
  | _ => simpa [atKey, value_root, Json.atKey] using h

end Parser

end FrameProcessor
