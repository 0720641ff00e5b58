import DocSearch.Keyed
import DocSearch.Number.Layout

/-!
# JSON Values

The values that documents, queries, mappings and answers are made of.

A number keeps the kind it was written with. One without fraction and exponent that fits
64 bits, with or without a sign, is an integer and is shown as one again; every other
number is a double. The two kinds compare as doubles, but a count has to be an integer, so
`1.0` is not a page size.

An object is a list of members in key order. `Json.Ordered` says so for a value and all
values inside it; the reader only builds such values.

## Main definitions

* `Json.Numeral`, `Json`: Numbers and values.
* `Json.get?`: The member of an object.
* `Json.object`: An object from members in any order.
* `Json.asText?`, `Json.asFloat?`, `Json.asCount?`, `Json.asObject?`, `Json.asArray?`:
  A value as a text, a double, a count, members or elements.
* `Json.Ordered`: Every object inside has its members in key order.
-/

namespace DocSearch

/-- A JSON number, as an integer or as a double. -/
inductive Json.Numeral where
  /-- Written without fraction and exponent, and within 64 bits. -/
  | integer (value : Int)
  /-- Every other number. -/
  | real (value : Float)
  deriving DecidableEq

/-- A JSON value. -/
inductive Json where
  | null
  | bool (value : Bool)
  | num (value : Json.Numeral)
  | str (value : String)
  | arr (elements : List Json)
  /-- The members, in key order. -/
  | obj (members : List (String × Json))

namespace Json

/-- A number as a double, rounded to the nearest. -/
def Numeral.toFloat : Numeral → Float
  | .integer value => Float.ofInt value
  | .real value => value

/-- A natural number as a value. -/
def ofNat (n : Nat) : Json := .num (.integer n)

/-- A double as a value. JSON has no text for infinities and for what is no number. -/
def ofFloat (x : Float) : Json :=
  if x.isFinite then .num (.real x) else .null

/-- An optional value, with `null` for none. -/
def ofOption : Option Json → Json
  | some value => value
  | none => .null

/-- Texts as an array. -/
def ofTexts (texts : List String) : Json := .arr (texts.map .str)

/-- An object from members in any order; the last of several members with one key stays. -/
def object (members : List (String × Json)) : Json := .obj (Keyed.ofList members)

/-- The member of an object; a value of another kind has none. -/
def get? (key : String) : Json → Option Json
  | .obj members => Keyed.get? key members
  | _ => none

/-- The member of an object, where `null` is as good as none. -/
def present? (key : String) (value : Json) : Option Json :=
  match value.get? key with
  | none | some .null => none
  | some member => some member

/-- The text of a string. -/
def asText? : Json → Option String
  | .str value => some value
  | _ => none

/-- The value of a number as a double. -/
def asFloat? : Json → Option Float
  | .num value => some value.toFloat
  | _ => none

/-- A count: an integer that is not negative and fits 64 bits. -/
def asCount? : Json → Option Nat
  | .num (.integer (.ofNat n)) => if n < Number.wordLimit then some n else none
  | _ => none

/-- The members of an object. -/
def asObject? : Json → Option (List (String × Json))
  | .obj members => some members
  | _ => none

/-- The elements of an array. -/
def asArray? : Json → Option (List Json)
  | .arr elements => some elements
  | _ => none

/-- Whether a value is an object. -/
def isObject : Json → Bool
  | .obj _ => true
  | _ => false

/-- Whether a value is `null`. -/
def isNull : Json → Bool
  | .null => true
  | _ => false

/-- Every object inside a value, itself included, has its members in key order. -/
inductive Ordered : Json → Prop where
  | null : Ordered .null
  | bool (value : Bool) : Ordered (.bool value)
  | num (value : Numeral) : Ordered (.num value)
  | str (value : String) : Ordered (.str value)
  | arr {elements : List Json} :
      (∀ element ∈ elements, Ordered element) → Ordered (.arr elements)
  | obj {members : List (String × Json)} :
      Keyed.Ordered members → (∀ member ∈ members, Ordered member.2) → Ordered (.obj members)

/-- Only an object has members. -/
theorem get?_eq_none_of_not_isObject {key : String} {value : Json}
    (h : value.isObject = false) : value.get? key = none := by
  cases value <;> first | rfl | simp [isObject] at h

/-- Only a string has a text. -/
theorem asText?_eq_some_iff {value : Json} {text : String} :
    value.asText? = some text ↔ value = .str text := by
  cases value <;> simp [asText?]

end Json

end DocSearch
