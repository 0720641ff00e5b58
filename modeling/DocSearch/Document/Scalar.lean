import DocSearch.Json.Basic

/-!
# Scalars

The view of a JSON value under which fields are compared: a boolean, a number or a text.
Numbers of both kinds become doubles, so `30` and `30.0` are one scalar.

Scalars are compared in three ways. Queries ask for equality, where numbers are equal as
numbers, or more loosely for equality of the canonical texts, under which the number `30`
equals the text `"30"`. Sorting needs an order of all scalars: within a kind the natural
one, and between kinds booleans before numbers before texts. The order of numbers is the
total one, because a sort must not meet incomparable values.

## Main definitions

* `Scalar`, `Scalar.ofJson?`: The view.
* `Scalar.same`: Equality as a query sees it.
* `Scalar.canonicalText`, `canonicalText`: The text for loose equality.
* `Scalar.order`: The natural order.
-/

namespace DocSearch

/-- A boolean, a number or a text. -/
inductive Scalar where
  | bool (value : Bool)
  | number (value : Float)
  | text (value : String)
  deriving DecidableEq

namespace Scalar

/-- The scalar a value is. `null`, arrays and objects are none. -/
def ofJson? : Json → Option Scalar
  | .bool value => some (.bool value)
  | .num value => some (.number value.toFloat)
  | .str value => some (.text value)
  | _ => none

/-- Equality as a query sees it: two zeros are the same number whatever their sign, and
    what is no number is not even the same as itself. -/
def same : Scalar → Scalar → Bool
  | .bool a, .bool b => a == b
  -- Equality of numbers, not of bit patterns.
  | .number x, .number y => x == y
  | .text s, .text t => s == t
  | _, _ => false

/-- The text under which scalars of different kinds can be equal. -/
def canonicalText : Scalar → String
  | .bool value => if value then "true" else "false"
  | .number value => Number.canonicalText value
  | .text value => value

/-- The text of a text. -/
def asText? : Scalar → Option String
  | .text value => some value
  | _ => none

/-- The value of a number. -/
def asFloat? : Scalar → Option Float
  | .number value => some value
  | _ => none

/-- Booleans come before numbers, and numbers before texts. -/
def rank : Scalar → Nat
  | .bool _ => 0
  | .number _ => 1
  | .text _ => 2

/-- The natural order. -/
def order : Scalar → Scalar → Ordering
  | .bool a, .bool b => compare a.toNat b.toNat
  | .number x, .number y => Number.compareTotal x y
  | .text s, .text t => String.compare s t
  | a, b => compare a.rank b.rank

end Scalar

/-- The canonical text of any value. `null`, arrays and objects have the empty one. -/
def canonicalText (value : Json) : String :=
  match Scalar.ofJson? value with
  | some scalar => scalar.canonicalText
  | none => ""

end DocSearch
