import DocSearch.Number.Shortest

/-!
# The Layout of a Number

How the digits of a double are written down. Two texts of numbers leave the store: the
one inside a JSON text, and the canonical one by which values are compared loosely. They
share the digits and differ in a few decisions, which `Layout` collects, so that each
format is one value of it.

## Main definitions

* `Layout`: The decisions of a number format.
* `Layout.write`: A finite double in a format.
* `jsonLayout`, `plainLayout`: The two formats.
* `canonicalText`: The text by which numbers are compared loosely.
-/

namespace DocSearch

namespace Number

/-- The decisions of a number format. -/
structure Layout where
  /-- Which of two equally near decimals is taken. -/
  tie : Tie
  /-- The decimal exponents of the leading digit that are written without an exponent. -/
  positional : Int → Bool
  /-- Whether a whole number keeps one zero behind the point. -/
  keepsFraction : Bool

namespace Layout

/-- A run of zeros. -/
def zeros (n : Nat) : String := String.ofList (List.replicate n '0')

/-- Digits with the point in its place. -/
def writePositional (layout : Layout) (d : Decimal) : String :=
  let digits := toString d.digits
  match d.exponent with
  | .ofNat e => digits ++ zeros e ++ (if layout.keepsFraction then ".0" else "")
  | .negSucc e =>
    let places := e + 1
    -- At least one digit has to stand before the point.
    let padded := zeros (places + 1 - digits.length) ++ digits
    let whole := padded.length - places
    String.ofList (padded.toList.take whole) ++ "." ++ String.ofList (padded.toList.drop whole)

/-- One digit, the others behind the point, and the exponent with its sign. -/
def writeScientific (d : Decimal) : String :=
  let digits := (toString d.digits).toList
  let leading := d.exponent + digits.length - 1
  let fraction := String.ofList (digits.drop 1)
  String.ofList (digits.take 1) ++ (if fraction = "" then "" else "." ++ fraction)
    ++ "e" ++ (if leading < 0 then "-" else "+") ++ toString leading.natAbs

/-- A finite double in a format. -/
def write (layout : Layout) (x : Float) : String :=
  let b := Binary.ofFloat x
  let sign := if b.negative then "-" else ""
  if b.significand = 0 then sign ++ "0" ++ (if layout.keepsFraction then ".0" else "")
  else
    let d := Decimal.shortest layout.tie b
    let leading := d.exponent + digitCount d.digits - 1
    sign ++ (if layout.positional leading then layout.writePositional d else writeScientific d)

end Layout

/-- Numbers in a JSON text: a point and at least one digit behind it for the exponents from
    -5 to 15, and a signed exponent for all others. Ties go to the even digit. -/
def jsonLayout : Layout where
  tie := .toEven
  positional exponent := -5 ≤ exponent && exponent ≤ 15
  keepsFraction := true

/-- Plain numbers: never an exponent, and no point where there is no fraction. Ties go
    up. -/
def plainLayout : Layout where
  tie := .up
  positional _ := true
  keepsFraction := false

/-- The text by which numbers are compared loosely. A whole number that fits 64 bits is
    written as an integer, so that `30` and `30.0` have one text and `-0.0` is `0`. -/
def canonicalText (x : Float) : String :=
  if x.isNaN then "NaN"
  else if x.isInf then (if x < 0 then "-inf" else "inf")
  else
    let b := Binary.ofFloat x
    -- The sign of a zero is lost here, because zero as an integer has none.
    if b.isWhole && decide (b.magnitude < signLimit) then toString b.whole
    else plainLayout.write x

end Number

end DocSearch
