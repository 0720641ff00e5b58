import DocSearch.Number.Word

/-!
# The Parts of a Double

A finite double is an integer times a power of two. Every exact question about one, which
digits name it, whether it is whole, where it stands in the total order, is a question
about that integer and that power, so this module reads them off the bit pattern once and
the rest is arithmetic on natural numbers.

## Main definitions

* `hiddenBit`: The leading bit of a significand that is not subnormal.
* `Binary`: A sign, an integer significand and a power of two.
* `Binary.ofFloat`: The parts of a finite double.
* `Binary.magnitude`: The whole part of the absolute value.
* `Binary.isWhole`: No fraction is left over.
* `wholePart`: A double cut to a whole number, kept within 64 bits.
* `totalRank`: The place of a double in the total order, as an integer.
* `compareTotal`: The total order itself.
-/

namespace DocSearch

namespace Number

/-- The leading bit of a significand, which the bit pattern leaves out: two to the power of
    52. -/
def hiddenBit : Nat := 4503599627370496

/-- The number `significand · 2 ^ exponent`, with a sign. -/
structure Binary where
  /-- The sign bit, which a zero has as well. -/
  negative : Bool
  /-- The integer significand, below twice the hidden bit. -/
  significand : Nat
  /-- The power of two the significand counts. -/
  exponent : Int

namespace Binary

/-- The parts of a finite double. The eleven exponent bits hold zero for a subnormal
    number, whose significand has no leading bit of its own. -/
def ofFloat (x : Float) : Binary :=
  let bits := x.toBits.toNat
  let fraction := bits % hiddenBit
  let biased := bits / hiddenBit % 2048
  let negative := decide (signLimit ≤ bits)
  if biased = 0 then ⟨negative, fraction, -1074⟩
  else ⟨negative, hiddenBit + fraction, Int.ofNat biased - 1075⟩

/-- The whole part of the absolute value. -/
def magnitude (b : Binary) : Nat :=
  match b.exponent with
  | .ofNat e => b.significand <<< e
  | .negSucc e => b.significand >>> (e + 1)

/-- Whether nothing is lost when the absolute value is cut to its whole part. -/
def isWhole (b : Binary) : Bool :=
  match b.exponent with
  | .ofNat _ => true
  | .negSucc e => (b.significand >>> (e + 1)) <<< (e + 1) == b.significand

/-- The whole part with its sign. -/
def whole (b : Binary) : Int :=
  if b.negative then -(b.magnitude : Int) else b.magnitude

end Binary

/-- A double cut toward zero to an integer. What does not fit 64 bits goes to the nearest
    end of their range, the infinities included, and what is no number goes to zero. -/
def wholePart (x : Float) : Int :=
  if x.isNaN then 0
  else if x.isInf then (if x < 0 then leastInt64 else greatestInt64)
  else max leastInt64 (min greatestInt64 (Binary.ofFloat x).whole)

/-- The place of a double in the total order: negative numbers by falling magnitude,
    then `-0.0`, then `0.0`, then positive numbers by rising magnitude. The bits below the
    sign already rise with the magnitude, so only the sign has to be undone. -/
def totalRank (x : Float) : Int :=
  let bits := x.toBits.toNat
  if bits < signLimit then (bits : Int) else greatestInt64 - bits

/-- The total order of doubles, in which `-0.0` comes before `0.0`. -/
def compareTotal (x y : Float) : Ordering :=
  compare (totalRank x) (totalRank y)

end Number

end DocSearch
