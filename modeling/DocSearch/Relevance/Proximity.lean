/-!
# Proximity

The weight of a shared word. A word counts most where it stands first on both sides, and
nine tenths as much for every place further back on either.

The powers are computed by repeated squaring, and the result depends on that order of
multiplications down to its last bit. Places are counted in words of 32 bits, so a place
beyond their range counts as a negative one.

## Main definitions

* `Relevance.power`: An integer power by repeated squaring.
* `Relevance.exponentOf`: A place as an exponent of 32 bits.
* `Relevance.proximity`: The weight of a pair of places.
-/

namespace DocSearch

namespace Relevance

/-- Multiply `result` by `base ^ exponent`. The first argument bounds the number of binary
    digits of the exponent. -/
def powerFrom : Nat → Float → Float → Nat → Float
  | 0, result, _, _ => result
  | digits + 1, result, base, exponent =>
    let result := if exponent % 2 = 1 then result * base else result
    if exponent / 2 = 0 then result
    else powerFrom digits result (base * base) (exponent / 2)

/-- An integer power. A negative exponent gives the reciprocal. -/
def power (base : Float) (exponent : Int32) : Float :=
  let magnitude := exponent.toInt.natAbs
  let result := powerFrom 32 1.0 base magnitude
  if exponent < 0 then 1.0 / result else result

/-- A place as an exponent. -/
def exponentOf (place : Nat) : Int32 := Int32.ofNat place

/-- What a word loses with every place. -/
def decay : Float := 0.9

/-- The weight of a word at one place of the query and another of the field. -/
def proximity (queryPlace fieldPlace : Nat) : Float :=
  power decay (exponentOf queryPlace) * power decay (exponentOf fieldPlace)

end Relevance

end DocSearch
