import DocSearch.Number.Binary

/-!
# Shortest Digits

The fewest decimal digits that still name one double.

Between a double and its neighbours lie two midpoints, and every real number strictly
between the midpoints is read as that double. The midpoints themselves are read as it too
when its significand is even, because a reader breaks such ties toward the even one. So
the digits wanted are those of the coarsest decimal grid that has a point in that
interval, and of its points there, the one nearest to the double.

On any grid only the two points next to the double have to be tried: if some point of the
grid lies in the interval, then so does the neighbour on that side. All tests are exact,
on natural numbers over a common denominator. Where both neighbours lie in the interval
and are equally near, the format that is being written says which one it takes.

## Main definitions

* `Decimal`: Digits and a power of ten.
* `Tie`: What a format does with two equally near candidates.
* `Decimal.shortest`: The shortest digits of a positive double.
-/

namespace DocSearch

namespace Number

/-- The number `digits · 10 ^ exponent`. -/
structure Decimal where
  /-- The significant digits, read as one integer. -/
  digits : Nat
  /-- The power of ten they count. -/
  exponent : Int
  deriving DecidableEq

/-- Which of two equally near decimals a format takes. -/
inductive Tie where
  /-- The one whose last digit is even. -/
  | toEven
  /-- The greater one. -/
  | up

/-- A power of ten. -/
def tenTo (exponent : Nat) : Nat := Nat.pow 10 exponent

/-- How many decimal digits a positive number has. -/
def digitCount (n : Nat) : Nat := (Nat.toDigits 10 n).length

/-- The reals that are read as one double, over a common denominator: the double itself is
    `value / unit`, and the interval reaches from `low / unit` to `high / unit`. -/
structure Interval where
  value : Nat
  low : Nat
  high : Nat
  unit : Nat
  /-- Whether the two ends belong to it. -/
  closed : Bool

namespace Interval

/-- The interval of a double. The gap below a power of two is half the gap above it, except
    for the least normal one, below which the subnormal numbers keep the same spacing. -/
def ofBinary (b : Binary) : Interval :=
  let halvedBelow := b.significand == hiddenBit && b.exponent != -1074
  -- In quarters of the last place every midpoint is a whole number.
  let value := 4 * b.significand
  let low := if halvedBelow then value - 1 else value - 2
  let high := value + 2
  let closed := b.significand % 2 == 0
  match b.exponent with
  | .ofNat e => ⟨value <<< e, low <<< e, high <<< e, 4, closed⟩
  | .negSucc e => ⟨value, low, high, 4 <<< (e + 1), closed⟩

/-- The exponent of the leading decimal digit. The lengths of numerator and denominator
    leave two candidates, and one comparison decides. -/
def leadingExponent (i : Interval) : Int :=
  -- A quotient of numbers of `a` and `b` digits lies between the powers `a - b - 1` and
  -- `a - b + 1` of ten.
  let guess : Int := (digitCount i.value : Int) - digitCount i.unit
  let reached : Bool := match guess with
    | .ofNat e => decide (i.unit * tenTo e ≤ i.value)
    | .negSucc e => decide (i.unit ≤ i.value * tenTo (e + 1))
  if reached then guess else guess - 1

/-- The same interval with `10 ^ exponent` as the unit of its grid. -/
def rescale (i : Interval) (exponent : Int) : Interval :=
  match exponent with
  | .ofNat e => { i with unit := i.unit * tenTo e }
  | .negSucc e =>
    let scale := tenTo (e + 1)
    { i with value := i.value * scale, low := i.low * scale, high := i.high * scale }

/-- Whether a whole number of units lies in the interval. -/
def holds (i : Interval) (n : Nat) : Bool :=
  let point := n * i.unit
  if i.closed then i.low ≤ point && point ≤ i.high else i.low < point && point < i.high

/-- The nearest whole number of units in the interval, if there is one at all. -/
def nearest? (i : Interval) (tie : Tie) : Option Nat :=
  let below := i.value / i.unit
  let above := below + 1
  match i.holds below, i.holds above with
  | false, false => none
  | true, false => some below
  | false, true => some above
  | true, true =>
    let down := i.value - below * i.unit
    let up := above * i.unit - i.value
    if down < up then some below
    else if up < down then some above
    else match tie with
      | .toEven => some (if below % 2 = 0 then below else above)
      | .up => some above

end Interval

/-- Take trailing zeros off the digits. The first argument bounds how many there can be. -/
def Decimal.trim : Nat → Decimal → Decimal
  | 0, d => d
  | n + 1, d =>
    if d.digits ≠ 0 ∧ d.digits % 10 = 0 then Decimal.trim n ⟨d.digits / 10, d.exponent + 1⟩
    else d

/-- The first of the grids of one digit, two digits and so on that has a point in the
    interval. Seventeen digits always suffice, so the first argument is never used up. -/
def Decimal.coarsest (i : Interval) (leading : Int) (tie : Tie) : Nat → Nat → Decimal
  | 0, _ => ⟨0, 0⟩
  | fuel + 1, count =>
    let exponent := leading + 1 - count
    match (i.rescale exponent).nearest? tie with
    | some digits => ⟨digits, exponent⟩
    | none => Decimal.coarsest i leading tie fuel (count + 1)

/-- The shortest digits that are read back as the given double, which is not zero. -/
def Decimal.shortest (tie : Tie) (b : Binary) : Decimal :=
  let i := Interval.ofBinary b
  Decimal.trim 20 (Decimal.coarsest i i.leadingExponent tie 20 1)

end Number

end DocSearch
