/-!
# Words of 64 Bits

The limits of the integers that fit a machine word. Counts, places in a list and amounts
of time are unsigned words; the integers that doubles are cut to have a sign.

## Main definitions

* `wordLimit`, `greatestWord`: The end of the range without a sign.
* `signLimit`, `leastInt64`, `greatestInt64`: The ends of the range with a sign.
-/

namespace DocSearch

namespace Number

/-- One more than the greatest unsigned word: two to the power of 64. -/
def wordLimit : Nat := 18446744073709551616

/-- The greatest unsigned word. -/
def greatestWord : Nat := wordLimit - 1

/-- One more than the greatest word with a sign: two to the power of 63. -/
def signLimit : Nat := 9223372036854775808

/-- The least word with a sign. -/
def leastInt64 : Int := -(signLimit : Int)

/-- The greatest word with a sign. -/
def greatestInt64 : Int := (signLimit : Int) - 1

end Number

end DocSearch
