/-!
# Ranges of Code Points

Properties of characters are sets of code points, and case mappings move code points by a
fixed distance. Both are given as short tables of ranges, in which a mapping range also
says how far apart its members are, because in many alphabets capital and small letters
alternate.

## Main definitions

* `Text.inRanges`: Whether a character lies in a table of ranges.
* `Text.ShiftRange`: Evenly spaced code points that move by one distance.
* `Text.shift`: Where a table moves a character.
-/

namespace DocSearch

namespace Text

/-- Whether a character lies in one of the ranges, whose ends belong to them. -/
def inRanges (ranges : List (Nat × Nat)) (c : Char) : Bool :=
  ranges.any fun (first, last) => decide (first ≤ c.toNat) && decide (c.toNat ≤ last)

/-- The code points `first`, `first + step` and so on up to `last`, all moved by one
    distance. -/
structure ShiftRange where
  first : Nat
  last : Nat
  step : Nat
  distance : Int

/-- Whether a code point is one of those a range moves. -/
def ShiftRange.covers (range : ShiftRange) (code : Nat) : Bool :=
  decide (range.first ≤ code) && decide (code ≤ range.last)
    && (code - range.first) % range.step == 0

/-- Where a table moves a character. One that no range covers stays. -/
def shift (ranges : List ShiftRange) (c : Char) : Char :=
  match ranges.find? fun range => range.covers c.toNat with
  | some range => Char.ofNat (c.toNat + range.distance).toNat
  | none => c

end Text

end DocSearch
