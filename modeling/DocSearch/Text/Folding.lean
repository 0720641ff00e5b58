import DocSearch.Text.Table.Folding

/-!
# Case Folding

Characters that differ only in case, one character at a time. Folding takes each of them
to the same representative, so two characters are the same but for case exactly when their
foldings are equal. It is not the lower case: the long s and the Kelvin sign fold to `s`
and `k`, and the final sigma to the other small sigma. It also follows an earlier version
of the standard than the lower case does, so there are letters that have a small letter
and fold to themselves.

## Main definitions

* `Text.fold`: The representative of a character.

## Theorems

* `fold_of_ascii`: On ASCII characters it is the ASCII lower case.
-/

namespace DocSearch

namespace Text

/-- The representative of all characters that differ from a given one only in case. -/
def fold (c : Char) : Char :=
  if c.toNat < 128 then c.toLower else shift foldingRanges c

/-- On ASCII characters it is the ASCII lower case. -/
theorem fold_of_ascii {c : Char} (h : c.toNat < 128) : fold c = c.toLower := by
  rw [fold, if_pos h]

end Text

end DocSearch
