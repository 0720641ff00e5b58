import DocSearch.Text.Table.Cased
import DocSearch.Text.Table.CaseIgnorable
import DocSearch.Text.Table.Lowercase

/-!
# Lower Case

The full Unicode lower case of a text. Characters are mapped one by one, with two
exceptions. The capital I with a dot becomes two characters. The capital sigma has two
small letters, and which one is meant depends on its place: at the end of a word it is the
final one.

A sigma ends a word when a cased letter stands before it and none stands behind it, where
on both sides case ignorable characters are looked through. The whole text counts, not
only the token the letter is in.

## Main definitions

* `Text.isCased`, `Text.isCaseIgnorable`: The two properties of characters.
* `Text.lowerChar`: The lower case of a character other than the sigma.
* `Text.endsWord`: Whether a place between two stretches of text ends a word.
* `Text.lowercase`: The lower case of a text.

## Theorems

* `lowerChar_of_ascii`: On ASCII characters it is the ASCII lower case.
-/

namespace DocSearch

namespace Text

/-- Whether a character is a cased letter. -/
def isCased (c : Char) : Bool := inRanges casedRanges c

/-- Whether a character is looked through when a word's case is judged. -/
def isCaseIgnorable (c : Char) : Bool := inRanges caseIgnorableRanges c

/-- The lower case of a character on its own. -/
def lowerChar (c : Char) : List Char :=
  if c.toNat < 128 then [c.toLower]
  else if c = '\u0130' then ['i', '\u0307']
  else [shift lowercaseRanges c]

/-- Whether the first character that is not looked through is a cased letter. -/
def meetsCased (s : List Char) : Bool :=
  match s.dropWhile isCaseIgnorable with
  | c :: _ => isCased c
  | [] => false

/-- Whether a capital sigma between two stretches of text ends a word. The stretch before
    it is given from its end. -/
def endsWord (before after : List Char) : Bool :=
  meetsCased before && !meetsCased after

/-- The lower case of what is left of a text, behind a stretch given from its end. -/
def lowerFrom (before : List Char) : List Char → List Char
  | [] => []
  | c :: after =>
    -- No other character looks at its neighbours.
    let lower :=
      if c = 'Σ' then (if endsWord before after then ['ς'] else ['σ']) else lowerChar c
    lower ++ lowerFrom (c :: before) after

/-- The lower case of a text. -/
def lowercase (text : String) : String :=
  String.ofList (lowerFrom [] text.toList)

/-- On ASCII characters it is the ASCII lower case. -/
theorem lowerChar_of_ascii {c : Char} (h : c.toNat < 128) : lowerChar c = [c.toLower] := by
  rw [lowerChar, if_pos h]

end Text

end DocSearch
