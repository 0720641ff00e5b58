import DocSearch.Text.CodeRange

/-!
# Blank Characters

White space in the sense of the Unicode property of that name: besides the ASCII blanks,
the no-break spaces, the typographic spaces and the line and paragraph separators.

## Main definitions

* `Text.isBlank`: The property.
* `Text.trim`: A text without the blanks at its ends.

## Theorems

* `isBlank_of_isWhitespace`: Every ASCII blank is blank.
-/

namespace DocSearch

namespace Text

/-- The code points with the property. -/
def blankRanges : List (Nat × Nat) :=
  [(0x9, 0xD), (0x20, 0x20), (0x85, 0x85), (0xA0, 0xA0), (0x1680, 0x1680), (0x2000, 0x200A),
   (0x2028, 0x2029), (0x202F, 0x202F), (0x205F, 0x205F), (0x3000, 0x3000)]

/-- Whether a character is white space. -/
def isBlank (c : Char) : Bool := inRanges blankRanges c

/-- A text without the blanks at its ends. -/
def trim (text : String) : String :=
  String.ofList ((text.toList.dropWhile isBlank).reverse.dropWhile isBlank).reverse

/-- Every ASCII blank is blank. -/
theorem isBlank_of_isWhitespace {c : Char} (h : c.isWhitespace) : isBlank c := by
  simp only [Char.isWhitespace, Bool.or_eq_true, decide_eq_true_eq] at h
  rcases h with ((rfl | rfl) | rfl) | rfl <;> rfl

end Text

end DocSearch
