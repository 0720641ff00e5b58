/-!
# Cutting Texts

Cutting a text at every occurrence of one character, and taking a fixed ending off.

Both paths and tokens are pieces between separators. There is always at least one piece:
the empty text has one empty piece, and a separator at either end leaves an empty piece
there. Nothing is lost, since putting the separator back between the pieces gives the text
again.

## Main definitions

* `Text.pieces`: The pieces of a list of characters.
* `Text.split`: The pieces of a text.
* `Text.dropEnding?`: What stands before a fixed ending.

## Theorems

* `join_pieces`: The pieces with the separator between them are the text.
* `notMem_of_mem_pieces`: No piece contains the separator.
-/

namespace DocSearch

namespace Text

/-- The piece before the first separator, and the pieces behind it. -/
def firstPiece (separator : Char) : List Char → List Char × List (List Char)
  | [] => ([], [])
  | c :: rest =>
    let (first, more) := firstPiece separator rest
    if c = separator then ([], first :: more) else (c :: first, more)

/-- The pieces of a list of characters between separators, of which there is at least
    one. -/
def pieces (separator : Char) (s : List Char) : List (List Char) :=
  (firstPiece separator s).1 :: (firstPiece separator s).2

/-- Pieces with a separator between each two. -/
def join (separator : Char) : List (List Char) → List Char
  | [] => []
  | [piece] => piece
  | piece :: rest => piece ++ separator :: join separator rest

/-- The pieces of a text between separators. -/
def split (separator : Char) (text : String) : List String :=
  (pieces separator text.toList).map String.ofList

/-- What stands before a fixed ending. -/
def dropEnding? (ending text : String) : Option String :=
  if ending.toList.isSuffixOf text.toList then
    some (String.ofList (text.toList.take (text.toList.length - ending.toList.length)))
  else none

theorem pieces_nil (separator : Char) : pieces separator [] = [[]] := rfl

theorem pieces_cons_self (separator : Char) (s : List Char) :
    pieces separator (separator :: s) = [] :: pieces separator s := by
  simp [pieces, firstPiece]

theorem pieces_cons_of_ne {separator c : Char} (h : c ≠ separator) (s : List Char) :
    pieces separator (c :: s)
      = (c :: (firstPiece separator s).1) :: (firstPiece separator s).2 := by
  simp [pieces, firstPiece, h]

/-- Nothing is lost by cutting. -/
theorem join_pieces (separator : Char) (s : List Char) :
    join separator (pieces separator s) = s := by
  induction s with
  | nil => rfl
  | cons c rest ih =>
    by_cases h : c = separator
    · subst h
      rw [pieces_cons_self, pieces, join, ← pieces, ih]
      · rfl
      · simp
    · rw [pieces_cons_of_ne h]
      rw [pieces] at ih
      rcases hmore : (firstPiece separator rest).2 with _ | ⟨second, more⟩
      · rw [hmore, join] at ih
        rw [join, ih]
      · rw [hmore, join] at ih
        · rw [join, List.cons_append, ih]
          simp
        · simp

/-- The separator only stands between pieces. -/
theorem notMem_of_mem_pieces {separator : Char} {s piece : List Char}
    (h : piece ∈ pieces separator s) : separator ∉ piece := by
  induction s generalizing piece with
  | nil =>
    rw [pieces_nil, List.mem_singleton] at h
    simp [h]
  | cons c rest ih =>
    by_cases hc : c = separator
    · subst hc
      rw [pieces_cons_self, List.mem_cons] at h
      rcases h with rfl | h
      · simp
      · exact ih h
    · rw [pieces_cons_of_ne hc, List.mem_cons] at h
      rcases h with rfl | h
      · have : separator ∉ (firstPiece separator rest).1 := ih (by simp [pieces])
        simp [this, Ne.symm hc]
      · exact ih (by simp [pieces, h])

end Text

end DocSearch
