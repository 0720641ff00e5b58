import DocSearch.Text.Folding

/-!
# Patterns over Texts

Globs, and the patterns that globs, words and plain texts are compiled to.

In a glob `*` stands for any run of characters and `?` for any one character, where a line
break is not among them, and every other character stands for itself. A pattern is a list
of such alternatives, of which earlier ones are preferred, together with the decision
whether case counts.

A pattern is used in two ways. To select names and values it has to match a whole text. To
mark its occurrences it is matched along the text from left to right: at each place the
first alternative that matches there is taken, a run takes as much as it can, and the scan
goes on behind what was matched. A match of no characters marks nothing.

Matching never tries a choice twice. For one place of the text the results of all tails of
an alternative are computed together, from the results at the next place, so the cost is
the product of the two lengths however many runs there are.

## Main definitions

* `Piece`, `Pattern`: What patterns are made of.
* `Piece.ofGlob`, `isGlob`: Reading a glob.
* `globSource`, `anchoredSource`: The regular expression with the same meaning, for parts of
  a text and for whole texts.
* `Pattern.glob`, `Pattern.words`, `Pattern.exactly`: The three kinds in use.
* `Pattern.accepts`: A match of a whole text.
* `Pattern.scan`: A text cut into its marked parts and the characters between them.

## Theorems

* `scan_text`: Scanning keeps every character in its place.
-/

namespace DocSearch

/-- One piece of an alternative. -/
inductive Piece where
  /-- This character. -/
  | literal (c : Char)
  /-- Any one character but a line break. -/
  | any
  /-- Any run of characters without a line break. -/
  | run
  deriving DecidableEq

namespace Piece

/-- What a character means in a glob. -/
def ofGlobChar (c : Char) : Piece :=
  if c = '*' then .run else if c = '?' then .any else .literal c

/-- The pieces of a glob, one for each character. -/
def ofGlob (glob : String) : List Piece :=
  glob.toList.map ofGlobChar

/-- The characters that a regular expression reads as something else than themselves. -/
def specialChars : List Char :=
  ['\\', '.', '+', '*', '?', '(', ')', '|', '[', ']', '\x7b', '\x7d', '^', '$', '#', '&', '-',
   '~']

end Piece

/-- A text as a regular expression in which every character stands for itself. -/
def escaped (s : List Char) : List Char :=
  s.flatMap fun c => if c ∈ Piece.specialChars then ['\\', c] else [c]

/-- The regular expression of the rest of a glob, behind characters that stand for themselves.
    Those are written together, once one with another meaning or the end has been reached. -/
def sourceBehind (literal : List Char) : List Char → List Char
  | [] => escaped literal
  | c :: rest =>
    match Piece.ofGlobChar c with
    | .run => escaped literal ++ '.' :: '*' :: sourceBehind [] rest
    | .any => escaped literal ++ '.' :: sourceBehind [] rest
    | .literal c => sourceBehind (literal ++ [c]) rest

/-- Whether a text holds a character that has a meaning of its own in a glob. -/
def isGlob (text : String) : Bool :=
  text.toList.any fun c => c = '*' || c = '?'

/-- The regular expression that means the same as a glob. -/
def globSource (glob : String) : String := String.ofList (sourceBehind [] glob.toList)

/-- The regular expression that means the same as a glob and matches whole texts only. -/
def anchoredSource (glob : String) : String := "^(?:" ++ globSource glob ++ ")$"

/-- Alternatives in order of preference. -/
structure Pattern where
  alternatives : List (List Piece)
  /-- Whether characters that differ only in case match each other. -/
  foldCase : Bool
  deriving DecidableEq

namespace Pattern

/-- The pattern of a glob. -/
def glob (glob : String) (foldCase : Bool) : Pattern :=
  ⟨[Piece.ofGlob glob], foldCase⟩

/-- The pattern of any one of several words, in any case. -/
def words (words : List String) : Pattern :=
  ⟨words.map fun word => word.toList.map .literal, true⟩

/-- The pattern of one text as it stands. -/
def exactly (text : String) : Pattern :=
  ⟨[text.toList.map .literal], false⟩

/-- Whether a character of the text matches one of the pattern. -/
def sameChar (foldCase : Bool) (c x : Char) : Bool :=
  if foldCase then Text.fold c == Text.fold x else c == x

/-- The lengths of the preferred matches of all tails of an alternative at one place, the
    whole alternative first. -/
abbrev Row := List (Option Nat)

/-- The length of the whole alternative's match. -/
def Row.whole (row : Row) : Option Nat := row.headD none

/-- The row behind the last character. Only runs match there. -/
def endRow : List Piece → Row
  | [] => [some 0]
  | piece :: rest =>
    let below := endRow rest
    (if piece = .run then Row.whole below else none) :: below

/-- The row before a character, from the row behind it. The result of the empty tail is
    given, because it says whether a match may end here. -/
def stepRow (foldCase : Bool) (ends : Option Nat) (x : Char) : List Piece → Row → Row
  | [], _ => [ends]
  | piece :: rest, next =>
    -- `next.tail` and `below` belong to the rest of the pieces, behind the character and
    -- before it; `next` belongs to all of them behind it.
    let below := stepRow foldCase ends x rest next.tail
    let here :=
      match piece with
      | .literal c =>
        if sameChar foldCase c x then (Row.whole next.tail).map (· + 1) else none
      | .any => if x ≠ '\n' then (Row.whole next.tail).map (· + 1) else none
      -- A run prefers to take the character; only if that leads nowhere does it end here.
      | .run =>
        if x ≠ '\n' then ((Row.whole next).map (· + 1)).or (Row.whole below)
        else Row.whole below
    here :: below

/-- The row at the beginning of a text. -/
def firstRow (foldCase : Bool) (ends : Option Nat) (pieces : List Piece) : List Char → Row
  | [] => endRow pieces
  | x :: rest => stepRow foldCase ends x pieces (firstRow foldCase ends pieces rest)

/-- Whether the pattern matches a whole text. A match that ends earlier does not count, so
    the empty tail matches behind the last character only. -/
def accepts (pattern : Pattern) (text : String) : Bool :=
  pattern.alternatives.any fun pieces =>
    (Row.whole (firstRow pattern.foldCase none pieces text.toList)).isSome

/-- The length of the preferred match of an alternative at every place of a text, and
    behind its last character. -/
def matchLengths (foldCase : Bool) (pieces : List Piece) (s : List Char) : Row × Row :=
  s.foldr
    (fun x (row, found) =>
      let row := stepRow foldCase (some 0) x pieces row
      (row, Row.whole row :: found))
    (endRow pieces, [])

/-- Of two lists of matches, the earlier one where it has a match. -/
def prefer : Row → Row → Row
  | x :: xs, y :: ys => x.or y :: prefer xs ys
  | xs, [] => xs
  | [], ys => ys

/-- Every character of a text with the length of the match that begins there, zero where
    nothing matches. -/
def marks (pattern : Pattern) (s : List Char) : List (Char × Nat) :=
  let found := pattern.alternatives.foldr
    (fun pieces rest => prefer (matchLengths pattern.foldCase pieces s).2 rest) []
  (s.zip (found ++ List.replicate s.length none)).map fun (c, length) => (c, length.getD 0)

/-- A part of a scanned text. -/
inductive Part where
  /-- A character that no match covers. -/
  | gap (c : Char)
  /-- The characters of one match. -/
  | hit (first : Char) (rest : List Char)
  deriving DecidableEq

/-- The characters of a part. -/
def Part.text : Part → List Char
  | .gap c => [c]
  | .hit first rest => first :: rest

/-- Whether a part is a match. -/
def Part.isHit : Part → Bool
  | .gap _ => false
  | .hit _ _ => true

/-- The parts of a text whose places carry the lengths of the matches that begin there.
    Behind a match the scan goes on at the first character it does not cover. -/
def parts : List (Char × Nat) → List Part
  | [] => []
  | (c, 0) :: rest => .gap c :: parts rest
  | (c, n + 1) :: rest => .hit c ((rest.take n).map Prod.fst) :: parts (rest.drop n)
termination_by marked => marked.length

/-- A text cut into the leftmost matches that do not overlap, and the characters between
    them. -/
def scan (pattern : Pattern) (s : List Char) : List Part :=
  parts (pattern.marks s)

theorem parts_text (marked : List (Char × Nat)) :
    (parts marked).flatMap Part.text = marked.map Prod.fst := by
  fun_induction parts marked with
  | case1 => rfl
  | case2 c rest ih => simp [Part.text, ih]
  | case3 c n rest ih =>
    rw [List.flatMap_cons, ih, Part.text, List.map_cons, List.cons_append, ← List.map_append,
      List.take_append_drop]

theorem marks_map_fst (pattern : Pattern) (s : List Char) :
    (pattern.marks s).map Prod.fst = s := by
  rw [marks, List.map_map]
  have h : ∀ found : List (Option Nat), s.length ≤ found.length →
      (s.zip found).map (Prod.fst ∘ fun (c, length) => (c, length.getD 0)) = s := by
    intro found hlen
    exact List.map_fst_zip hlen
  exact h _ (by simp)

/-- Scanning keeps every character in its place. -/
theorem scan_text (pattern : Pattern) (s : List Char) :
    (pattern.scan s).flatMap Part.text = s := by
  rw [scan, parts_text, marks_map_fst]

end Pattern

end DocSearch
