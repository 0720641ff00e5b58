import DocSearch.Pattern

/-!
# Regular Expressions

The syntax and the meaning of regular expressions, as far as globs are written as one.

A regular expression is a text, and it is read as such. Most characters stand for themselves, but
some do not: they have a meaning of their own or belong to some piece of syntax that no glob needs.
One of these stands for itself only behind a backslash. The reader knows the syntax that globs need
and refuses every other one, so that a text that it does read means what it says.

What an expression matches is a part of a text, and the anchors ask what is before that part and
behind it. So the meaning is given for a part with its surroundings, and the expression is found in
a text if it matches some part of it.

## Main definitions

* `Expression`: A regular expression.
* `Expression.ofSource?`: Reading one.
* `Expression.Matches`: The parts of a text that it matches.
* `Expression.FoundIn`: It matches some part of a text.

## Theorems

* `readFrom_escaped`: Escaped characters are read as themselves.
* `readFrom_sourceBehind`: The regular expression of a glob is read as its pieces.
* `ofSource?_anchoredSource`: With the anchors around them.
-/

namespace DocSearch

/-- A regular expression. -/
inductive Expression where
  | blank
  /-- This character, whatever it means elsewhere. -/
  | char (c : Char)
  /-- The dot. -/
  | any
  /-- The beginning of the text. -/
  | start
  /-- The end of the text. -/
  | finish
  /-- Any number of times. -/
  | many (repeated : Expression)
  /-- One behind the other. -/
  | followed (first second : Expression)
  deriving DecidableEq

namespace Expression

/-! ### Syntax -/

/-- The expressions of a row, of which the last one comes first, one behind the other. -/
def inRow (row : List Expression) : Expression := row.reverse.foldr .followed .blank

/-- Read the rest of an expression, inside groups that are still open. Of each of these there is
    the row of expressions that stands before it, and of the innermost one the row so far. -/
def readFrom : List (List Expression) → List Expression → List Char → Option Expression
  | [], row, [] => some (inRow row)
  | _ :: _, _, [] => none
  | groups, row, '\\' :: c :: rest =>
    if c ∈ Piece.specialChars then readFrom groups (.char c :: row) rest else none
  | groups, row, '(' :: '?' :: ':' :: rest => readFrom (row :: groups) [] rest
  | outer :: groups, row, ')' :: rest => readFrom groups (inRow row :: outer) rest
  | groups, last :: row, '*' :: rest => readFrom groups (.many last :: row) rest
  | groups, row, '.' :: rest => readFrom groups (.any :: row) rest
  | groups, row, '^' :: rest => readFrom groups (.start :: row) rest
  | groups, row, '$' :: rest => readFrom groups (.finish :: row) rest
  | groups, row, c :: rest =>
    if c ∈ Piece.specialChars then none else readFrom groups (.char c :: row) rest

/-- Read a regular expression. -/
def ofSource? (source : String) : Option Expression := readFrom [] [] source.toList

/-! ### Meaning -/

/-- Parts of a text, one behind the other, that have a property where they stand. -/
inductive Repeated (property : List Char → List Char → List Char → Prop) :
    List Char → List Char → List Char → Prop where
  | none (before after : List Char) : Repeated property before [] after
  | more {before part rest after : List Char} : property before part (rest ++ after) →
      Repeated property (before ++ part) rest after → Repeated property before (part ++ rest) after

/-- Whether an expression matches a part of a text, between what is before it and after it. -/
def Matches (foldCase : Bool) : Expression → List Char → List Char → List Char → Prop
  | .blank, _, part, _ => part = []
  | .char c, _, part, _ => ∃ x, part = [x] ∧ Pattern.sameChar foldCase c x = true
  | .any, _, part, _ => ∃ x, part = [x] ∧ x ≠ '\n'
  | .start, before, part, _ => before = [] ∧ part = []
  | .finish, _, part, after => part = [] ∧ after = []
  | .many repeated, before, part, after =>
    Repeated (fun before part after => repeated.Matches foldCase before part after)
      before part after
  | .followed first second, before, part, after =>
    ∃ front back, part = front ++ back ∧ first.Matches foldCase before front (back ++ after)
      ∧ second.Matches foldCase (before ++ front) back after

/-- Whether an expression matches some part of a text. -/
def FoundIn (foldCase : Bool) (expression : Expression) (text : String) : Prop :=
  ∃ before part after, text.toList = before ++ part ++ after
    ∧ expression.Matches foldCase before part after

/-! ### Reading -/

variable {groups : List (List Expression)} {row : List Expression}

/-- A character without a meaning of its own is read as itself. -/
theorem readFrom_literal {c : Char} (h : c ∉ Piece.specialChars) (rest : List Char) :
    readFrom groups row (c :: rest) = readFrom groups (.char c :: row) rest := by
  rw [readFrom.eq_def]
  split <;> simp_all [Piece.specialChars]

/-- An escaped text is read as the text. What was read before it and what is left to read are kept
    general. -/
theorem readFrom_escaped (s rest : List Char) :
    ∀ row, readFrom groups row (escaped s ++ rest)
      = readFrom groups ((s.map .char).reverse ++ row) rest := by
  induction s with
  | nil => exact fun _ => rfl
  | cons c s ih =>
    intro row
    rw [escaped, List.flatMap_cons, ← escaped, List.map_cons, List.reverse_cons, List.append_assoc,
      List.append_assoc]
    by_cases h : c ∈ Piece.specialChars
    · rw [if_pos h, List.cons_append, List.cons_append, List.nil_append, readFrom, if_pos h, ih]
      rfl
    · rw [if_neg h, List.cons_append, List.nil_append, readFrom_literal h, ih]
      rfl

end Expression

/-- A piece as a regular expression. -/
def Piece.expression : Piece → Expression
  | .literal c => .char c
  | .any => .any
  | .run => .many .any

namespace Expression

variable {groups : List (List Expression)}

/-- The regular expression of a glob is read as its pieces, behind the characters that have been
    waiting to be written. -/
theorem readFrom_sourceBehind (chars rest : List Char) :
    ∀ literal row, readFrom groups row (sourceBehind literal chars ++ rest)
      = readFrom groups ((literal.map char
          ++ chars.map fun c => (Piece.ofGlobChar c).expression).reverse ++ row) rest := by
  induction chars with
  | nil =>
    intro literal row
    rw [sourceBehind, readFrom_escaped, List.map_nil, List.append_nil]
  | cons c chars ih =>
    intro literal row
    rw [sourceBehind, List.map_cons]
    -- A character that stands for itself waits, to be escaped with those that follow it. A wildcard
    -- lets out what waits.
    cases Piece.ofGlobChar c with
    | literal c =>
      rw [ih, List.map_append, List.append_assoc]
      rfl
    | any =>
      -- The escaped characters, the dot, and nothing that waits behind it.
      rw [List.append_assoc, readFrom_escaped, List.cons_append, readFrom, ih]
      simp [Piece.expression]
    | run =>
      rw [List.append_assoc, readFrom_escaped, List.cons_append, List.cons_append, readFrom,
        readFrom, ih]
      simp [Piece.expression]

/-- The source of a glob is read as the expression of its pieces between two anchors. -/
theorem ofSource?_anchoredSource (glob : String) :
    ofSource? (anchoredSource glob) = some (.followed .start (.followed
      (inRow ((Piece.ofGlob glob).map Piece.expression).reverse) (.followed .finish .blank))) := by
  have hchars : (anchoredSource glob).toList
      = '^' :: '(' :: '?' :: ':' :: (sourceBehind [] glob.toList ++ [')', '$']) := by
    simp [anchoredSource, globSource, String.toList_append]
  have hpieces : (glob.toList.map fun c => (Piece.ofGlobChar c).expression)
      = (Piece.ofGlob glob).map Piece.expression := by
    rw [Piece.ofGlob, List.map_map]
    rfl
  rw [ofSource?, hchars, readFrom, readFrom, readFrom_sourceBehind, readFrom, readFrom, readFrom,
    List.map_nil, List.nil_append, List.append_nil, hpieces]
  rfl

end Expression

end DocSearch
