import DocSearch.Proofs.Document.Places

/-!
# The Keyword Ending

What one `.keyword` ending does to a path.

Taking the ending off undoes putting it on, and a path without it stays as it is. So a path with
the ending is another path with the ending put on, and this settles which paths are safe from
having it taken off twice: those that are left without the ending after the first time.

For a reader who does not take the ending off it is one more member name. It stands for a member
called `keyword` inside whatever the path leads to, and a document can have one there or not. The
documents that show this hold a single line of members.

## Main definitions

* `Path.EndsInKeyword`: The path has the ending.
* `Path.line`: A document with one member inside the other, and a value at the end.

## Theorems

* `pieces_append_cons`: Cutting two texts with the separator between them.
* `withoutKeyword_append`: Taking the ending off undoes putting it on.
* `withoutKeyword_eq_self_iff`: It changes nothing exactly where the ending is not there.
* `segments_append_keyword`: The ending is one more member name.
* `parentsOfLeaf_append_keyword`: With the ending, what a path leads to encloses the leaf.
* `elementsAt_line`: The names of a line lead to the value at its end.
-/

namespace DocSearch

/-- Cutting two texts with the separator between them cuts each of them. -/
theorem Text.pieces_append_cons (separator : Char) (front back : List Char) :
    pieces separator (front ++ separator :: back)
      = pieces separator front ++ pieces separator back := by
  induction front with
  | nil => rw [List.nil_append, pieces_cons_self, pieces_nil, List.singleton_append]
  | cons c rest ih =>
    by_cases h : c = separator
    · subst h
      rw [List.cons_append, pieces_cons_self, pieces_cons_self, ih, List.cons_append]
    · have hpieces := ih
      rw [pieces, pieces, List.cons_append, List.cons.injEq] at hpieces
      rw [List.cons_append, pieces_cons_of_ne h, pieces_cons_of_ne h, hpieces.1, hpieces.2,
        List.cons_append]

namespace Path

variable {path : String}

/-- The path has the ending. -/
def EndsInKeyword (path : String) : Prop := keywordEnding.toList <:+ path.toList

instance (path : String) : Decidable (EndsInKeyword path) :=
  inferInstanceAs (Decidable (_ <:+ _))

-- Taking off an ending that is not there, and one that is.
theorem withoutKeyword_of_not_endsInKeyword (h : ¬ EndsInKeyword path) :
    withoutKeyword path = path := by
  rw [withoutKeyword, Text.dropEnding?, if_neg, Option.getD_none]
  rwa [List.isSuffixOf_iff_suffix]

theorem withoutKeyword_append (path : String) : withoutKeyword (path ++ keywordEnding) = path := by
  have hends : keywordEnding.toList.isSuffixOf (path ++ keywordEnding).toList = true := by
    rw [String.toList_append, List.isSuffixOf_iff_suffix]
    exact List.suffix_append _ _
  rw [withoutKeyword, Text.dropEnding?, if_pos hends, Option.getD_some, String.toList_append,
    List.length_append, Nat.add_sub_cancel, List.take_left, String.ofList_toList]

/-- A path with the ending is the path without it and the ending. -/
theorem eq_append_of_endsInKeyword (h : EndsInKeyword path) :
    path = withoutKeyword path ++ keywordEnding := by
  rcases h with ⟨front, hfront⟩
  have hpath : path = String.ofList front ++ keywordEnding := by
    rw [← String.toList_inj, String.toList_append, String.toList_ofList, hfront]
  rw [hpath, withoutKeyword_append]

/-- A path is left as it is exactly if it does not have the ending. -/
theorem withoutKeyword_eq_self_iff : withoutKeyword path = path ↔ ¬ EndsInKeyword path := by
  refine ⟨fun hsame hends => ?_, withoutKeyword_of_not_endsInKeyword⟩
  -- The ending would make the path longer than itself.
  have hlength := congrArg String.length (eq_append_of_endsInKeyword hends)
  rw [hsame, String.length_append] at hlength
  have hpositive : 0 < keywordEnding.length := by decide
  omega

/-! ### The ending as a member name -/

/-- The ending adds a name of its own to the names of a path. -/
theorem segments_append_keyword (path : String) :
    segments (path ++ keywordEnding) = segments path ++ ["keyword"] := by
  have hcut : (path ++ keywordEnding).toList = path.toList ++ '.' :: "keyword".toList := by
    rw [String.toList_append]
    rfl
  have hname : (Text.pieces '.' "keyword".toList).map String.ofList = ["keyword"] := by decide
  rw [segments, Text.split, hcut, Text.pieces_append_cons, List.map_append, hname]
  rfl

/-- That name is the last one. -/
theorem leafName_append_keyword (path : String) : leafName (path ++ keywordEnding) = "keyword" := by
  rw [leafName, segments_append_keyword, List.getLastD_concat]

/-- The names of a path are those before the last one and the last one. -/
theorem segments_eq_dropLast_append (path : String) :
    segments path = (segments path).dropLast ++ [leafName path] := by
  have hlast := List.getLast?_eq_some_getLast (segments_ne_nil path)
  rw [leafName, List.getLastD_eq_getLast?, hlast, Option.getD_some,
    List.dropLast_concat_getLast (segments_ne_nil path)]

/-- In an object the leaf of a path is enclosed by what the names before it lead to. -/
theorem parentsOfLeaf_of_isObject {document : Json} (h : document.isObject = true) (path : String) :
    parentsOfLeaf document path
      = (elementsAt (segments path).dropLast document).flatMap objectsOf := by
  rw [parentsOfLeaf]
  cases hnames : (segments path).dropLast with
  | nil =>
    cases document with
    | obj members => rfl
    | _ => exact absurd h (by simp [Json.isObject])
  | cons name rest => rfl

/-- With the ending the leaf is enclosed by what the path without it leads to. -/
theorem parentsOfLeaf_append_keyword (document : Json) (path : String) :
    parentsOfLeaf document (path ++ keywordEnding)
      = (elementsAt (segments path) document).flatMap objectsOf := by
  rw [parentsOfLeaf, segments_append_keyword, List.dropLast_concat]
  cases hnames : segments path with
  | nil => exact absurd hnames (segments_ne_nil path)
  | cons name rest => rfl

/-! ### Documents that tell the ending from a member -/

/-- A document with one member inside the other, and a value at the end. -/
def line (names : List String) (last : Json) : Json :=
  names.foldr (fun name inner => .obj [(name, inner)]) last

/-- A line of names that is made longer has one more object at its end. -/
theorem line_append (names : List String) (name : String) (last : Json) :
    line (names ++ [name]) last = line names (.obj [(name, last)]) := by
  rw [line, List.foldr_append]
  rfl

/-- Objects with one member each are in order. -/
theorem ordered_line (names : List String) {last : Json} (h : last.Ordered) :
    (line names last).Ordered := by
  induction names with
  | nil => exact h
  | cons name rest ih =>
    refine .obj (List.pairwise_singleton _ _) fun member hmem => ?_
    rw [List.mem_singleton.mp hmem]
    exact ih

/-- A line of names begins with an object. -/
theorem isObject_line {names : List String} (h : names ≠ []) (last : Json) :
    (line names last).isObject = true := by
  cases names with
  | nil => exact absurd rfl h
  | cons name rest => rfl

/-- The names of a line lead to the value at its end, by induction on the names. -/
theorem elementsAt_line : ∀ (names : List String) (last : Json),
    elementsAt names (line names last) = [last]
  | [], last => elementsAt_nil last
  | [name], last => by
    rw [elementsAt_singleton]
    simp [line, Json.get?, Keyed.get?]
  | name :: next :: rest, last => by
    have hstep :
        (line (name :: next :: rest) last).get? name = some (line (next :: rest) last) := by
      simp [line, Json.get?, Keyed.get?]
    have hobjects : objectsOf (line (next :: rest) last) = [line (next :: rest) last] := rfl
    rw [elementsAt_cons_cons, hstep, Option.toList_some, List.flatMap_singleton, hobjects,
      List.flatMap_singleton, elementsAt_line (next :: rest) last]

/-- In a line of the names of a path, one object encloses the leaf. -/
theorem parentsOfLeaf_line (path : String) (last : Json) :
    parentsOfLeaf (line (segments path) last) path = [.obj [(leafName path, last)]] := by
  have hline : line (segments path) last
      = line (segments path).dropLast (.obj [(leafName path, last)]) := by
    rw [← line_append, ← segments_eq_dropLast_append]
  rw [parentsOfLeaf_of_isObject (isObject_line (segments_ne_nil path) last), hline, elementsAt_line]
  rfl

end Path

end DocSearch
