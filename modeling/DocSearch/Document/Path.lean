import DocSearch.Json.Basic
import DocSearch.Text.Split

/-!
# Paths into a Document

A path names a place in a document by member names with dots between them. On its way an
array stands for all objects among its elements, so one path can lead to many places, and
the values found there come in the order of the document.

Two questions are asked of a path. Which scalars does it lead to? A leaf that is an array
stands for the scalars in it, one level deep, and everything else that is no scalar is
passed over. And which objects enclose its leaf? That question does not look at the leaf
at all, so it can tell a member that is `null` from one that is absent.

A path ending in `.keyword` names the same data as the path without that ending.

## Main definitions

* `Path.withoutKeyword`: A path without one `.keyword` ending.
* `Path.leafName`: The last member name.
* `Path.elementsAt`: Everything a list of member names leads to.
* `Path.valuesAt`: The scalars a path leads to.
* `Path.parentsOfLeaf`: The objects that enclose the leaf of a path.

## Theorems

* `elementsAt_cons_cons`: One step, then the rest from every object found there.
-/

namespace DocSearch

namespace Path

/-- The ending that a keyword field has beside the name of its parent field. -/
def keywordEnding : String := ".keyword"

/-- A path without one `.keyword` ending. -/
def withoutKeyword (path : String) : String :=
  (Text.dropEnding? keywordEnding path).getD path

/-- The member names of a path. -/
def segments (path : String) : List String := Text.split '.' path

/-- The last member name of a path. -/
def leafName (path : String) : String :=
  (segments path).getLastD ""

/-- The objects a value stands for on the way: itself, or the objects among the elements of
    an array. -/
def objectsOf : Json → List Json
  | .obj members => [.obj members]
  | .arr elements => elements.filter Json.isObject
  | _ => []

/-- Everything a list of member names leads to from a value. -/
def elementsAt : List String → Json → List Json
  | [], node => [node]
  | [name], node => (node.get? name).toList
  | name :: next :: rest, node =>
    match node.get? name with
    | some child => (objectsOf child).flatMap (elementsAt (next :: rest))
    | none => []

/-- Whether a value is a boolean, a number or a string. -/
def isScalar : Json → Bool
  | .bool _ | .num _ | .str _ => true
  | _ => false

/-- The scalars a leaf stands for: itself, or those among the elements of an array. -/
def scalarsOf : Json → List Json
  | .arr elements => elements.filter isScalar
  | leaf => if isScalar leaf then [leaf] else []

/-- The scalars a path leads to in a document. -/
def valuesAt (document : Json) (path : String) : List Json :=
  (elementsAt (segments (withoutKeyword path)) document).flatMap scalarsOf

/-- The objects that enclose the leaf of a path in a document. A path of one name has the
    document itself around its leaf, if that is an object. -/
def parentsOfLeaf (document : Json) (path : String) : List Json :=
  match (segments path).dropLast with
  | [] => if document.isObject then [document] else []
  | enclosing => (elementsAt enclosing document).flatMap objectsOf

theorem elementsAt_nil (node : Json) : elementsAt [] node = [node] := by
  rw [elementsAt]

theorem elementsAt_singleton (name : String) (node : Json) :
    elementsAt [name] node = (node.get? name).toList := by
  rw [elementsAt]

/-- One step, then the rest from every object found there. -/
theorem elementsAt_cons_cons (name next : String) (rest : List String) (node : Json) :
    elementsAt (name :: next :: rest) node
      = ((node.get? name).toList.flatMap objectsOf).flatMap (elementsAt (next :: rest)) := by
  rw [elementsAt]
  rcases node.get? name with _ | child <;> simp

end Path

end DocSearch
