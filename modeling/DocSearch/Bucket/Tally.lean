import DocSearch.Document.Path
import DocSearch.Hit.Basic

/-!
# Counting Hits

What all aggregations share: the distinct string values a hit has in a field, and counting
how often something occurs.

A hit counts once for each of its values, however often the value stands in the document,
so the values are taken as a set. The index a hit comes from can be asked for like a
field.

## Main definitions

* `Hit.terms`: The distinct string values of a hit in a field.
* `tally`: How often each item occurs.
-/

namespace DocSearch

/-- The field that stands for the index of a hit. -/
def indexField : String := "_index"

/-- The distinct string values of a hit in a field, in order. -/
def Hit.terms (hit : Hit) (field : String) : List String :=
  if field = indexField then [hit.index]
  else
    match hit.source with
    | some source => Keyed.distinct ((Path.valuesAt source field).filterMap Json.asText?)
    | none => []

/-- Count one more occurrence of an item. -/
def bump {α : Type} [DecidableEq α] (item : α) : List (α × Nat) → List (α × Nat)
  | [] => [(item, 1)]
  | (other, count) :: rest =>
    if other = item then (other, count + 1) :: rest else (other, count) :: bump item rest

/-- How often each item occurs, in the order of first occurrence. -/
def tally {α : Type} [DecidableEq α] (items : List α) : List (α × Nat) :=
  items.foldl (fun counts item => bump item counts) []

end DocSearch
