import DocSearch.Hit.Basic
import DocSearch.Json.Record

/-!
# Hits as JSON

A hit as clients see it, and back. The source and the snippets are left out where there
are none.

## Main definitions

* `Hit.toJson`, `Hit.ofJson?`: Writing and reading a hit.
* `Highlights.toJson`, `Highlights.ofJson?`: Writing and reading snippets.
-/

namespace DocSearch

/-- Snippets as an object of arrays. -/
def Highlights.toJson (highlights : Highlights) : Json :=
  .obj (highlights.map fun (field, snippets) => (field, Json.ofTexts snippets))

/-- Read snippets. -/
def Highlights.ofJson? (value : Json) : Option Highlights := do
  (← value.asObject?).mapM fun (field, snippets) => do
    return (field, ← (← snippets.asArray?).mapM Json.asText?)

namespace Hit

/-- A hit as clients see it. -/
def toJson (hit : Hit) : Json :=
  .object <|
    [("_index", .str hit.index), ("_id", .str hit.id), ("_score", .ofFloat hit.score)]
      ++ (hit.source.map fun source => ("_source", source)).toList
      ++ (hit.highlight.map fun highlight => ("highlight", highlight.toJson)).toList

/-- Read a hit. -/
def ofJson? (value : Json) : Option Hit := do
  let record ← Json.Record.ofJson? 3 5 value
  let index ← (← record.field? 0 "_index").asText?
  let id ← (← record.field? 1 "_id").asText?
  let score ← (← record.field? 2 "_score").asFloat?
  let source := record.optional? 3 "_source"
  match record.optional? 4 "highlight" with
  | none => return ⟨index, id, score, source, none⟩
  | some highlight => return ⟨index, id, score, source, some (← Highlights.ofJson? highlight)⟩

end Hit

end DocSearch
