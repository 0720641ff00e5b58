import DocSearch.Bucket.Aggregation
import DocSearch.Hit.Codec

/-!
# Search Results

What a search hands out: one page of hits, how many there are in all, the best score, the
results of the aggregations and the id of the scroll, if one was opened.

## Main definitions

* `SearchResults`: The results.
* `SearchResults.empty`: The results of a search that found nothing.
* `SearchResults.ids`: The ids of the hits on the page.
* `SearchResults.toJson`, `SearchResults.ofJson?`: Results as clients see them, and back.
-/

namespace DocSearch

/-- What a search hands out. -/
structure SearchResults where
  /-- How many hits there are, on this page and off it. -/
  totalHits : Nat
  /-- The best score of all hits. -/
  maxScore : Option Float
  hits : List Hit
  /-- The results of the aggregations, if any were asked for. -/
  aggregations : Option (List (String × AggregationResult)) := none
  scrollId : Option String := none
  /-- How long the search took. Computing results takes no time; whoever measures the time
      writes it here. -/
  tookMilliseconds : Nat := 0

namespace SearchResults

/-- The results of a search that found nothing. -/
def empty : SearchResults := { totalHits := 0, maxScore := none, hits := [] }

/-- The ids of the hits on the page. -/
def ids (results : SearchResults) : List String := results.hits.map Hit.id

/-- The results of named aggregations as an object. -/
def aggregationsToJson (aggregations : List (String × AggregationResult)) : Json :=
  .obj (aggregations.map fun (name, result) => (name, result.toJson))

/-- Read the results of named aggregations. -/
def aggregationsOfJson? (value : Json) : Option (List (String × AggregationResult)) := do
  (← value.asObject?).mapM fun (name, result) => do
    return (name, ← AggregationResult.ofJson? result)

/-- The members that every form of the results has. -/
def toMembers (results : SearchResults) : List (String × Json) :=
  [("total_hits", .ofNat results.totalHits),
   ("max_score", .ofOption (results.maxScore.map .ofFloat)),
   ("hits", .arr (results.hits.map Hit.toJson))]
    ++ (results.aggregations.map fun aggregations =>
        ("aggregations", aggregationsToJson aggregations)).toList
    ++ (results.scrollId.map fun id => ("_scroll_id", Json.str id)).toList

/-- Results as clients see them. -/
def toJson (results : SearchResults) : Json :=
  .object (results.toMembers ++ [("took_ms", .ofNat results.tookMilliseconds)])

/-- Results as clients see them, without the time they took. -/
def toTimelessJson (results : SearchResults) : Json :=
  .object results.toMembers

/-- Read results. -/
def ofJson? (value : Json) : Option SearchResults := do
  let record ← Json.Record.ofJson? 6 6 value
  let totalHits ← (← record.field? 0 "total_hits").asCount?
  let maxScore ← match record.optional? 1 "max_score" with
    | none => some none
    | some score => score.asFloat?.map some
  let hits ← (← (← record.field? 2 "hits").asArray?).mapM Hit.ofJson?
  let aggregations ← match record.optional? 3 "aggregations" with
    | none => some none
    | some aggregations => (aggregationsOfJson? aggregations).map some
  let scrollId ← match record.optional? 4 "_scroll_id" with
    | none => some none
    | some id => id.asText?.map some
  let tookMilliseconds ← (← record.field? 5 "took_ms").asCount?
  return { totalHits, maxScore, hits, aggregations, scrollId, tookMilliseconds }

end SearchResults

end DocSearch
