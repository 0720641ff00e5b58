import DocSearch.Bucket.Composite
import DocSearch.Bucket.Terms
import DocSearch.Json.Record

/-!
# Aggregations

The aggregations of a search body, by name. They look at all hits of a search, whatever
page of them is handed out. A kind that is not computed gives an empty result.

Results do not say of which kind they are, so reading one back tries the kinds in a fixed
order: composite buckets, then terms buckets, then any object. A terms result without
buckets therefore reads as a composite one.

## Main definitions

* `Aggregation`, `Aggregation.ofJson`, `Aggregation.namedOfJson`: What is computed, and
  reading it.
* `AggregationResult`: What comes out.
* `Aggregation.run`, `runAggregations`: Computing one, and all that have a name.
* `AggregationResult.toJson`, `AggregationResult.ofJson?`: A result as clients see it, and
  back.
-/

namespace DocSearch

/-- An aggregation. -/
inductive Aggregation where
  | terms (aggregation : TermsAggregation)
  | composite (aggregation : CompositeAggregation)
  /-- A kind that is not computed. -/
  | unsupported (kind : String)

/-- The result of an aggregation. -/
inductive AggregationResult where
  | composite (result : CompositeResult)
  | terms (result : TermsResult)
  /-- Nothing was computed; the members are those of the empty object, unless the result was
      read from somewhere else. -/
  | empty (members : List (String × Json))

namespace Aggregation

/-- Read an aggregation: an object whose first member names the kind. -/
def ofJson (defaultSize : Nat) : Json → Except Error Aggregation
  | .obj ((kind, parameters) :: _) =>
    match kind with
    | "terms" => (TermsAggregation.ofJson defaultSize parameters).map .terms
    | "composite" => (CompositeAggregation.ofJson defaultSize parameters).map .composite
    | kind => .ok (.unsupported kind)
  | _ => .error .aggregationWithoutKind

/-- Read the aggregations of a body, by name and in the order of the names. -/
def namedOfJson (defaultSize : Nat) : Json → Except Error (List (String × Aggregation))
  | .obj members =>
    members.mapM fun (name, body) =>
      (ofJson defaultSize body).map fun aggregation => (name, aggregation)
  | _ => .error .aggregationsNotObject

/-- The name of the computation. -/
def name : Aggregation → String
  | .terms _ => "terms"
  | .composite _ => "composite"
  | .unsupported kind => kind

/-- Compute an aggregation over hits. -/
def run (hits : List Hit) : Aggregation → AggregationResult
  | .terms aggregation => .terms (aggregation.run hits)
  | .composite aggregation => .composite (aggregation.run hits)
  | .unsupported _ => .empty []

end Aggregation

/-- Compute all aggregations that have a name. Of several with one name the last stays. -/
def runAggregations (aggregations : List (String × Aggregation)) (hits : List Hit) :
    List (String × AggregationResult) :=
  Keyed.ofList (aggregations.map fun (name, aggregation) => (name, aggregation.run hits))

namespace AggregationResult

/-- A terms bucket as clients see it. -/
def termsBucketToJson (bucket : TermsBucket) : Json :=
  .object [("key", .str bucket.key), ("doc_count", .ofNat bucket.docCount)]

/-- A composite bucket as clients see it. -/
def compositeBucketToJson (bucket : CompositeBucket) : Json :=
  .object [("key", .obj bucket.key), ("doc_count", .ofNat bucket.docCount)]

/-- A result as clients see it. -/
def toJson : AggregationResult → Json
  | .composite result =>
    .object <|
      ("buckets", .arr (result.buckets.map compositeBucketToJson))
        :: (result.afterKey.map fun key => ("after_key", Json.obj key)).toList
  | .terms result =>
    .object
      [("doc_count_error_upper_bound", .ofNat result.errorBound),
       ("sum_other_doc_count", .ofNat result.otherCount),
       ("buckets", .arr (result.buckets.map termsBucketToJson))]
  | .empty members => .obj members

/-- Read a composite bucket. -/
def compositeBucketOfJson? (value : Json) : Option CompositeBucket := do
  let record ← Json.Record.ofJson? 2 2 value
  let key ← (← record.field? 0 "key").asObject?
  let docCount ← (← record.field? 1 "doc_count").asCount?
  return ⟨key, docCount⟩

/-- Read a composite result. -/
def compositeOfJson? (value : Json) : Option CompositeResult := do
  let record ← Json.Record.ofJson? 1 2 value
  let buckets ← (← (← record.field? 0 "buckets").asArray?).mapM compositeBucketOfJson?
  match record.optional? 1 "after_key" with
  | none => return ⟨buckets, none⟩
  | some key => return ⟨buckets, some (← key.asObject?)⟩

/-- Read a terms bucket. -/
def termsBucketOfJson? (value : Json) : Option TermsBucket := do
  let record ← Json.Record.ofJson? 2 2 value
  let key ← (← record.field? 0 "key").asText?
  let docCount ← (← record.field? 1 "doc_count").asCount?
  return ⟨key, docCount⟩

/-- Read a terms result. -/
def termsOfJson? (value : Json) : Option TermsResult := do
  let record ← Json.Record.ofJson? 3 3 value
  let errorBound ← (← record.field? 0 "doc_count_error_upper_bound").asCount?
  let otherCount ← (← record.field? 1 "sum_other_doc_count").asCount?
  let buckets ← (← (← record.field? 2 "buckets").asArray?).mapM termsBucketOfJson?
  return ⟨errorBound, otherCount, buckets⟩

/-- Read a result of any kind. -/
def ofJson? (value : Json) : Option AggregationResult :=
  match compositeOfJson? value with
  | some result => some (.composite result)
  | none =>
    match termsOfJson? value with
    | some result => some (.terms result)
    | none => value.asObject?.map .empty

/-- The name of the kind of a result. -/
def variant : AggregationResult → String
  | .composite _ => "composite"
  | .terms _ => "terms"
  | .empty _ => "empty"

end AggregationResult

end DocSearch
