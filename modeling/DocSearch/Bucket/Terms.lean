import DocSearch.Bucket.Tally
import DocSearch.Error

/-!
# Terms Aggregations

The most frequent values of a field: a bucket for every distinct value, with the number of
hits that have it, the most frequent first and equally frequent ones by value. Only as
many buckets are handed out as were asked for.

## Main definitions

* `TermsAggregation`, `TermsAggregation.ofJson`: What is counted, and reading it.
* `TermsAggregation.counts`: All buckets in their order.
* `TermsAggregation.run`: The buckets that are handed out.
-/

namespace DocSearch

/-- A value and the number of hits that have it. -/
structure TermsBucket where
  key : String
  docCount : Nat
  deriving DecidableEq

/-- The buckets of a terms aggregation. Counts are exact, so the two numbers that would
    bound an error are zero when the store computes them. -/
structure TermsResult where
  errorBound : Nat := 0
  otherCount : Nat := 0
  buckets : List TermsBucket
  deriving DecidableEq

/-- A count of the values of one field. -/
structure TermsAggregation where
  field : String
  size : Nat
  deriving DecidableEq

namespace TermsAggregation

/-- Read the parameters of an aggregation. -/
def ofJson (defaultSize : Nat) (parameters : Json) : Except Error TermsAggregation :=
  match (parameters.get? "field").bind Json.asText? with
  | some field =>
    .ok ⟨field, ((parameters.get? "size").bind Json.asCount?).getD defaultSize⟩
  | none => .error .termsWithoutField

/-- More frequent buckets come first, and equally frequent ones by key. -/
def bucketOrder (a b : TermsBucket) : Ordering :=
  (compare b.docCount a.docCount).then (String.compare a.key b.key)

/-- A bucket for every value that some hit has, in their order. -/
def counts (field : String) (hits : List Hit) : List TermsBucket :=
  ((tally (hits.flatMap (·.terms field))).map fun (key, count) => ⟨key, count⟩).mergeSort
    fun a b => (bucketOrder a b).isLE

/-- The buckets that are handed out. -/
def run (aggregation : TermsAggregation) (hits : List Hit) : TermsResult :=
  { buckets := (counts aggregation.field hits).take aggregation.size }

end TermsAggregation

end DocSearch
