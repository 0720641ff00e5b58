import DocSearch.Bucket.Aggregation
import DocSearch.Proofs.Bucket.CompositeOrder
import DocSearch.Proofs.Bucket.Tally
import DocSearch.Proofs.Bucket.Values
import DocSearch.Proofs.Json.Record
import DocSearch.Proofs.Outcome

/-!
# Reading Results Back

Whether the result of an aggregation, written out as a value, can be read back.

A result does not say of which kind it is, so reading goes by the shape. Composite buckets are
tried first, and their reader asks for less than that of terms buckets: the two counts in front of
terms buckets are members it does not know and passes over. What keeps a terms result from being
taken for a composite one are its buckets, since the key of each is a text where an object would
have to be. A terms result without buckets has nothing to tell it by. It is read as a composite
one, and it is the only result that is not read back as it was.

Counts are written as numbers of 64 bits. A hit has each of its values once and is in each bucket
once, so no bucket counts more than all hits.

## Main definitions

* `Aggregation.HandsOutNoTerms`: A terms aggregation without buckets to hand out.

## Theorems

* `compositeOfJson?_toJson`, `termsOfJson?_toJson`: Each reader reads its own results.
* `compositeOfJson?_terms`: What the first reader makes of terms buckets.
* `TermsAggregation.docCount_le_of_mem`, `CompositeAggregation.docCount_le_of_mem`: No bucket
  counts more than all hits.
* `TermsAggregation.run_buckets_eq_nil_iff`: When a terms result has no buckets.
* `runAggregations_read_back_iff`: Which results are read back as they were.
-/

namespace DocSearch

/-! ### Readers and their own results -/

namespace AggregationResult

/-- A composite bucket is read back as long as its count fits into 64 bits. -/
theorem compositeBucketOfJson?_toJson {bucket : CompositeBucket}
    (h : bucket.docCount < Number.wordLimit) :
    compositeBucketOfJson? (compositeBucketToJson bucket) = some bucket := by
  simp [compositeBucketOfJson?, compositeBucketToJson, Keyed.get?, Json.asObject?,
    Json.asCount?_ofNat h]

/-- So is a terms bucket. -/
theorem termsBucketOfJson?_toJson {bucket : TermsBucket}
    (h : bucket.docCount < Number.wordLimit) :
    termsBucketOfJson? (termsBucketToJson bucket) = some bucket := by
  simp [termsBucketOfJson?, termsBucketToJson, Keyed.get?, Json.asText?, Json.asCount?_ofNat h]

/-- Composite buckets are read back, with or without a key to resume after. -/
theorem compositeOfJson?_toJson {result : CompositeResult}
    (h : ∀ bucket ∈ result.buckets, bucket.docCount < Number.wordLimit) :
    compositeOfJson? (toJson (.composite result)) = some result := by
  rcases result with ⟨buckets, afterKey⟩
  have hbuckets : (buckets.map compositeBucketToJson).mapM compositeBucketOfJson? = some buckets :=
    Outcome.mapM_map_eq_some fun bucket hmem => compositeBucketOfJson?_toJson (h bucket hmem)
  cases afterKey <;>
    simp [compositeOfJson?, toJson, Json.Record.optional?, Keyed.get?, Json.asArray?,
      Json.asObject?, hbuckets]

/-- Terms buckets are read back by their own reader. -/
theorem termsOfJson?_toJson {result : TermsResult}
    (herror : result.errorBound < Number.wordLimit) (hother : result.otherCount < Number.wordLimit)
    (h : ∀ bucket ∈ result.buckets, bucket.docCount < Number.wordLimit) :
    termsOfJson? (toJson (.terms result)) = some result := by
  have hbuckets : (result.buckets.map termsBucketToJson).mapM termsBucketOfJson?
      = some result.buckets :=
    Outcome.mapM_map_eq_some fun bucket hmem => termsBucketOfJson?_toJson (h bucket hmem)
  simp [termsOfJson?, toJson, Keyed.get?, Json.asArray?, Json.asCount?_ofNat herror,
    Json.asCount?_ofNat hother, hbuckets]

-- The key of a terms bucket is a text, which is no key of a composite one.
theorem compositeBucketOfJson?_terms (bucket : TermsBucket) :
    compositeBucketOfJson? (termsBucketToJson bucket) = none := by
  simp [compositeBucketOfJson?, termsBucketToJson, Keyed.get?, Json.asObject?]

/-- What the reader of composite buckets makes of terms buckets: nothing, unless there are
    none. -/
theorem compositeOfJson?_terms (result : TermsResult) :
    compositeOfJson? (toJson (.terms result))
      = if result.buckets = [] then some ⟨[], none⟩ else none := by
  rcases result with ⟨errorBound, otherCount, buckets⟩
  cases buckets with
  | nil => simp [compositeOfJson?, toJson, Json.Record.optional?, Keyed.get?, Json.asArray?]
  | cons bucket rest =>
    simp [compositeOfJson?, toJson, Keyed.get?, Json.asArray?, compositeBucketOfJson?_terms]

end AggregationResult

/-! ### Counts -/

-- What a hit has once it adds once, so no item is counted more often than there are hits.
theorem count_flatMap_le {α β : Type} [DecidableEq β] {f : α → List β} (item : β)
    (hnodup : ∀ a, (f a).Nodup) (list : List α) :
    (list.flatMap f).count item ≤ list.length := by
  rw [count_flatMap_eq_countP hnodup]
  exact List.countP_le_length

namespace TermsAggregation

/-- No bucket counts more than all hits. -/
theorem docCount_le_of_mem {aggregation : TermsAggregation} {hits : List Hit}
    {bucket : TermsBucket} (h : bucket ∈ (aggregation.run hits).buckets) :
    bucket.docCount ≤ hits.length := by
  have hsorted := (List.mergeSort_perm _ _).mem_iff.mp (List.mem_of_mem_take h)
  rcases List.mem_map.mp hsorted with ⟨⟨key, count⟩, hcounted, rfl⟩
  rw [((mem_tally_iff _ _ _).mp hcounted).2]
  exact count_flatMap_le key (fun hit => hit.nodup_terms aggregation.field) hits

/-- A terms result has no buckets if none are asked for, or if no hit has a value. -/
theorem run_buckets_eq_nil_iff (aggregation : TermsAggregation) (hits : List Hit) :
    (aggregation.run hits).buckets = []
      ↔ aggregation.size = 0 ∨ ∀ hit ∈ hits, hit.terms aggregation.field = [] := by
  have hcounts : counts aggregation.field hits = []
      ↔ ∀ hit ∈ hits, hit.terms aggregation.field = [] := by
    rw [← List.flatMap_eq_nil_iff, ← List.length_eq_zero_iff, counts, List.length_mergeSort,
      List.length_map, length_tally, List.length_eq_zero_iff, List.dedup_eq_nil]
  rw [run, List.take_eq_nil_iff, hcounts]

end TermsAggregation

namespace CompositeAggregation

/-- No bucket counts more than all hits. -/
theorem docCount_le_of_mem {aggregation : CompositeAggregation} {hits : List Hit}
    {bucket : CompositeBucket} (h : bucket ∈ (aggregation.run hits).buckets) :
    bucket.docCount ≤ hits.length := by
  unfold run at h
  by_cases hsources : aggregation.sources.isEmpty = true
  · rw [if_pos hsources] at h
    exact absurd h List.not_mem_nil
  · rw [if_neg hsources] at h
    rcases List.mem_map.mp h with ⟨⟨key, count⟩, hpage, rfl⟩
    have hsorted := List.mem_of_mem_drop (List.mem_of_mem_take hpage)
    have hcounted := (List.mergeSort_perm _ _).mem_iff.mp hsorted
    rw [((mem_tally_iff _ _ _).mp hcounted).2]
    exact count_flatMap_le key (nodup_keysOf aggregation.sources) hits

end CompositeAggregation

/-! ### Results -/

namespace Aggregation

/-- A terms aggregation that hands out no buckets: none are asked for, or no hit has a value. -/
def HandsOutNoTerms (hits : List Hit) : Aggregation → Prop
  | .terms aggregation =>
    aggregation.size = 0 ∨ ∀ hit ∈ hits, hit.terms aggregation.field = []
  | _ => False

/-- How the result of one aggregation is read. -/
theorem read_run {hits : List Hit} (hfit : hits.length < Number.wordLimit)
    (aggregation : Aggregation) :
    (AggregationResult.ofJson? (aggregation.run hits).toJson = some (aggregation.run hits)
        ↔ ¬ aggregation.HandsOutNoTerms hits)
      ∧ (aggregation.HandsOutNoTerms hits →
          AggregationResult.ofJson? (aggregation.run hits).toJson
            = some (.composite ⟨[], none⟩)) := by
  cases aggregation with
  | terms aggregation =>
    -- No bucket counts more hits than there are, so every count is small enough to be read back.
    have hcounts : ∀ bucket ∈ (aggregation.run hits).buckets,
        bucket.docCount < Number.wordLimit := fun bucket hmem =>
      Nat.lt_of_le_of_lt (TermsAggregation.docCount_le_of_mem hmem) hfit
    have hzero : 0 < Number.wordLimit := by decide
    simp only [run, HandsOutNoTerms, ← aggregation.run_buckets_eq_nil_iff,
      AggregationResult.ofJson?, AggregationResult.compositeOfJson?_terms]
    -- Without buckets nothing tells the two kinds of result apart, and the composite one is tried
    -- first.
    by_cases hbuckets : (aggregation.run hits).buckets = []
    · simp [hbuckets]
    · simp [hbuckets, AggregationResult.termsOfJson?_toJson hzero hzero hcounts]
  | composite aggregation =>
    have hcounts : ∀ bucket ∈ (aggregation.run hits).buckets,
        bucket.docCount < Number.wordLimit := fun bucket hmem =>
      Nat.lt_of_le_of_lt (CompositeAggregation.docCount_le_of_mem hmem) hfit
    simp [run, HandsOutNoTerms, AggregationResult.ofJson?,
      AggregationResult.compositeOfJson?_toJson hcounts]
  | unsupported kind => exact ⟨iff_of_true rfl id, False.elim⟩

end Aggregation

/-- Which results of some aggregations are read back as they were, with their kind: all but those
    of terms aggregations that hand out no buckets, and these are read as composite results without
    buckets. There may be as many hits as 64 bits can count. -/
theorem runAggregations_read_back_iff {aggregations : List (String × Aggregation)}
    {hits : List Hit} (hfit : hits.length < Number.wordLimit) {name : String}
    {result : AggregationResult} (hmem : (name, result) ∈ runAggregations aggregations hits) :
    ∃ aggregation, (name, aggregation) ∈ aggregations ∧ result = aggregation.run hits
      ∧ (AggregationResult.ofJson? result.toJson = some result
          ↔ ¬ aggregation.HandsOutNoTerms hits)
      ∧ (aggregation.HandsOutNoTerms hits →
          AggregationResult.ofJson? result.toJson = some (.composite ⟨[], none⟩)) := by
  rcases List.mem_map.mp (Keyed.mem_of_mem_ofList hmem) with ⟨⟨_, aggregation⟩, hnamed, heq⟩
  rw [Prod.mk.injEq] at heq
  rcases heq with ⟨rfl, rfl⟩
  exact ⟨aggregation, hnamed, rfl, aggregation.read_run hfit⟩

/-- Two hits, of which one has a tag. -/
def taggedHits : List Hit :=
  [{ index := "boats", id := "1", score := 1.0, source := some (.obj [("tag", .str "red")]) },
    { index := "boats", id := "2", score := 1.0, source := some (.obj []) }]

/-- A count of the tags that were found is read back. -/
theorem runAggregations_read_back_tags :
    AggregationResult.ofJson? ((Aggregation.terms ⟨"tag", 10⟩).run taggedHits).toJson
      = some ((Aggregation.terms ⟨"tag", 10⟩).run taggedHits) := by
  have hfit : taggedHits.length < Number.wordLimit := by decide
  have hmem : ("tags", (Aggregation.terms ⟨"tag", 10⟩).run taggedHits)
      ∈ runAggregations [("tags", .terms ⟨"tag", 10⟩)] taggedHits := List.mem_cons_self
  rcases runAggregations_read_back_iff hfit hmem with ⟨aggregation, hnamed, _, hread, _⟩
  cases List.mem_singleton.mp hnamed
  refine hread.mpr fun hnone => ?_
  rcases hnone with hsize | hhits
  · exact absurd hsize (by decide)
  · exact absurd (hhits _ List.mem_cons_self) (by decide)

/-- A count of the tags of no hits is a terms result, and is read as a composite one. -/
theorem no_tags_read_as_composite :
    ("tags", .terms ⟨0, 0, []⟩) ∈ runAggregations [("tags", .terms ⟨"tag", 10⟩)] []
      ∧ AggregationResult.ofJson? (AggregationResult.terms ⟨0, 0, []⟩).toJson
        = some (.composite ⟨[], none⟩) := by
  have hresult : runAggregations [("tags", .terms ⟨"tag", 10⟩)] []
      = [("tags", .terms ⟨0, 0, []⟩)] := by
    simp [runAggregations, Aggregation.run, TermsAggregation.run, TermsAggregation.counts, tally,
      Keyed.ofList, Keyed.insert]
  refine ⟨by rw [hresult]; exact List.mem_cons_self, ?_⟩
  simp only [AggregationResult.ofJson?, AggregationResult.compositeOfJson?_terms, if_true]

end DocSearch
