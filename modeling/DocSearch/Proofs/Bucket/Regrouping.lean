import DocSearch.Bucket.Aggregation
import DocSearch.Proofs.Bucket.CompositeOrder

/-!
# Aggregating in Any Order

The results of aggregations do not depend on the order in which the hits are listed.

Counting does see the order: it puts the items down as they come. What is handed out is sorted,
though, and cut only behind that, so it is enough that the sort leaves nothing open. For composite
buckets that is known already, their keys are told apart by the order. For terms buckets it is the
text of the key that settles what equal counts leave open. A sort that stopped at the counts would
hand out one of two equally frequent values, and which one would depend on the hits.

A result reads the hits only through the sorted buckets, so equal buckets give equal results,
wherever a page starts and however long it is.

## Theorems

* `CompositeAggregation.run_of_counts`, `TermsAggregation.run_of_counts`: Results read the sorted
  buckets.
* `perm_tally`: The counts of the same items are the same, up to their order.
* `TermsAggregation.counts_of_perm`, `CompositeAggregation.counts_of_perm`: The sorted buckets are
  the same.
* `Aggregation.run_of_perm`, `runAggregations_of_perm`: So are all results.
-/

namespace DocSearch

open Std

/-! ### Results read the sorted buckets -/

/-- A terms aggregation depends on the hits through the counts of its field only. -/
theorem TermsAggregation.run_of_counts {aggregation : TermsAggregation} {hits others : List Hit}
    (h : counts aggregation.field others = counts aggregation.field hits) :
    aggregation.run others = aggregation.run hits := by
  rw [run, run, h]

/-- A composite aggregation depends on the hits through the counts of its keys only. -/
theorem CompositeAggregation.run_of_counts {aggregation : CompositeAggregation}
    {hits others : List Hit}
    (h : counts aggregation.sources others = counts aggregation.sources hits) :
    aggregation.run others = aggregation.run hits := by
  rw [run, run, h]

/-! ### The sorted buckets of the same hits -/

/-- The same items are counted alike, in whatever order they come. -/
theorem perm_tally {α : Type} [DecidableEq α] {items others : List α} (h : others.Perm items) :
    (tally others).Perm (tally items) := by
  have hnodup (list : List α) : (tally list).Nodup := (nodup_keys_tally list).of_map
  rw [List.perm_ext_iff_of_nodup (hnodup others) (hnodup items)]
  rintro ⟨item, count⟩
  rw [mem_tally_iff, mem_tally_iff, h.mem_iff, h.count_eq]

namespace TermsAggregation

instance transCmp_bucketOrder : TransCmp bucketOrder := by
  have hcount := transCmp_comap TermsBucket.docCount (compare : Nat → Nat → Ordering)
  have hcounts := @TransCmp.opposite TermsBucket (fun a b => compare a.docCount b.docCount) _
  have hkeys := transCmp_comap TermsBucket.key String.compare
  exact (inferInstance : TransCmp (compareLex
    (fun a b : TermsBucket => compare b.docCount a.docCount)
    fun a b => String.compare a.key b.key))

/-- Only a bucket itself compares as equal to it. -/
instance lawfulEqCmp_bucketOrder : LawfulEqCmp bucketOrder where
  eq_of_compare {a b} h := by
    rw [bucketOrder, Ordering.then_eq_eq] at h
    have hcount : b.docCount = a.docCount := LawfulEqCmp.eq_of_compare h.1
    have hkey : a.key = b.key := Keyed.compare_eq_iff.mp h.2
    cases a
    cases b
    simp only at hcount hkey
    rw [hcount, hkey]

/-- The order of the hits does not change the counts of a field. -/
theorem counts_of_perm {hits others : List Hit} (h : others.Perm hits) (field : String) :
    counts field others = counts field hits := by
  have hcounted := (perm_tally (h.flatMap_right (·.terms field))).map
    fun entry : String × Nat => TermsBucket.mk entry.1 entry.2
  have hsorted (list : List TermsBucket) := stablySorted_mergeSort bucketOrder list
  refine List.Perm.eq_of_pairwise (fun a b _ _ hab hba => ?_) (hsorted _).ordered
    (hsorted _).ordered (((hsorted _).perm.trans hcounted).trans (hsorted _).perm.symm)
  -- Of two buckets that both may come first, neither does.
  exact LawfulEqCmp.eq_of_compare (OrientedCmp.isLE_antisymm hab hba)

end TermsAggregation

/-- Nor does it change the counts of keys. -/
theorem CompositeAggregation.counts_of_perm {hits others : List Hit} (h : others.Perm hits)
    (sources : List CompositeSource) : counts sources others = counts sources hits :=
  counts_eq_of_perm (perm_tally (h.flatMap_right (keysOf sources)))

/-! ### All results -/

/-- So it changes no aggregation. -/
theorem Aggregation.run_of_perm {hits others : List Hit} (h : others.Perm hits)
    (aggregation : Aggregation) : aggregation.run others = aggregation.run hits := by
  cases aggregation with
  | terms aggregation =>
    exact congrArg AggregationResult.terms
      (TermsAggregation.run_of_counts (TermsAggregation.counts_of_perm h aggregation.field))
  | composite aggregation =>
    exact congrArg AggregationResult.composite (CompositeAggregation.run_of_counts
      (CompositeAggregation.counts_of_perm h aggregation.sources))
  | unsupported kind => rfl

/-- Aggregations give the same results for the same hits, in whatever order these are listed. -/
theorem runAggregations_of_perm {hits others : List Hit} (h : others.Perm hits)
    (aggregations : List (String × Aggregation)) :
    runAggregations aggregations others = runAggregations aggregations hits := by
  simp only [runAggregations, Aggregation.run_of_perm h]

end DocSearch
