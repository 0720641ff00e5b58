import DocSearch.Proofs.Bucket.Regrouping
import DocSearch.Proofs.Bucket.Values

/-!
# The Ranking of Values

What the buckets of a terms aggregation are, said without counting one hit after another.

A ranking of a field has a bucket for every value that some hit has, and each bucket says how many
hits have its value. Its order settles every pair of buckets: more hits come first, and the lesser
text where the numbers are equal. So hits have one ranking and no other, in whatever order they are
listed and however the counts were collected. The buckets that are handed out are the beginning of
it.

Where the whole ranking is handed out, its numbers add up to the number of values of each hit, added
over the hits. That is no less than the number of hits if none of them lacks the field, and it is
the number of hits if each has one value.

## Main definitions

* `TermsAggregation.Ranks`: A ranking of the values of a field.

## Theorems

* `bucketOrder_eq_lt_iff`: The order of buckets in words.
* `tabulates_counts`, `ranks_counts`: The sorted counts are a ranking.
* `Ranks.unique`: There is no other.
* `sum_docCount_counts`: What its numbers add up to.
* `run_ranks_values`: What is handed out.
-/

namespace DocSearch

open Std

namespace TermsAggregation

/-- A list of buckets that ranks the string values of a field in some hits. -/
structure Ranks (field : String) (hits : List Hit) (buckets : List TermsBucket) : Prop where
  /-- There is one bucket for every value, and it counts the hits that have it. -/
  tabulates : Tabulates (fun hit value => hit.HasValue field value) hits
    (buckets.map fun bucket => (bucket.key, bucket.docCount))
  /-- More hits come first, and of equally many the lesser value. -/
  ordered : buckets.Pairwise fun a b =>
    b.docCount < a.docCount ∨ b.docCount = a.docCount ∧ a.key < b.key

/-- A bucket comes before another one if it counts more hits, or as many under a smaller key. -/
theorem bucketOrder_eq_lt_iff {a b : TermsBucket} :
    bucketOrder a b = .lt ↔ b.docCount < a.docCount ∨ b.docCount = a.docCount ∧ a.key < b.key := by
  rw [bucketOrder, Ordering.then_eq_lt, compare_lt_iff_lt, Std.compare_eq_iff_eq]
  exact or_congr_right (and_congr_right fun _ => compareOfLessAndEq_eq_lt)

/-! ### The sorted counts -/

/-- The counted values of a field are the values that the hits have there, each with the number of
    hits that have it. -/
theorem tabulates_counts (field : String) (hits : List Hit) :
    Tabulates (fun hit value => hit.HasValue field value) hits
      ((counts field hits).map fun bucket => (bucket.key, bucket.docCount)) := by
  have hcounted := tabulates_tally (fun hit => hit.nodup_terms field)
    (fun _ _ => Hit.mem_terms_iff) hits
  refine hcounted.of_perm ?_
  have hsorted := (List.mergeSort_perm ((tally (hits.flatMap (·.terms field))).map
    fun entry => TermsBucket.mk entry.1 entry.2) fun a b => (bucketOrder a b).isLE).map
      fun bucket => (bucket.key, bucket.docCount)
  rw [List.map_map] at hsorted
  exact hsorted.trans (List.Perm.of_eq (List.map_id _))

-- A value is counted in one bucket.
theorem nodup_keys_counts (field : String) (hits : List Hit) :
    ((counts field hits).map TermsBucket.key).Nodup := by
  have hdistinct := (tabulates_counts field hits).distinct
  rwa [List.map_map] at hdistinct

/-- The sorted counts are a ranking. -/
theorem ranks_counts (field : String) (hits : List Hit) : Ranks field hits (counts field hits) where
  tabulates := tabulates_counts field hits
  ordered := by
    have hsorted := (stablySorted_mergeSort bucketOrder
      ((tally (hits.flatMap (·.terms field))).map fun entry => ⟨entry.1, entry.2⟩)).ordered
    have hkeys := nodup_keys_counts field hits
    rw [List.nodup_iff_pairwise_ne, List.pairwise_map] at hkeys
    refine (hsorted.and hkeys).imp fun {a b} hab => bucketOrder_eq_lt_iff.mp ?_
    -- Buckets that compare as equal have one key.
    cases hc : bucketOrder a b with
    | lt => rfl
    | eq => exact absurd (congrArg TermsBucket.key (LawfulEqCmp.eq_of_compare hc)) hab.2
    | gt => exact absurd hab.1 (by simp [hc])

/-- Hits have one ranking. -/
theorem Ranks.unique {field : String} {hits : List Hit} {buckets : List TermsBucket}
    (h : Ranks field hits buckets) : buckets = counts field hits := by
  have hinjective : Function.Injective fun bucket : TermsBucket =>
      (bucket.key, bucket.docCount) := by
    rintro ⟨key, count⟩ ⟨key', count'⟩ heq
    rw [TermsBucket.mk.injEq]
    exact Prod.mk.inj heq
  have hperm : buckets.Perm (counts field hits) :=
    (List.map_perm_map_iff hinjective).mp (h.tabulates.perm (tabulates_counts field hits))
  refine List.Perm.eq_of_pairwise (fun a b _ _ hab hba => ?_) h.ordered
    (ranks_counts field hits).ordered hperm
  -- No two buckets come one before the other.
  rcases hab with hab | ⟨hab, hkey⟩
  · omega
  · rcases hba with hba | ⟨-, hkey'⟩
    · omega
    · exact absurd (String.lt_trans hkey hkey') (String.lt_irrefl _)

/-! ### Sums -/

/-- The numbers of a ranking add up to the values of all hits. -/
theorem sum_docCount_counts (field : String) (hits : List Hit) :
    ((counts field hits).map TermsBucket.docCount).sum
      = (hits.map fun hit => {value | hit.HasValue field value}.ncard).sum := by
  rw [counts, ((List.mergeSort_perm _ _).map _).sum_eq, List.map_map]
  change ((tally (hits.flatMap (·.terms field))).map Prod.snd).sum = _
  rw [sum_counts_tally, List.length_flatMap]
  simp only [Hit.ncard_values]

/-- There are as many buckets as values. -/
theorem ncard_values_eq_length_counts (field : String) (hits : List Hit) :
    {value | ∃ hit ∈ hits, hit.HasValue field value}.ncard = (counts field hits).length := by
  have hvalues : {value | ∃ hit ∈ hits, hit.HasValue field value}
      = (((counts field hits).map TermsBucket.key).toFinset : Set String) := by
    ext value
    have hitems := (tabulates_counts field hits).items value
    rw [List.map_map] at hitems
    rw [Set.mem_ofPred_eq, ← hitems, Finset.mem_coe, List.mem_toFinset]
    rfl
  rw [hvalues, Set.ncard_coe_finset, List.toFinset_card_of_nodup (nodup_keys_counts field hits),
    List.length_map]

/-! ### What is handed out -/

/-- The buckets that are handed out are the first ones of the ranking of the values. The hits have
    just one ranking, and it does not matter in which order they are listed. If there is room for
    all values, the buckets count every hit once for each of its values. -/
theorem run_ranks_values (aggregation : TermsAggregation) (hits : List Hit) :
    ∃ ranking, Ranks aggregation.field hits ranking
      ∧ (∀ other, Ranks aggregation.field hits other → other = ranking)
      ∧ aggregation.run hits = { buckets := ranking.take aggregation.size }
      ∧ (∀ others, others.Perm hits → aggregation.run others = aggregation.run hits)
      ∧ ({value | ∃ hit ∈ hits, hit.HasValue aggregation.field value}.ncard ≤ aggregation.size →
        let total := ((aggregation.run hits).buckets.map TermsBucket.docCount).sum
        total = (hits.map fun hit => {value | hit.HasValue aggregation.field value}.ncard).sum
          ∧ ((∀ hit ∈ hits, 1 ≤ {value | hit.HasValue aggregation.field value}.ncard) →
            hits.length ≤ total)
          ∧ ((∀ hit ∈ hits, {value | hit.HasValue aggregation.field value}.ncard = 1) →
            total = hits.length)) := by
  refine ⟨counts aggregation.field hits, ranks_counts _ hits, fun other => Ranks.unique, rfl,
    fun others hperm => run_of_counts (counts_of_perm hperm aggregation.field), fun hroom => ?_⟩
  -- With room for all values nothing is cut off, and every hit is counted once for each of its
  -- values.
  have htotal : ((aggregation.run hits).buckets.map TermsBucket.docCount).sum
      = (hits.map fun hit => {value | hit.HasValue aggregation.field value}.ncard).sum := by
    rw [ncard_values_eq_length_counts] at hroom
    rw [run, List.take_of_length_le hroom, sum_docCount_counts]
  refine ⟨htotal, fun hsome => ?_, fun hone => ?_⟩
  · have hbound := List.length_le_sum_of_one_le
      (hits.map fun hit => {value | hit.HasValue aggregation.field value}.ncard)
      (List.forall_mem_map.mpr hsome)
    rwa [List.length_map, ← htotal] at hbound
  · rw [htotal, List.map_congr_left hone, List.map_const', List.sum_replicate_nat, Nat.mul_one]

/-- Three walks. One says a tag twice, and one has none. -/
def walks : List Hit :=
  [⟨"walks", "1", 1.0,
      some (.obj [("tag", .arr [.str "hills", .str "coast", .str "hills"])]), none⟩,
    ⟨"walks", "2", 1.0, some (.obj [("tag", .str "coast")]), none⟩,
    ⟨"walks", "3", 1.0, some (.obj []), none⟩]

/-- There is room for both tags of the walks, and the walks have three tags in all. -/
theorem run_ranks_values_walks :
    {value | ∃ hit ∈ walks, hit.HasValue "tag" value}.ncard = 2
      ∧ (walks.map fun hit => {value | hit.HasValue "tag" value}.ncard) = [2, 1, 0]
      ∧ Ranks "tag" walks (run ⟨"tag", 2⟩ walks).buckets
      ∧ ((run ⟨"tag", 2⟩ walks).buckets.map TermsBucket.docCount).sum = 3 := by
  have hvalues : {value | ∃ hit ∈ walks, hit.HasValue "tag" value}.ncard = 2 := by
    rw [ncard_values_eq_length_counts, counts, List.length_mergeSort]
    decide
  have heach : (walks.map fun hit => {value | hit.HasValue "tag" value}.ncard) = [2, 1, 0] := by
    simp only [Hit.ncard_values]
    decide
  rcases run_ranks_values ⟨"tag", 2⟩ walks with ⟨ranking, hranks, _, hrun, _, hroom⟩
  have hlength : ranking.length = 2 := by
    rw [hranks.unique, ← ncard_values_eq_length_counts, hvalues]
  refine ⟨hvalues, heach, ?_, ?_⟩
  · rw [hrun, List.take_of_length_le (Nat.le_of_eq hlength)]
    exact hranks
  · rw [(hroom (Nat.le_of_eq hvalues)).1, heach]
    rfl

end TermsAggregation

end DocSearch
