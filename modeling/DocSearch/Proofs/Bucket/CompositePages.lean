import DocSearch.Proofs.Bucket.Combinations

/-!
# Paging Through Composite Buckets

Asking for page after page, each time with the key that came with the last one, hands out
every bucket once and in order.

A page starts behind the bucket that its `after` key names. The key of a bucket reads back
as that bucket's key, and no other bucket has it, so a page starts exactly where the one
before it ended. What is left to see is the end: a page comes with a key only if something
is left behind it, so paging stops, and it stops without an empty page in between even when
the number of buckets is a multiple of the page size.

## Main definitions

* `CompositeAggregation.resumeAfter`: The aggregation for the page behind a key.
* `CompositeAggregation.Paging`: The pages a client gets who goes on until there is no key.

## Theorems

* `startIn_resumeAfter`: The page behind the key of a bucket starts behind that bucket.
* `afterKey_run`: When a page comes with a key.
* `Paging.unique`: The pages are determined.
* `exists_paging_from`: Paging ends, from wherever it starts.
* `paging_concatenates`: The pages put together are the list of all buckets.
-/

namespace DocSearch

namespace CompositeAggregation

/-- The same aggregation for the page behind a key. -/
def resumeAfter (aggregation : CompositeAggregation) (key : List (String × Json)) :
    CompositeAggregation :=
  { aggregation with after := some key }

@[simp]
theorem sources_resumeAfter (aggregation : CompositeAggregation) (key : List (String × Json)) :
    (aggregation.resumeAfter key).sources = aggregation.sources := rfl

/-- The pages that a client gets who asks for page after page, each time with the key that
    came with the last one, until a page comes without a key. A derivation is a finite run, so
    having one means that paging ends. -/
inductive Paging (hits : List Hit) : CompositeAggregation → List CompositeResult → Prop where
  /-- A page without a key is the last one. -/
  | last (aggregation : CompositeAggregation) (hkey : (aggregation.run hits).afterKey = none) :
    Paging hits aggregation [aggregation.run hits]
  /-- A page with a key is followed by the pages behind that key. -/
  | next (aggregation : CompositeAggregation) (key : List (String × Json))
      (pages : List CompositeResult) (hkey : (aggregation.run hits).afterKey = some key)
      (hrest : Paging hits (aggregation.resumeAfter key) pages) :
    Paging hits aggregation (aggregation.run hits :: pages)

/-- A client who asks in this way can get only one list of pages. -/
theorem Paging.unique {hits : List Hit} {aggregation : CompositeAggregation}
    {pages others : List CompositeResult} (hpages : Paging hits aggregation pages)
    (hothers : Paging hits aggregation others) : others = pages := by
  -- The induction is on the first run. Whether a page comes with a key is settled by the page, so
  -- the other run ends or goes on with it.
  induction hpages generalizing others with
  | last aggregation hkey =>
    cases hothers with
    | last _ _ => rfl
    | next _ key _ hkey' _ =>
      rw [hkey] at hkey'
      exact absurd hkey' (by simp)
  | next aggregation key pages hkey _ ih =>
    cases hothers with
    | last _ hkey' =>
      rw [hkey] at hkey'
      exact absurd hkey' (by simp)
    | next _ key' rest hkey' hrest =>
      rw [hkey, Option.some.injEq] at hkey'
      rw [← hkey'] at hrest
      rw [ih hrest]

/-! ### One page -/

/-- The page behind the key of a bucket starts behind that bucket. -/
theorem startIn_resumeAfter {aggregation : CompositeAggregation} {hits : List Hit}
    (hnames : (aggregation.sources.map CompositeSource.name).Nodup) {place : Nat}
    (hplace : place < (counts aggregation.sources hits).length) :
    (aggregation.resumeAfter (keyObject aggregation.sources
      (counts aggregation.sources hits)[place].1)).startIn hits = place + 1 := by
  have hlength := length_of_mem_counts (List.getElem_mem hplace)
  have hread := keyOfObject?_keyObject hnames hlength
  -- No bucket before this one has its key.
  have hfind : (counts aggregation.sources hits).findIdx?
      (fun bucket => bucket.1 = (counts aggregation.sources hits)[place].1) = some place := by
    rw [List.findIdx?_eq_some_iff_getElem]
    refine ⟨hplace, by simp, fun other hother heq => ?_⟩
    have hnodup := nodup_keys_counts aggregation.sources hits
    have hplace' : place < ((counts aggregation.sources hits).map Prod.fst).length := by
      rw [List.length_map]
      exact hplace
    have hother' : other < ((counts aggregation.sources hits).map Prod.fst).length := by omega
    have hsame : ((counts aggregation.sources hits).map Prod.fst)[other]
        = ((counts aggregation.sources hits).map Prod.fst)[place] := by
      rw [List.getElem_map, List.getElem_map]
      exact of_decide_eq_true heq
    -- Keys are distinct, so two places with one key are one place.
    have hplaces : other = place := (List.Nodup.getElem_inj_iff hnodup).mp hsame
    omega
  simp only [startIn, startOf, resumeAfter, hread, hfind]

/-- A page comes with a key exactly when buckets are left behind it, and the key is that of
    its last bucket. -/
theorem afterKey_run (aggregation : CompositeAggregation) (hits : List Hit)
    (hsources : aggregation.sources ≠ []) :
    (aggregation.run hits).afterKey
      = if (counts aggregation.sources hits).length ≤ aggregation.startIn hits + aggregation.size
        then none else (aggregation.run hits).buckets.getLast?.map CompositeBucket.key := by
  rw [run, if_neg (mt List.isEmpty_iff.mp hsources)]
  rfl

/-- Where buckets are left, the key is that of the bucket at the end of the page. -/
theorem afterKey_run_of_lt (aggregation : CompositeAggregation) (hits : List Hit)
    (hsources : aggregation.sources ≠ []) (hsize : 1 ≤ aggregation.size)
    (hlt : aggregation.startIn hits + aggregation.size
      < (counts aggregation.sources hits).length) :
    (aggregation.run hits).afterKey
      = some (keyObject aggregation.sources
          (counts aggregation.sources hits)[aggregation.startIn hits
            + aggregation.size - 1].1) := by
  have hsize0 : aggregation.size ≠ 0 := by omega
  have hplace : aggregation.startIn hits + (aggregation.size - 1)
      < (counts aggregation.sources hits).length := by omega
  have hindex : aggregation.startIn hits + aggregation.size - 1
      = aggregation.startIn hits + (aggregation.size - 1) := by omega
  rw [afterKey_run aggregation hits hsources, if_neg (by omega),
    buckets_run aggregation hits hsources, List.getLast?_map, List.getLast?_take, if_neg hsize0,
    List.getElem?_drop, List.getElem?_eq_getElem hplace]
  simp only [hindex, Option.some_or, Option.map_some, bucketOf]

/-! ### The run -/

-- Even the aggregation of no hits has a page, which is empty.
theorem Paging.ne_nil {hits : List Hit} {aggregation : CompositeAggregation}
    {pages : List CompositeResult} (h : Paging hits aggregation pages) : pages ≠ [] := by
  cases h with
  | last _ _ => exact List.cons_ne_nil _ _
  | next _ _ _ _ _ => exact List.cons_ne_nil _ _

/-- Paging ends, from wherever it starts, hands out what is left from there, and fills every
    page but the last. The induction is on the number of buckets left, and a page that comes
    with a key leaves fewer. -/
theorem exists_paging_from (hits : List Hit) (aggregation : CompositeAggregation)
    (hsources : aggregation.sources ≠ [])
    (hnames : (aggregation.sources.map CompositeSource.name).Nodup)
    (hsize : 1 ≤ aggregation.size) :
    ∃ pages, Paging hits aggregation pages
      ∧ pages.flatMap CompositeResult.buckets
          = ((counts aggregation.sources hits).drop (aggregation.startIn hits)).map
              (bucketOf aggregation.sources)
      ∧ ∀ page ∈ pages.dropLast, page.buckets.length = aggregation.size := by
  generalize hleft : (counts aggregation.sources hits).length - aggregation.startIn hits = left
  induction left using Nat.strongRecOn generalizing aggregation with
  | ind left ih =>
    have hbuckets := buckets_run aggregation hits hsources
    by_cases hend : (counts aggregation.sources hits).length
        ≤ aggregation.startIn hits + aggregation.size
    · -- Nothing is left behind this page.
      have hkey : (aggregation.run hits).afterKey = none := by
        rw [afterKey_run aggregation hits hsources, if_pos hend]
      refine ⟨_, Paging.last aggregation hkey, ?_, fun page hpage => ?_⟩
      · rw [List.flatMap_singleton, hbuckets, List.take_of_length_le]
        rw [List.length_drop]
        omega
      · exact absurd hpage (by simp)
    · -- The key of this page leads right behind it, where fewer buckets are left.
      have hlt := Nat.lt_of_not_le hend
      have hkey := afterKey_run_of_lt aggregation hits hsources hsize hlt
      have hstart := @startIn_resumeAfter aggregation hits hnames
        (aggregation.startIn hits + aggregation.size - 1) (by omega)
      rw [Nat.sub_add_cancel (by omega)] at hstart
      have hfewer : (counts aggregation.sources hits).length
          - (aggregation.startIn hits + aggregation.size) < left := by omega
      rw [← hstart] at hfewer
      -- What the rest of the run hands out is known from the induction.
      rcases ih _ hfewer (aggregation.resumeAfter _) hsources hnames hsize rfl with
        ⟨rest, hrest, hconcat, hfull⟩
      refine ⟨_, Paging.next aggregation _ rest hkey hrest, ?_, fun page hpage => ?_⟩
      · -- This page, and what is left behind it.
        rw [sources_resumeAfter, hstart] at hconcat
        rw [List.flatMap_cons, hconcat, hbuckets, ← List.drop_drop]
        exact List.map_append.symm.trans (congrArg _ (List.take_append_drop _ _))
      · rw [List.dropLast_cons_of_ne_nil hrest.ne_nil, List.mem_cons] at hpage
        rcases hpage with rfl | hpage
        · rw [hbuckets, List.length_map, List.length_take, List.length_drop]
          omega
        · exact hfull page hpage

/-- Paging through an aggregation loses and repeats nothing. For all hits, all sources with
    distinct names and every page size, asking for page after page ends, with one possible
    list of pages. Put together, they are the page of a size that has room for every distinct
    key, and hand out the arrangement of all combinations of values that the hits have; and all of
    them but the last are full. It does not matter in which order the counts are collected before
    they are sorted. -/
theorem paging_concatenates (hits : List Hit) (sources : List CompositeSource) (size : Nat)
    (hsources : sources ≠ []) (hnames : (sources.map CompositeSource.name).Nodup)
    (hsize : 1 ≤ size) :
    ∃ pages, Paging hits ⟨sources, size, none⟩ pages
      ∧ (∀ others, Paging hits ⟨sources, size, none⟩ others → others = pages)
      ∧ (∀ limit, (hits.flatMap (keysOf sources)).dedup.length ≤ limit →
          pages.flatMap CompositeResult.buckets
            = (run ⟨sources, limit, none⟩ hits).buckets)
      ∧ (∃ table, Arranges sources hits table
          ∧ pages.flatMap CompositeResult.buckets = table.map (bucketOf sources))
      ∧ (∀ page ∈ pages.dropLast, page.buckets.length = size)
      ∧ ∀ collected : List (CompositeKey × Nat),
          collected.Perm (tally (hits.flatMap (keysOf sources))) →
          (collected.mergeSort fun a b => (compareKeys sources a.1 b.1).isLE)
            = counts sources hits := by
  rcases exists_paging_from hits ⟨sources, size, none⟩ hsources hnames hsize with
    ⟨pages, hpages, hconcat, hfull⟩
  refine ⟨pages, hpages, fun others hothers => hpages.unique hothers, fun limit hlimit => ?_,
    ⟨counts sources hits, arranges_counts sources hits, hconcat⟩, hfull,
    fun collected => counts_eq_of_perm⟩
  rw [← length_counts] at hlimit
  rw [hconcat, buckets_run ⟨sources, limit, none⟩ hits hsources]
  exact congrArg _ (List.take_of_length_le hlimit).symm

/-- Paging through the genres of the shelf one by one hands out poetry, which both books have, and
    behind it drama, as a page of ten does. -/
theorem paging_concatenates_shelf :
    byGenre ≠ [] ∧ (byGenre.map CompositeSource.name).Nodup ∧ 1 ≤ 1
      ∧ (shelf.flatMap (keysOf byGenre)).dedup.length = 2
      ∧ ∃ pages, Paging shelf ⟨byGenre, 1, none⟩ pages
          ∧ pages.flatMap CompositeResult.buckets = (run ⟨byGenre, 10, none⟩ shelf).buckets
          ∧ pages.flatMap CompositeResult.buckets
            = [⟨[("from", .str "books"), ("genre", .str "poetry")], 2⟩,
              ⟨[("from", .str "books"), ("genre", .str "drama")], 1⟩]
          ∧ ∀ page ∈ pages.dropLast, page.buckets.length = 1 := by
  have hlength : (shelf.flatMap (keysOf byGenre)).dedup.length = 2 := by decide
  have hnames : (byGenre.map CompositeSource.name).Nodup := by decide
  have hsources : byGenre ≠ [] := List.cons_ne_nil _ _
  rcases paging_concatenates shelf byGenre 1 hsources hnames (Nat.le_refl 1) with
    ⟨pages, hpages, _, hconcat, ⟨table, harranges, hbuckets⟩, hfull, _⟩
  refine ⟨hsources, hnames, Nat.le_refl 1, hlength, pages, hpages, hconcat 10 (by omega), ?_, hfull⟩
  rw [hbuckets, harranges.unique, counts_shelf]
  rfl

end CompositeAggregation

end DocSearch
