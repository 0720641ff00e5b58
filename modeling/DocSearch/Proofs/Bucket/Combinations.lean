import DocSearch.Proofs.Bucket.Regrouping

/-!
# The Combinations of Values

What the buckets of a composite aggregation are, said without building combinations.

A hit has a key if it has the value that stands at the place of each source in the field of that
source. So a hit with several values in several fields has one key for every choice among them, and
a hit that lacks one of the fields has no key at all. The combinations of its values are these keys.

A key comes before another one if it does so at the first place where the two differ, in the
direction of the source there. This settles every pair of keys that are as long as the sources, so
hits have one arrangement of their keys and no other.

The comparison that sorts the keys walks along the two lists. The same comparison by place reads
what stands at the place of a source, and has no answer where a key has ended. No key that some hit
has is shorter than the sources, so it always has one, and it is that of the walk.

## Main definitions

* `Hit.HasKey`: A hit has all values of a key.
* `Precedes`: A key comes before another one.
* `Arranges`: An arrangement of the keys of some hits.
* `compareFrom?`: The comparison by place.
* `startIn`, `bucketOf`: Where a page starts, and what it hands out.

## Theorems

* `mem_keysOf_iff`: The combinations that are built are the keys of the hit.
* `compareKeys_eq_lt_iff`: The order of keys in words.
* `compareFrom?_eq`: Comparing by place does not read past the end of a key.
* `arranges_counts`, `Arranges.unique`: The sorted counts are the arrangement.
* `buckets_run`: What one page has.
* `run_arranges_combinations`: What is handed out from the start.
-/

namespace DocSearch

/-- Whether a hit has all values of a key, each in the field of its source. -/
def Hit.HasKey (hit : Hit) (sources : List CompositeSource) (key : CompositeKey) : Prop :=
  List.Forall₂ (fun source value => hit.HasValue source.field value) sources key

/-- Whether a value comes before another one in a direction. -/
def Direction.Before : Direction → String → String → Prop
  | .ascending, a, b => a < b
  | .descending, a, b => b < a

/-- Texts are compared in a direction as that direction orders them. -/
theorem Direction.orient_eq_lt_iff {direction : Direction} {a b : String} :
    direction.orient (String.compare a b) = .lt ↔ direction.Before a b := by
  cases direction with
  | ascending => exact compareOfLessAndEq_eq_lt
  | descending =>
    rw [orient, Ordering.swap_eq_lt, Std.OrientedCmp.gt_iff_lt]
    exact compareOfLessAndEq_eq_lt

namespace CompositeAggregation

/-! ### Which keys a hit has -/

/-- The combinations of the values of a hit are its keys. -/
theorem mem_keysOf_iff {sources : List CompositeSource} {hit : Hit} {key : CompositeKey} :
    key ∈ keysOf sources hit ↔ hit.HasKey sources key := by
  rw [keysOf, mem_combinations_iff, List.forall₂_map_left_iff]
  simp only [Hit.mem_terms_iff, Hit.HasKey]

instance (hit : Hit) (sources : List CompositeSource) (key : CompositeKey) :
    Decidable (hit.HasKey sources key) :=
  decidable_of_iff _ mem_keysOf_iff

/-! ### Which key comes first -/

/-- Whether a key comes before another one: it does at the first place where they differ, in the
    direction of the source of that place. -/
inductive Precedes : List CompositeSource → CompositeKey → CompositeKey → Prop where
  /-- The keys differ at the first place. -/
  | here {source : CompositeSource} {x y : String} (sources : List CompositeSource)
      (as bs : CompositeKey) (h : source.direction.Before x y) :
      Precedes (source :: sources) (x :: as) (y :: bs)
  /-- They have the same value there. -/
  | behind {sources : List CompositeSource} {as bs : CompositeKey} (source : CompositeSource)
      (x : String) (h : Precedes sources as bs) :
      Precedes (source :: sources) (x :: as) (x :: bs)

/-- The walk along two keys puts the first one before the second exactly if it precedes it. The
    induction is on the sources, of which each takes one place off both keys. -/
theorem compareKeys_eq_lt_iff {sources : List CompositeSource} {a b : CompositeKey}
    (ha : a.length = sources.length) (hb : b.length = sources.length) :
    compareKeys sources a b = .lt ↔ Precedes sources a b := by
  induction sources generalizing a b with
  | nil => exact ⟨fun h => Ordering.noConfusion h, fun h => nomatch h⟩
  | cons source rest ih =>
    rcases List.exists_cons_of_length_eq_add_one ha with ⟨x, as, rfl⟩
    rcases List.exists_cons_of_length_eq_add_one hb with ⟨y, bs, rfl⟩
    rw [List.length_cons, List.length_cons] at ha hb
    have htail := @ih as bs (by omega) (by omega)
    have heq := lawfulEqCmp_orient source.direction String.compare
    have hself := @Std.ReflCmp.compare_self _
      (fun a b => source.direction.orient (String.compare a b)) _ x
    -- The first place decides unless both keys have one value there. In that case it is the rests
    -- that are compared.
    rw [compareKeys, Ordering.then_eq_lt, Direction.orient_eq_lt_iff, htail]
    constructor
    · rintro (hfirst | ⟨hsame, hlater⟩)
      · exact .here rest as bs hfirst
      · obtain rfl : x = y := heq.eq_of_compare hsame
        exact .behind source x hlater
    · intro h
      cases h with
      | here _ _ _ hfirst => exact .inl hfirst
      | behind _ _ hlater => exact .inr ⟨hself, hlater⟩

/-- The comparison by place, from a place on. What stands there in the two keys is read for each
    source, until the keys differ. Past the end of a key there is nothing to read, and no answer. -/
def compareFrom? (place : Nat) :
    List CompositeSource → CompositeKey → CompositeKey → Option Ordering
  | [], _, _ => some .eq
  | source :: sources, a, b =>
    match a[place]?, b[place]? with
    | some x, some y =>
      match source.direction.orient (String.compare x y) with
      | .eq => compareFrom? (place + 1) sources a b
      | ordering => some ordering
    | _, _ => none

/-- Comparing by place has an answer if no key ends before the sources do, and it is that of the
    comparison along the keys. -/
theorem compareFrom?_eq {sources : List CompositeSource} {a b : CompositeKey} {place : Nat}
    (ha : a.length = place + sources.length) (hb : b.length = place + sources.length) :
    compareFrom? place sources a b
      = some (compareKeys sources (a.drop place) (b.drop place)) := by
  induction sources generalizing place with
  | nil => rfl
  | cons source rest ih =>
    rw [List.length_cons] at ha hb
    have hplaceA : place < a.length := by omega
    have hplaceB : place < b.length := by omega
    rw [compareFrom?, List.getElem?_eq_getElem hplaceA, List.getElem?_eq_getElem hplaceB,
      List.drop_eq_getElem_cons hplaceA, List.drop_eq_getElem_cons hplaceB, compareKeys]
    change (match source.direction.orient (String.compare a[place] b[place]) with
      | .eq => compareFrom? (place + 1) rest a b
      | ordering => some ordering) = _
    -- Equal terms pass the comparison on to the next place, which both keys have.
    cases source.direction.orient (String.compare a[place] b[place]) with
    | lt => rfl
    | eq => exact ih (by omega) (by omega)
    | gt => rfl

/-! ### The arrangement -/

/-- A table that arranges the keys of some hits. -/
structure Arranges (sources : List CompositeSource) (hits : List Hit)
    (table : List (CompositeKey × Nat)) : Prop where
  /-- There is one entry for every key, and it counts the hits that have the key. -/
  tabulates : Tabulates (fun hit key => hit.HasKey sources key) hits table
  /-- Each key comes before all that are listed after it. -/
  ordered : table.Pairwise fun a b => Precedes sources a.1 b.1

-- Every listed key is the key of some hit, and so it is as long as the sources.
theorem Arranges.length_eq {sources : List CompositeSource} {hits : List Hit}
    {table : List (CompositeKey × Nat)} (h : Arranges sources hits table)
    {entry : CompositeKey × Nat} (hmem : entry ∈ table) : entry.1.length = sources.length := by
  rcases (h.tabulates.items entry.1).mp (List.mem_map_of_mem hmem) with ⟨hit, _, hkey⟩
  exact hkey.length_eq.symm

-- Between keys that are long enough, to precede and to compare as less are one thing.
theorem Arranges.sortedBy {sources : List CompositeSource} {hits : List Hit}
    {table : List (CompositeKey × Nat)} (h : Arranges sources hits table) :
    SortedBy sources table :=
  h.ordered.imp_of_mem fun {_ _} ha hb hab =>
    (compareKeys_eq_lt_iff (h.length_eq ha) (h.length_eq hb)).mpr hab

/-- The sorted counts are an arrangement. -/
theorem arranges_counts (sources : List CompositeSource) (hits : List Hit) :
    Arranges sources hits (counts sources hits) where
  tabulates :=
    (tabulates_tally (nodup_keysOf sources) (fun _ _ => mem_keysOf_iff) hits).of_perm
      (perm_counts sources hits)
  ordered := (sortedBy_counts sources hits).imp_of_mem fun {_ _} ha hb hab =>
    (compareKeys_eq_lt_iff (length_of_mem_counts ha) (length_of_mem_counts hb)).mp hab

/-- Hits have one arrangement. -/
theorem Arranges.unique {sources : List CompositeSource} {hits : List Hit}
    {table : List (CompositeKey × Nat)} (h : Arranges sources hits table) :
    table = counts sources hits :=
  eq_of_perm_of_sortedBy (h.tabulates.perm (arranges_counts sources hits).tabulates)
    (fun _ hmem => h.length_eq hmem) h.sortedBy (sortedBy_counts sources hits)

/-! ### One page -/

/-- Where the page starts in the list of all buckets. -/
def startIn (aggregation : CompositeAggregation) (hits : List Hit) : Nat :=
  startOf aggregation (counts aggregation.sources hits)

/-- A counted key as it is handed out. -/
def bucketOf (sources : List CompositeSource) (entry : CompositeKey × Nat) : CompositeBucket :=
  ⟨keyObject sources entry.1, entry.2⟩

/-- The buckets of one page. -/
theorem buckets_run (aggregation : CompositeAggregation) (hits : List Hit)
    (hsources : aggregation.sources ≠ []) :
    (aggregation.run hits).buckets
      = (((counts aggregation.sources hits).drop (aggregation.startIn hits)).take
          aggregation.size).map (bucketOf aggregation.sources) := by
  rw [run, if_neg (mt List.isEmpty_iff.mp hsources)]
  rfl

/-- The sorted counts arrange the keys of the hits, and nothing else does. A page from the start
    hands out the first ones, and all of them if there is room. Whatever keys of the hits are
    compared when they are sorted, comparing them by place reads no key past its end. And it does
    not matter in which order the hits are listed, for this page or any other. -/
theorem run_arranges_combinations {sources : List CompositeSource} (hsources : sources ≠ [])
    (hits : List Hit) :
    Arranges sources hits (counts sources hits)
      ∧ (∀ table, Arranges sources hits table → table = counts sources hits)
      ∧ (∀ size, (run ⟨sources, size, none⟩ hits).buckets
          = ((counts sources hits).take size).map (bucketOf sources))
      ∧ (∀ size, (counts sources hits).length ≤ size →
          (run ⟨sources, size, none⟩ hits).buckets
            = (counts sources hits).map (bucketOf sources))
      ∧ (∀ key ∈ hits.flatMap (keysOf sources), key.length = sources.length)
      ∧ (∀ a ∈ hits.flatMap (keysOf sources), ∀ b ∈ hits.flatMap (keysOf sources),
          compareFrom? 0 sources a b = some (compareKeys sources a b))
      ∧ ∀ others, others.Perm hits → counts sources others = counts sources hits
          ∧ ∀ size after, run ⟨sources, size, after⟩ others = run ⟨sources, size, after⟩ hits := by
  -- The comparison by place needs keys that are as long as the sources.
  have hlength : ∀ key ∈ hits.flatMap (keysOf sources), key.length = sources.length := by
    intro key hmem
    rcases List.mem_flatMap.mp hmem with ⟨hit, _, hkey⟩
    exact length_of_mem_keysOf hkey
  have hpage (size : Nat) : (run ⟨sources, size, none⟩ hits).buckets
      = ((counts sources hits).take size).map (bucketOf sources) :=
    buckets_run ⟨sources, size, none⟩ hits hsources
  refine ⟨arranges_counts sources hits, fun table => Arranges.unique, hpage, fun size hroom => ?_,
    hlength, fun a ha b hb => ?_, fun others hperm => ?_⟩
  · rw [hpage, List.take_of_length_le hroom]
  · have hla := hlength a ha
    have hlb := hlength b hb
    exact compareFrom?_eq (by omega) (by omega)
  · have hcounts := counts_of_perm hperm sources
    exact ⟨hcounts, fun size after => run_of_counts hcounts⟩

/-- Two books, of which one has two genres. -/
def shelf : List Hit :=
  [⟨"books", "1", 1.0, some (.obj [("genre", .arr [.str "drama", .str "poetry"])]), none⟩,
    ⟨"books", "2", 1.0, some (.obj [("genre", .str "poetry")]), none⟩]

/-- Genres in descending order, and below each the index. -/
def byGenre : List CompositeSource :=
  [⟨"genre", "genre", .descending⟩, ⟨"from", indexField, .ascending⟩]

-- Sorted already, and with the counts that the walk over the shelf collects.
theorem counts_shelf :
    counts byGenre shelf = [(["poetry", "books"], 2), (["drama", "books"], 1)] := by
  have htable : (tally (shelf.flatMap (keysOf byGenre))).Perm
      [(["poetry", "books"], 2), (["drama", "books"], 1)] := by decide
  have hsorted : SortedBy byGenre [(["poetry", "books"], 2), (["drama", "books"], 1)] := by
    unfold SortedBy
    decide
  exact eq_of_perm_of_sortedBy ((perm_counts byGenre shelf).trans htable)
    (fun _ hmem => length_of_mem_counts hmem) (sortedBy_counts byGenre shelf) hsorted

/-- Both books of the shelf are in the first bucket, and one of them in the second. -/
theorem run_arranges_combinations_shelf :
    byGenre ≠ []
      ∧ Arranges byGenre shelf [(["poetry", "books"], 2), (["drama", "books"], 1)]
      ∧ (run ⟨byGenre, 2, none⟩ shelf).buckets
        = [⟨[("from", .str "books"), ("genre", .str "poetry")], 2⟩,
          ⟨[("from", .str "books"), ("genre", .str "drama")], 1⟩]
      ∧ compareFrom? 0 byGenre ["poetry", "books"] ["drama", "books"] = some .lt := by
  have hsources : byGenre ≠ [] := List.cons_ne_nil _ _
  rcases run_arranges_combinations hsources shelf with ⟨harranges, _, _, hall, _, hplaces, _⟩
  refine ⟨hsources, counts_shelf ▸ harranges, ?_, ?_⟩
  · rw [hall 2 (by rw [counts_shelf]; exact Nat.le_refl 2), counts_shelf]
    rfl
  · rw [hplaces _ (by decide) _ (by decide)]
    decide

end CompositeAggregation

end DocSearch
