import DocSearch.Bucket.Composite
import DocSearch.Proofs.Bucket.Tally
import DocSearch.Proofs.Bucket.Values
import DocSearch.Proofs.Hit.Order
import DocSearch.Proofs.Keyed
import DocSearch.Proofs.Outcome

/-!
# The Order of Composite Buckets

The list that composite pages are cut from does not depend on how the counts were collected.

Two things make it so. A key has exactly one value for every source, and on such keys the
comparison, source by source and each in its own direction, is a linear order: keys that
compare as equal are equal. And no key is counted twice. So the sorted list is strictly
ascending, and there is only one strictly ascending list of given entries. In whatever order
a map hands out its entries, sorting them gives the list `counts`.

The comparison itself stops where a key ends, so it is no order of keys of mixed lengths. It
is compared with one that is, in which a missing value counts as the empty text.

A key can also be read back from the object that shows it, provided that no two sources have
one name.

## Main definitions

* `paddedOrder`: The order of buckets on keys of any length.
* `SortedBy`: A list of counted keys in strictly ascending order.

## Theorems

* `mem_combinations_iff`: What is combined.
* `length_of_mem_keysOf`: A key has one value for every source.
* `nodup_keysOf`: A hit has each of its keys once.
* `transCmp_paddedOrder`, `compareKeys_eq_paddedOrder`: The order of buckets is one.
* `eq_of_compareKeys_eq`: It tells all keys apart.
* `sortedBy_mergeSort`: Sorting counted keys makes them ascend strictly.
* `counts_eq_of_perm`: However the counts are collected, the sorted list is the same.
* `length_counts`: It has one entry for every distinct key.
* `keyOfObject?_eq_some_iff`: Which key an object shows.
* `keyOfObject?_keyObject`: Reading a key back from its object.
-/

namespace DocSearch

open Std

namespace CompositeAggregation

/-! ### Keys -/

/-- The combinations have one value of each column, at its place. -/
theorem mem_combinations_iff {columns : List (List String)} {key : CompositeKey} :
    key ∈ combinations columns ↔ List.Forall₂ (fun values value => value ∈ values) columns key := by
  induction columns generalizing key with
  | nil => rw [combinations, List.mem_singleton, List.forall₂_nil_left_iff]
  | cons values rest ih =>
    rw [combinations, List.mem_flatMap, List.forall₂_cons_left_iff]
    constructor
    · rintro ⟨value, hvalue, hkey⟩
      rcases List.mem_map.mp hkey with ⟨tail, htail, rfl⟩
      exact ⟨value, tail, hvalue, ih.mp htail, rfl⟩
    · rintro ⟨value, tail, hvalue, htail, rfl⟩
      exact ⟨value, hvalue, List.mem_map_of_mem (ih.mpr htail)⟩

/-- A key has one value for every source. -/
theorem length_of_mem_keysOf {sources : List CompositeSource} {hit : Hit} {key : CompositeKey}
    (h : key ∈ keysOf sources hit) : key.length = sources.length := by
  rw [← (mem_combinations_iff.mp h).length_eq, List.length_map]

/-- Every key that is counted has one value for each source. -/
theorem length_of_mem_tally {sources : List CompositeSource} {hits : List Hit}
    {entry : CompositeKey × Nat} (h : entry ∈ tally (hits.flatMap (keysOf sources))) :
    entry.1.length = sources.length := by
  have hkey : entry.1 ∈ hits.flatMap (keysOf sources) := ((mem_tally_iff _ _ _).mp h).1
  rcases List.mem_flatMap.mp hkey with ⟨hit, _, hmem⟩
  exact length_of_mem_keysOf hmem

/-- Columns without repetitions have combinations without repetitions. -/
theorem nodup_combinations {columns : List (List String)}
    (h : ∀ values ∈ columns, values.Nodup) : (combinations columns).Nodup := by
  induction columns with
  | nil => exact List.nodup_singleton _
  | cons values rest ih =>
    have hrest := ih fun other hother => h other (List.mem_cons_of_mem _ hother)
    rw [combinations, List.nodup_flatMap]
    refine ⟨fun value _ => hrest.map fun a b heq => (List.cons.inj heq).2, ?_⟩
    -- Keys that start with different values are different.
    refine (h values List.mem_cons_self).imp fun {a b} hab => ?_
    intro key ha hb
    rcases List.mem_map.mp ha with ⟨_, _, rfl⟩
    rcases List.mem_map.mp hb with ⟨_, _, heq⟩
    exact hab (List.cons.inj heq).1.symm

/-- A hit is in each bucket once. -/
theorem nodup_keysOf (sources : List CompositeSource) (hit : Hit) :
    (keysOf sources hit).Nodup := by
  refine nodup_combinations fun values hmem => ?_
  rcases List.mem_map.mp hmem with ⟨source, _, rfl⟩
  exact hit.nodup_terms source.field

/-! ### The order -/

/-- The order of buckets on keys of any length, where a missing value counts as the empty
    text and values beyond the sources do not count. -/
def paddedOrder : List CompositeSource → CompositeKey → CompositeKey → Ordering
  | [], _, _ => .eq
  | source :: sources, a, b =>
    (source.direction.orient (String.compare (a.headD "") (b.headD ""))).then
      (paddedOrder sources a.tail b.tail)

instance transCmp_paddedOrder (sources : List CompositeSource) :
    TransCmp (paddedOrder sources) := by
  induction sources with
  | nil => exact { eq_swap := rfl, isLE_trans := fun _ _ => rfl }
  | cons source rest ih =>
    have hhead := transCmp_comap (fun key : CompositeKey => key.headD "")
      fun a b => source.direction.orient (String.compare a b)
    have htail := transCmp_comap (fun key : CompositeKey => key.tail) (paddedOrder rest)
    exact (inferInstance : TransCmp (compareLex
      (fun a b : CompositeKey =>
        source.direction.orient (String.compare (a.headD "") (b.headD "")))
      fun a b => paddedOrder rest a.tail b.tail))

/-- On keys with one value for every source the two comparisons are the same. -/
theorem compareKeys_eq_paddedOrder {sources : List CompositeSource} {a b : CompositeKey}
    (ha : a.length = sources.length) (hb : b.length = sources.length) :
    compareKeys sources a b = paddedOrder sources a b := by
  induction sources generalizing a b with
  | nil => rfl
  | cons source rest ih =>
    rcases List.exists_cons_of_length_eq_add_one ha with ⟨x, as, rfl⟩
    rcases List.exists_cons_of_length_eq_add_one hb with ⟨y, bs, rfl⟩
    rw [List.length_cons, List.length_cons] at ha hb
    rw [compareKeys, paddedOrder, ih (by omega) (by omega)]
    rfl

/-- Only a key itself compares as equal to it. -/
theorem eq_of_compareKeys_eq {sources : List CompositeSource} {a b : CompositeKey}
    (ha : a.length = sources.length) (hb : b.length = sources.length)
    (h : compareKeys sources a b = .eq) : a = b := by
  induction sources generalizing a b with
  | nil =>
    rw [List.length_nil, List.length_eq_zero_iff] at ha hb
    rw [ha, hb]
  | cons source rest ih =>
    rcases List.exists_cons_of_length_eq_add_one ha with ⟨x, as, rfl⟩
    rcases List.exists_cons_of_length_eq_add_one hb with ⟨y, bs, rfl⟩
    rw [List.length_cons, List.length_cons] at ha hb
    -- Keys are equal in the order only if they are at every place.
    rw [compareKeys, Ordering.then_eq_eq] at h
    have hhead : x = y := (lawfulEqCmp_orient source.direction String.compare).eq_of_compare h.1
    have htail : as = bs := ih (by omega) (by omega) h.2
    rw [hhead, htail]

/-! ### The sorted list -/

/-- Counted keys in strictly ascending order. -/
def SortedBy (sources : List CompositeSource) (entries : List (CompositeKey × Nat)) : Prop :=
  entries.Pairwise fun a b => compareKeys sources a.1 b.1 = .lt

/-- Sorting counted keys, each with one value for every source and none counted twice, makes
    them ascend strictly. -/
theorem sortedBy_mergeSort {sources : List CompositeSource}
    {entries : List (CompositeKey × Nat)}
    (hlength : ∀ entry ∈ entries, entry.1.length = sources.length)
    (hnodup : (entries.map Prod.fst).Nodup) :
    SortedBy sources (entries.mergeSort fun a b => (compareKeys sources a.1 b.1).isLE) := by
  have htrans := transCmp_comap (fun entry : CompositeKey × Nat => entry.1) (paddedOrder sources)
  -- On these entries the two comparisons agree, so the two sorts are one.
  have hsame : (entries.mergeSort fun a b => (compareKeys sources a.1 b.1).isLE)
      = entries.mergeSort fun a b => (paddedOrder sources a.1 b.1).isLE := by
    have hmap := @List.map_mergeSort _ _ (fun a b => (compareKeys sources a.1 b.1).isLE)
      (fun a b => (paddedOrder sources a.1 b.1).isLE) id entries fun a ha b hb => by
        rw [compareKeys_eq_paddedOrder (hlength a ha) (hlength b hb)]
        rfl
    rwa [List.map_id, List.map_id] at hmap
  have hsorted := stablySorted_mergeSort
    (fun a b : CompositeKey × Nat => paddedOrder sources a.1 b.1) entries
  -- Sorting moves the entries about and leaves their keys distinct.
  have hkeys : ((entries.mergeSort fun a b => (paddedOrder sources a.1 b.1).isLE).map
      Prod.fst).Nodup := (hsorted.perm.map Prod.fst).nodup_iff.mpr hnodup
  rw [SortedBy, hsame]
  rw [List.nodup_iff_pairwise_ne, List.pairwise_map] at hkeys
  refine (hsorted.ordered.and hkeys).imp_of_mem fun {a b} ha hb hab => ?_
  have hla := hlength a (hsorted.perm.mem_iff.mp ha)
  have hlb := hlength b (hsorted.perm.mem_iff.mp hb)
  rw [← compareKeys_eq_paddedOrder hla hlb] at hab
  -- Neither greater, since the list is in order, nor equal, since no key comes twice.
  cases hc : compareKeys sources a.1 b.1 with
  | lt => rfl
  | eq => exact absurd (eq_of_compareKeys_eq hla hlb hc) hab.2
  | gt =>
    rw [hc] at hab
    exact Bool.noConfusion hab.1

/-- There is only one strictly ascending list of given entries. -/
theorem eq_of_perm_of_sortedBy {sources : List CompositeSource}
    {entries others : List (CompositeKey × Nat)} (hperm : entries.Perm others)
    (hlength : ∀ entry ∈ entries, entry.1.length = sources.length)
    (hentries : SortedBy sources entries) (hothers : SortedBy sources others) :
    entries = others := by
  refine List.Perm.eq_of_pairwise (fun a b ha hb hab hba => ?_) hentries hothers hperm
  have hla := hlength a ha
  have hlb := hlength b (hperm.mem_iff.mpr hb)
  -- No two keys are less than each other.
  rw [compareKeys_eq_paddedOrder hla hlb] at hab
  rw [compareKeys_eq_paddedOrder hlb hla, @OrientedCmp.eq_swap _ (paddedOrder sources), hab] at hba
  exact Ordering.noConfusion hba

theorem sortedBy_counts (sources : List CompositeSource) (hits : List Hit) :
    SortedBy sources (counts sources hits) :=
  sortedBy_mergeSort (fun _ h => length_of_mem_tally h) (nodup_keys_tally _)

-- Sorting the counts changes their order only.
theorem perm_counts (sources : List CompositeSource) (hits : List Hit) :
    (counts sources hits).Perm (tally (hits.flatMap (keysOf sources))) :=
  List.mergeSort_perm ..

-- So what is known about the counted keys is known about the sorted ones, here and below.
theorem length_of_mem_counts {sources : List CompositeSource} {hits : List Hit}
    {entry : CompositeKey × Nat} (h : entry ∈ counts sources hits) :
    entry.1.length = sources.length :=
  length_of_mem_tally ((perm_counts sources hits).mem_iff.mp h)

theorem nodup_keys_counts (sources : List CompositeSource) (hits : List Hit) :
    ((counts sources hits).map Prod.fst).Nodup :=
  ((perm_counts sources hits).map Prod.fst).nodup_iff.mpr (nodup_keys_tally _)

/-- There is one entry for every distinct key. -/
theorem length_counts (sources : List CompositeSource) (hits : List Hit) :
    (counts sources hits).length = (hits.flatMap (keysOf sources)).dedup.length := by
  rw [(perm_counts sources hits).length_eq, length_tally]

/-- However the counts are collected, the sorted list is the same. -/
theorem counts_eq_of_perm {sources : List CompositeSource} {hits : List Hit}
    {collected : List (CompositeKey × Nat)}
    (h : collected.Perm (tally (hits.flatMap (keysOf sources)))) :
    (collected.mergeSort fun a b => (compareKeys sources a.1 b.1).isLE)
      = counts sources hits := by
  have hlength : ∀ entry ∈ collected, entry.1.length = sources.length :=
    fun _ hmem => length_of_mem_tally (h.mem_iff.mp hmem)
  have hnodup : (collected.map Prod.fst).Nodup :=
    (h.map Prod.fst).nodup_iff.mpr (nodup_keys_tally _)
  refine (eq_of_perm_of_sortedBy ?_ (fun _ hmem => length_of_mem_counts hmem)
    (sortedBy_counts sources hits) (sortedBy_mergeSort hlength hnodup)).symm
  exact (perm_counts sources hits).trans (h.symm.trans (List.mergeSort_perm ..).symm)

/-! ### Keys as objects -/

/-- An object shows a key if it has every value of the key under the name of its source. -/
theorem keyOfObject?_eq_some_iff {sources : List CompositeSource} {members : List (String × Json)}
    {key : CompositeKey} :
    keyOfObject? sources members = some key
      ↔ sources.length = key.length ∧ ∀ source value, (source, value) ∈ sources.zip key →
          (Keyed.get? source.name members).map canonicalText = some value := by
  rw [keyOfObject?, Outcome.mapM_eq_some_iff, List.forall₂_iff_zip]

/-- A key can be read back from the object that shows it. The names have to be distinct,
    since an object holds one value under a name. -/
theorem keyOfObject?_keyObject {sources : List CompositeSource} {key : CompositeKey}
    (hnames : (sources.map CompositeSource.name).Nodup) (hlength : key.length = sources.length) :
    keyOfObject? sources (keyObject sources key) = some key := by
  have hkeys : Keyed.keys ((sources.zip key).map fun pair =>
      (pair.1.name, Json.str pair.2)) = sources.map CompositeSource.name := by
    have hfst : (sources.zip key).map Prod.fst = sources :=
      List.map_fst_zip (Nat.le_of_eq hlength.symm)
    rw [Keyed.keys, List.map_map]
    conv => rhs; rw [← hfst, List.map_map]
    rfl
  refine keyOfObject?_eq_some_iff.mpr ⟨hlength.symm, fun source value hmem => ?_⟩
  -- The names are distinct, so no later term takes the place of this one.
  have hget : Keyed.get? source.name (keyObject sources key) = some (.str value) :=
    Keyed.get?_ofList_of_mem (hkeys ▸ hnames) (List.mem_map_of_mem hmem)
  rw [hget]
  rfl

end CompositeAggregation

end DocSearch
