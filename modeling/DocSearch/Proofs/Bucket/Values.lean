import DocSearch.Proofs.Bucket.Tally
import DocSearch.Proofs.Keyed
import Mathlib.Data.Set.Card

/-!
# The Values of a Hit

Which string values a hit has in a field, and what becomes of them when they are counted.

What a hit has is a matter of its document alone, and it either has a value or not. The list of its
values has each of them once, so a count of what stands in such lists is a count of hits. That is
what the numbers in buckets are, for the values of one field and for combinations of several.

A table of such numbers is described without saying how it was collected: which items it has, that
it has no item twice, and what stands beside an item. Two tables that fit the description are the
same up to their order, so buckets are settled as soon as their order is.

## Main definitions

* `Hit.HasValue`: A hit has a string value in a field.
* `Tabulates`: A table says how many hits have what.

## Theorems

* `Hit.mem_terms_iff`, `Hit.nodup_terms`: The list of values has what the hit has, each once.
* `Hit.ncard_values`: So it is as long as there are values.
* `count_flatMap_eq_countP`: A count of what hits have once is a count of hits.
* `tabulates_tally`: So counting what hits have gives a table of them.
* `Tabulates.perm`: There is one table, up to its order.
-/

namespace DocSearch

namespace Hit

/-- Whether a hit has a string value in a field. In the field that stands for the index it has the
    name of its index, and in any other field the strings that the path leads to in its document. -/
def HasValue (hit : Hit) (field value : String) : Prop :=
  if field = indexField then value = hit.index
  else ∃ source, hit.source = some source ∧ .str value ∈ Path.valuesAt source field

/-- The terms that are collected from a hit are the values that it has in the field. -/
theorem mem_terms_iff {hit : Hit} {field value : String} :
    value ∈ hit.terms field ↔ hit.HasValue field value := by
  rw [terms, HasValue]
  by_cases hindex : field = indexField
  · rw [if_pos hindex, if_pos hindex, List.mem_singleton]
  · rw [if_neg hindex, if_neg hindex]
    cases hit.source with
    | none => simp
    | some source =>
      simp only [Keyed.mem_distinct_iff, List.mem_filterMap, Json.asText?_eq_some_iff,
        exists_eq_right, Option.some.injEq, exists_eq_left']

instance (hit : Hit) (field value : String) : Decidable (hit.HasValue field value) :=
  decidable_of_iff _ mem_terms_iff

/-- A hit has each of its values once. -/
theorem nodup_terms (hit : Hit) (field : String) : (hit.terms field).Nodup := by
  unfold terms
  by_cases hindex : field = indexField
  · rw [if_pos hindex]
    exact List.nodup_singleton _
  · rw [if_neg hindex]
    cases hit.source with
    | none => exact List.nodup_nil
    | some source => exact Keyed.nodup_distinct _

/-- A hit has as many values in a field as there are terms. -/
theorem ncard_values (hit : Hit) (field : String) :
    {value | hit.HasValue field value}.ncard = (hit.terms field).length := by
  have hvalues : {value | hit.HasValue field value}
      = ((hit.terms field).toFinset : Set String) := by
    ext value
    simp [mem_terms_iff]
  rw [hvalues, Set.ncard_coe_finset, List.toFinset_card_of_nodup (hit.nodup_terms field)]

end Hit

/-- What a hit has once it adds once, so the hits that have an item are counted. -/
theorem count_flatMap_eq_countP {α β : Type} [DecidableEq β] {f : α → List β}
    (hnodup : ∀ a, (f a).Nodup) (item : β) (list : List α) :
    (list.flatMap f).count item = list.countP fun a => item ∈ f a := by
  induction list with
  | nil => rfl
  | cons a rest ih =>
    rw [List.flatMap_cons, List.count_append, ih, List.countP_cons, (hnodup a).count]
    simp only [decide_eq_true_eq, Nat.add_comm]

/-! ### Tables -/

/-- A table that says for everything that some hit has how many hits have it. -/
structure Tabulates {α : Type} (has : Hit → α → Prop) [∀ hit item, Decidable (has hit item)]
    (hits : List Hit) (table : List (α × Nat)) : Prop where
  /-- There are entries for what some hit has, and for nothing else. -/
  items : ∀ item, item ∈ table.map Prod.fst ↔ ∃ hit ∈ hits, has hit item
  /-- No item has two entries. -/
  distinct : (table.map Prod.fst).Nodup
  /-- An entry counts the hits that have its item. -/
  counted : ∀ item count, (item, count) ∈ table → count = hits.countP fun hit => has hit item

section Tables

variable {α : Type} {has : Hit → α → Prop} [∀ hit item, Decidable (has hit item)]
variable {hits : List Hit} {table other : List (α × Nat)}

/-- What a hit has is counted once for each hit that has it. -/
theorem tabulates_tally [DecidableEq α] {f : Hit → List α} (hnodup : ∀ hit, (f hit).Nodup)
    (hmem : ∀ hit item, item ∈ f hit ↔ has hit item) (hits : List Hit) :
    Tabulates has hits (tally (hits.flatMap f)) where
  items item := by
    rw [mem_keys_tally, List.mem_flatMap]
    simp only [hmem]
  distinct := nodup_keys_tally _
  counted item count h := by
    rw [((mem_tally_iff _ _ _).mp h).2, count_flatMap_eq_countP hnodup]
    simp only [hmem]

/-- The order of a table does not matter. -/
theorem Tabulates.of_perm (h : Tabulates has hits table) (hperm : other.Perm table) :
    Tabulates has hits other where
  items item := (hperm.map Prod.fst).mem_iff.trans (h.items item)
  distinct := (hperm.map Prod.fst).nodup_iff.mpr h.distinct
  counted item count hmem := h.counted item count (hperm.mem_iff.mp hmem)

/-- The entries of a table are the items that some hit has, each with the number of hits that have
    it. -/
theorem Tabulates.mem_iff (h : Tabulates has hits table) {item : α} {count : Nat} :
    (item, count) ∈ table
      ↔ (∃ hit ∈ hits, has hit item) ∧ count = hits.countP fun hit => has hit item := by
  rw [← h.items]
  constructor
  · exact fun hmem => ⟨List.mem_map_of_mem hmem, h.counted item count hmem⟩
  · rintro ⟨hitem, rfl⟩
    rcases List.mem_map.mp hitem with ⟨⟨_, count⟩, hmem, rfl⟩
    rwa [h.counted _ _ hmem] at hmem

/-- There is one table, up to its order. -/
theorem Tabulates.perm (h : Tabulates has hits table) (hother : Tabulates has hits other) :
    table.Perm other := by
  rw [List.perm_ext_iff_of_nodup h.distinct.of_map hother.distinct.of_map]
  rintro ⟨item, count⟩
  rw [h.mem_iff, hother.mem_iff]

end Tables

end DocSearch
