import DocSearch.Proofs.Document.Endings
import DocSearch.Proofs.Relevance.Scoping
import Mathlib.Data.List.Nodup

/-!
# Copy Targets

What a copy target stands for.

Fields say where their values are copied to, and asking for a target is supposed to be asking for
the fields that name it: each of them, in order, and each of them once. A field that was read twice
would count double in every score, and nothing would tell.

The fields that list a target are found by going through the mappings, which are in key order, so
they ascend and none is missed. But a field is taken up for every time that it lists the target. A
list of targets is what a client wrote, and nothing keeps a client from writing one target down
twice. Then the field is a source twice, and its values are there twice.

There is a second way for a target to stand for something else. Reading takes the `.keyword` ending
off before it looks for the target, and the mappings are searched for the target as it is written.
So what is copied to a name that has the ending is listed under that name and read by nobody.

## Main definitions

* `Schema.CopiesTo`: A mapped field lists a target.
* `Schema.timesListed`: How often it does.
* `Schema.MeansSources`: A target stands for the fields that list it.
* `Schema.ListedOnce`, `Schema.ReadAsListed`: What keeps it from standing for anything else.

## Theorems

* `copySources?_eq_some_iff`, `copySources?_eq_none_iff`: The sources of a target.
* `count_listings`: A field is a source as often as it lists the target.
* `copied_twice_read_twice`: A target that is listed twice, and one with the ending.
* `means_sources_iff`: Which targets stand for the fields that list them.
-/

namespace DocSearch

namespace Schema

variable {schema : Schema} {target field : String} {sources : List String}

/-- A mapped field lists a target. -/
def CopiesTo (schema : Schema) (field target : String) : Prop :=
  ∃ mapping, schema.field? field = some mapping ∧ target ∈ mapping.copyTo

/-- How often a field lists a target. -/
def timesListed (schema : Schema) (target field : String) : Nat :=
  ((schema.field? field).map fun mapping => mapping.copyTo.count target).getD 0

/-- The fields that list a target, each as often as it lists it. -/
def listings (schema : Schema) (target : String) : List String :=
  schema.mappings.flatMap fun entry => List.replicate (entry.2.copyTo.count target) entry.1

/-- A field copies to a target if it lists it at least once. -/
theorem copiesTo_iff : schema.CopiesTo field target ↔ 0 < schema.timesListed target field := by
  unfold CopiesTo timesListed
  cases schema.field? field with
  | none => simp
  | some mapping => simp [List.count_pos_iff]

/-! ### The sources of a target -/

/-- The copies to a target are the fields that list it, as often as they do. -/
theorem map_snd_copies (schema : Schema) (target : String) :
    (schema.copies.filter fun copy => copy.1 = target).map Prod.snd = schema.listings target := by
  rw [copies, List.filter_flatMap, List.map_flatMap, listings]
  refine List.flatMap_congr fun entry _ => ?_
  -- A field next to all its targets is next to the one as often as it lists it.
  rw [List.filter_map, List.map_map]
  refine List.eq_replicate_iff.mpr ⟨?_, fun source hsource => ?_⟩
  · rw [List.length_map, List.count_eq_length_filter]
    rfl
  · rcases List.mem_map.mp hsource with ⟨_, _, rfl⟩
    rfl

/-- A path is no target if no field lists it. -/
theorem copySources?_eq_none_iff :
    schema.copySources? target = none ↔ schema.listings target = [] := by
  rw [← map_snd_copies, copySources?]
  cases schema.copies.filter fun copy => copy.1 = target with
  | nil => simp
  | cons copy rest => simp

/-- If there are listings, they are the sources. -/
theorem copySources?_eq_some_iff :
    schema.copySources? target = some sources
      ↔ sources ≠ [] ∧ schema.listings target = sources := by
  rw [← map_snd_copies, copySources?]
  cases schema.copies.filter fun copy => copy.1 = target with
  | nil => simp [eq_comm]
  | cons copy rest =>
    simp only [Option.some.injEq, iff_and_self]
    rintro rfl
    simp

/-- The sources of a target ascend. -/
theorem pairwise_listings (hordered : Keyed.Ordered schema.mappings) (target : String) :
    (schema.listings target).Pairwise fun a b => (String.compare a b).isLE = true := by
  rw [listings, List.pairwise_flatMap]
  refine ⟨fun entry _ => List.pairwise_replicate.mpr (.inr ?_), hordered.imp ?_⟩
  · rw [Keyed.compare_eq_iff.mpr rfl]
    rfl
  · intro a b hlt x hx y hy
    rw [List.eq_of_mem_replicate hx, List.eq_of_mem_replicate hy, hlt]
    rfl

/-- A field is a source as often as it lists the target. By induction on the mappings, of which one
    at most is that of the field. -/
theorem count_listings (hordered : Keyed.Ordered schema.mappings) (target field : String) :
    (schema.listings target).count field = schema.timesListed target field := by
  have hnodup := Keyed.nodup_keys_of_ordered hordered
  unfold listings timesListed field?
  generalize schema.mappings = mappings at hnodup
  induction mappings with
  | nil => rfl
  | cons entry rest ih =>
    rcases entry with ⟨key, mapping⟩
    rw [Keyed.keys_cons, List.nodup_cons] at hnodup
    rw [List.flatMap_cons, List.count_append, ih hnodup.2, List.count_replicate, Keyed.get?]
    -- A field has one mapping, so all its mentions are in one place.
    by_cases hkey : key = field
    · have hrest : Keyed.get? field rest = none :=
        (Keyed.get?_eq_none_iff field rest).mpr (hkey ▸ hnodup.1)
      simp [hkey, hrest]
    · simp [hkey]

/-- The fields that list a target are those that copy to it. -/
theorem mem_listings_iff (hordered : Keyed.Ordered schema.mappings) :
    field ∈ schema.listings target ↔ schema.CopiesTo field target := by
  rw [copiesTo_iff, ← count_listings hordered, List.count_pos_iff]

/-! ### What a target stands for -/

/-- A target stands for the fields that list it. If there are none, it has no sources. If there are
    some, these are its sources, in strictly ascending order, and reading it gives the values of
    each of them once. -/
structure MeansSources (schema : Schema) (target : String) : Prop where
  absent : schema.copySources? target = none ↔ ∀ field, ¬ schema.CopiesTo field target
  ascending : ∀ sources, schema.copySources? target = some sources →
    sources.Pairwise fun a b => String.compare a b = .lt
  precise : ∀ sources, schema.copySources? target = some sources →
    ∀ field, field ∈ sources ↔ schema.CopiesTo field target
  reads : ∀ sources, schema.copySources? target = some sources →
    ∀ document, (schema.resolve document target).Perm (sources.flatMap (Path.valuesAt document))

/-- No field lists the target twice. -/
def ListedOnce (schema : Schema) (target : String) : Prop :=
  ∀ field, schema.timesListed target field ≤ 1

/-- The paths that are read for a target are its sources, up to their order and one ending each. -/
def ReadAsListed (schema : Schema) (target : String) : Prop :=
  ∀ sources, schema.copySources? target = some sources →
    ((schema.readPaths target).map Path.withoutKeyword).Perm (sources.map Path.withoutKeyword)

/-- An ascending list is strictly ascending if nothing is repeated in it. -/
theorem strictly_ascending_iff {texts : List String}
    (h : texts.Pairwise fun a b => (String.compare a b).isLE = true) :
    (texts.Pairwise fun a b => String.compare a b = .lt) ↔ texts.Nodup := by
  constructor
  · intro hlt
    refine hlt.imp fun {a b} hab heq => ?_
    rw [Keyed.compare_eq_iff.mpr heq] at hab
    exact Ordering.noConfusion hab
  · intro hnodup
    refine (h.and hnodup).imp fun {a b} hab => ?_
    rcases Ordering.isLE_iff_eq_lt_or_eq_eq.mp hab.1 with hlt | heq
    · exact hlt
    · exact absurd (Keyed.compare_eq_iff.mp heq) hab.2

/-- The sources ascend strictly exactly if no field is one of them twice. -/
theorem listedOnce_iff (hordered : Keyed.Ordered schema.mappings) :
    schema.ListedOnce target
      ↔ ∀ sources, schema.copySources? target = some sources →
          sources.Pairwise fun a b => String.compare a b = .lt := by
  have hnodup : schema.ListedOnce target ↔ (schema.listings target).Nodup := by
    rw [List.nodup_iff_count_le_one, ListedOnce]
    simp only [count_listings hordered]
  -- The listings ascend in any case, since the mappings are visited in order. Without repetitions
  -- they ascend strictly.
  rw [hnodup, ← strictly_ascending_iff (pairwise_listings hordered target)]
  constructor
  · intro hlisted sources hsources
    rwa [← (copySources?_eq_some_iff.mp hsources).2]
  · intro hascending
    by_cases hnone : schema.listings target = []
    · rw [hnone]
      exact List.Pairwise.nil
    · exact hascending _ (copySources?_eq_some_iff.mpr ⟨hnone, rfl⟩)

/-- Reading a target gives the values of its sources in every document exactly if it is read where
    it is listed. -/
theorem readAsListed_iff :
    schema.ReadAsListed target
      ↔ ∀ sources, schema.copySources? target = some sources →
          ∀ document,
            (schema.resolve document target).Perm (sources.flatMap (Path.valuesAt document)) :=
  forall_congr' fun _ => imp_congr_right fun _ => perm_valuesOf_iff.symm

-- Without the ending a target is looked up as it is written.
theorem readPaths_of_not_endsInKeyword (hplain : ¬ Path.EndsInKeyword target)
    (h : schema.copySources? target = some sources) : schema.readPaths target = sources := by
  rw [readPaths, Path.withoutKeyword_of_not_endsInKeyword hplain, h, Option.getD_some]

/-- A path is no target if no field copies to it. -/
theorem absent_iff (hordered : Keyed.Ordered schema.mappings) :
    schema.copySources? target = none ↔ ∀ field, ¬ schema.CopiesTo field target := by
  rw [copySources?_eq_none_iff, List.eq_nil_iff_forall_not_mem]
  simp only [mem_listings_iff hordered]

/-- Books of which the title is copied to one target twice, and the blurb to one with the ending. -/
def shelfTree : Json :=
  .obj
    [("blurb", .obj [("copy_to", .arr [.str "all", .str "blurbs.keyword"]), ("type", .str "text")]),
     ("title", .obj [("copy_to", .arr [.str "all", .str "all"]), ("type", .str "text")])]

/-- What is listed twice is a source twice and read twice, and of what is copied to a name with the
    ending nothing is read. -/
theorem copied_twice_read_twice :
    ∃ schema, ofTree "books" shelfTree = .ok schema
      ∧ (schema.copySources? "all" = some ["blurb", "title", "title"]
        ∧ (schema.resolve (.obj [("title", .str "Dune")]) "all").filterMap Json.asText?
          = ["Dune", "Dune"]
        ∧ ¬ schema.MeansSources "all")
      ∧ schema.copySources? "blurbs.keyword" = some ["blurb"]
      ∧ (schema.resolve (.obj [("blurb", .str "Spice")]) "blurbs.keyword").filterMap Json.asText?
        = []
      ∧ ¬ schema.MeansSources "blurbs.keyword" := by
  refine ⟨_, rfl, ⟨by decide, by decide, fun hmeans => ?_⟩, by decide, by decide, fun hmeans => ?_⟩
  · exact absurd (hmeans.ascending _ rfl) (by decide)
  · have hread := hmeans.reads _ rfl (.obj [("blurb", .str "Spice")])
    exact absurd hread.length_eq (by decide)

/-- A copy target of a schema that comes from a mapping tree and from overrides stands for the
    fields that list it exactly if none of them lists it twice and it is read where it is listed.
    It is, if it does not have the ending. However often they list it, its sources are the fields
    that do, in order, each as often as it does so, and a target without the ending is read at
    each of them in turn. -/
theorem means_sources_iff (hschema : schema.Derived) (target : String) :
    (schema.MeansSources target ↔ schema.ListedOnce target ∧ schema.ReadAsListed target)
      ∧ (¬ Path.EndsInKeyword target → schema.ReadAsListed target)
      ∧ ∀ sources, schema.copySources? target = some sources →
          (sources.Pairwise fun a b => (String.compare a b).isLE = true)
          ∧ (∀ field, sources.count field = schema.timesListed target field)
          ∧ (¬ Path.EndsInKeyword target → ∀ document,
              schema.resolve document target = sources.flatMap (Path.valuesAt document)) := by
  have hordered := mappings_ordered_of_derived hschema
  refine ⟨⟨fun hmeans => ⟨?_, ?_⟩, fun ⟨honce, hread⟩ => ⟨absent_iff hordered, ?_, ?_, ?_⟩⟩, ?_, ?_⟩
  · -- To be ascending and without repetition is to be listed once each.
    exact (listedOnce_iff hordered).mpr hmeans.ascending
  · exact readAsListed_iff.mpr hmeans.reads
  · exact (listedOnce_iff hordered).mp honce
  · intro sources hsources field
    rw [← (copySources?_eq_some_iff.mp hsources).2]
    exact mem_listings_iff hordered
  · exact readAsListed_iff.mp hread
  · intro hplain sources hsources
    rw [readPaths_of_not_endsInKeyword hplain hsources]
  · intro sources hsources
    have hlistings := (copySources?_eq_some_iff.mp hsources).2
    refine ⟨hlistings ▸ pairwise_listings hordered target, fun field => ?_,
      fun hplain document => ?_⟩
    · rw [← hlistings]
      exact count_listings hordered target field
    · rw [resolve, readPaths_of_not_endsInKeyword hplain hsources]
      rfl

/-- On the shelf the blurb is copied to everything once and the title twice, and after the mapping
    of the title is replaced, everything stands for the blurb and the title. -/
theorem means_sources_iff_shelf :
    ∃ schema, ofTree "books" shelfTree = .ok schema
      ∧ ¬ schema.MeansSources "all"
      ∧ (schema.override "title" ⟨.text, ["all"]⟩).MeansSources "all"
      ∧ ¬ (schema.override "title" ⟨.text, ["all"]⟩).MeansSources "blurbs.keyword" := by
  have hread := @Schema.Derived.ofTree "books" shelfTree _ rfl
  have hreplaced := hread.override "title" ⟨.text, ["all"]⟩
  refine ⟨_, rfl, fun hmeans => ?_, ?_, fun hmeans => ?_⟩
  · exact absurd (((means_sources_iff hread "all").1.mp hmeans).1 "title") (by decide)
  · rcases means_sources_iff hreplaced "all" with ⟨hiff, hplain, _⟩
    refine hiff.mpr ⟨?_, hplain (by decide)⟩
    refine (listedOnce_iff (mappings_ordered_of_derived hreplaced)).mpr fun sources hsources => ?_
    cases hsources
    decide
  · exact absurd (((means_sources_iff hreplaced "blurbs.keyword").1.mp hmeans).2 _ rfl) (by decide)

end Schema

end DocSearch
