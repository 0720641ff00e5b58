import DocSearch.Proofs.Search.Refusals
import DocSearch.Proofs.Search.Renaming
import DocSearch.Proofs.Store.Coherence

/-!
# Copies of Indexes

A copy of an index answers every search as its original does.

A copy is more than its documents. It takes the schema along, and a query reads the schema at
many places: where a path leads to a copy target, whether a field is nested, which fields a glob
stands for. A copy that had lost its copy targets would find less, and one that kept the old name
in a place where it matters would be highlighted under the wrong mappings. So the argument is in
two parts. What is stored under the new name is the original with its three names changed, and
those names do not matter to a search.

When a copy is made is said without the steps that make it. The original has to exist and its
settings have to block writing, in one of three forms, and the new name has to be free.

## Main definitions

* `Json.BlocksWriting`: The settings under which an index may be copied.

## Theorems

* `isWriteBlocked_iff`: What is asked of the settings.
* `cloneIndex_eq_ok_iff`: When copying succeeds.
* `index_cloneIndex`: What is under the two names then.
* `run_cloneAs_error_iff`, `sameUnder_of_run_cloneAs`: A copy refuses and answers what its
  original does.
* `copy_answers_alike`: Copies answer alike.
-/

namespace DocSearch

/-- Some settings block writing: one of three members is on, as a boolean or as a text. -/
def Json.BlocksWriting (settings : Json) : Prop :=
  ∃ value : Json, (value = .bool true ∨ value = .str "true")
    ∧ (settings.get? "index.blocks.write" = some value
      ∨ (∃ index blocks, settings.get? "index" = some index ∧ index.get? "blocks" = some blocks
          ∧ blocks.get? "write" = some value)
      ∨ ∃ blocks, settings.get? "blocks" = some blocks ∧ blocks.get? "write" = some value)

namespace Index

/-- A switch is on when it is `true`, as a truth value or as a text. -/
theorem isOn_iff (value : Json) : isOn value = true ↔ value = .bool true ∨ value = .str "true" := by
  cases value <;> simp [isOn]

/-- A path of settings is followed one member at a time. -/
theorem follow_cons_eq_some_iff {step : String} {rest : List String} {settings value : Json} :
    follow (step :: rest) settings = some value
      ↔ ∃ member, settings.get? step = some member ∧ follow rest member = some value := by
  rw [follow]
  cases settings.get? step with
  | none => simp
  | some member => simp

theorem follow_nil_eq_some_iff {settings value : Json} :
    follow [] settings = some value ↔ settings = value := by
  rw [follow, Option.some.injEq]

theorem any_isOn_iff (found : Option Json) :
    found.any isOn = true
      ↔ ∃ value, (value = .bool true ∨ value = .str "true") ∧ found = some value := by
  cases found with
  | none => simp
  | some value => simp [← isOn_iff]

/-- An index refuses writes when any of the paths its settings may use for the block leads to a
    switch that is on. -/
theorem isWriteBlocked_iff (index : Index) :
    index.isWriteBlocked = true ↔ index.settings.BlocksWriting := by
  simp only [isWriteBlocked, List.any_cons, List.any_nil, Bool.or_false, Bool.or_eq_true,
    any_isOn_iff, ← exists_or, ← and_or_left, follow_cons_eq_some_iff, follow_nil_eq_some_iff,
    exists_eq_right, Json.BlocksWriting, exists_and_left]

end Index

namespace Search

variable {index : Index} (name : String) (identity : Nat) {request : SearchRequest}
  {node otherNode : String} {scrolls : ScrollTable}

/-- A copy refuses what its original refuses, for the same reason. -/
theorem run_cloneAs_error_iff {error : Error} :
    (run [index.cloneAs name identity] request otherNode scrolls).1 = .error error
      ↔ (run [index] request node scrolls).1 = .error error := by
  rw [run_eq_error_iff, run_eq_error_iff, hitsOf_cloneAs, Outcome.map_eq_error_iff]

/-- What a copy answers is what its original answers, under the name of the copy. -/
theorem sameUnder_of_run_cloneAs {results copied : SearchResults}
    (hreads : ¬ request.ReadsIndex)
    (hresults : (run [index] request node scrolls).1 = .ok results)
    (hcopied : (run [index.cloneAs name identity] request otherNode scrolls).1 = .ok copied) :
    results.SameUnder name copied := by
  rcases run_eq_ok_iff.mp hresults with ⟨_, found, hfound, rfl⟩
  rcases run_eq_ok_iff.mp hcopied with ⟨_, others, hothers, rfl⟩
  rw [hitsOf_cloneAs, hfound, Except.map, Except.ok.injEq] at hothers
  rw [← hothers]
  refine resultsOf_cloneAs name identity hreads (fun hit hhit => ?_) _ _
  rw [hitsOf_single] at hfound
  rcases Outcome.map_eq_ok_iff.mp hfound with ⟨scorer, _, hsearch⟩
  exact index_of_mem_search (hsearch ▸ hhit)

end Search

namespace Database

variable {db : Database} {source target : String} {index : Index}

/-- Copying succeeds if the original exists and is blocked for writing, and the new name is
    free. -/
theorem cloneIndex_eq_ok_iff :
    (db.cloneIndex source target).1 = .ok ()
      ↔ ∃ index, db.index source = .ok index ∧ index.isWriteBlocked = true
          ∧ db.indexExists target = false := by
  constructor
  · intro hok
    rcases cloneIndex_cases db source target with ⟨_, hfails⟩ | ⟨index, hindex, hblocked, hfree, -⟩
    · rw [hfails] at hok
      exact absurd hok (by simp)
    · exact ⟨index, hindex, hblocked, hfree⟩
  · rintro ⟨index, hindex, hblocked, hfree⟩
    simp [cloneIndex, hindex, hblocked, hfree]

/-- Behind a copy the original is under its name, and the copy under the new one. -/
theorem index_cloneIndex (hok : (db.cloneIndex source target).1 = .ok ())
    (hindex : db.index source = .ok index) :
    (db.cloneIndex source target).2.index source = .ok index
      ∧ (db.cloneIndex source target).2.index target
        = .ok (index.cloneAs target db.nextIdentity) := by
  rcases cloneIndex_cases db source target with ⟨_, hfails⟩ | ⟨_, hsame, -, hfree, hstored⟩
  · rw [hfails] at hok
    exact absurd hok (by simp)
  · rw [hindex, Except.ok.injEq] at hsame
    subst hsame
    -- The new name was free, so it is not the name of the original.
    have hne : source ≠ target := fun heq => by
      rw [indexExists, Keyed.contains, ← heq, get?_of_index hindex] at hfree
      exact Bool.noConfusion hfree
    rw [hstored]
    exact ⟨(index_store_of_ne hne db _).trans hindex, index_store db target _⟩

/-- A search of one index is the search among the documents of that index alone. -/
theorem search_single (hindex : db.index source = .ok index) (request : SearchRequest)
    (node : String) :
    (db.search [source] request node).1 = (Search.run [index] request node db.scrolls).1 := by
  have hindexes : [source].mapM db.index = .ok [index] :=
    Outcome.mapM_cons_eq_ok_iff.mpr ⟨index, [], hindex, rfl, rfl⟩
  rw [search, hindexes]

/-- An index is copied exactly if it exists, its settings block writing, and the new name is free.
    Original and copy then have the documents, mappings and settings that the original had. And
    they answer alike: a search of the one is refused exactly if the search of the other is, with
    the same error, and if not, the two have the same total, best score, aggregations and hits, but
    for the name that the hits carry. That holds of every request without an aggregation over the
    name. -/
theorem copy_answers_alike (db : Database) (source target : String) :
    ((db.cloneIndex source target).1 = .ok ()
        ↔ (∃ settings, db.settings source = .ok settings ∧ settings.BlocksWriting)
          ∧ db.indexExists target = false)
      ∧ ((db.cloneIndex source target).1 = .ok () →
        (∃ documents mappings settings,
          db.documents source = .ok documents ∧ db.mappings source = .ok mappings
            ∧ db.settings source = .ok settings
            ∧ ∀ name ∈ [source, target],
              (db.cloneIndex source target).2.documents name = .ok documents
                ∧ (db.cloneIndex source target).2.mappings name = .ok mappings
                ∧ (db.cloneIndex source target).2.settings name = .ok settings)
        ∧ ∀ (request : SearchRequest) (node otherNode : String), ¬ request.ReadsIndex →
          (∀ error,
            ((db.cloneIndex source target).2.search [target] request otherNode).1 = .error error
              ↔ ((db.cloneIndex source target).2.search [source] request node).1 = .error error)
          ∧ ∀ results copied,
            ((db.cloneIndex source target).2.search [source] request node).1 = .ok results →
            ((db.cloneIndex source target).2.search [target] request otherNode).1 = .ok copied →
            results.SameUnder target copied) := by
  constructor
  · -- When the copy succeeds.
    rw [cloneIndex_eq_ok_iff]
    simp only [settings, Outcome.map_eq_ok_iff, Index.isWriteBlocked_iff]
    constructor
    · rintro ⟨index, hindex, hblocks, hfree⟩
      exact ⟨⟨index.settings, ⟨index, hindex, rfl⟩, hblocks⟩, hfree⟩
    · rintro ⟨⟨_, ⟨index, hindex, rfl⟩, hblocks⟩, hfree⟩
      exact ⟨index, hindex, hblocks, hfree⟩
  · -- What can be read from the copy: both names lead to an index with the same contents, so each
    -- reading of one is the reading of the other.
    intro hok
    rcases cloneIndex_eq_ok_iff.mp hok with ⟨index, hindex, _, _⟩
    rcases index_cloneIndex hok hindex with ⟨hsource, htarget⟩
    refine ⟨⟨index.documents.toList, index.schema.toTree, index.settings, ?_, ?_, ?_, ?_⟩, ?_⟩
    · rw [documents, hindex, Except.map]
    · rw [mappings, hindex, Except.map]
    · rw [settings, hindex, Except.map]
    · intro name hname
      simp only [List.mem_cons, List.not_mem_nil, or_false] at hname
      simp only [documents, mappings, settings]
      rcases hname with rfl | rfl
      · rw [hsource]
        exact ⟨rfl, rfl, rfl⟩
      · rw [htarget]
        exact ⟨rfl, rfl, rfl⟩
    · intro request node otherNode hreads
      rw [search_single hsource, search_single htarget]
      exact ⟨fun error => Search.run_cloneAs_error_iff _ _, fun results copied hresults hcopied =>
        Search.sameUnder_of_run_cloneAs _ _ hreads hresults hcopied⟩

/-- A search for a word in a copy target, with snippets in the field that is copied, and with an
    aggregation over it. -/
def yachtRequest : SearchRequest :=
  { query := .matching "all" "sea"
    aggregations := [("names", .terms ⟨"name", 10⟩)]
    sort := [⟨"name", .descending⟩]
    highlight := some { fields := ["a*"] }
    scroll := some "1m" }

theorem not_readsIndex_yachtRequest : ¬ yachtRequest.ReadsIndex := by
  rintro ⟨entry, hentry, hreads⟩
  rw [List.mem_singleton.mp hentry] at hreads
  have hname : "name" = indexField := hreads
  exact absurd hname (by decide)

/-- The boats may be copied, and under the new name the same boat is found. -/
theorem copy_answers_alike_yachts :
    let db := (empty {}).after launch
    let cloned := (db.cloneIndex "boats" "yachts").2
    (db.cloneIndex "boats" "yachts").1 = .ok ()
      ∧ ∃ results copied, (cloned.search ["boats"] yachtRequest "a").1 = .ok results
        ∧ (cloned.search ["yachts"] yachtRequest "b").1 = .ok copied
        ∧ results.SameUnder "yachts" copied ∧ copied.totalHits = 1 := by
  intro db cloned
  have hcopies := copy_answers_alike db "boats" "yachts"
  have hok : (db.cloneIndex "boats" "yachts").1 = .ok () :=
    hcopies.1.mpr ⟨⟨_, rfl, .bool true, Or.inl rfl, Or.inl rfl⟩, rfl⟩
  refine ⟨hok, _, _, rfl, rfl, ?_, ?_⟩
  · exact ((hcopies.2 hok).2 yachtRequest "a" "b" not_readsIndex_yachtRequest).2 _ _ rfl rfl
  · exact (List.length_mergeSort _).trans (by decide)

end Database

end DocSearch
