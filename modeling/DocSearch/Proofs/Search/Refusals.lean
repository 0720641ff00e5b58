import DocSearch.Proofs.Keyed
import DocSearch.Proofs.Search.Run

/-!
# Why a Search Is Refused

A search can be refused at several places, and none of them looks at a document.

The order of the steps makes this worth an argument. The documents of one index are scored
before the query is compiled for the next one, and only then may that index object. The hits
are sorted, a scroll is opened over them and their page is dressed after that, so a step that
could fail there would fail for some contents of the store and not for others, and a client
could learn from an error what it may not read.

What decides is a program of its own, which asks for every index by its name, reads the
keep-alive, and compiles the query under every schema. It sees no document, no setting and no
open scroll, and it refuses exactly what the search refuses, for the same reason. Where two
reasons meet, both take the first. So two stores with the same indexes and schemas refuse the
same requests.

## Main definitions

* `Database.schemaAt`: The schema of an index that has to exist.
* `Database.admission`: What can be refused of a search, without the search.
* `Database.SameSchemas`: Two databases that may differ in all that they hold.

## Theorems

* `hitsOf_eq_error_iff`: Finding hits fails where the query does not compile.
* `search_eq_error_iff`: A search fails where it is not admitted.
* `refusals_ignore_data`: What is held makes no difference.
-/

namespace DocSearch

namespace Search

-- Between two schemas the documents of an index are scored, which cannot fail.
theorem hitsOf_eq_error_iff {query : Query} {indexes : List Index} {error : Error} :
    hitsOf query indexes = .error error
      ↔ (indexes.map Index.schema).mapM (fun schema => query.compile schema) = .error error := by
  induction indexes with
  | nil => simp [hitsOf, pure, Except.pure]
  | cons index rest ih =>
    rw [List.map_cons, Outcome.mapM_cons_eq_error_iff, hitsOf]
    cases hscorer : query.compile index.schema with
    | error refusal => simp
    | ok scorer => simp [Outcome.map_eq_error_iff, ih]

/-- Behind the check of the keep-alive only the query can be refused. -/
theorem run_eq_error_iff {indexes : List Index} {request : SearchRequest} {node : String}
    {scrolls : ScrollTable} {error : Error} :
    (run indexes request node scrolls).1 = .error error
      ↔ checkScroll request = .error error
        ∨ checkScroll request = .ok () ∧ hitsOf request.query indexes = .error error := by
  unfold run
  cases hcheck : checkScroll request with
  | error refusal => simp
  | ok _ =>
    cases hfound : hitsOf request.query indexes with
    | error refusal => simp
    | ok found => simp [openScroll_of_check hcheck, Except.map]

end Search

namespace Database

/-- The schema of an index that has to exist. -/
def schemaAt (db : Database) (name : String) : Except Error Schema :=
  (db.index name).map Index.schema

/-- What can be refused of a search, given the schema of every index: a name that is not in
    use, a keep-alive that cannot be read, and a query that does not compile. -/
def admission (schemaAt : String → Except Error Schema) (names : List String)
    (request : SearchRequest) : Except Error Unit := do
  let schemas ← names.mapM schemaAt
  Search.checkScroll request
  (schemas.mapM fun schema => request.query.compile schema).map fun _ => ()

/-- Two databases with the same configuration and the same indexes, each with the same schema
    in both. Their documents, settings and open scrolls may be different. -/
structure SameSchemas (db other : Database) : Prop where
  config : db.config = other.config
  names : ∀ name, name ∈ db.indexNames ↔ name ∈ other.indexNames
  schemas : ∀ {name index counterpart}, db.index name = .ok index →
    other.index name = .ok counterpart → index.schema = counterpart.schema

variable {db other : Database}

theorem mapM_schemaAt (names : List String) :
    names.mapM db.schemaAt = (names.mapM db.index).map (List.map Index.schema) := by
  induction names with
  | nil => rfl
  | cons name rest ih =>
    rw [List.mapM_cons, List.mapM_cons, ih, schemaAt]
    cases db.index name with
    | error error => rfl
    | ok index =>
      cases rest.mapM db.index with
      | error error => rfl
      | ok indexes => rfl

/-- A search is refused exactly if it is not admitted, and for that reason. -/
theorem search_eq_error_iff {names : List String} {request : SearchRequest} {node : String}
    {error : Error} :
    (db.search names request node).1 = .error error
      ↔ admission db.schemaAt names request = .error error := by
  rw [admission, mapM_schemaAt, Outcome.bind_eq_error_iff, Outcome.map_eq_error_iff, search]
  -- A missing index is reported first, then a bad keep-alive, then a query that does not compile;
  -- none of them is about documents.
  cases names.mapM db.index with
  | error missing => simp [Except.map]
  | ok indexes =>
    simp only [Search.run_eq_error_iff, Search.hitsOf_eq_error_iff, Outcome.map_eq_ok_iff,
      Outcome.bind_eq_error_iff, Outcome.map_eq_error_iff, Except.ok.injEq, reduceCtorEq,
      false_or, exists_eq_left']
    constructor
    · rintro (hcheck | ⟨hcheck, hquery⟩)
      · exact Or.inl hcheck
      · exact Or.inr ⟨(), hcheck, hquery⟩
    · rintro (hcheck | ⟨_, hcheck, hquery⟩)
      · exact Or.inl hcheck
      · exact Or.inr ⟨hcheck, hquery⟩

theorem exists_index_of_mem {name : String} (h : name ∈ db.indexNames) :
    ∃ index, db.index name = .ok index := by
  rw [index]
  cases hget : Keyed.get? name db.indexes with
  | none => exact absurd h ((Keyed.get?_eq_none_iff name db.indexes).mp hget)
  | some index => exact ⟨index, rfl⟩

theorem index_of_notMem {name : String} (h : name ∉ db.indexNames) :
    db.index name = .error (.indexNotFound name) := by
  rw [index, (Keyed.get?_eq_none_iff name db.indexes).mpr h]

-- A name that is not in use in one database is not in use in the other, and both say so with
-- the same words.
theorem schemaAt_eq (h : SameSchemas db other) : db.schemaAt = other.schemaAt := by
  funext name
  rw [schemaAt, schemaAt]
  by_cases hmem : name ∈ db.indexNames
  · rcases exists_index_of_mem hmem with ⟨index, hindex⟩
    rcases exists_index_of_mem ((h.names name).mp hmem) with ⟨counterpart, hcounterpart⟩
    rw [hindex, hcounterpart, Except.map, Except.map, h.schemas hindex hcounterpart]
  · have hother : name ∉ other.indexNames := fun hname => hmem ((h.names name).mpr hname)
    rw [index_of_notMem hmem, index_of_notMem hother]

/-- Which searches are refused, and why, depends on the configuration, the names of the indexes
    and their schemas alone. Of two databases that have these in common, one refuses a search
    exactly if the other does, whatever documents, settings and open scrolls they hold and
    whatever is drawn for a scroll, and both refuse it with the same error. So it is for a request
    that is handed over, and for a body that has to be read as one first. -/
theorem refusals_ignore_data (h : SameSchemas db other) (names : List String)
    (node otherNode : String) :
    (∀ (request : SearchRequest) (error : Error),
        (db.search names request node).1 = .error error
          ↔ (other.search names request otherNode).1 = .error error)
      ∧ ∀ (body : Json) (scroll : Option String) (error : Error),
        (db.searchBody names body scroll node).1 = .error error
          ↔ (other.searchBody names body scroll otherNode).1 = .error error := by
  have hsearch (request : SearchRequest) (error : Error) :
      (db.search names request node).1 = .error error
        ↔ (other.search names request otherNode).1 = .error error := by
    rw [search_eq_error_iff, search_eq_error_iff, schemaAt_eq h]
  refine ⟨hsearch, fun body scroll error => ?_⟩
  rw [searchBody, searchBody, h.config]
  cases SearchRequest.ofJson other.config body with
  | error unread => exact Iff.rfl
  | ok request => exact hsearch _ error

/-- Boats with nested crews, and crews that are texts. -/
def fleet (boats : DocumentTable) (settings : Json) (scrolls : ScrollTable) : Database where
  config := {}
  indexes :=
    [("boats", ⟨"boats", 0, boats, ⟨"boats", [("crew", ⟨.nested, []⟩)], []⟩, settings⟩),
      ("crews", ⟨"crews", 1, .empty, ⟨"crews", [("crew", ⟨.text, []⟩)], []⟩, settings⟩)]
  scrolls

/-- Fleets with any documents, settings and scrolls have the same schemas. -/
theorem sameSchemas_fleet (boats others : DocumentTable) (settings otherSettings : Json)
    (scrolls otherScrolls : ScrollTable) :
    SameSchemas (fleet boats settings scrolls) (fleet others otherSettings otherScrolls) where
  config := rfl
  names _ := Iff.rfl
  schemas := by
    intro name index counterpart hindex hcounterpart
    rw [Database.index, fleet, Keyed.get?, Keyed.get?] at hindex hcounterpart
    by_cases hboats : "boats" = name
    · rw [if_pos hboats] at hindex hcounterpart
      rw [← Except.ok.inj hindex, ← Except.ok.inj hcounterpart]
    · rw [if_neg hboats] at hindex hcounterpart
      by_cases hcrews : "crews" = name
      · rw [if_pos hcrews] at hindex hcounterpart
        rw [← Except.ok.inj hindex, ← Except.ok.inj hcounterpart]
      · rw [if_neg hcrews] at hindex
        exact absurd hindex (by simp)

/-- The second index objects to a nested query that the first one accepts. It does so after a boat
    was found, and it does so where there are no boats. -/
theorem refusals_ignore_data_crew :
    let request : SearchRequest := { query := .nested "crew" .all, scroll := some "1m" }
    let boats := (DocumentTable.empty.put "1" (.obj [("crew", .arr [])])).2
    let full := fleet boats (.bool true) (.ofCapacity 20)
    let bare := fleet .empty (.obj []) (.ofCapacity 0)
    SameSchemas full bare
      ∧ (bare.search ["boats", "crews"] request "n").1 = .error (.notNested "crew")
      ∧ (full.search ["boats", "crews"] request "m").1 = .error (.notNested "crew") := by
  have hsame := sameSchemas_fleet
    (DocumentTable.empty.put "1" (.obj [("crew", .arr [])])).2 .empty (.bool true) (.obj [])
    (.ofCapacity 20) (.ofCapacity 0)
  refine ⟨hsame, rfl, ?_⟩
  exact ((refusals_ignore_data hsame ["boats", "crews"] "m" "n").1 _ _).mpr rfl

end Database

end DocSearch
