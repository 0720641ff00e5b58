import DocSearch.Proofs.Outcome
import DocSearch.Store.Database

/-!
# What a Search Does

One lemma for a search that succeeds, so that nothing else has to look into its steps.

A search succeeds exactly when its keep-alive can be read, every index exists, and the query
can be compiled for every one of them. Then its answer is one function of the hits that were
found, and so is the scroll that it leaves behind, if it was asked for one.

## Main definitions

* `Search.openedCursor?`: The scroll that a request leaves behind.

## Theorems

* `run_eq_ok_iff`: When running a search succeeds, and with what.
* `scrolls_run_of_ok`: The scrolls after a search that succeeded.
* `scrolls_run_of_error`: The scrolls after one that did not.
* `search_eq_ok_iff`: When a search of a database succeeds, and with what.
* `scrolls_search_of_scroll`, `scrolls_search_of_no_scroll`, `scrolls_search_of_error`: The
  scrolls after it.
-/

namespace DocSearch

namespace Search

/-- The cursor that a request opens over a sorted list. -/
def openedCursor? (request : SearchRequest) (sorted : List Hit) : Option Cursor :=
  request.scroll.bind fun keepAlive =>
    (Duration.ofText keepAlive).toOption.map fun duration =>
      ⟨sorted, advancePlace request.start request.size, request.size, duration⟩

/-- A request that passed the check opens its scroll. -/
theorem openScroll_of_check {request : SearchRequest} (hcheck : checkScroll request = .ok ())
    (sorted : List Hit) (node : String) (scrolls : ScrollTable) :
    openScroll request sorted node scrolls
      = (.ok (request.scroll.map fun _ => ScrollId.encode node),
          match openedCursor? request sorted with
          | some cursor => scrolls.push node cursor
          | none => scrolls) := by
  unfold openScroll openedCursor?
  unfold checkScroll at hcheck
  cases hscroll : request.scroll with
  | none => rfl
  | some keepAlive =>
    -- The keep-alive was checked before the search, so it is read again without fail.
    cases hduration : Duration.ofText keepAlive with
    | error error =>
      simp only [hscroll, hduration, Except.map] at hcheck
      exact absurd hcheck (by simp)
    | ok duration =>
      simp only [ScrollTable.openAt, hduration, Option.bind_some, Except.toOption,
        Option.map_some, Except.map]

/-- When running a search succeeds, and with what. -/
theorem run_eq_ok_iff {indexes : List Index} {request : SearchRequest} {node : String}
    {scrolls : ScrollTable} {results : SearchResults} :
    (run indexes request node scrolls).1 = .ok results
      ↔ checkScroll request = .ok () ∧ ∃ found, hitsOf request.query indexes = .ok found
          ∧ results = resultsOf indexes request found (sortHits request.sort found)
              (request.scroll.map fun _ => ScrollId.encode node) := by
  unfold run
  cases hcheck : checkScroll request with
  | error error => simp
  | ok _ =>
    cases hfound : hitsOf request.query indexes with
    | error error => simp
    | ok found =>
      simp only [openScroll_of_check hcheck, Except.map, Except.ok.injEq, true_and,
        exists_eq_left']
      exact eq_comm

/-- The scrolls after a search that succeeded. -/
theorem scrolls_run_of_ok {indexes : List Index} {request : SearchRequest} {node : String}
    {scrolls : ScrollTable} {found : List Hit} (hcheck : checkScroll request = .ok ())
    (hfound : hitsOf request.query indexes = .ok found) :
    (run indexes request node scrolls).2
      = match openedCursor? request (sortHits request.sort found) with
        | some cursor => scrolls.push node cursor
        | none => scrolls := by
  unfold run
  simp only [hcheck, hfound, openScroll_of_check hcheck]

/-- The scrolls after a search that did not succeed. -/
theorem scrolls_run_of_error {indexes : List Index} {request : SearchRequest} {node : String}
    {scrolls : ScrollTable} {error : Error}
    (h : (run indexes request node scrolls).1 = .error error) :
    (run indexes request node scrolls).2 = scrolls := by
  unfold run at h ⊢
  cases hcheck : checkScroll request with
  | error error => rfl
  | ok _ =>
    cases hfound : hitsOf request.query indexes with
    | error error => rfl
    | ok found =>
      simp only [hcheck, hfound, openScroll_of_check hcheck, Except.map] at h
      exact absurd h (by simp)

end Search

namespace Database

/-- When a search of a database succeeds, and with what. -/
theorem search_eq_ok_iff {db : Database} {names : List String} {request : SearchRequest}
    {node : String} {results : SearchResults} :
    (db.search names request node).1 = .ok results
      ↔ ∃ indexes found, names.mapM db.index = .ok indexes
          ∧ Search.checkScroll request = .ok ()
          ∧ Search.hitsOf request.query indexes = .ok found
          ∧ results = Search.resultsOf indexes request found (sortHits request.sort found)
              (request.scroll.map fun _ => ScrollId.encode node) := by
  unfold search
  cases hindexes : names.mapM db.index with
  | error error => simp
  | ok indexes =>
    -- The indexes are those that were found, so no others have to be looked for.
    simp only [Search.run_eq_ok_iff, Except.ok.injEq, exists_eq_left', exists_and_left]

/-- The scrolls after a search of a database that succeeded without opening one. -/
theorem scrolls_search_of_no_scroll {db : Database} {names : List String}
    {request : SearchRequest} {node : String} {results : SearchResults}
    (hok : (db.search names request node).1 = .ok results) (hscroll : request.scroll = none) :
    (db.search names request node).2.scrolls = db.scrolls := by
  rcases search_eq_ok_iff.mp hok with ⟨indexes, found, hindexes, hcheck, hfound, _⟩
  unfold search
  simp only [hindexes, Search.scrolls_run_of_ok hcheck hfound, Search.openedCursor?, hscroll,
    Option.bind_none]

/-- The scrolls after a search of a database that opened one. -/
theorem scrolls_search_of_scroll {db : Database} {names : List String}
    {request : SearchRequest} {node : String} {results : SearchResults} {keepAlive : String}
    (hok : (db.search names request node).1 = .ok results)
    (hscroll : request.scroll = some keepAlive) :
    ∃ indexes found duration, names.mapM db.index = .ok indexes
      ∧ Search.hitsOf request.query indexes = .ok found
      ∧ (db.search names request node).2.scrolls
          = db.scrolls.push node ⟨sortHits request.sort found,
              advancePlace request.start request.size, request.size, duration⟩ := by
  rcases search_eq_ok_iff.mp hok with ⟨indexes, found, hindexes, hcheck, hfound, _⟩
  have hread := hcheck
  unfold Search.checkScroll at hread
  simp only [hscroll] at hread
  rcases Outcome.map_eq_ok_iff.mp hread with ⟨duration, hduration, _⟩
  refine ⟨indexes, found, duration, hindexes, hfound, ?_⟩
  unfold search
  simp only [hindexes, Search.scrolls_run_of_ok hcheck hfound, Search.openedCursor?, hscroll,
    hduration, Option.bind_some, Except.toOption, Option.map_some]

/-- The scrolls after a search of a database that did not succeed. -/
theorem scrolls_search_of_error {db : Database} {names : List String}
    {request : SearchRequest} {node : String} {error : Error}
    (h : (db.search names request node).1 = .error error) :
    (db.search names request node).2.scrolls = db.scrolls := by
  unfold search at h ⊢
  cases hindexes : names.mapM db.index with
  | error error => rfl
  | ok indexes =>
    simp only [hindexes] at h
    exact Search.scrolls_run_of_error h

end Database

end DocSearch
