import DocSearch.Proofs.Hit.Order
import DocSearch.Proofs.Search.Pages
import DocSearch.Proofs.Search.Run
import DocSearch.Proofs.Store.Reachable

/-!
# What a Search Finds

A search finds what it should, counts it, and hands it out page by page.

What it should find can be said without saying how it is found: of every index in the list,
in the order of the list, the documents whose score is above zero, in the order in which the
index keeps them. Everything in the answer is a function of that list. The total is its
length. The aggregations are those of the whole list, before it is sorted or cut. The page
is a piece of the list sorted stably. What is shown of a hit on the page is decided last:
its snippets come from the document as it was found, under the schema of the index it was
found in, and only then is the document reduced to the part that was asked for.

That the schema is the right one is not plain. The search looks it up by the name that the
hit carries, among the indexes of the list, where an index may stand more than once. In a
reachable database an index carries the name it is kept under, so all indexes of one name in
the list are the same index.

## Main definitions

* `Index.finds`, `Database.finds`: What should be found.
* `Database.Searchable`: All indexes exist, and the query compiles for each.
* `Database.snippetsOf?`: The snippets a hit should have.
* `Database.ranks`: The same in the order of a sort.
* `Database.labelsOf`: The labels on a page, if there is one.

## Theorems

* `hitsOf_of_searchable`, `eq_finds_of_hitsOf`: What should be found is found, and nothing
  else.
* `schemaOf?_of_mem`: The schema that is looked up is that of the index.
* `dress_of_mem`: What is shown of a hit.
* `search_finds`: The answer to a search.
-/

namespace DocSearch

/-- The documents of an index that a query finds, in the order of the index, as hits under a
    name. There are none if the query does not compile. -/
def Index.finds (index : Index) (name : String) (query : Query) : List Hit :=
  match query.compile index.schema with
  | .error _ => []
  | .ok scorer =>
    (index.documents.toList.filter fun entry => 0.0 < scorer.score entry.2).map fun entry =>
      { index := name, id := entry.1, score := scorer.score entry.2, source := some entry.2 }

namespace Database

/-- The documents that a query finds in some indexes, one index after another. -/
def finds (db : Database) (query : Query) (names : List String) : List Hit :=
  names.flatMap fun name =>
    match db.index name with
    | .error _ => []
    | .ok index => index.finds name query

/-- What a query finds, in the order of a sort. -/
def ranks (db : Database) (query : Query) (keys : List SortKey) (names : List String) :
    List Hit :=
  sortHits keys (db.finds query names)

/-- All indexes of a list exist, and a query compiles under the schema of each. -/
def Searchable (db : Database) (query : Query) (names : List String) : Prop :=
  ∀ name ∈ names, ∃ index scorer,
    db.index name = .ok index ∧ query.compile index.schema = .ok scorer

/-- The snippets a hit should have: those of its document as it was found, under the schema
    of the index it was found in. -/
def snippetsOf? (db : Database) (query : Query) (request : Option HighlightRequest)
    (hit : Hit) : Option Highlights :=
  match request, db.index hit.index, hit.source with
  | some request, .ok index, some document =>
    match highlightsOf query request index.schema document with
    | [] => none
    | snippets => some snippets
  | _, _, _ => none

/-- The labels of the hits on a page, if the search succeeded. -/
def labelsOf (outcome : Except Error SearchResults × Database) :
    List (String × String × Float) :=
  match outcome.1 with
  | .error _ => []
  | .ok results => results.hits.map Hit.label

end Database

/-! ### Finding -/

-- The loop over the documents keeps and dresses in one step what is said here in two.
theorem search_eq_finds {index : Index} {name : String} {query : Query} {scorer : Scorer}
    (hname : index.name = name) (hscorer : query.compile index.schema = .ok scorer) :
    index.search scorer = index.finds name query := by
  subst hname
  unfold Index.search Index.finds
  simp only [hscorer]
  induction index.documents.toList with
  | nil => rfl
  | cons entry rest ih =>
    rcases entry with ⟨id, document⟩
    -- A document is kept on both sides or on neither.
    by_cases h : 0.0 < scorer.score document
    · simp only [List.filterMap_cons, List.filter_cons, gt_iff_lt, h, if_true, decide_true,
        List.map_cons]
      exact congrArg _ ih
    · simp only [List.filterMap_cons, List.filter_cons, gt_iff_lt, h, if_false, decide_false]
      exact ih

namespace Database

variable {db : Database} {query : Query}

-- The indexes of the list are the ones that are kept under its names, and what is found in
-- them is what should be found. The induction is on the list of names.
theorem hitsOf_of_searchable (hnamed : db.Named) {names : List String}
    (hsearchable : db.Searchable query names) :
    ∃ indexes, names.mapM db.index = .ok indexes
      ∧ Search.hitsOf query indexes = .ok (db.finds query names)
      ∧ (∀ index ∈ indexes, db.index index.name = .ok index)
      ∧ ∀ name ∈ names, ∃ index ∈ indexes, index.name = name := by
  induction names with
  | nil =>
    exact ⟨[], rfl, rfl, fun _ h => absurd h List.not_mem_nil,
      fun _ h => absurd h List.not_mem_nil⟩
  | cons name rest ih =>
    rcases hsearchable name List.mem_cons_self with ⟨index, scorer, hindex, hscorer⟩
    rcases ih fun other hother => hsearchable other (List.mem_cons_of_mem _ hother) with
      ⟨indexes, hindexes, hfound, hkept, hall⟩
    have hname := hnamed name index hindex
    refine ⟨index :: indexes, ?_, ?_, ?_, ?_⟩
    · exact Outcome.mapM_cons_eq_ok_iff.mpr ⟨index, indexes, hindex, hindexes, rfl⟩
    · -- The hits of the first index come before those of the others.
      have hfinds : db.finds query (name :: rest)
          = index.finds name query ++ db.finds query rest := by
        rw [finds, List.flatMap_cons, hindex]
        rfl
      simp only [Search.hitsOf, hscorer, hfound, hfinds, search_eq_finds hname hscorer,
        Except.map]
    · intro other hother
      rcases List.mem_cons.mp hother with rfl | hother
      · rw [hname]
        exact hindex
      · exact hkept other hother
    · intro other hother
      rcases List.mem_cons.mp hother with rfl | hother
      · exact ⟨index, List.mem_cons_self, hname⟩
      · rcases hall other hother with ⟨found, hmem, hfoundName⟩
        exact ⟨found, List.mem_cons_of_mem _ hmem, hfoundName⟩

-- The other way round, finding anything means that the list can be searched.
theorem searchable_of_hitsOf {names : List String} {indexes : List Index} {found : List Hit}
    (hindexes : names.mapM db.index = .ok indexes)
    (hfound : Search.hitsOf query indexes = .ok found) : db.Searchable query names := by
  induction names generalizing indexes found with
  | nil => exact fun _ h => absurd h List.not_mem_nil
  | cons name rest ih =>
    rcases Outcome.mapM_cons_eq_ok_iff.mp hindexes with ⟨index, others, hindex, hothers, rfl⟩
    rw [Search.hitsOf] at hfound
    -- Nothing would have been found at all had the query not compiled for this index.
    cases hscorer : query.compile index.schema with
    | error error =>
      rw [hscorer] at hfound
      exact absurd hfound (by simp)
    | ok scorer =>
      rw [hscorer] at hfound
      rcases Outcome.map_eq_ok_iff.mp hfound with ⟨more, hmore, _⟩
      intro other hother
      rcases List.mem_cons.mp hother with rfl | hother
      · exact ⟨index, scorer, hindex, hscorer⟩
      · exact ih hothers hmore other hother

/-- Whatever is found is what should be found: the list can be searched, so both are the outcome of
    one search. -/
theorem eq_finds_of_hitsOf (hnamed : db.Named) {names : List String} {indexes : List Index}
    {found : List Hit} (hindexes : names.mapM db.index = .ok indexes)
    (hfound : Search.hitsOf query indexes = .ok found) : found = db.finds query names := by
  rcases hitsOf_of_searchable hnamed (searchable_of_hitsOf hindexes hfound) with
    ⟨others, hothers, hfinds, _⟩
  rw [hindexes, Except.ok.injEq] at hothers
  rw [← hothers, hfound, Except.ok.injEq] at hfinds
  exact hfinds

-- A hit is found under a name of the list, in a row of the index there, and without snippets.
theorem of_mem_finds {names : List String} {hit : Hit} (h : hit ∈ db.finds query names) :
    hit.index ∈ names ∧ hit.highlight = none
      ∧ ∃ index document, db.index hit.index = .ok index
          ∧ (hit.id, document) ∈ index.documents.toList ∧ hit.source = some document := by
  rcases List.mem_flatMap.mp h with ⟨name, hname, hhit⟩
  -- An index that is missing, or for which the query does not compile, contributes no hit.
  cases hindex : db.index name with
  | error error =>
    simp only [hindex] at hhit
    exact absurd hhit List.not_mem_nil
  | ok index =>
    simp only [hindex, Index.finds] at hhit
    cases hscorer : query.compile index.schema with
    | error error =>
      simp only [hscorer] at hhit
      exact absurd hhit List.not_mem_nil
    | ok scorer =>
      simp only [hscorer] at hhit
      rcases List.mem_map.mp hhit with ⟨entry, hentry, rfl⟩
      exact ⟨hname, rfl, index, entry.2, hindex, (List.mem_filter.mp hentry).1, rfl⟩

/-! ### Showing -/

-- Of several indexes with one name the last would count, but they are all the same.
theorem schemaOf?_of_mem {indexes : List Index}
    (hkept : ∀ index ∈ indexes, db.index index.name = .ok index) {index : Index}
    (hmem : index ∈ indexes) :
    Search.schemaOf? indexes index.name = some index.schema := by
  unfold Search.schemaOf?
  cases hfind : indexes.reverse.find? fun other => other.name = index.name with
  | none =>
    have hnone := List.find?_eq_none.mp hfind index (List.mem_reverse.mpr hmem)
    exact absurd rfl (of_decide_eq_false (Bool.eq_false_iff.mpr hnone))
  | some other =>
    have hsame := List.find?_some hfind
    have hname : other.name = index.name := of_decide_eq_true hsame
    have hother := hkept other (List.mem_reverse.mp (List.mem_of_find?_eq_some hfind))
    rw [hname, hkept index hmem, Except.ok.injEq] at hother
    rw [Option.map_some, hother]

-- What is shown of a hit: the snippets it should have, and the part of its document that was
-- asked for.
theorem dress_of_mem {indexes : List Index} {names : List String}
    (hkept : ∀ index ∈ indexes, db.index index.name = .ok index)
    (hall : ∀ name ∈ names, ∃ index ∈ indexes, index.name = name) {request : SearchRequest}
    {hit : Hit} (hhit : hit ∈ db.finds request.query names) :
    Search.dress indexes request hit
      = { hit with
          source := hit.source.bind request.source.apply
          highlight := db.snippetsOf? request.query request.highlight hit } := by
  rcases of_mem_finds hhit with ⟨hname, hnone, _⟩
  rcases hall _ hname with ⟨index, hmem, hindex⟩
  -- The schema the hit is looked up with is that of the index it came from.
  have hschema := schemaOf?_of_mem hkept hmem
  have hstored := hkept index hmem
  rw [hindex] at hschema hstored
  unfold Search.dress Search.highlightHit snippetsOf?
  rw [hschema, hstored]
  cases request.highlight with
  | none => simp only [hnone]
  | some asked =>
    cases hsource : hit.source with
    | none => simp only [hsource, hnone]
    | some document =>
      simp only
      cases highlightsOf request.query asked index.schema document with
      | nil => simp only [hsource, hnone]
      | cons first others => rfl

/-! ### The answer -/

-- A search that may succeed does, and its answer is computed from what should be found.
theorem search_of_searchable (hnamed : db.Named) {names : List String}
    {request : SearchRequest} (node : String)
    (hsearchable : db.Searchable request.query names)
    (hcheck : Search.checkScroll request = .ok ()) :
    ∃ results, (db.search names request node).1 = .ok results
      ∧ results.totalHits = (db.finds request.query names).length
      ∧ results.aggregations
          = (if request.aggregations.isEmpty then none
            else some (runAggregations request.aggregations (db.finds request.query names)))
      ∧ results.hits
          = (Search.pageOf request.start request.size
              (db.ranks request.query request.sort names)).map fun hit =>
            { hit with
              source := hit.source.bind request.source.apply
              highlight := db.snippetsOf? request.query request.highlight hit } := by
  rcases hitsOf_of_searchable hnamed hsearchable with ⟨indexes, hindexes, hfound, hkept, hall⟩
  refine ⟨_, search_eq_ok_iff.mpr ⟨indexes, _, hindexes, hcheck, hfound, rfl⟩, ?_, rfl, ?_⟩
  · exact (stablySorted_sortHits request.sort _).perm.length_eq
  · -- The page is cut from what was found, so each hit on it is dressed as it should be.
    refine List.map_congr_left fun hit hhit => dress_of_mem hkept hall ?_
    have hsorted : hit ∈ sortHits request.sort (db.finds request.query names) :=
      List.mem_of_mem_drop (List.mem_of_mem_take hhit)
    exact (stablySorted_sortHits request.sort _).perm.mem_iff.mp hsorted

-- By their labels the hits of an answer are those of a page of the sorted list.
theorem labelsOf_search (hnamed : db.Named) {names : List String}
    {request : SearchRequest} (node : String)
    (hsearchable : db.Searchable request.query names)
    (hcheck : Search.checkScroll request = .ok ()) :
    labelsOf (db.search names request node)
      = (Search.pageOf request.start request.size
          (db.ranks request.query request.sort names)).map Hit.label := by
  rcases search_of_searchable hnamed node hsearchable hcheck with ⟨results, hok, _, _, hhits⟩
  simp only [labelsOf, hok, hhits, List.map_map]
  rfl

-- A search that did succeed could, so this is how it answered.
theorem answer_of_search (hnamed : db.Named) {names : List String} {request : SearchRequest}
    {node : String} {results : SearchResults}
    (hok : (db.search names request node).1 = .ok results) :
    results.totalHits = (db.ranks request.query request.sort names).length
      ∧ results.hits.map Hit.label
          = (Search.pageOf request.start request.size
              (db.ranks request.query request.sort names)).map Hit.label := by
  rcases search_eq_ok_iff.mp hok with ⟨indexes, found, hindexes, hcheck, hfound, hresults⟩
  have hlabels := labelsOf_search hnamed node (searchable_of_hitsOf hindexes hfound) hcheck
  rw [labelsOf, hok] at hlabels
  refine ⟨?_, hlabels⟩
  rw [hresults, ranks, ← eq_finds_of_hitsOf hnamed hindexes hfound]
  rfl

/-- The answer to a search of a reachable database, for any list of indexes that exist and
    any request whose query compiles for them and whose keep-alive, if it has one, can be
    read. The search succeeds. It counts what should be found and aggregates it, however it is
    sorted, cut and shown. What should be found is sorted stably, and the page is the piece of
    it that was asked for, however it is shown. Snippets come from documents as they were
    found, whatever part of them is handed out. And pages of one size in a row are the whole
    sorted list, as soon as there are enough of them. -/
theorem search_finds (config : Config) (history : List Command) {db : Database}
    (hdb : db = (empty config).after history) (names : List String) (request : SearchRequest)
    (node : String) (hsearchable : db.Searchable request.query names)
    (hscroll : ∀ keepAlive, request.scroll = some keepAlive →
      ∃ duration, Duration.ofText keepAlive = .ok duration) :
    (∃ results, (db.search names request node).1 = .ok results
      ∧ results.totalHits = (db.finds request.query names).length
      ∧ results.aggregations
          = (if request.aggregations.isEmpty then none
            else some (runAggregations request.aggregations (db.finds request.query names)))
      ∧ results.hits.map Hit.label
          = (Search.pageOf request.start request.size
              (db.ranks request.query request.sort names)).map Hit.label
      ∧ results.hits.map Hit.highlight
          = (Search.pageOf request.start request.size
              (db.ranks request.query request.sort names)).map
            (db.snippetsOf? request.query request.highlight)
      ∧ results.hits.map Hit.source
          = (Search.pageOf request.start request.size
              (db.ranks request.query request.sort names)).map
            fun hit => hit.source.bind request.source.apply)
    ∧ StablySorted (hitOrder request.sort) (db.finds request.query names)
        (db.ranks request.query request.sort names)
    ∧ ∀ (size count : Nat) (nodes : Nat → String),
        (db.finds request.query names).length ≤ count * size →
        ((List.range count).flatMap fun page =>
            labelsOf (db.search names { request with start := page * size, size } (nodes page)))
          = (db.ranks request.query request.sort names).map Hit.label := by
  have hnamed : db.Named := by
    rw [hdb]
    exact named_after config history
  have hcheck : Search.checkScroll request = .ok () := by
    unfold Search.checkScroll
    cases hkeep : request.scroll with
    | none => rfl
    | some keepAlive =>
      rcases hscroll keepAlive hkeep with ⟨duration, hduration⟩
      simp only [hduration, Except.map]
  have hsorted : StablySorted (hitOrder request.sort) (db.finds request.query names)
      (db.ranks request.query request.sort names) := stablySorted_sortHits request.sort _
  refine ⟨?_, hsorted, fun size count nodes hcount => ?_⟩
  · rcases search_of_searchable hnamed node hsearchable hcheck with
      ⟨results, hok, htotal, haggregations, hhits⟩
    refine ⟨results, hok, htotal, haggregations, ?_, ?_, ?_⟩
    all_goals
      rw [hhits, List.map_map]
      rfl
  · -- Every page is cut from the same list, since only the place and the size differ.
    have hpage : ∀ page, labelsOf (db.search names
          { request with start := page * size, size } (nodes page))
        = (Search.pageOf (0 + page * size) size
            (db.ranks request.query request.sort names)).map Hit.label := by
      intro page
      rw [Nat.zero_add]
      exact @labelsOf_search db hnamed names { request with start := page * size, size }
        (nodes page) hsearchable hcheck
    have henough : (db.ranks request.query request.sort names).length ≤ 0 + count * size := by
      rw [hsorted.perm.length_eq, Nat.zero_add]
      exact hcount
    simp only [hpage]
    rw [← List.map_flatMap, Search.flatMap_pageOf_of_le 0 size count henough, List.drop_zero]

/-- Commands that fill two indexes, of which one has a mapping. -/
def fillHarbour : List Command :=
  [.setMappings "boats" (.obj [("name", .obj [("type", .str "text")])]),
    .put "boats" "1" (.obj [("name", .str "blue sea")]),
    .put "boats" "2" (.obj [("name", .str "red sail")]),
    .put "crews" "1" (.obj [("name", .str "the sea")])]

/-- The two indexes. -/
def harbour : Database := (empty {}).after fillHarbour

/-- A search for a word, with snippets, without documents, and with a scroll. -/
def seaRequest : SearchRequest :=
  { query := .matching "name" "sea"
    sort := [⟨"name", .descending⟩]
    highlight := some { fields := ["name"] }
    size := 1
    source := .nothing
    scroll := some "1m" }

/-- The query compiles for both indexes of the harbour, one of which is named twice. -/
theorem searchable_harbour : harbour.Searchable seaRequest.query ["crews", "boats", "crews"] := by
  intro name hname
  simp only [List.mem_cons, List.not_mem_nil, or_false] at hname
  rcases hname with rfl | rfl | rfl
  · exact ⟨_, _, rfl, rfl⟩
  · exact ⟨_, _, rfl, rfl⟩
  · exact ⟨_, _, rfl, rfl⟩

theorem length_finds_harbour :
    (harbour.finds seaRequest.query ["crews", "boats", "crews"]).length = 3 := by decide

/-- Searching one of the indexes twice finds its document twice. -/
theorem search_finds_sea :
    (∃ results,
      (harbour.search ["crews", "boats", "crews"] seaRequest "a").1 = .ok results
        ∧ results.totalHits = 3)
      ∧ ((List.range 3).flatMap fun page => labelsOf (harbour.search ["crews", "boats", "crews"]
            { seaRequest with start := page * 1, size := 1 } "b"))
          = (harbour.ranks seaRequest.query seaRequest.sort
              ["crews", "boats", "crews"]).map Hit.label := by
  have hscroll : ∀ keepAlive, seaRequest.scroll = some keepAlive →
      ∃ duration, Duration.ofText keepAlive = .ok duration := by
    intro keepAlive h
    cases h
    exact ⟨⟨60, 0⟩, rfl⟩
  rcases search_finds {} fillHarbour rfl ["crews", "boats", "crews"] seaRequest "a"
    searchable_harbour hscroll with ⟨⟨results, hok, htotal, _⟩, _, hpages⟩
  exact ⟨⟨results, hok, htotal.trans length_finds_harbour⟩,
    hpages 1 3 (fun _ => "b") (Nat.le_of_eq length_finds_harbour)⟩

end Database

end DocSearch
