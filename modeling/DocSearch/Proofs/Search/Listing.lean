import DocSearch.Proofs.Bucket.Regrouping
import DocSearch.Proofs.Hit.Ties
import DocSearch.Proofs.Search.Found

/-!
# The Order of the Indexes

A search does not depend on the order in which its indexes are listed, except where the sort
leaves the order of hits open.

Listing the indexes in another order finds the same hits in another order. Counting them does not
see the order, and neither do aggregations. The sort is stable, so it does: hits that compare as
equal stand as they were found. This is all that may change. Two sorted lists of the same hits
agree place by place, up to hits that compare as equal, whatever keys they are sorted by.

An index may be listed more than once, and is then searched more than once, so two lists are only
compared if they name every index equally often.

## Main definitions

* `Database.shown`: A hit as it is handed out.

## Theorems

* `Database.perm_finds`: The same hits are found.
* `Database.search_succeeds_iff`: When a search without a scroll succeeds.
* `Database.search_of_perm`: What a search answers for the indexes in another order.
-/

namespace DocSearch

namespace Database

variable {db : Database} {query : Query} {names others : List String}

/-- A hit as it is handed out: with the snippets it should have, and the part of its document
    that was asked for. -/
def shown (db : Database) (request : SearchRequest) (hit : Hit) : Hit :=
  { hit with
    source := hit.source.bind request.source.apply
    highlight := db.snippetsOf? request.query request.highlight hit }

/-- Indexes in another order can be searched as well. -/
theorem Searchable.of_perm (hperm : others.Perm names) (h : db.Searchable query names) :
    db.Searchable query others :=
  fun name hname => h name (hperm.mem_iff.mp hname)

/-- The same hits are found, index by index. -/
theorem perm_finds (hperm : others.Perm names) :
    (db.finds query others).Perm (db.finds query names) :=
  hperm.flatMap_right _

/-- A search that asks for no scroll succeeds exactly if its indexes can be searched. -/
theorem search_succeeds_iff (hnamed : db.Named) (request : SearchRequest)
    (hscroll : request.scroll = none) (node : String) :
    (∃ results, (db.search names request node).1 = .ok results)
      ↔ db.Searchable request.query names := by
  constructor
  · rintro ⟨results, hok⟩
    rcases search_eq_ok_iff.mp hok with ⟨indexes, found, hindexes, _, hfound, _⟩
    exact searchable_of_hitsOf hindexes hfound
  · intro hsearchable
    have hcheck : Search.checkScroll request = .ok () := by
      rw [Search.checkScroll, hscroll]
    rcases search_of_searchable hnamed node hsearchable hcheck with ⟨results, hok, _⟩
    exact ⟨results, hok⟩

/-- A search of a reachable database that asks for no scroll, with its indexes listed in two
    orders. Both searches succeed or neither does. If they do, they count the same, their
    aggregations are the same, and the sorted lists that their pages are cut from differ only by
    the order of hits that compare as equal. -/
theorem search_of_perm (config : Config) (history : List Command) {db : Database}
    (hdb : db = (empty config).after history) {names others : List String}
    (hperm : others.Perm names) (request : SearchRequest) (hscroll : request.scroll = none)
    (node otherNode : String) :
    ((∃ results, (db.search names request node).1 = .ok results)
      ↔ ∃ results, (db.search others request otherNode).1 = .ok results)
    ∧ ∀ results reordered, (db.search names request node).1 = .ok results →
      (db.search others request otherNode).1 = .ok reordered →
        reordered.totalHits = results.totalHits
        ∧ reordered.aggregations = results.aggregations
        ∧ TiesReordered (hitOrder request.sort) (db.ranks request.query request.sort names)
            (db.ranks request.query request.sort others)
        ∧ results.hits
            = (Search.pageOf request.start request.size
                (db.ranks request.query request.sort names)).map (db.shown request)
        ∧ reordered.hits
            = (Search.pageOf request.start request.size
                (db.ranks request.query request.sort others)).map (db.shown request) := by
  have hnamed : db.Named := by
    rw [hdb]
    exact named_after config history
  have hcheck : Search.checkScroll request = .ok () := by
    rw [Search.checkScroll, hscroll]
  rw [search_succeeds_iff hnamed request hscroll, search_succeeds_iff hnamed request hscroll]
  refine ⟨⟨.of_perm hperm, .of_perm hperm.symm⟩, fun results reordered hok hreordered => ?_⟩
  have hsearchable : db.Searchable request.query names :=
    (search_succeeds_iff hnamed request hscroll node).mp ⟨results, hok⟩
  rcases search_of_searchable hnamed node hsearchable hcheck with
    ⟨_, hsame, htotal, haggregations, hhits⟩
  rcases search_of_searchable hnamed otherNode (hsearchable.of_perm hperm) hcheck with
    ⟨_, hsame', htotal', haggregations', hhits'⟩
  -- These answers are the ones that were given.
  cases Except.ok.inj (hok.symm.trans hsame)
  cases Except.ok.inj (hreordered.symm.trans hsame')
  have hfound : (db.finds request.query others).Perm (db.finds request.query names) :=
    perm_finds hperm
  -- The hits are the same up to order. The total and the buckets do not depend on it, and sorting
  -- leaves of it only the order of ties.
  refine ⟨?_, ?_, ?_, hhits, hhits'⟩
  · rw [htotal, htotal', hfound.length_eq]
  · rw [haggregations, haggregations', runAggregations_of_perm hfound]
  · exact (stablySorted_sortHits request.sort _).tiesReordered
      (stablySorted_sortHits request.sort _) hfound

/-- A search for a word that counts the names and sorts by nothing but the score. -/
def countedRequest : SearchRequest :=
  { query := .matching "name" "sea"
    aggregations := [("names", .terms ⟨"name", 10⟩)] }

/-- Both orders of two indexes find the word, one of them twice, and count alike. -/
theorem search_of_perm_harbour :
    ∃ results reordered,
      (harbour.search ["crews", "boats", "crews"] countedRequest "a").1 = .ok results
        ∧ (harbour.search ["boats", "crews", "crews"] countedRequest "b").1 = .ok reordered
        ∧ reordered.totalHits = results.totalHits
        ∧ reordered.aggregations = results.aggregations
        ∧ TiesReordered (hitOrder [])
            (harbour.ranks countedRequest.query [] ["crews", "boats", "crews"])
            (harbour.ranks countedRequest.query [] ["boats", "crews", "crews"]) := by
  have hperm : ["boats", "crews", "crews"].Perm ["crews", "boats", "crews"] := by decide
  rcases search_of_perm {} fillHarbour rfl hperm countedRequest rfl "a" "b" with
    ⟨hboth, hanswers⟩
  have hok := (search_succeeds_iff (named_after {} fillHarbour) countedRequest rfl "a").mpr
    searchable_harbour
  rcases hok with ⟨results, hok⟩
  rcases hboth.mp ⟨results, hok⟩ with ⟨reordered, hreordered⟩
  rcases hanswers results reordered hok hreordered with ⟨htotal, haggregations, hties, _⟩
  exact ⟨results, reordered, hok, hreordered, htotal, haggregations, hties⟩

end Database

end DocSearch
