import DocSearch.Scroll.Table
import DocSearch.Search.Request
import DocSearch.Search.Results
import DocSearch.Store.Index

/-!
# Running a Search

From a list of indexes and a request to a page of results.

The hits are found index by index, in the order in which the indexes are listed and in each
in the order of its documents. Aggregations see all of them. Then they are sorted, and the
sorted list is what pages are cut from, the one that is handed out now and those of the
scroll that may be opened for later.

Only the page is dressed: every hit on it is highlighted under the schema of its own index
and then reduced to the part of its source that was asked for, in this order, so a hit can
show a snippet of a field whose source it hides. The hits of a scroll are frozen as they
were found.

Everything that can fail comes before the scroll is opened, so a failing search leaves the
open scrolls alone.

## Main definitions

* `Search.hitsOf`: All hits, in the order in which they are found.
* `Search.pageOf`: One page of a sorted list.
* `Search.dress`: A hit as it is handed out.
* `Search.run`: The whole search.
-/

namespace DocSearch

namespace Search

/-- All hits of a query in some indexes, in the order in which they are found. -/
def hitsOf (query : Query) : List Index → Except Error (List Hit)
  | [] => .ok []
  | index :: rest =>
    match query.compile index.schema with
    | .error error => .error error
    | .ok scorer => (hitsOf query rest).map (index.search scorer ++ ·)

/-- The greater of two scores. -/
def maxScore (a b : Float) : Float := if a < b then b else a

/-- The best score of some hits. -/
def bestScore : List Hit → Option Float
  | [] => none
  | hit :: rest => some (rest.foldl (fun best other => maxScore best other.score) hit.score)

/-- One page of a list. -/
def pageOf (start size : Nat) (hits : List Hit) : List Hit :=
  (hits.drop start).take size

/-- The schema of the index of a name. Of several with one name the last counts. -/
def schemaOf? (indexes : List Index) (name : String) : Option Schema :=
  (indexes.reverse.find? fun index => index.name = name).map Index.schema

/-- A hit with its snippets, if there are any to be had. -/
def highlightHit (indexes : List Index) (query : Query) (request : Option HighlightRequest)
    (hit : Hit) : Hit :=
  match request, schemaOf? indexes hit.index, hit.source with
  | some request, some schema, some source =>
    match highlightsOf query request schema source with
    | [] => hit
    | highlights => { hit with highlight := some highlights }
  | _, _, _ => hit

/-- A hit as it is handed out. -/
def dress (indexes : List Index) (request : SearchRequest) (hit : Hit) : Hit :=
  let hit := highlightHit indexes request.query request.highlight hit
  { hit with source := hit.source.bind request.source.apply }

/-- The keep-alive of a request, checked. -/
def checkScroll (request : SearchRequest) : Except Error Unit :=
  match request.scroll with
  | none => .ok ()
  | some keepAlive => (Duration.ofText keepAlive).map fun _ => ()

/-- Open the scroll that a request asks for, under the node that was drawn. Its first page
    is the one behind the page that is handed out now. -/
def openScroll (request : SearchRequest) (sorted : List Hit) (node : String)
    (scrolls : ScrollTable) : Except Error (Option String) × ScrollTable :=
  match request.scroll with
  | none => (.ok none, scrolls)
  | some keepAlive =>
    let place := advancePlace request.start request.size
    let (opened, scrolls) := scrolls.openAt node sorted place request.size keepAlive
    (opened.map some, scrolls)

/-- The results of a request, given all hits, the same hits sorted, and the scroll. -/
def resultsOf (indexes : List Index) (request : SearchRequest) (found sorted : List Hit)
    (scrollId : Option String) : SearchResults where
  totalHits := sorted.length
  maxScore := bestScore sorted
  hits := (pageOf request.start request.size sorted).map (dress indexes request)
  aggregations :=
    if request.aggregations.isEmpty then none
    else some (runAggregations request.aggregations found)
  scrollId

/-- Search some indexes. The node names the scroll, should one be opened. -/
def run (indexes : List Index) (request : SearchRequest) (node : String)
    (scrolls : ScrollTable) : Except Error SearchResults × ScrollTable :=
  match checkScroll request with
  | .error error => (.error error, scrolls)
  | .ok () =>
    match hitsOf request.query indexes with
    | .error error => (.error error, scrolls)
    | .ok found =>
      let sorted := sortHits request.sort found
      -- The scroll keeps the hits as they were found; only the page is dressed.
      let (opened, scrolls) := openScroll request sorted node scrolls
      (opened.map (resultsOf indexes request found sorted), scrolls)

end Search

end DocSearch
