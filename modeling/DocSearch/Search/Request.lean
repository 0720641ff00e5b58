import DocSearch.Bucket.Aggregation
import DocSearch.Config
import DocSearch.Hit.Highlight
import DocSearch.Hit.SourceFilter
import DocSearch.Query.Reader

/-!
# Search Requests

What a search is asked to do: the query, the aggregations, the order of the hits, the page
that is wanted, what is shown of each hit, and whether a scroll is opened.

A request is read from a JSON body. Every member may be missing, and `null` is as good as
missing. The keep-alive of a scroll does not travel in the body and is added behind the
reading. A program may also build a request step by step from the default one.

## Main definitions

* `SearchRequest`: The request.
* `SearchRequest.ofJson`: Reading a body.
* `SearchRequest.addSortKey`, `SearchRequest.addAggregation`: Requests built step by step;
  all other parts are plain fields.
-/

namespace DocSearch

/-- What a search is asked to do. -/
structure SearchRequest where
  query : Query := .all
  aggregations : List (String × Aggregation) := []
  sort : List SortKey := []
  highlight : Option HighlightRequest := none
  /-- The place of the first hit of the page. -/
  start : Nat := 0
  /-- How many hits the page has at most. -/
  size : Nat := ({} : Config).defaultPageSize
  source : SourceFilter := .all
  /-- The keep-alive of the scroll to open. -/
  scroll : Option String := none

namespace SearchRequest

/-- Read a member that is a count. -/
def readCount (body : Json) (member : String) (default : Nat) : Except Error Nat :=
  match body.present? member with
  | none => .ok default
  | some value =>
    match value.asCount? with
    | some count => .ok count
    | none => .error (.notCount member value)

/-- Read a member with a reader of its own, or take a default where it is missing. What `null`
    means is left to the reader. -/
def readMember {α : Type} (body : Json) (member : String) (default : α)
    (read : Json → Except Error α) : Except Error α :=
  match body.get? member with
  | none => .ok default
  | some value => read value

/-- What to mark in the hits, if anything. -/
def readHighlight : Json → Except Error (Option HighlightRequest)
  | .null => .ok none
  | value => (HighlightRequest.ofJson value).map some

/-- The aggregations of a body, which go by either of two names. The first name wins even
    where it holds `null`. -/
def readAggregations (config : Config) (body : Json) :
    Except Error (List (String × Aggregation)) :=
  -- `get?` and not `present?`: a `null` under the first name hides the second.
  match (body.get? "aggregations").or (body.get? "aggs") with
  | none | some .null => .ok []
  | some aggregations => Aggregation.namedOfJson config.defaultBucketSize aggregations

/-- Read a body. -/
def ofJson (config : Config) (body : Json) : Except Error SearchRequest := do
  if !body.isObject && !body.isNull then throw .bodyNotObject
  let query ← readMember body "query" .all Query.ofJson
  let aggregations ← readAggregations config body
  let sort ← readMember body "sort" [] SortKey.listOfJson
  let highlight ← readMember body "highlight" none readHighlight
  let source ← readMember body "_source" .all SourceFilter.ofJson
  let start ← readCount body "from" 0
  let size ← readCount body "size" config.defaultPageSize
  return { query, aggregations, sort, highlight, start, size, source }

/-- The same request with one more sort key. -/
def addSortKey (request : SearchRequest) (key : SortKey) : SearchRequest :=
  { request with sort := request.sort ++ [key] }

/-- The same request with one more aggregation. -/
def addAggregation (request : SearchRequest) (name : String) (aggregation : Aggregation) :
    SearchRequest :=
  { request with aggregations := request.aggregations ++ [(name, aggregation)] }

end SearchRequest

end DocSearch
