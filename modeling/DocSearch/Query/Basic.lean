import DocSearch.Json.Basic

/-!
# Queries

What a client asks of documents, as a tree.

The leaves ask about one field each: whether it shares words with a text, fits a glob,
equals a value, is there at all, or lies between bounds. `boolean` combines queries,
`nested` asks one below a path, and `all` asks for nothing. A kind of query the store does
not evaluate is kept by name; it matches no document, but it is no error either.

## Main definitions

* `Bounds`: The four bounds of a range, as they were given.
* `Query`: The tree.
* `Query.kind`: The name of the kind of a query.
* `Query.matching`, `Query.termOf`: Queries as a program builds them.
* `Query.emptyBool`, `Query.addClause`: Bool queries built clause by clause.
-/

namespace DocSearch

/-- The four bounds of a range query. They are kept as given; that only numbers can be
    compared matters when the query is evaluated. -/
structure Bounds where
  gt : Option Json := none
  gte : Option Json := none
  lt : Option Json := none
  lte : Option Json := none

/-- A query. -/
inductive Query where
  /-- Every document. -/
  | all
  /-- A kind that is not evaluated. -/
  | unsupported (kind : String)
  /-- Queries that must score, must not score, may score, and must score without counting. -/
  | boolean (must mustNot should filter : List Query)
  /-- Shared words, weighted by how early they stand. -/
  | words (field : String) (text : Option String)
  /-- Strings that fit a glob. -/
  | wildcard (field pattern : String)
  /-- One value. -/
  | term (field : String) (value : Json) (boost : Float)
  /-- Any of several values. -/
  | terms (field : String) (values : List Json) (boost : Float)
  /-- A field that is there. -/
  | fieldExists (field : String)
  /-- A query below a path. -/
  | nested (path : String) (query : Query)
  /-- Numbers between bounds. -/
  | range (field : String) (bounds : Bounds)

namespace Query

/-- The name of the kind of a query. -/
def kind : Query → String
  | .all => "match_all"
  | .unsupported kind => kind
  | .boolean .. => "bool"
  | .words .. => "match"
  | .wildcard .. => "wildcard"
  | .term .. => "term"
  | .terms .. => "terms"
  | .fieldExists _ => "exists"
  | .nested .. => "nested"
  | .range .. => "range"

/-- The query for the words of a text. -/
def matching (field text : String) : Query := .words field (some text)

/-- The query for one value, without a boost. -/
def termOf (field : String) (value : Json) : Query := .term field value 1.0

/-- The four lists of a bool query. -/
inductive Clause where
  | must
  | mustNot
  | should
  | filter
  deriving DecidableEq

/-- A bool query without clauses. -/
def emptyBool : Query := .boolean [] [] [] []

/-- A bool query with one more clause. Other queries have none to add to. -/
def addClause (query : Query) (clause : Clause) (added : Query) : Query :=
  match query, clause with
  | .boolean must mustNot should filter, .must =>
    .boolean (must ++ [added]) mustNot should filter
  | .boolean must mustNot should filter, .mustNot =>
    .boolean must (mustNot ++ [added]) should filter
  | .boolean must mustNot should filter, .should =>
    .boolean must mustNot (should ++ [added]) filter
  | .boolean must mustNot should filter, .filter =>
    .boolean must mustNot should (filter ++ [added])
  | query, _ => query

end Query

/-- Which bound of a range is meant. -/
inductive BoundKind where
  | gt
  | gte
  | lt
  | lte
  deriving DecidableEq

/-- The same bounds with one of them set. -/
def Bounds.set (bounds : Bounds) (kind : BoundKind) (bound : Json) : Bounds :=
  match kind with
  | .gt => { bounds with gt := some bound }
  | .gte => { bounds with gte := some bound }
  | .lt => { bounds with lt := some bound }
  | .lte => { bounds with lte := some bound }

end DocSearch
