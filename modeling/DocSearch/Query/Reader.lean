import DocSearch.Error
import DocSearch.Query.Basic

/-!
# Reading Queries

The query of a search body, read from JSON. `null` and the empty object ask for every
document; any other query is an object whose only member names the kind and holds its
body.

A query about one field has it as a member of its body: the first member in key order that
is not the boost. What stands there may be the bare parameter or an object of parameters.

Reading follows the JSON value. Where a member has to be found first, its members are
searched by a function of their own, so that every step is visibly smaller.

## Main definitions

* `Query.fieldEntry?`: The field of a body and its parameters.
* `Query.ofJson`: Read a query.
-/

namespace DocSearch

namespace Query

/-- The first member that is not the boost. -/
def fieldEntry? (members : List (String × Json)) : Option (String × Json) :=
  members.find? fun member => member.1 ≠ "boost"

/-- The field of a query about one field. -/
def fieldEntry (kind : String) (members : List (String × Json)) :
    Except Error (String × Json) :=
  match fieldEntry? members with
  | some entry => .ok entry
  | none => .error (.queryWithoutField kind)

/-- Text to look for, which may be given as a number. -/
def textOf : Json → Option String
  | .str text => some text
  | .num number => some (Number.canonicalText number.toFloat)
  | _ => none

/-- The boost among some members, or none. -/
def boostOf (members : List (String × Json)) : Float :=
  ((Keyed.get? "boost" members).bind Json.asFloat?).getD 1.0

/-- Read the body of a match query. -/
def readWords (members : List (String × Json)) : Except Error Query := do
  let (field, parameters) ← fieldEntry "match" members
  match parameters with
  | .obj parameters => return .words field ((Keyed.get? "query" parameters).bind textOf)
  | text => return .words field (textOf text)

/-- Read the body of a wildcard query. -/
def readWildcard (members : List (String × Json)) : Except Error Query := do
  let (field, parameters) ← fieldEntry "wildcard" members
  let pattern :=
    match parameters with
    | .str pattern => some pattern
    | .obj parameters =>
      ((Keyed.get? "value" parameters).or (Keyed.get? "wildcard" parameters)).bind Json.asText?
    | _ => none
  match pattern with
  | some pattern => return .wildcard field pattern
  | none => throw (.wildcardWithoutText field)

/-- Read the body of a term query. -/
def readTerm (members : List (String × Json)) : Except Error Query := do
  let (field, parameters) ← fieldEntry "term" members
  match parameters with
  -- Without a value the query is for `null`, and no value of a document equals that.
  | .obj parameters =>
    return .term field ((Keyed.get? "value" parameters).getD .null) (boostOf parameters)
  | value => return .term field value 1.0

/-- Read the body of a terms query, whose boost stands next to the field. -/
def readTerms (members : List (String × Json)) : Except Error Query := do
  let (field, values) ← fieldEntry "terms" members
  match values with
  | .arr values => return .terms field values (boostOf members)
  | _ => throw (.termsNotArray field)

/-- Read the body of an exists query. -/
def readExists (members : List (String × Json)) : Except Error Query :=
  match (Keyed.get? "field" members).bind Json.asText? with
  | some field => .ok (.fieldExists field)
  | none => .error (.queryMemberMissing "exists" "field")

/-- Read the body of a range query. A bound that is `null` is not set. -/
def readRange (members : List (String × Json)) : Except Error Query := do
  let (field, bounds) ← fieldEntry "range" members
  if bounds.isObject then
    return .range field
      ⟨bounds.present? "gt", bounds.present? "gte", bounds.present? "lt", bounds.present? "lte"⟩
  else throw (.rangeNotObject field)

mutual

/-- Read a query. -/
def ofJson : Json → Except Error Query
  | .null => .ok .all
  | .obj members => readObject members
  | got => .error (.queryNotObject got)

/-- Read a query from the members of its object, of which the only one names the kind. -/
def readObject : List (String × Json) → Except Error Query
  | [] => .ok .all
  | [(kind, body)] => readKind kind body
  | _ :: _ :: _ => .error .queryKindsMixed

/-- Read the body of a query of some kind. Kinds that are not evaluated have any body. -/
def readKind (kind : String) : Json → Except Error Query
  | .obj members =>
    match kind with
    | "bool" => do
      let must ← readClause "must" members
      let mustNot ← readClause "must_not" members
      let should ← readClause "should" members
      let filter ← readClause "filter" members
      return .boolean must mustNot should filter
    | "match" => readWords members
    | "wildcard" => readWildcard members
    | "term" => readTerm members
    | "terms" => readTerms members
    | "exists" => readExists members
    | "nested" =>
      match (Keyed.get? "path" members).bind Json.asText? with
      | none => .error (.queryMemberMissing "nested" "path")
      | some path => (readInner members).map (.nested path)
    | "range" => readRange members
    | "match_all" => .ok .all
    | kind => .ok (.unsupported kind)
  | _ =>
    match kind with
    | "bool" | "match" | "wildcard" | "term" | "terms" | "exists" | "nested" | "range" =>
      .error (.queryBodyNotObject kind)
    | "match_all" => .ok .all
    | kind => .ok (.unsupported kind)

/-- Read one list of clauses of a bool query: the member of that name among its members. -/
def readClause (clause : String) : List (String × Json) → Except Error (List Query)
  | [] => .ok []
  | (name, value) :: rest =>
    if name = clause then readClauses clause value else readClause clause rest

/-- Read the clauses in a value. A single query stands for a list of one. -/
def readClauses (clause : String) : Json → Except Error (List Query)
  | .null => .ok []
  | .arr queries => readAll queries
  | .obj members => (readObject members).map ([·])
  | _ => .error (.clauseShape clause)

/-- Read queries in their order, up to the first that cannot be read. -/
def readAll : List Json → Except Error (List Query)
  | [] => .ok []
  | query :: rest =>
    match ofJson query with
    | .error error => .error error
    | .ok query => (readAll rest).map (query :: ·)

/-- Read the inner query of a nested query: the member `query` among its members. -/
def readInner : List (String × Json) → Except Error Query
  | [] => .error (.queryMemberMissing "nested" "query")
  | (name, value) :: rest =>
    if name = "query" then
      match value with
      | .null => .error (.queryMemberMissing "nested" "query")
      | value => ofJson value
    else readInner rest

end

end Query

end DocSearch
