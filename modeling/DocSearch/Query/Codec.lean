import DocSearch.Json.Record
import DocSearch.Query.Basic

/-!
# Queries as Values

The tree of a query written out as JSON, in a form that keeps every field and is not the
one clients write: an object whose only member names the variant and holds its fields, or
the bare name for the variant without any.

A variant with several fields is a record, so it may also be given as an array of them. A
bound that is not set is `null`, and so is a missing text.

## Main definitions

* `Query.encode`: The tree as a value.
* `Query.decode?`: A value as a tree.
-/

namespace DocSearch

namespace Query

/-- A variant with its fields. -/
def variant (name : String) (body : Json) : Json := .obj [(name, body)]

/-- The four bounds and their field. -/
def encodeRange (field : String) (bounds : Bounds) : Json :=
  .object
    [("field", .str field), ("gt", .ofOption bounds.gt), ("gte", .ofOption bounds.gte),
     ("lt", .ofOption bounds.lt), ("lte", .ofOption bounds.lte)]

mutual

/-- The tree as a value. -/
def encode : Query → Json
  | .all => .str "MatchAll"
  | .unsupported kind => variant "Unsupported" (.str kind)
  | .boolean must mustNot should filter =>
    variant "Bool" <| .object
      [("must", .arr (encodeAll must)), ("must_not", .arr (encodeAll mustNot)),
       ("should", .arr (encodeAll should)), ("filter", .arr (encodeAll filter))]
  | .words field text =>
    variant "Match" <| .object [("field", .str field), ("query", .ofOption (text.map .str))]
  | .wildcard field pattern =>
    variant "Wildcard" <| .object [("field", .str field), ("pattern", .str pattern)]
  | .term field value boost =>
    variant "Term" <| .object
      [("field", .str field), ("value", value), ("boost", .ofFloat boost)]
  | .terms field values boost =>
    variant "Terms" <| .object
      [("field", .str field), ("values", .arr values), ("boost", .ofFloat boost)]
  | .fieldExists field => variant "Exists" <| .object [("field", .str field)]
  | .nested path query =>
    variant "Nested" <| .object [("path", .str path), ("query", query.encode)]
  | .range field bounds => variant "Range" (encodeRange field bounds)

/-- Several trees as values. -/
def encodeAll : List Query → List Json
  | [] => []
  | query :: rest => query.encode :: encodeAll rest

end

/-- Read the fields of a query for words. -/
def decodeWords? (body : Json) : Option Query := do
  let record ← Json.Record.ofJson? 2 2 body
  let field ← (← record.field? 0 "field").asText?
  match record.optional? 1 "query" with
  | none => return .words field none
  | some text => return .words field (some (← text.asText?))

/-- Read the fields of a query by a glob. -/
def decodeWildcard? (body : Json) : Option Query := do
  let record ← Json.Record.ofJson? 2 2 body
  let field ← (← record.field? 0 "field").asText?
  let pattern ← (← record.field? 1 "pattern").asText?
  return .wildcard field pattern

/-- Read the fields of a query for one value. -/
def decodeTerm? (body : Json) : Option Query := do
  let record ← Json.Record.ofJson? 3 3 body
  let field ← (← record.field? 0 "field").asText?
  let value ← record.field? 1 "value"
  let boost ← (← record.field? 2 "boost").asFloat?
  return .term field value boost

/-- Read the fields of a query for several values. -/
def decodeTerms? (body : Json) : Option Query := do
  let record ← Json.Record.ofJson? 3 3 body
  let field ← (← record.field? 0 "field").asText?
  let values ← (← record.field? 1 "values").asArray?
  let boost ← (← record.field? 2 "boost").asFloat?
  return .terms field values boost

/-- Read the field of a query for its presence. -/
def decodeExists? (body : Json) : Option Query := do
  let record ← Json.Record.ofJson? 1 1 body
  let field ← (← record.field? 0 "field").asText?
  return .fieldExists field

/-- Read the fields of a range query. -/
def decodeRange? (body : Json) : Option Query := do
  let record ← Json.Record.ofJson? 5 5 body
  let field ← (← record.field? 0 "field").asText?
  return .range field
    ⟨record.optional? 1 "gt", record.optional? 2 "gte", record.optional? 3 "lt",
      record.optional? 4 "lte"⟩

mutual

/-- A value as a tree. -/
def decode? : Json → Option Query
  | .str name => if name = "MatchAll" then some .all else none
  | .obj [(name, body)] => decodeVariant? name body
  | _ => none

/-- Read the fields of a variant. -/
def decodeVariant? (name : String) (body : Json) : Option Query :=
  match name with
  | "MatchAll" => if body.isNull then some .all else none
  | "Unsupported" => body.asText?.map .unsupported
  | "Bool" => decodeBool? body
  | "Match" => decodeWords? body
  | "Wildcard" => decodeWildcard? body
  | "Term" => decodeTerm? body
  | "Terms" => decodeTerms? body
  | "Exists" => decodeExists? body
  | "Nested" => decodeNested? body
  | "Range" => decodeRange? body
  | _ => none

/-- Read the fields of a bool query. -/
def decodeBool? : Json → Option Query
  | .obj members => do
    let must ← decodeClause? "must" members
    let mustNot ← decodeClause? "must_not" members
    let should ← decodeClause? "should" members
    let filter ← decodeClause? "filter" members
    return .boolean must mustNot should filter
  | .arr [must, mustNot, should, filter] => do
    let must ← decodeList? must
    let mustNot ← decodeList? mustNot
    let should ← decodeList? should
    let filter ← decodeList? filter
    return .boolean must mustNot should filter
  | _ => none

/-- Read the fields of a nested query. -/
def decodeNested? : Json → Option Query
  | .obj members => do
    let path ← (← Keyed.get? "path" members).asText?
    let query ← decodeMember? "query" members
    return .nested path query
  | .arr [path, query] => do
    let path ← path.asText?
    let query ← decode? query
    return .nested path query
  | _ => none

/-- Read the clauses in the member of a name. -/
def decodeClause? (name : String) : List (String × Json) → Option (List Query)
  | [] => none
  | (key, value) :: rest => if key = name then decodeList? value else decodeClause? name rest

/-- Read the query in the member of a name. -/
def decodeMember? (name : String) : List (String × Json) → Option Query
  | [] => none
  | (key, value) :: rest => if key = name then decode? value else decodeMember? name rest

/-- Read an array of queries. -/
def decodeList? : Json → Option (List Query)
  | .arr elements => decodeAll? elements
  | _ => none

/-- Read queries in their order. -/
def decodeAll? : List Json → Option (List Query)
  | [] => some []
  | element :: rest => do
    let query ← decode? element
    let others ← decodeAll? rest
    return query :: others

end

end Query

end DocSearch
