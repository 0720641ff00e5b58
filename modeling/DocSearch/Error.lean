import DocSearch.Json.Printer
import DocSearch.Text.Base64

/-!
# Errors

Everything the store can refuse, as causes. An error carries what its message names, such
as the offending field or value, and the message and the kind of every cause are written
down in one place.

There are four kinds. A request that does not make sense is a `validation` error, whatever
the store holds. Asking for an index, a document or a scroll that is not there is
`notFound`. An operation that the present state forbids is `invalidState`. And `internal`
is left for what a client can do nothing about.

## Main definitions

* `ErrorKind`, `ErrorKind.name`: The kinds.
* `Error`: The causes.
* `Error.kind`: The kind of a cause.
* `Error.context`: The message of a cause.
* `Error.message`: The message behind the name of the kind.
-/

namespace DocSearch

/-- What kind of failure an error is. -/
inductive ErrorKind where
  | validation
  | notFound
  | invalidState
  | internal
  deriving DecidableEq

/-- The name of a kind. -/
def ErrorKind.name : ErrorKind → String
  | .validation => "Validation"
  | .notFound => "NotFound"
  | .invalidState => "InvalidState"
  | .internal => "Internal"

/-- Why a request was refused. -/
inductive Error where
  /-- A query is neither `null` nor an object. -/
  | queryNotObject (got : Json)
  /-- A query object has several members. -/
  | queryKindsMixed
  /-- The body of a query is no object. -/
  | queryBodyNotObject (kind : String)
  /-- The body of a query names no field. -/
  | queryWithoutField (kind : String)
  /-- A clause of a bool query is neither an object nor an array. -/
  | clauseShape (clause : String)
  /-- A wildcard query has no string to match. -/
  | wildcardWithoutText (field : String)
  /-- The values of a terms query are no array. -/
  | termsNotArray (field : String)
  /-- The bounds of a range query are no object. -/
  | rangeNotObject (field : String)
  /-- A member that a query cannot do without is missing. -/
  | queryMemberMissing (kind member : String)
  /-- A nested query names a path that is mapped, but not as nested. -/
  | notNested (path : String)
  /-- The properties of a mapping are no object. -/
  | propertiesNotObject
  /-- The definition of a field is no object. -/
  | definitionNotObject (path : String)
  /-- The targets of a field are not all texts. -/
  | copyTargetNotText (path : String)
  /-- The targets of a field are neither a text nor an array. -/
  | copyTargetsShape (path : String)
  /-- The named aggregations are no object. -/
  | aggregationsNotObject
  /-- An aggregation does not name its kind. -/
  | aggregationWithoutKind
  /-- A terms aggregation names no field. -/
  | termsWithoutField
  /-- A composite aggregation has no array of sources. -/
  | compositeWithoutSources
  /-- A composite source is no object with a name. -/
  | sourceWithoutName
  /-- A composite source does not name its kind. -/
  | sourceWithoutKind (name : String)
  /-- A composite source names no field. -/
  | sourceWithoutField (name : String)
  /-- The bucket to resume after is no object. -/
  | afterNotObject
  /-- A word that is no sort order. -/
  | unknownOrder (word : String)
  /-- A sort entry without a field. -/
  | sortWithoutField
  /-- A sort entry that is neither a string nor an object. -/
  | sortShape (got : Json)
  /-- The names of source fields are not all strings. -/
  | sourceFieldNotText
  /-- The names of source fields are neither a string nor an array. -/
  | sourceFieldsShape
  /-- A source filter of an impossible kind. -/
  | sourceFilterShape (got : Json)
  /-- The highlight part of a body is no object. -/
  | highlightNotObject
  /-- The fields to highlight are neither an object nor an array. -/
  | highlightFieldsShape
  /-- A search body that is neither `null` nor an object. -/
  | bodyNotObject
  /-- A member of a search body that has to be a count. -/
  | notCount (member : String) (got : Json)
  /-- A keep-alive that is no amount of time. -/
  | keepAlive (text : String)
  /-- A scroll id that is not Base64. -/
  | scrollIdNotBase64 (fault : Base64.Fault)
  /-- A scroll id that does not hold what scroll ids hold. -/
  | scrollIdMalformed (id : String)
  /-- No scroll is open under a node. -/
  | scrollNotFound (node : String)
  /-- An index cannot be created without a name. -/
  | indexNameEmpty
  /-- An index already exists. -/
  | indexExists (index : String)
  /-- There is no such index. -/
  | indexNotFound (index : String)
  /-- A document that is no object. -/
  | documentNotObject (id index : String)
  /-- There is no such document. -/
  | documentNotFound (id index : String)
  /-- An index that still accepts writes cannot be cloned. -/
  | notWriteBlocked (index : String)
  /-- Every identifier that was drawn is already in use. -/
  | identifiersExhausted (index : String)

namespace Error

/-- The kind of a cause. -/
def kind : Error → ErrorKind
  | .scrollNotFound _ | .indexNotFound _ | .documentNotFound _ _ => .notFound
  | .notWriteBlocked _ => .invalidState
  | .identifiersExhausted _ => .internal
  | _ => .validation

/-- The message of a cause. -/
def context : Error → String
  | .queryNotObject got => s!"query must be an object, got {got.render}"
  | .queryKindsMixed => "query object must hold exactly one query kind"
  | .queryBodyNotObject kind => s!"[{kind}] query must be an object"
  | .queryWithoutField kind => s!"[{kind}] query requires a field"
  | .clauseShape clause => s!"[bool] clause [{clause}] must be an object or an array"
  | .wildcardWithoutText field => s!"[wildcard] query on [{field}] requires a string value"
  | .termsNotArray field => s!"[terms] query on [{field}] requires an array of values"
  | .rangeNotObject field => s!"[range] query on [{field}] requires an object of bounds"
  | .queryMemberMissing kind member => s!"[{kind}] requires '{member}' field"
  | .notNested path => s!"[nested] failed to find nested object under path [{path}]"
  | .propertiesNotObject => "mapping properties must be an object"
  | .definitionNotObject path => s!"mapping definition of [{path}] must be an object"
  | .copyTargetNotText path => s!"copy_to of [{path}] must list field names"
  | .copyTargetsShape path => s!"copy_to of [{path}] must be a string or an array"
  | .aggregationsNotObject => "aggregations must be an object"
  | .aggregationWithoutKind => "aggregation must be an object holding its kind"
  | .termsWithoutField => "[terms] aggregation requires 'field' field"
  | .compositeWithoutSources => "[composite] aggregation requires a 'sources' array"
  | .sourceWithoutName => "[composite] source must be an object holding its name"
  | .sourceWithoutKind name => s!"[composite] source [{name}] must declare its kind"
  | .sourceWithoutField name => s!"[composite] source [{name}] requires 'field' field"
  | .afterNotObject => "[composite] 'after' must be an object"
  | .unknownOrder word => s!"unknown sort order [{word}]"
  | .sortWithoutField => "sort entry must name a field"
  | .sortShape got => s!"sort entry must be a string or an object, got {got.render}"
  | .sourceFieldNotText => "_source field names must be strings"
  | .sourceFieldsShape => "_source fields must be a string or an array"
  | .sourceFilterShape got =>
    s!"_source must be a boolean, a string, an array or an object, got {got.render}"
  | .highlightNotObject => "highlight must be an object"
  | .highlightFieldsShape => "highlight fields must be an object"
  | .bodyNotObject => "search body must be an object"
  | .notCount member got => s!"[{member}] must be a non-negative integer, got {got.render}"
  | .keepAlive text => s!"failed to parse keep-alive [{text}]"
  | .scrollIdNotBase64 fault => s!"malformed scroll id: {fault.message}"
  | .scrollIdMalformed id => s!"malformed scroll id [{id}]"
  | .scrollNotFound node => s!"No search context found for id [{node}]"
  | .indexNameEmpty => "index name must not be empty"
  | .indexExists index => s!"index [{index}] already exists"
  | .indexNotFound index => s!"no such index [{index}]"
  | .documentNotObject id index => s!"document [{id}] of index [{index}] must be a JSON object"
  | .documentNotFound id index => s!"document [{id}] not found in index [{index}]"
  | .notWriteBlocked index =>
    s!"index {index} must be read-only to resize index. use \"index.blocks.write=true\""
  | .identifiersExhausted index =>
    s!"could not draw an unused document id in index [{index}]"

/-- The message behind the name of the kind. -/
def message (error : Error) : String :=
  error.kind.name ++ ": " ++ error.context

end Error

end DocSearch
