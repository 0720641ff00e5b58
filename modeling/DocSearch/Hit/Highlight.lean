import DocSearch.Hit.Basic
import DocSearch.Relevance.Compile

/-!
# Highlighting

Snippets of a found document in which the places a query asked for are marked.

Only three kinds of query mark anything: one for words marks every word, one by a glob
every stretch that fits it, and one for a value the text of that value. All other kinds,
bool queries included, mark nothing. The field of the query has to be among those the
request names, where a name with a glob stands for all fields and copy targets it fits. A
copy target is marked in the fields it is copied from, under their names.

A value without a marked place gives no snippet, and a field without snippets is left out.

## Main definitions

* `HighlightRequest`: The fields and the marks, and reading them.
* `HighlightRequest.eligible`: The fields a request stands for under a schema.
* `Highlighter`, `Highlighter.ofQuery`: What to mark, and where.
* `snippet?`: One marked value.
* `Highlighter.run`: The snippets of a document.
-/

namespace DocSearch

/-- Which fields to mark, and how. -/
structure HighlightRequest where
  /-- Names of fields, or globs. -/
  fields : List String
  /-- What stands before a marked place. -/
  preTag : String := "<em>"
  /-- What stands behind it. -/
  postTag : String := "</em>"
  deriving DecidableEq

namespace HighlightRequest

/-- The names in the fields part of a request: the keys of an object, or of the objects in
    an array. -/
def fieldsOf : Option Json → Except Error (List String)
  | none | some .null => .ok []
  | some (.obj members) => .ok (Keyed.keys members)
  | some (.arr entries) => .ok ((entries.filterMap Json.asObject?).flatMap Keyed.keys)
  | some _ => .error .highlightFieldsShape

/-- A mark, given as a text or as an array whose first text counts. -/
def tagOf (default : String) : Option Json → String
  | some (.str tag) => tag
  | some (.arr tags) => (tags.head?.bind Json.asText?).getD default
  | _ => default

/-- Read a request. -/
def ofJson : Json → Except Error HighlightRequest
  | .obj members => do
    let fields ← fieldsOf (Keyed.get? "fields" members)
    return {
      fields
      preTag := tagOf "<em>" (Keyed.get? "pre_tags" members)
      postTag := tagOf "</em>" (Keyed.get? "post_tags" members) }
  | _ => .error .highlightNotObject

/-- The fields a request stands for under a schema, in order. -/
def eligible (request : HighlightRequest) (schema : Schema) : List String :=
  Keyed.distinct <| request.fields.flatMap fun field =>
    if isGlob field then schema.fieldNames.filter (Pattern.glob field false).accepts
    else [field]

end HighlightRequest

/-- What is marked in some fields. -/
structure Highlighter where
  pattern : Pattern
  /-- The paths whose values are marked, which are also the names of the snippets. -/
  paths : List String
  preTag : String
  postTag : String

/-- A text with its matches marked. There is none where nothing matches. -/
def snippet? (pattern : Pattern) (preTag postTag text : String) : Option String :=
  let parts := pattern.scan text.toList
  if parts.any Pattern.Part.isHit then
    some <| String.ofList <| parts.flatMap fun part =>
      match part with
      | .gap c => [c]
      | .hit first rest => preTag.toList ++ (first :: rest) ++ postTag.toList
  else none

namespace Highlighter

/-- The field of a query and the pattern that marks what it asks for. -/
def target? : Query → Option (String × Pattern)
  | .words field text =>
    let tokens := ((text.map tokenize).getD []).filter fun token => token ≠ ""
    if tokens.isEmpty then none else some (field, Pattern.words tokens)
  | .wildcard field pattern => some (field, Pattern.glob pattern true)
  | .term field value _ =>
    if value.isNull then none else some (field, Pattern.exactly (canonicalText value))
  | _ => none

/-- The highlighter of a query, if it marks anything under a request and a schema. -/
def ofQuery? (query : Query) (request : HighlightRequest) (schema : Schema) :
    Option Highlighter :=
  match target? query with
  | none => none
  | some (field, pattern) =>
    if field ∈ request.eligible schema then
      some {
        pattern
        -- The field is looked up as it is written, with a `.keyword` it may end in.
        paths := (schema.copySources? field).getD [field]
        preTag := request.preTag
        postTag := request.postTag }
    else none

/-- The snippets of the values at one path. -/
def snippetsAt (highlighter : Highlighter) (document : Json) (path : String) : List String :=
  ((Path.valuesAt document path).filterMap Json.asText?).filterMap
    (snippet? highlighter.pattern highlighter.preTag highlighter.postTag)

/-- The snippets of a document, by path. Those of a path that occurs twice are there
    twice. -/
def run (highlighter : Highlighter) (document : Json) : Highlights :=
  highlighter.paths.foldl
    (fun found path =>
      match highlighter.snippetsAt document path with
      | [] => found
      | snippets => Keyed.upsert path [] (· ++ snippets) found)
    []

end Highlighter

/-- The snippets a query gives for a document under a request and a schema. -/
def highlightsOf (query : Query) (request : HighlightRequest) (schema : Schema)
    (document : Json) : Highlights :=
  match Highlighter.ofQuery? query request schema with
  | some highlighter => highlighter.run document
  | none => []

end DocSearch
