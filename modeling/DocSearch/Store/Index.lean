import DocSearch.Hit.Basic
import DocSearch.Relevance.Compile
import DocSearch.Store.DocumentTable

/-!
# Indexes

A named collection of documents, with the schema its queries are compiled under and
settings that the store keeps for its clients.

Only one setting means something to the store: an index that is blocked for writing may be
cloned. Writing itself is not refused, the block is the client's promise.

Every index has an identity of its own, which its name has not: after an index is deleted
another one may take the name, and a clone has a new identity from the start.

## Main definitions

* `Index`: The collection.
* `Index.put`, `Index.setMappings`: The operations that can be refused.
* `Index.isWriteBlocked`: The setting that matters.
* `Index.cloneAs`: A copy under another name.
* `Index.search`: The documents that score above zero.
-/

namespace DocSearch

/-- A named collection of documents. -/
structure Index where
  name : String
  /-- Tells the index from every other one there has been. -/
  identity : Nat
  documents : DocumentTable := .empty
  schema : Schema
  settings : Json := .obj []

/-- What can be told about an index. -/
structure IndexInfo where
  name : String
  identity : Nat
  documentCount : Nat
  deriving DecidableEq

namespace Index

/-- An index without documents and mappings. -/
def empty (name : String) (identity : Nat) : Index :=
  { name, identity, schema := { indexName := name } }

/-- Put a document, which has to be an object. Says whether its id was new. -/
def put (index : Index) (id : String) (document : Json) : Except Error (Bool × Index) :=
  if document.isObject then
    let (isNew, documents) := index.documents.put id document
    .ok (isNew, { index with documents })
  else .error (.documentNotObject id index.name)

/-- The document under an id. -/
def get? (index : Index) (id : String) : Option Json := index.documents.get? id

/-- Take the document under an id out. -/
def remove (index : Index) (id : String) : Option Json × Index :=
  let (removed, documents) := index.documents.remove id
  (removed, { index with documents })

/-- How many documents there are. -/
def size (index : Index) : Nat := index.documents.size

/-- Replace the mappings. -/
def setMappings (index : Index) (tree : Json) : Except Error Index :=
  (Schema.ofTree index.name tree).map fun schema => { index with schema }

/-- Replace the settings. -/
def setSettings (index : Index) (settings : Json) : Index := { index with settings }

/-- Whether a setting is on, as a boolean or as a text. -/
def isOn : Json → Bool
  | .bool value => value
  | .str text => text = "true"
  | _ => false

/-- Follow member names into a value. -/
def follow : List String → Json → Option Json
  | [], value => some value
  | step :: rest, value =>
    match value.get? step with
    | some member => follow rest member
    | none => none

/-- Whether the settings block writing, in the flat or in one of the two nested forms. -/
def isWriteBlocked (index : Index) : Bool :=
  [["index.blocks.write"], ["index", "blocks", "write"], ["blocks", "write"]].any fun steps =>
    (follow steps index.settings).any isOn

/-- A copy under another name, with an identity of its own. -/
def cloneAs (index : Index) (name : String) (identity : Nat) : Index :=
  { index with name, identity, schema := { index.schema with indexName := name } }

/-- What can be told about the index. -/
def info (index : Index) : IndexInfo := ⟨index.name, index.identity, index.size⟩

/-- The documents that score above zero, in the order of the table. -/
def search (index : Index) (scorer : Scorer) : List Hit :=
  index.documents.toList.filterMap fun (id, document) =>
    let score := scorer.score document
    if score > 0.0 then some { index := index.name, id, score, source := some document }
    else none

end Index

end DocSearch
