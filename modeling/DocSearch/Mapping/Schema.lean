import DocSearch.Document.Path
import DocSearch.Mapping.Tree

/-!
# Schemas

The fields an index knows, and what a path means in it.

A path that is a copy target stands for the fields that list it as one, in key order, and
every other path for itself. Which targets there are follows from the mappings, so it is
computed from them and there is no second table to keep in step.

A nested query looks at its inner query under a schema in which its own path is marked as
being inside the scope. That is the only use of `override`.

## Main definitions

* `Schema`: The mappings of an index and the tree they were read from.
* `Schema.ofTree`: Read a mapping tree.
* `Schema.copySources?`: The fields that list a target.
* `Schema.readPaths`: The paths at which the values of a path are found.
* `Schema.resolve`: The values of a path in a document.
* `Schema.override`: One mapping replaced.
-/

namespace DocSearch

/-- The fields an index knows. -/
structure Schema where
  indexName : String
  /-- The mapping of every path, in key order. -/
  mappings : List (String × FieldMapping) := []
  /-- The properties the mappings were read from, as they were given. -/
  properties : List (String × Json) := []

namespace Schema

/-- Read a mapping tree. -/
def ofTree (indexName : String) (tree : Json) : Except Error Schema :=
  match MappingTree.properties? tree with
  | none => .error .propertiesNotObject
  | some properties =>
    (MappingTree.flatten properties).map fun mappings => ⟨indexName, mappings, properties⟩

/-- The mapping of a path. -/
def field? (schema : Schema) (path : String) : Option FieldMapping :=
  Keyed.get? path schema.mappings

/-- Whether a path is mapped as nested. -/
def isNested (schema : Schema) (path : String) : Bool :=
  match schema.field? path with
  | some mapping => mapping.fieldType = .nested
  | none => false

/-- Every field next to every target it lists, in the order of the fields. -/
def copies (schema : Schema) : List (String × String) :=
  schema.mappings.flatMap fun (field, mapping) =>
    mapping.copyTo.map fun target => (target, field)

/-- The fields that list a target, in key order. A field is there as often as it lists the
    target; where none does, the path is no target at all. -/
def copySources? (schema : Schema) (target : String) : Option (List String) :=
  match schema.copies.filter fun copy => copy.1 = target with
  | [] => none
  | found => some (found.map Prod.snd)

/-- All targets with the fields that list them. -/
def copyTable (schema : Schema) : List (String × List String) :=
  schema.copies.foldl
    (fun table (target, field) => Keyed.upsert target [] (· ++ [field]) table) []

/-- The names of the mapped fields and of the copy targets, in order. A name that is both
    is there twice. -/
def fieldNames (schema : Schema) : List String :=
  (Keyed.keys schema.mappings ++ Keyed.keys schema.copyTable).mergeSort
    fun a b => (String.compare a b).isLE

/-- The paths at which the values of a path are found. -/
def readPaths (schema : Schema) (path : String) : List String :=
  -- Reading the values takes another ending off, so two of them lead to the same data.
  let path := Path.withoutKeyword path
  (schema.copySources? path).getD [path]

/-- The scalars that some paths lead to in a document. -/
def valuesOf (document : Json) (paths : List String) : List Json :=
  paths.flatMap (Path.valuesAt document)

/-- The values of a path in a document. -/
def resolve (schema : Schema) (document : Json) (path : String) : List Json :=
  valuesOf document (schema.readPaths path)

/-- The same schema with one mapping replaced. -/
def override (schema : Schema) (path : String) (mapping : FieldMapping) : Schema :=
  { schema with mappings := Keyed.insert path mapping schema.mappings }

/-- The mapping tree as it is shown to clients. -/
def toTree (schema : Schema) : Json :=
  .obj [("properties", .obj schema.properties)]

end Schema

end DocSearch
