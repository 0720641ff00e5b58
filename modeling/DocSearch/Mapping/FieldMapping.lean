import DocSearch.Error

/-!
# Field Mappings

What an index knows about one field: its type, and the fields its values are copied to.

A copy target holds no data of its own. It is a name under which the values of all fields
that list it can be asked for together.

## Main definitions

* `FieldType`, `FieldType.ofName`: The types of fields.
* `FieldMapping`: A type and the copy targets.
* `FieldMapping.ofDefinition`: Read the definition of a field.
-/

namespace DocSearch

/-- The type of a field. -/
inductive FieldType where
  | text
  | keyword
  | long
  | integer
  | short
  | byte
  | double
  | float
  | boolean
  | date
  | nested
  | object
  /-- A path inside a nested query on it. -/
  | nestedScope
  /-- Any other type, by its name. -/
  | other (name : String)
  deriving DecidableEq

/-- The type of a name. The type of paths inside a nested query has no name of its own. -/
def FieldType.ofName (name : String) : FieldType :=
  match name with
  | "text" => .text
  | "keyword" => .keyword
  | "long" => .long
  | "integer" => .integer
  | "short" => .short
  | "byte" => .byte
  | "double" => .double
  | "float" => .float
  | "boolean" => .boolean
  | "date" => .date
  | "nested" => .nested
  | "object" => .object
  | name => .other name

/-- What an index knows about one field. -/
structure FieldMapping where
  fieldType : FieldType
  /-- The fields its values are copied to, as they were listed. -/
  copyTo : List String := []
  deriving DecidableEq

namespace FieldMapping

/-- The type that a definition gives. One that has sub-fields and no type is an object. -/
def typeOf (definition : Json) : FieldType :=
  match (definition.get? "type").bind Json.asText? with
  | some name => .ofName name
  | none => if (definition.get? "properties").isSome then .object else .other ""

/-- The copy targets that a definition lists: one text, an array of texts, or none. -/
def copyTargetsOf (path : String) (definition : Json) : Except Error (List String) :=
  match definition.present? "copy_to" with
  | none => .ok []
  | some (.str target) => .ok [target]
  | some (.arr targets) =>
    targets.mapM fun target =>
      match target.asText? with
      | some target => .ok target
      | none => .error (.copyTargetNotText path)
  | some _ => .error (.copyTargetsShape path)

/-- Read the definition of the field at a path. -/
def ofDefinition (path : String) (definition : Json) : Except Error FieldMapping :=
  if definition.isObject then
    (copyTargetsOf path definition).map fun targets => ⟨typeOf definition, targets⟩
  else .error (.definitionNotObject path)

end FieldMapping

end DocSearch
