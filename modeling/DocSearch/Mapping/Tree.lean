import DocSearch.Mapping.FieldMapping

/-!
# Mapping Trees

Fields are defined in a tree that has the shape of the documents: the definition of a
field may hold the definitions of its sub-fields. An index works with the flat list of
dotted paths, which is read off here.

Siblings are visited in key order and the fields below a definition before the definition
itself. A dotted name can spell the same path as a nested one, and then the visit that
comes last decides.

## Main definitions

* `MappingTree.properties?`: The properties of a tree.
* `MappingTree.fieldsBelow`: The paths and mappings below some properties, in the order of
  the visit.
* `MappingTree.flatten`: The flat mappings of a tree.
-/

namespace DocSearch

namespace MappingTree

/-- The path of a member below another path. At the root there is no dot. -/
def childPath (parent name : String) : String :=
  if parent = "" then name else parent ++ "." ++ name

mutual

/-- The paths and mappings below some properties, in the order of the visit. The definition
    of a field is checked before the fields below it. -/
def fieldsBelow (parent : String) :
    List (String × Json) → Except Error (List (String × FieldMapping))
  | [] => .ok []
  | (name, definition) :: rest =>
    let path := childPath parent name
    match FieldMapping.ofDefinition path definition with
    | .error error => .error error
    | .ok mapping =>
      match fieldsInside path definition with
      | .error error => .error error
      | .ok inside =>
        match fieldsBelow parent rest with
        | .error error => .error error
        -- The definition comes behind its own fields, and so it wins over them.
        | .ok others => .ok (inside ++ (path, mapping) :: others)

/-- The paths and mappings below a definition. -/
def fieldsInside (path : String) : Json → Except Error (List (String × FieldMapping))
  | .obj members => fieldsInMembers path members
  | _ => .ok []

/-- The same from the members of the definition, of which `properties` holds the fields. -/
def fieldsInMembers (path : String) :
    List (String × Json) → Except Error (List (String × FieldMapping))
  | [] => .ok []
  | (name, value) :: rest =>
    if name = "properties" then
      match value with
      | .obj properties => fieldsBelow path properties
      | _ => .ok []
    else fieldsInMembers path rest

end

/-- The properties of a tree: its `properties` member, or the tree itself where it has
    none. -/
def properties? (tree : Json) : Option (List (String × Json)) :=
  match tree.get? "properties" with
  | some properties => properties.asObject?
  | none => tree.asObject?

/-- The flat mappings of some properties. Of several visits to one path the last counts. -/
def flatten (properties : List (String × Json)) :
    Except Error (List (String × FieldMapping)) :=
  (fieldsBelow "" properties).map Keyed.ofList

end MappingTree

end DocSearch
