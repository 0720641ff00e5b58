import DocSearch.Json.Basic

/-!
# Records

The values that are handed out, hits, pages and results, can be handed back in. Such a
record is an object whose members are the fields; members that are no field are passed
over. It may also be given as an array of the fields in their fixed order. Fields that are
left out where they are empty may be missing from the end of the array, but it may not
hold more than there are fields.

## Main definitions

* `Json.Record`: The fields of a record, by name or by place.
* `Json.Record.ofJson?`: A value as a record.
* `Json.Record.field?`: One field.
-/

namespace DocSearch

namespace Json

/-- The fields of a record. -/
inductive Record where
  | named (members : List (String × Json))
  | listed (elements : List Json)

namespace Record

/-- A value as a record with so many fields, of which the first ones are required in an
    array. -/
def ofJson? (required total : Nat) : Json → Option Record
  | .obj members => some (.named members)
  | .arr elements =>
    if required ≤ elements.length ∧ elements.length ≤ total then some (.listed elements)
    else none
  | _ => none

/-- The field with a place and a name. -/
def field? (place : Nat) (name : String) : Record → Option Json
  | .named members => Keyed.get? name members
  | .listed elements => elements[place]?

/-- A field that may be left out, which `null` does as well. -/
def optional? (place : Nat) (name : String) (record : Record) : Option Json :=
  match record.field? place name with
  | none | some .null => none
  | some value => some value

end Record

end Json

end DocSearch
