import DocSearch.Mapping.Schema
import DocSearch.Proofs.Keyed
import DocSearch.Proofs.Outcome

/-!
# Reading Schemas Back

A schema keeps the properties that its mappings were read from, and shows them to clients as a
tree. Reading that tree must give the same schema, or a client who fetches mappings and sends
them back would change what queries mean.

A schema is faithful if its mappings are what its properties are read as. Reading makes a faithful
schema, and one without properties is faithful. The name of the index plays no part, so a
faithful schema stays one under another name. An override is different: it changes a mapping
and leaves the properties alone. That is why overrides stay inside the query they were made for.

Which fields are copied where follows from the mappings. It is told in two ways, as a table of all
targets and as an answer for one, and both tell the same.

## Main definitions

* `Schema.Faithful`: The mappings are what the properties are read as.

## Theorems

* `ofTree_eq_ok_iff`: What is read from a tree.
* `faithful_of_ofTree`: Reading makes a faithful schema.
* `ofTree_toTree`: The tree of a faithful schema is read as that schema.
* `get?_copyTable`: The table of all targets answers for each of them.
-/

namespace DocSearch

namespace Schema

variable {schema : Schema} {indexName : String} {tree : Json}

/-- The mappings are what the properties are read as. -/
def Faithful (schema : Schema) : Prop :=
  MappingTree.flatten schema.properties = .ok schema.mappings

/-- A tree is read as the schema with its name, its properties and the mappings that these flatten
    to. -/
theorem ofTree_eq_ok_iff :
    ofTree indexName tree = .ok schema
      ↔ schema.indexName = indexName ∧ MappingTree.properties? tree = some schema.properties
        ∧ schema.Faithful := by
  unfold ofTree Faithful
  cases hproperties : MappingTree.properties? tree with
  | none => simp
  | some properties =>
    simp only [Outcome.map_eq_ok_iff, Option.some.injEq]
    constructor
    · rintro ⟨mappings, hmappings, rfl⟩
      exact ⟨rfl, rfl, hmappings⟩
    · rintro ⟨rfl, rfl, hmappings⟩
      exact ⟨schema.mappings, hmappings, rfl⟩

/-- What is read from a tree is faithful to its properties. -/
theorem faithful_of_ofTree (h : ofTree indexName tree = .ok schema) : schema.Faithful :=
  (ofTree_eq_ok_iff.mp h).2.2

-- So is a schema without any.
theorem faithful_empty (indexName : String) : Faithful { indexName } := rfl

/-- The tree of a faithful schema is read as that schema, under the name of the index that reads
    it. -/
theorem ofTree_toTree (h : schema.Faithful) (indexName : String) :
    ofTree indexName schema.toTree = .ok { schema with indexName } :=
  ofTree_eq_ok_iff.mpr ⟨rfl, rfl, h⟩

/-! ### Copy targets -/

/-- A table that is built copy by copy holds for a target what was there before, and behind it the
    fields of all copies to the target. By induction on the copies, whatever the table. -/
theorem get?_foldl_upsert (target : String) (copies : List (String × String)) :
    ∀ table : List (String × List String),
      Keyed.get? target (copies.foldl
          (fun table copy => Keyed.upsert copy.1 [] (· ++ [copy.2]) table) table)
        = match copies.filter fun copy => copy.1 = target with
          | [] => Keyed.get? target table
          | found => some ((Keyed.get? target table).getD [] ++ found.map Prod.snd) := by
  induction copies with
  | nil => exact fun _ => rfl
  | cons copy rest ih =>
    intro table
    rw [List.foldl_cons, ih, Keyed.get?_upsert]
    by_cases htarget : copy.1 = target
    · rw [List.filter_cons_of_pos (by simpa using htarget), if_pos htarget, htarget]
      cases hrest : rest.filter fun copy => copy.1 = target with
      | nil => simp
      | cons first others => simp
    · rw [List.filter_cons_of_neg (by simpa using htarget), if_neg htarget]

/-- The table of all targets answers for each of them, and has no entry for what is no target. -/
theorem get?_copyTable (schema : Schema) (target : String) :
    Keyed.get? target schema.copyTable = schema.copySources? target := by
  have htable := get?_foldl_upsert target schema.copies []
  rw [copyTable, copySources?]
  refine htable.trans ?_
  cases schema.copies.filter fun copy => copy.1 = target with
  | nil => rfl
  | cons first others => rfl

end Schema

end DocSearch
