import DocSearch.Proofs.Mapping.Reading
import DocSearch.Proofs.Store.Contents

/-!
# Coherent Indexes

The parts of an index that tell the same thing, and that they never disagree.

A name is told three times, by the table of indexes, by the index and by its schema. Mappings are
told twice, by the tree that clients see and by the flat list that queries use. Every operation
changes all of these or none. Two of them could go wrong: a copy takes its schema along and has to
rename it, and new mappings come from a tree that may be refused halfway.

What follows is that mappings can be sent back. Whatever a database answers when asked for the
mappings of an index is accepted when they are set again, and the whole database is as it was.

## Main definitions

* `Index.Coherent`: The schema carries the name of the index and is faithful to its properties.
* `Database.launch`: Commands that map, fill and copy an index.

## Theorems

* `invariant_coherent`: No operation on an index makes it incoherent.
* `setMappings_of_coherent`: A coherent index that is given its own mappings stays as it is.
* `setMappings_mappings`: So does the database it is in.
* `coherent_after`: What all indexes of reachable databases have in common.
-/

namespace DocSearch

namespace Index

variable {index written : Index}

/-- The schema carries the name of the index, and its mappings are what its properties are read
    as. -/
structure Coherent (index : Index) : Prop where
  schemaName : index.schema.indexName = index.name
  faithful : index.schema.Faithful

/-- Coherence looks at the name and the mappings alone. -/
theorem coherent_of_same (h : index.Coherent) (hname : written.name = index.name)
    (hschema : written.schema = index.schema) : written.Coherent where
  schemaName := by rw [hschema, hname, h.schemaName]
  faithful := by
    rw [hschema]
    exact h.faithful

theorem coherent_put (h : index.Coherent) {id : String} {document : Json} {isNew : Bool}
    (hput : index.put id document = .ok (isNew, written)) : written.Coherent := by
  rw [put_of_isObject (isObject_of_put hput)] at hput
  cases hput
  exact coherent_of_same h rfl rfl

theorem coherent_setMappings {tree : Json} (hset : index.setMappings tree = .ok written) :
    written.Coherent := by
  rcases Outcome.map_eq_ok_iff.mp hset with ⟨schema, hread, rfl⟩
  rcases Schema.ofTree_eq_ok_iff.mp hread with ⟨hname, _, hfaithful⟩
  exact ⟨hname, hfaithful⟩

/-- No operation on an index makes it incoherent. A copy is renamed together with its schema, and
    what a schema is read as does not depend on its name. -/
theorem invariant_coherent : Invariant Coherent where
  empty name _ := ⟨rfl, Schema.faithful_empty name⟩
  put h hput := coherent_put h hput
  remove _ h := coherent_of_same h rfl rfl
  setMappings _ hset := coherent_setMappings hset
  setSettings _ h := coherent_of_same h rfl rfl
  cloneAs _ _ h := ⟨rfl, h.faithful⟩

/-- The tree that a coherent index shows is read as its schema. -/
theorem ofTree_of_coherent (h : index.Coherent) :
    Schema.ofTree index.name index.schema.toTree = .ok index.schema := by
  rw [Schema.ofTree_toTree h.faithful, ← h.schemaName]

/-- A coherent index that is given its own mappings stays as it is. -/
theorem setMappings_of_coherent (h : index.Coherent) :
    index.setMappings index.schema.toTree = .ok index := by
  rw [setMappings, ofTree_of_coherent h]
  rfl

end Index

namespace Database

variable {db : Database} {name : String} {index : Index}

/-- Storing an index where it is already changes nothing. -/
theorem store_of_get? (hordered : Keyed.Ordered db.indexes)
    (hget : Keyed.get? name db.indexes = some index) : db.store name index = db := by
  rw [store, Keyed.insert_of_get?_eq_some hordered hget]

/-- The mappings of a coherent index can be sent back, and the whole database is as it was. -/
theorem setMappings_mappings (hordered : Keyed.Ordered db.indexes)
    (hget : Keyed.get? name db.indexes = some index) (h : index.Coherent) :
    db.mappings name = .ok index.schema.toTree
      ∧ db.setMappings name index.schema.toTree = (.ok (), db) := by
  constructor
  · rw [mappings, Database.index, hget]
    rfl
  · rw [setMappings, ensureIndex_of_get? hget]
    simp only [Index.setMappings_of_coherent h, store_of_get? hordered hget]

/-- In a reachable database every index is kept under the name that it and its schema carry, and
    holds objects only. Its mappings are what the properties it shows are read as, and the table of
    copy targets is what these mappings make it. So its mappings can be sent back, and nothing
    changes. -/
theorem coherent_after (config : Config) (commands : List Command) {db : Database}
    (hdb : db = (empty config).after commands) {name : String} {index : Index}
    (hmem : (name, index) ∈ db.indexes) :
    (index.name = name ∧ index.schema.indexName = name)
      ∧ (∀ row ∈ index.documents.toList, row.2.isObject = true)
      ∧ Schema.ofTree name index.schema.toTree = .ok index.schema
      ∧ (∀ target, Keyed.get? target index.schema.copyTable = index.schema.copySources? target)
      ∧ db.mappings name = .ok index.schema.toTree
      ∧ db.setMappings name index.schema.toTree = (.ok (), db) := by
  have hordered : Keyed.Ordered db.indexes := by
    rw [hdb]
    exact ordered_after config commands
  have hget := Keyed.get?_of_mem (Keyed.nodup_keys_of_ordered hordered) hmem
  rw [hdb] at hmem
  rcases eachIndex_after Index.invariant_coherent config commands name index hmem with
    ⟨hname, hcoherent⟩
  have hobjects := (sound_after config commands name index hmem).2.objects
  refine ⟨⟨hname, hcoherent.schemaName.trans hname⟩, hobjects, ?_,
    Schema.get?_copyTable index.schema, setMappings_mappings hordered hget hcoherent⟩
  rw [← hname]
  exact Index.ofTree_of_coherent hcoherent

/-- Commands that map and fill an index, try to map it otherwise, and copy it and its documents. -/
def launch : List Command :=
  [.setMappings "boats" (.obj [("name", .obj [("copy_to", .str "all"), ("type", .str "text")])]),
    .put "boats" "1" (.obj [("name", .str "blue sea")]),
    .setMappings "boats" (.obj [("name", .str "text")]),
    .setSettings "boats" (.obj [("index.blocks.write", .bool true)]),
    .cloneIndex "boats" "ships",
    .reindex "boats" "ships"]

/-- The copy carries the new name throughout, copies names to the target, and can be given its
    mappings again. -/
theorem coherent_after_ships :
    ∃ index, ("ships", index) ∈ ((empty {}).after launch).indexes
      ∧ index.schema.indexName = "ships"
      ∧ index.schema.copySources? "all" = some ["name"]
      ∧ Keyed.get? "all" index.schema.copyTable = some ["name"]
      ∧ ((empty {}).after launch).setMappings "ships" index.schema.toTree
        = (.ok (), (empty {}).after launch) := by
  have hmem := Keyed.mem_of_get?_eq_some
    (rfl : Keyed.get? "ships" ((empty {}).after launch).indexes = some _)
  rcases coherent_after {} launch rfl hmem with ⟨⟨_, hschema⟩, _, _, htable, _, hset⟩
  exact ⟨_, hmem, hschema, rfl, (htable "all").trans rfl, hset⟩

end Database

end DocSearch
