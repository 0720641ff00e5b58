import DocSearch.Proofs.Store.Reachable
import DocSearch.Proofs.Store.Table

/-!
# What an Index Holds

Two things are true of the documents of every index in every reachable database. They are in a
table whose maps lead to each other, and they are objects.

The first makes the table as good as a list. The second is why documents can be copied without
being looked at: whatever an index holds was accepted once, so it is accepted again.

## Main definitions

* `Index.Sound`: The two things that are true of an index.

## Theorems

* `put_of_isObject`, `put_of_not_isObject`: Which documents are accepted.
* `invariant_sound`, `sound_after`: Every index of a reachable database is sound.
* `putAll_of_isObject`: Putting objects one after another is never refused.
-/

namespace DocSearch

namespace Index

variable {index written : Index} {id : String} {document : Json}

/-- An index takes every document that is an object. -/
theorem put_of_isObject (h : document.isObject = true) :
    index.put id document = .ok ((index.documents.put id document).1,
      { index with documents := (index.documents.put id document).2 }) := by
  unfold Index.put
  rw [if_pos h]

/-- Anything else is refused, with an error that names the id and the index. -/
theorem put_of_not_isObject (h : document.isObject = false) :
    index.put id document = .error (.documentNotObject id index.name) := by
  unfold Index.put
  rw [h]
  rfl

theorem isObject_of_put {isNew : Bool} (h : index.put id document = .ok (isNew, written)) :
    document.isObject = true := by
  cases hobject : document.isObject with
  | true => rfl
  | false =>
    rw [put_of_not_isObject hobject] at h
    exact absurd h (by simp)

/-- The maps of the table lead to each other, and all documents are objects. -/
structure Sound (index : Index) : Prop where
  linked : index.documents.Linked
  objects : ∀ row ∈ index.documents.toList, row.2.isObject = true

/-- Soundness looks at the documents alone. -/
theorem sound_of_documents (h : index.Sound) (hsame : written.documents = index.documents) :
    written.Sound where
  linked := by
    rw [hsame]
    exact h.linked
  objects := by
    rw [hsame]
    exact h.objects

/-- A written index is sound: the document was checked to be an object, and the table stays linked.
    -/
theorem sound_put (h : index.Sound) {isNew : Bool}
    (hput : index.put id document = .ok (isNew, written)) : written.Sound := by
  have hobject := isObject_of_put hput
  rw [put_of_isObject hobject] at hput
  cases hput
  refine ⟨DocumentTable.linked_put h.linked id document, fun row hrow => ?_⟩
  rw [DocumentTable.toList_put h.linked] at hrow
  rcases Collection.mem_of_mem_put hrow with rfl | hold
  · exact hobject
  · exact h.objects row hold

theorem sound_remove (h : index.Sound) (id : String) : (index.remove id).2.Sound := by
  refine ⟨DocumentTable.linked_remove h.linked id, fun row hrow => ?_⟩
  have herased : row ∈ Keyed.erase id index.documents.toList := by
    rw [← DocumentTable.toList_remove h.linked]
    exact hrow
  exact h.objects row (List.mem_filter.mp herased).1

/-- No operation on an index makes it unsound. -/
theorem invariant_sound : Invariant Sound where
  empty _ _ := ⟨DocumentTable.linked_empty, fun _ hrow => absurd hrow List.not_mem_nil⟩
  put h hput := sound_put h hput
  remove id h := sound_remove h id
  setMappings h hset := by
    rcases Outcome.map_eq_ok_iff.mp hset with ⟨schema, _, rfl⟩
    exact sound_of_documents h rfl
  setSettings _ h := sound_of_documents h rfl
  cloneAs _ _ h := sound_of_documents h rfl

end Index

namespace Database

/-- Every index of a reachable database is sound. -/
theorem sound_after (config : Config) (commands : List Command) :
    EachIndex Index.Sound ((empty config).after commands) :=
  eachIndex_after Index.invariant_sound config commands

theorem sound_of_index {db : Database} {name : String} {index : Index}
    (h : EachIndex Index.Sound db) (hindex : db.index name = .ok index) :
    index.name = name ∧ index.Sound :=
  eachIndex_get? h (get?_of_index hindex)

-- An index that is asked for is as sound as those that were there, created or not.
theorem sound_of_ensureIndex {db ensured : Database} {name : String} {index : Index}
    (h : EachIndex Index.Sound db) (hensure : db.ensureIndex name = .ok (index, ensured)) :
    index.name = name ∧ index.Sound := by
  rcases writings_ensureIndex hensure with ⟨hwritings, hget⟩
  have hchanges := changes_of_writings hwritings
  exact eachIndex_get? (eachIndex_of_changes Index.invariant_sound h hchanges) hget

-- By induction on the documents, whatever the index they are put into.
theorem putAll_of_isObject (documents : List (String × Json)) :
    ∀ index : Index, (∀ row ∈ documents, row.2.isObject = true) →
      (putAll index documents).1 = .ok () := by
  induction documents with
  | nil => exact fun _ _ => rfl
  | cons row rest ih =>
    intro index hobjects
    have hhead := hobjects row List.mem_cons_self
    rw [putAll, Index.put_of_isObject hhead]
    exact ih _ fun other hother => hobjects other (List.mem_cons_of_mem _ hother)

end Database

end DocSearch
