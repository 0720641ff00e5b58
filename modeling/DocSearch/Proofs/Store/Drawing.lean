import DocSearch.Proofs.Store.Collections
import DocSearch.Proofs.Store.Failure

/-!
# Drawn Identifiers

A document that is put under an identifier drawn for it never takes the place of another one.

With a source of randomness that does not repeat itself there would be nothing to show. But what is
drawn is an id like any other, clients may have put documents under it themselves, and putting
under an id that is in use replaces what is there without an error. So nothing is presumed of what
is drawn here. It may be one identifier every time, or only such as are in use. The store draws
again until it has one that is not, and gives up after some attempts.

It is the identifiers that decide then. If one of them is not in use, the first such is the new id,
and its document comes behind all others. If all are in use, the database is as it was: an index
that holds documents is there already, so not even an index was created.

## Main definitions

* `Database.Refilled`: An index has other documents, and nothing else is different.

## Theorems

* `refilled_store`: Storing an index with other documents.
* `unusedId?_eq_some_iff`, `unusedId?_eq_none_iff`: Which identifier is taken, if any.
* `add_eq_ok_iff`: What putting a document under a drawn identifier does where it succeeds.
* `add_of_used`: Nothing happens where all identifiers are in use.
* `drawn_ids_are_new`: Drawn identifiers never take the place of others.
-/

namespace DocSearch

namespace Collection

variable {rows : Collection} {draw : Nat → String} {id : String}

/-- The identifier that is taken is the first that is not in use. -/
theorem unusedId?_eq_some_iff :
    unusedId? rows draw = some id
      ↔ ∃ place < Database.drawAttempts, draw place = id ∧ id ∉ Keyed.keys rows
          ∧ ∀ earlier < place, draw earlier ∈ Keyed.keys rows := by
  rw [unusedId?, List.find?_map, Option.map_eq_some_iff]
  simp only [List.find?_range_eq_some, List.mem_range, Function.comp_apply, Bool.not_not,
    Bool.not_eq_true', ← Bool.not_eq_true, Keyed.contains_iff]
  refine exists_congr fun place => ?_
  constructor
  · rintro ⟨⟨hfree, hplace, hearlier⟩, rfl⟩
    exact ⟨hplace, rfl, hfree, hearlier⟩
  · rintro ⟨hplace, rfl, hfree, hearlier⟩
    exact ⟨⟨hfree, hplace, hearlier⟩, rfl⟩

/-- None is taken if all that are drawn are in use. -/
theorem unusedId?_eq_none_iff :
    unusedId? rows draw = none
      ↔ ∀ place < Database.drawAttempts, draw place ∈ Keyed.keys rows := by
  rw [unusedId?, List.find?_eq_none, List.forall_mem_map]
  simp only [List.mem_range, Bool.not_eq_true, Bool.not_eq_false', Keyed.contains_iff]

end Collection

namespace Database

variable {db ensured after : Database} {name id : String} {index : Index}
  {table : DocumentTable} {rows : Collection} {document : Json} {draw : Nat → String}

/-- An index that is there or was created has other documents, and that is all that is
    different. -/
structure Refilled (db : Database) (name : String) (rows : Collection) (after : Database) :
    Prop where
  documents : after.documents name = .ok rows
  rest : ∃ index documents, (db.withIndex name).index name = .ok index
    ∧ after = (db.withIndex name).store name { index with documents }
  others : ∀ other, other ≠ name → after.index other = db.index other

theorem refilled_store (hensure : db.ensureIndex name = .ok (index, ensured))
    (hrows : table.toList = rows) :
    db.Refilled name rows (ensured.store name { index with documents := table }) where
  documents := by
    rw [Database.documents, index_store, Except.map, hrows]
  rest := by
    rw [← withIndex_of_ok hensure]
    exact ⟨index, table, index_of_get? (writings_ensureIndex hensure).2, rfl⟩
  others other hne :=
    (index_store_of_ne hne ensured _).trans (index_of_ensureIndex hensure hne)

/-- Putting a document under a drawn identifier succeeds where an index is there or can be created,
    an identifier is not in use, and the document is an object. Then it is put there. -/
theorem add_eq_ok_iff (hsound : EachIndex Index.Sound db) :
    db.add name document draw = (.ok id, after)
      ↔ ∃ index ensured, db.ensureIndex name = .ok (index, ensured)
          ∧ Collection.unusedId? index.documents.toList draw = some id
          ∧ document.isObject = true
          ∧ ensured.store name { index with documents := (index.documents.put id document).2 }
            = after := by
  unfold add
  cases hensure : db.ensureIndex name with
  | error error => simp
  | ok found =>
    rcases found with ⟨index, ensured⟩
    simp only [unusedId?_toList (sound_of_ensureIndex hsound hensure).2.linked]
    -- The id is drawn before the document is looked at, so an object is refused when no id is left.
    cases hdraw : Collection.unusedId? index.documents.toList draw with
    | none => simp [hdraw]
    | some drawn =>
      cases hobject : document.isObject with
      | true =>
        simp only [Index.put_of_isObject hobject, Prod.mk.injEq, Except.ok.injEq]
        constructor
        · rintro ⟨rfl, rfl⟩
          exact ⟨index, ensured, ⟨rfl, rfl⟩, hdraw, trivial, rfl⟩
        · rintro ⟨_, _, ⟨rfl, rfl⟩, hsame, _, rfl⟩
          rw [hdraw, Option.some.injEq] at hsame
          exact ⟨hsame, by rw [hsame]⟩
      | false => simp [Index.put_of_not_isObject hobject]

/-- Where all identifiers that are drawn are in use, nothing happens. An id in use means that the
    index is there. -/
theorem add_of_used (hsound : EachIndex Index.Sound db)
    (hused : ∀ place < drawAttempts, draw place ∈ Keyed.keys ((db.collections name).getD [])) :
    db.add name document draw = (.error (.identifiersExhausted name), db) := by
  cases hget : Keyed.get? name db.indexes with
  | none =>
    have hfirst := hused 0 (by decide)
    rw [collections, hget] at hfirst
    exact absurd hfirst List.not_mem_nil
  | some index =>
    have hensure := ensureIndex_of_get? hget
    rcases sound_of_ensureIndex hsound hensure with ⟨hname, hindex⟩
    rw [getD_collections hensure] at hused
    have hdraw := Collection.unusedId?_eq_none_iff.mpr hused
    simp only [add, hensure, unusedId?_toList hindex.linked, hdraw, hname]

/-- Whatever identifiers are drawn for a document in a reachable database, it takes the place of no
    other. Putting it succeeds exactly if the index is there or may be created, the document is an
    object, and one of the identifiers is not in use in the index. The id is then the first such,
    and all documents of the index are as before and in their order, with the new one behind them.
    If all identifiers are in use, an internal error says so, and the whole database is as
    before. -/
theorem drawn_ids_are_new (config : Config) (history : List Command) {db : Database}
    (hdb : db = (empty config).after history) (name : String) (document : Json)
    (draw : Nat → String) :
    let rows := (db.collections name).getD []
    ((∃ id, (db.add name document draw).1 = .ok id)
        ↔ (name ≠ "" ∨ db.indexExists name = true) ∧ document.isObject = true
          ∧ ∃ place < drawAttempts, draw place ∉ Keyed.keys rows)
      ∧ (∀ id after, db.add name document draw = (.ok id, after) →
          (∃ place < drawAttempts, draw place = id
              ∧ ∀ earlier < place, draw earlier ∈ Keyed.keys rows)
            ∧ id ∉ Keyed.keys rows
            ∧ db.Refilled name (rows ++ [(id, document)]) after)
      ∧ ((∀ place < drawAttempts, draw place ∈ Keyed.keys rows) →
          ∃ error : Error, error.kind = .internal
            ∧ db.add name document draw = (.error error, db)) := by
  intro rows
  have hsound : EachIndex Index.Sound db := by
    rw [hdb]
    exact sound_after config history
  refine ⟨⟨?_, ?_⟩, ?_, fun hused => ⟨_, rfl, add_of_used hsound hused⟩⟩
  · -- An id was returned, so one of the drawn ids was unused.
    rintro ⟨id, hok⟩
    rcases (add_eq_ok_iff hsound).mp (Prod.ext hok rfl) with
      ⟨index, ensured, hensure, hdraw, hobject, _⟩
    rw [← getD_collections hensure] at hdraw
    rcases Collection.unusedId?_eq_some_iff.mp hdraw with ⟨place, hplace, rfl, hfree, _⟩
    exact ⟨exists_ensureIndex_iff.mp ⟨index, ensured, hensure⟩, hobject, place, hplace, hfree⟩
  · -- One of the drawn ids is unused, so the first such one is returned.
    rintro ⟨hname, hobject, place, hplace, hfree⟩
    rcases exists_ensureIndex_iff.mpr hname with ⟨index, ensured, hensure⟩
    cases hdraw : Collection.unusedId? rows draw with
    | none => exact absurd (Collection.unusedId?_eq_none_iff.mp hdraw place hplace) hfree
    | some id =>
      have hrows : rows = index.documents.toList := getD_collections hensure
      rw [hrows] at hdraw
      exact ⟨id, congrArg Prod.fst
        ((add_eq_ok_iff hsound).mpr ⟨index, ensured, hensure, hdraw, hobject, rfl⟩)⟩
  · intro id after hok
    rcases (add_eq_ok_iff hsound).mp hok with ⟨index, ensured, hensure, hdraw, _, rfl⟩
    have hlinked := (sound_of_ensureIndex hsound hensure).2.linked
    have hrows : rows = index.documents.toList := getD_collections hensure
    rw [← hrows] at hdraw
    rcases Collection.unusedId?_eq_some_iff.mp hdraw with
      ⟨place, hplace, hplaced, hfree, hearlier⟩
    refine ⟨⟨place, hplace, hplaced, hearlier⟩, hfree, refilled_store hensure ?_⟩
    rw [DocumentTable.toList_put hlinked, ← hrows, Collection.put_of_notMem hfree]

/-- In the harbour a boat is put under the first identifier that no other boat has, and if there is
    none it is refused. -/
theorem drawn_ids_are_new_harbour :
    (∃ after, harbour.add "boats" (.obj []) (fun place => if place < 2 then "2" else "3")
          = (.ok "3", after)
        ∧ after.documents "boats"
          = .ok [("1", .obj [("name", .str "blue sea")]), ("2", .obj [("name", .str "red sail")]),
              ("3", .obj [])])
      ∧ ∃ error : Error, error.kind = .internal
        ∧ harbour.add "boats" (.obj []) (fun _ => "2") = (.error error, harbour) := by
  have hdrawn := drawn_ids_are_new {} fillHarbour rfl "boats" (.obj [])
    fun place => if place < 2 then "2" else "3"
  have hused := drawn_ids_are_new {} fillHarbour rfl "boats" (.obj []) fun _ => "2"
  exact ⟨⟨_, rfl, (hdrawn.2.1 "3" _ rfl).2.2.documents⟩, hused.2.2 fun _ _ => by decide⟩

end Database

end DocSearch
