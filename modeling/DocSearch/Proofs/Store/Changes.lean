import DocSearch.Keyed
import DocSearch.Store.Command
import Mathlib.Logic.Relation

/-!
# What Writing Does

Every command that writes is a run of a few changes.

There are ten such commands, and most of them go through the same motions: look for an index,
create it if it is not there, do something to it, keep the result. What they do to a
database comes down to four changes. An index is created, it is written to, it is copied, or
it is deleted. Being written to comes down to four more, which are the operations of one
index. A command that fails in the middle has made the changes before the one that failed.

What every change keeps is kept by every command that writes, by induction on the run, and
nobody has to look into the commands again to see it.

Most of the ten commands only create indexes and write to them. They are a run of the first two
changes, and what copying or deleting an index would do need not be asked of them.

## Main definitions

* `Index.Change`: One operation on an index.
* `Database.Change`: One change to the indexes of a database.
* `Database.Writing`: One that creates an index or writes to one.
* `Command.touchesScrolls`, `Command.touchesIndexes`: What a command may change at all.
* `Command.onlyWrites`: The commands that only create indexes and write to them.

## Theorems

* `ensureIndex_cases`, `cloneIndex_cases`: What asking for an index and copying one can do.
* `writings_ensureIndex`: An index that is asked for is there, created or not.
* `writings_execute`: What a command does that only writes.
* `changes_execute`: What a command does that leaves the scrolls alone.
-/

namespace DocSearch

open Relation

/-- One operation on an index. -/
inductive Index.Change : Index → Index → Prop where
  | put {index written : Index} {id : String} {document : Json} {isNew : Bool}
      (hput : index.put id document = .ok (isNew, written)) : Change index written
  | remove (index : Index) (id : String) : Change index (index.remove id).2
  | setMappings {index mapped : Index} {tree : Json}
      (hset : index.setMappings tree = .ok mapped) : Change index mapped
  | setSettings (index : Index) (settings : Json) : Change index (index.setSettings settings)

/-- One change to the indexes of a database. -/
inductive Database.Change : Database → Database → Prop where
  /-- An index is created where none was, and not under the empty name. -/
  | create {db : Database} {name : String} (hfree : Keyed.get? name db.indexes = none)
      (hname : name ≠ "") :
      Change db { db.store name (Index.empty name db.nextIdentity) with
        nextIdentity := db.nextIdentity + 1 }
  /-- An index is written to. -/
  | write {db : Database} {name : String} {index written : Index}
      (hindex : Keyed.get? name db.indexes = some index)
      (hwritten : ReflTransGen Index.Change index written) : Change db (db.store name written)
  /-- An index is copied to where none was. -/
  | clone {db : Database} {source target : String} {index : Index}
      (hindex : Keyed.get? source db.indexes = some index)
      (hfree : Keyed.get? target db.indexes = none) :
      Change db { db.store target (index.cloneAs target db.nextIdentity) with
        nextIdentity := db.nextIdentity + 1 }
  /-- An index is deleted. -/
  | delete (db : Database) (name : String) :
      Change db { db with indexes := Keyed.erase name db.indexes }

/-- One change that creates an index or writes to one. -/
inductive Database.Writing : Database → Database → Prop where
  | create {db : Database} {name : String} (hfree : Keyed.get? name db.indexes = none)
      (hname : name ≠ "") :
      Writing db { db.store name (Index.empty name db.nextIdentity) with
        nextIdentity := db.nextIdentity + 1 }
  | write {db : Database} {name : String} {index written : Index}
      (hindex : Keyed.get? name db.indexes = some index)
      (hwritten : ReflTransGen Index.Change index written) : Writing db (db.store name written)

/-- Every write is one of the changes a database can undergo. -/
theorem Database.Writing.change {before after : Database} (h : Writing before after) :
    Change before after := by
  cases h with
  | create hfree hname => exact .create hfree hname
  | write hindex hwritten => exact .write hindex hwritten

/-- Whether a command may open, move or close a scroll. -/
def Command.touchesScrolls : Command → Bool
  | .clear | .search .. | .searchBody .. | .multiSearch .. | .continueScroll _
  | .clearScroll _ => true
  | _ => false

/-- Whether a command may create, change or delete an index. -/
def Command.touchesIndexes : Command → Bool
  | .createIndex .. | .deleteIndex _ | .clear | .put .. | .add .. | .remove ..
  | .setMappings .. | .setSettings .. | .cloneIndex .. | .reindex .. => true
  | _ => false

/-- Whether a command only creates indexes and writes to them. -/
def Command.onlyWrites : Command → Bool
  | .createIndex .. | .put .. | .add .. | .remove .. | .setMappings .. | .setSettings ..
  | .reindex .. => true
  | _ => false

namespace Database

variable {db ensured : Database} {name : String} {index written : Index}

/-! ### Finding an index -/

/-- An index that is found by its name is stored under it. -/
theorem get?_of_index (h : db.index name = .ok index) :
    Keyed.get? name db.indexes = some index := by
  unfold Database.index at h
  cases hget : Keyed.get? name db.indexes with
  | none =>
    rw [hget] at h
    exact absurd h (by simp)
  | some found =>
    rw [hget] at h
    cases h
    rfl

theorem index_of_get? (h : Keyed.get? name db.indexes = some index) :
    db.index name = .ok index := by
  rw [Database.index, h]

theorem ensureIndex_of_get? (h : Keyed.get? name db.indexes = some index) :
    db.ensureIndex name = .ok (index, db) := by
  rw [ensureIndex, h]

theorem index_store (db : Database) (name : String) (index : Index) :
    (db.store name index).index name = .ok index := by
  rw [Database.index, store, Keyed.get?_insert, if_pos rfl]

theorem index_store_of_ne {other : String} (hne : other ≠ name) (db : Database) (index : Index) :
    (db.store name index).index other = db.index other := by
  rw [Database.index, store, Keyed.get?_insert, if_neg hne.symm]
  rfl

/-- An index can be asked for if it is there or may be created. -/
theorem exists_ensureIndex_iff :
    (∃ index ensured, db.ensureIndex name = .ok (index, ensured))
      ↔ name ≠ "" ∨ db.indexExists name = true := by
  unfold ensureIndex indexExists Keyed.contains
  cases Keyed.get? name db.indexes with
  | some index => simp
  | none =>
    by_cases hname : name = ""
    · simp [hname]
    · simp [hname]

/-- All that asking for an index can do: it is there and nothing changes, or a new one is stored
    under a name that is not empty. -/
theorem ensureIndex_cases (h : db.ensureIndex name = .ok (index, ensured)) :
    (Keyed.get? name db.indexes = some index ∧ ensured = db)
      ∨ Keyed.get? name db.indexes = none ∧ name ≠ ""
        ∧ index = Index.empty name db.nextIdentity
        ∧ ensured = { db.store name index with nextIdentity := db.nextIdentity + 1 } := by
  unfold ensureIndex at h
  cases hget : Keyed.get? name db.indexes with
  | some found =>
    rw [hget] at h
    cases h
    exact .inl ⟨rfl, rfl⟩
  | none =>
    rw [hget] at h
    by_cases hname : name = ""
    · rw [if_pos hname] at h
      exact absurd h (by simp)
    · rw [if_neg hname] at h
      cases h
      exact .inr ⟨rfl, hname, rfl, rfl⟩

/-- An index that is asked for is there afterwards, and creating it is all that was done. -/
theorem writings_ensureIndex (h : db.ensureIndex name = .ok (index, ensured)) :
    ReflTransGen Writing db ensured ∧ Keyed.get? name ensured.indexes = some index := by
  rcases ensureIndex_cases h with ⟨hget, rfl⟩ | ⟨hfree, hname, rfl, rfl⟩
  · exact ⟨ReflTransGen.refl, hget⟩
  · refine ⟨ReflTransGen.single (Writing.create hfree hname), ?_⟩
    exact (Keyed.get?_insert name name _ db.indexes).trans (if_pos rfl)

-- Finding an index or creating it leaves all others as they are.
theorem index_of_ensureIndex {other : String} (h : db.ensureIndex name = .ok (index, ensured))
    (hne : other ≠ name) : ensured.index other = db.index other := by
  rcases ensureIndex_cases h with ⟨_, rfl⟩ | ⟨_, _, _, rfl⟩
  · rfl
  · exact index_store_of_ne hne db _

-- What most commands do: find or create an index, and write to it.
theorem writings_store (h : db.ensureIndex name = .ok (index, ensured))
    (hwritten : ReflTransGen Index.Change index written) :
    ReflTransGen Writing db (ensured.store name written) := by
  rcases writings_ensureIndex h with ⟨hensured, hindex⟩
  exact hensured.tail (Writing.write hindex hwritten)

/-! ### Commands that only write -/

/-- An index is created, or found, and then its settings are replaced. -/
theorem writings_createIndex (db : Database) (name : String) (settings : Option Json) :
    ReflTransGen Writing db (db.createIndex name settings).2 := by
  unfold createIndex
  cases hensure : db.ensureIndex name with
  | error error => exact ReflTransGen.refl
  | ok found =>
    cases settings with
    | none => exact (writings_ensureIndex hensure).1
    | some settings =>
      exact writings_store hensure (ReflTransGen.single (Index.Change.setSettings _ settings))

/-- A write of a document comes to the creation of its index, if it is missing, and one change of
    that index. When the document is refused only the creation has happened. -/
theorem writings_put (db : Database) (name id : String) (document : Json) :
    ReflTransGen Writing db (db.put name id document).2 := by
  unfold put
  cases hensure : db.ensureIndex name with
  | error error => exact ReflTransGen.refl
  | ok found =>
    rcases found with ⟨index, ensured⟩
    cases hput : index.put id document with
    | error error =>
      simp only [hput]
      exact (writings_ensureIndex hensure).1
    | ok result =>
      simp only [hput]
      exact writings_store hensure (ReflTransGen.single (Index.Change.put hput))

/-- Adding a document is a write under a drawn id, with one more way to fail in between: no unused
    id may be found. -/
theorem writings_add (db : Database) (name : String) (document : Json) (draw : Nat → String) :
    ReflTransGen Writing db (db.add name document draw).2 := by
  unfold add
  cases hensure : db.ensureIndex name with
  | error error => exact ReflTransGen.refl
  | ok found =>
    rcases found with ⟨index, ensured⟩
    have hensured := (writings_ensureIndex hensure).1
    cases hdraw : unusedId? index draw with
    | none =>
      simp only [hdraw]
      exact hensured
    | some id =>
      cases hput : index.put id document with
      | error error =>
        simp only [hdraw, hput]
        exact hensured
      | ok result =>
        simp only [hdraw, hput]
        exact writings_store hensure (ReflTransGen.single (Index.Change.put hput))

/-- A removal changes the one index it looks into. -/
theorem writings_remove (db : Database) (name id : String) :
    ReflTransGen Writing db (db.remove name id).2 := by
  unfold remove
  cases hindex : db.index name with
  | error error => exact ReflTransGen.refl
  | ok index =>
    have hwritten := ReflTransGen.single (Index.Change.remove index id)
    exact ReflTransGen.single (Writing.write (get?_of_index hindex) hwritten)

/-- New mappings are one change of the index, after its creation if it is missing. -/
theorem writings_setMappings (db : Database) (name : String) (tree : Json) :
    ReflTransGen Writing db (db.setMappings name tree).2 := by
  unfold setMappings
  cases hensure : db.ensureIndex name with
  | error error => exact ReflTransGen.refl
  | ok found =>
    rcases found with ⟨index, ensured⟩
    cases hset : index.setMappings tree with
    | error error =>
      simp only [hset]
      exact (writings_ensureIndex hensure).1
    | ok mapped =>
      simp only [hset]
      exact writings_store hensure (ReflTransGen.single (Index.Change.setMappings hset))

/-- New settings are one change of the index, after its creation if it is missing. -/
theorem writings_setSettings (db : Database) (name : String) (settings : Json) :
    ReflTransGen Writing db (db.setSettings name settings).2 := by
  unfold setSettings
  cases hensure : db.ensureIndex name with
  | error error => exact ReflTransGen.refl
  | ok found =>
    exact writings_store hensure (ReflTransGen.single (Index.Change.setSettings _ settings))

/-- Putting documents one after another is a run of changes to the index, also where one is
    refused in the middle. -/
theorem changes_putAll (documents : List (String × Json)) :
    ∀ index : Index, ReflTransGen Index.Change index (putAll index documents).2 := by
  induction documents with
  | nil => exact fun _ => ReflTransGen.refl
  | cons head rest ih =>
    intro index
    rcases head with ⟨id, document⟩
    rw [putAll]
    cases hput : index.put id document with
    | error error => exact ReflTransGen.refl
    | ok result =>
      rcases result with ⟨isNew, written⟩
      exact (ih written).head (Index.Change.put hput)

/-- Reindexing writes document after document into the target, so it comes to a run of writes rather
    than to one. -/
theorem writings_reindex (db : Database) (source target : String) :
    ReflTransGen Writing db (db.reindex source target).2 := by
  unfold reindex
  cases hdocuments : db.documents source with
  | error error => exact ReflTransGen.refl
  | ok documents =>
    cases hensure : db.ensureIndex target with
    | error error => exact ReflTransGen.refl
    | ok found =>
      rcases found with ⟨index, ensured⟩
      exact writings_store hensure (changes_putAll documents index)

/-- What a command does that only writes, whether it succeeds or not. -/
theorem writings_execute (db : Database) {command : Command} (h : command.onlyWrites = true) :
    ReflTransGen Writing db (db.execute command).2 := by
  cases command with
  | createIndex name settings => exact writings_createIndex db name settings
  | put name id document => exact writings_put db name id document
  | add name document draw => exact writings_add db name document draw
  | remove name id => exact writings_remove db name id
  | setMappings name tree => exact writings_setMappings db name tree
  | setSettings name settings => exact writings_setSettings db name settings
  | reindex source target => exact writings_reindex db source target
  | _ => exact absurd h (by simp [Command.onlyWrites])

/-! ### All commands -/

theorem changes_of_writings {before after : Database}
    (h : ReflTransGen Writing before after) : ReflTransGen Change before after :=
  ReflTransGen.mono (fun _ _ hwriting => Writing.change hwriting) _ _ h

/-- Deletion is one change when the index is there and none otherwise. -/
theorem changes_deleteIndex (db : Database) (name : String) :
    ReflTransGen Change db (db.deleteIndex name).2 := by
  unfold deleteIndex
  by_cases h : db.indexExists name = true
  · rw [if_pos h]
    exact ReflTransGen.single (Change.delete db name)
  · rw [if_neg h]

/-- All that copying can do: it is refused and nothing changes, or the copy of an index that is
    blocked for writing is stored under a name that was free. -/
theorem cloneIndex_cases (db : Database) (source target : String) :
    (∃ error, db.cloneIndex source target = (.error error, db))
      ∨ ∃ index, db.index source = .ok index ∧ index.isWriteBlocked = true
        ∧ db.indexExists target = false
        ∧ db.cloneIndex source target
          = (.ok (), { db.store target (index.cloneAs target db.nextIdentity) with
              nextIdentity := db.nextIdentity + 1 }) := by
  unfold cloneIndex
  cases hindex : db.index source with
  | error error => exact .inl ⟨error, rfl⟩
  | ok index =>
    cases hblocked : index.isWriteBlocked with
    | false => exact .inl ⟨.notWriteBlocked source, by simp [hblocked]⟩
    | true =>
      cases hexists : db.indexExists target with
      | true => exact .inl ⟨.indexExists target, by simp [hblocked]⟩
      | false => exact .inr ⟨index, rfl, hblocked, rfl, by simp [hblocked]⟩

/-- A copy is stored in one change, after the checks on source and target. -/
theorem changes_cloneIndex (db : Database) (source target : String) :
    ReflTransGen Change db (db.cloneIndex source target).2 := by
  rcases cloneIndex_cases db source target with ⟨_, hfails⟩ | ⟨index, hindex, -, hfree, hok⟩
  · rw [hfails]
  · rw [hok]
    have hnone : Keyed.get? target db.indexes = none := by
      rwa [indexExists, Keyed.contains, Option.isSome_eq_false_iff, Option.isNone_iff_eq_none]
        at hfree
    exact ReflTransGen.single (Change.clone (get?_of_index hindex) hnone)

/-- What a command does that leaves the scrolls alone, whether it succeeds or not. -/
theorem changes_execute (db : Database) {command : Command}
    (h : command.touchesScrolls = false) : ReflTransGen Change db (db.execute command).2 := by
  cases command with
  | createIndex | put | add | remove | setMappings | setSettings | reindex =>
    exact changes_of_writings (writings_execute db rfl)
  | deleteIndex name => exact changes_deleteIndex db name
  | cloneIndex source target => exact changes_cloneIndex db source target
  | indexExists | indexNames | indexInfo | get | mappings | settings | count | documents
  | activeScrollIds => exact ReflTransGen.refl
  | clear | search | searchBody | multiSearch | continueScroll | clearScroll =>
    exact absurd h (by simp [Command.touchesScrolls])

end Database

end DocSearch
