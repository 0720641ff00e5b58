import DocSearch.Proofs.Keyed
import DocSearch.Proofs.Outcome
import DocSearch.Proofs.Store.Frame

/-!
# Reachable Databases

What holds of every database a client can meet, proved once for all commands.

A client starts with an empty database and gives commands. What holds at the start and is
kept by every command holds from then on, and that induction is stated here so that nothing
else has to go through the commands one by one.

For what holds of every index on its own there is a second, finer induction. An index is
created empty, and then documents are put and taken out, mappings and settings replaced, and
copies made. A property that is kept by these few operations holds of every index of every
reachable database. Along with it goes the fact that an index knows its name: the name it is
kept under is the one it carries.

## Main definitions

* `Index.Invariant`: A property of indexes that their operations keep.
* `Database.EachIndex`: Every index has a property, and knows its name.
* `Database.Named`: Every index knows its name.

## Theorems

* `after_induction`: The induction over commands.
* `indexes_execute`: One command, for what is said of the indexes alone.
* `name_of_changes`: No operation on an index changes its name.
* `eachIndex_after`: The induction over the operations on one index.
* `ordered_after`: The indexes are in the order of their names.
* `named_after`: An index knows its name.
-/

namespace DocSearch

open Relation

namespace Database

/-- What holds of the empty database and is kept by every command holds of every reachable
    database. -/
theorem after_induction {P : Database → Prop} (db : Database) (hstart : P db)
    (hstep : ∀ db command, P db → P (execute db command).2) (commands : List Command) :
    P (db.after commands) := by
  induction commands generalizing db with
  | nil => exact hstart
  | cons command rest ih => exact ih _ (hstep db command hstart)

/-- What is said of the indexes alone is kept by every command if it holds where there are none
    and is kept by every change. -/
theorem indexes_execute {P : List (String × Index) → Prop} (hnone : P [])
    (hchange : ∀ {before after : Database}, P before.indexes → Change before after →
      P after.indexes)
    {db : Database} (h : P db.indexes) (command : Command) :
    P (db.execute command).2.indexes := by
  have hchanges : ∀ {after : Database}, ReflTransGen Change db after → P after.indexes := by
    intro after hrun
    induction hrun with
    | refl => exact h
    | tail _ hlast ih => exact hchange ih hlast
  by_cases htouches : command.touchesIndexes = false
  · rw [(keepsIndexes_execute db htouches).indexes]
    exact h
  · cases command with
    | clear => exact hnone
    | createIndex | deleteIndex | put | add | remove | setMappings | setSettings | cloneIndex
    | reindex => exact hchanges (changes_execute db rfl)
    | _ => exact absurd rfl htouches

end Database

/-- A property of indexes that holds of empty ones and is kept by all operations on one
    index. -/
structure Index.Invariant (Q : Index → Prop) : Prop where
  empty : ∀ name identity, Q (Index.empty name identity)
  put : ∀ {index id document isNew written}, Q index →
    Index.put index id document = .ok (isNew, written) → Q written
  remove : ∀ {index} id, Q index → Q (Index.remove index id).2
  setMappings : ∀ {index tree mapped}, Q index →
    Index.setMappings index tree = .ok mapped → Q mapped
  setSettings : ∀ {index} settings, Q index → Q (Index.setSettings index settings)
  cloneAs : ∀ {index} name identity, Q index → Q (Index.cloneAs index name identity)

namespace Index

variable {Q : Index → Prop} {index written : Index}

/-- An invariant of one change of an index holds after any number of them. -/
theorem Invariant.of_changes (hQ : Invariant Q) (h : ReflTransGen Change index written)
    (hindex : Q index) : Q written := by
  induction h with
  | refl => exact hindex
  | tail _ hchange ih =>
    cases hchange with
    | put hput => exact hQ.put ih hput
    | remove id => exact hQ.remove id ih
    | setMappings hset => exact hQ.setMappings ih hset
    | setSettings settings => exact hQ.setSettings settings ih

theorem name_of_put {id : String} {document : Json} {isNew : Bool}
    (h : index.put id document = .ok (isNew, written)) : written.name = index.name := by
  unfold Index.put at h
  by_cases hobject : document.isObject = true
  · rw [if_pos hobject] at h
    cases h
    rfl
  · rw [if_neg hobject] at h
    exact absurd h (by simp)

theorem name_of_setMappings {tree : Json} (h : index.setMappings tree = .ok written) :
    written.name = index.name := by
  rcases Outcome.map_eq_ok_iff.mp h with ⟨schema, _, rfl⟩
  rfl

/-- No operation on an index changes its name. -/
theorem name_of_changes (h : ReflTransGen Change index written) : written.name = index.name := by
  induction h with
  | refl => rfl
  | tail _ hchange ih =>
    cases hchange with
    | put hput => exact (name_of_put hput).trans ih
    | remove _ => exact ih
    | setMappings hset => exact (name_of_setMappings hset).trans ih
    | setSettings _ => exact ih

end Index

namespace Database

/-- Every index has a property, and it carries the name it is kept under. -/
def EachIndex (Q : Index → Prop) (db : Database) : Prop :=
  ∀ name index, (name, index) ∈ db.indexes → index.name = name ∧ Q index

variable {Q : Index → Prop}

/-- Storing an index that has the property under its own name keeps the property of all. -/
theorem eachIndex_store {db : Database} {name : String} {index : Index} (h : EachIndex Q db)
    (hname : index.name = name) (hindex : Q index) : EachIndex Q (db.store name index) := by
  intro other found hmem
  rcases Keyed.ordered_insert.mem_of_mem_insert hmem with heq | hold
  · cases heq
    exact ⟨hname, hindex⟩
  · exact h other found hold

theorem eachIndex_get? {db : Database} {name : String} {index : Index} (h : EachIndex Q db)
    (hget : Keyed.get? name db.indexes = some index) : index.name = name ∧ Q index :=
  h name index (Keyed.mem_of_get?_eq_some hget)

/-- One change keeps the property. What is created or copied is stored under its own name, and
    what is written to keeps its name. -/
theorem eachIndex_of_change (hQ : Index.Invariant Q) {before after : Database}
    (h : EachIndex Q before) (hchange : Change before after) : EachIndex Q after := by
  cases hchange with
  | create _ _ => exact eachIndex_store h rfl (hQ.empty _ _)
  | write hindex hwritten =>
    rcases eachIndex_get? h hindex with ⟨hname, hkept⟩
    exact eachIndex_store h ((Index.name_of_changes hwritten).trans hname)
      (hQ.of_changes hwritten hkept)
  | clone hindex _ =>
    exact eachIndex_store h rfl (hQ.cloneAs _ _ (eachIndex_get? h hindex).2)
  | delete _ => exact fun name index hmem => h name index (List.mem_filter.mp hmem).1

/-- What every change of an index preserves holds of all indexes after any run of changes of the
    database, by induction on the run. -/
theorem eachIndex_of_changes (hQ : Index.Invariant Q) {before after : Database}
    (h : EachIndex Q before) (hchanges : ReflTransGen Change before after) :
    EachIndex Q after := by
  induction hchanges with
  | refl => exact h
  | tail _ hchange ih => exact eachIndex_of_change hQ ih hchange

/-- Every command keeps what the operations on one index keep. -/
theorem eachIndex_execute (hQ : Index.Invariant Q) {db : Database} (h : EachIndex Q db)
    (command : Command) : EachIndex Q (db.execute command).2 :=
  @indexes_execute
    (fun indexes => ∀ name index, (name, index) ∈ indexes → index.name = name ∧ Q index)
    (fun _ _ hmem => absurd hmem List.not_mem_nil)
    (fun hbefore hchange => eachIndex_of_change hQ hbefore hchange) db h command

/-- What the operations on one index keep holds of every index of a reachable database. -/
theorem eachIndex_after (hQ : Index.Invariant Q) (config : Config) (commands : List Command) :
    EachIndex Q ((empty config).after commands) :=
  @after_induction (EachIndex Q) _ (fun _ _ hmem => absurd hmem List.not_mem_nil)
    (fun _ command h => eachIndex_execute hQ h command) commands

/-- An index carries the name it is kept under. -/
def Named (db : Database) : Prop :=
  ∀ name index, db.index name = .ok index → index.name = name

/-- The map of indexes stays sorted by name, which is the order in which they are listed. -/
theorem ordered_of_change {before after : Database} (h : Keyed.Ordered before.indexes)
    (hchange : Change before after) : Keyed.Ordered after.indexes := by
  cases hchange with
  | create _ _ => exact Keyed.ordered_insert _ _ h
  | write _ _ => exact Keyed.ordered_insert _ _ h
  | clone _ _ => exact Keyed.ordered_insert _ _ h
  | delete _ => exact Keyed.ordered_erase _ h

/-- In a reachable database the indexes are in the order of their names, and no name is used
    twice. -/
theorem ordered_after (config : Config) (commands : List Command) :
    Keyed.Ordered ((empty config).after commands).indexes :=
  @after_induction (fun db => Keyed.Ordered db.indexes) (empty config) List.Pairwise.nil
    (fun _ command h => indexes_execute List.Pairwise.nil ordered_of_change h command) commands

/-- In a reachable database every index carries its name. -/
theorem named_after (config : Config) (commands : List Command) :
    ((empty config).after commands).Named := by
  -- Only the names matter here, so the property is one that holds of every index.
  have hany : Index.Invariant fun _ => True := by constructor <;> intros <;> trivial
  exact fun name index h =>
    (eachIndex_get? (eachIndex_after hany config commands) (get?_of_index h)).1

end Database

end DocSearch
