import DocSearch.Proofs.Store.Contents
import Mathlib.Logic.Function.Basic

/-!
# The Store as Collections

For a client who puts, reads and removes documents and creates and deletes indexes, a database
is nothing but a collection of documents for every name.

A collection is a list of ids and documents in which every id occurs once. Putting under an id
that is in use replaces the document where it is, putting under a new one appends, and removing
takes a row out, so the same id comes last when it is put again. What the commands answer is
said here once more in these terms, without tables, numbers, schemas and settings. Then it is
shown that nobody can tell the difference, one command after another.

The reading also fixes what becomes of a collection when a command fails. A document that is no
object is refused after the collection it was meant for has been created.

## Main definitions

* `Collections`: Collections by name.
* `DocumentCommand`: The commands that put, read and remove, and those on whole indexes.
* `Collections.execute`: What they do to collections.
* `Database.collections`: The collections of a database.
* `Database.answers`, `Collections.answers`: The answers to commands in a row.

## Theorems

* `seen_execute`: One command.
* `answers_eq`, `collections_after`: Commands in a row.
* `store_refines_collections`: The store and its collections.
-/

namespace DocSearch

/-- Collections of documents by name. -/
abbrev Collections := String → Option Collection

/-- A command that puts, reads or removes documents, or creates and deletes indexes. -/
inductive DocumentCommand where
  | createIndex (name : String) (settings : Option Json)
  | deleteIndex (name : String)
  | clear
  | put (name id : String) (document : Json)
  | add (name : String) (document : Json) (draw : Nat → String)
  | get (name id : String)
  | remove (name id : String)
  | count (name : String)
  | documents (name : String)

namespace DocumentCommand

def toCommand : DocumentCommand → Command
  | .createIndex name settings => .createIndex name settings
  | .deleteIndex name => .deleteIndex name
  | .clear => .clear
  | .put name id document => .put name id document
  | .add name document draw => .add name document draw
  | .get name id => .get name id
  | .remove name id => .remove name id
  | .count name => .count name
  | .documents name => .documents name

/-- The one index that a command is about. Clearing is about all of them. -/
def target? : DocumentCommand → Option String
  | .clear => none
  | .createIndex name _ | .deleteIndex name | .put name _ _ | .add name _ _ | .get name _
  | .remove name _ | .count name | .documents name => some name

end DocumentCommand

/-- The first of some identifiers that no document has. -/
def Collection.unusedId? (rows : Collection) (draw : Nat → String) : Option String :=
  ((List.range Database.drawAttempts).map draw).find? fun id => !Keyed.contains id rows

/-- An id is drawn until one is found that no row has. -/
theorem Collection.notMem_keys_of_unusedId? {rows : Collection} {draw : Nat → String} {id : String}
    (h : unusedId? rows draw = some id) : id ∉ Keyed.keys rows := by
  have hunused := List.find?_some h
  rw [← Keyed.contains_iff]
  simpa using hunused

namespace Collections

/-- A collection that has to be there. -/
def find (collections : Collections) (name : String) : Except Error Collection :=
  match collections name with
  | some rows => .ok rows
  | none => .error (.indexNotFound name)

/-- A collection that is there, or a new one if it may have this name. -/
def findOrNew (collections : Collections) (name : String) : Except Error Collection :=
  match collections name with
  | some rows => .ok rows
  | none => if name = "" then .error .indexNameEmpty else .ok []

/-- The same collections with one of them replaced. -/
def set (collections : Collections) (name : String) (rows : Collection) : Collections :=
  Function.update collections name (some rows)

/-- Change a collection, if it was found, and put it back under its name. -/
def write (collections : Collections) (name : String) (found : Except Error Collection)
    (change : Collection → Except Error Answer × Collection) :
    Except Error Answer × Collections :=
  match found with
  | .error error => (.error error, collections)
  | .ok rows => ((change rows).1, collections.set name (change rows).2)

/-- What a command answers, and the collections afterwards. -/
def execute (collections : Collections) : DocumentCommand → Except Error Answer × Collections
  | .createIndex name _ =>
    collections.write name (collections.findOrNew name) fun rows =>
      (.ok (.flag (collections name).isNone), rows)
  | .deleteIndex name =>
    match collections.find name with
    | .error error => (.error error, collections)
    | .ok _ => (.ok .done, Function.update collections name none)
  | .clear => (.ok .done, fun _ => none)
  | .put name id document =>
    collections.write name (collections.findOrNew name) fun rows =>
      if document.isObject then
        (.ok (.flag (!Keyed.contains id rows)), Collection.put id document rows)
      else (.error (.documentNotObject id name), rows)
  | .add name document draw =>
    collections.write name (collections.findOrNew name) fun rows =>
      match Collection.unusedId? rows draw with
      | none => (.error (.identifiersExhausted name), rows)
      | some id =>
        if document.isObject then (.ok (.text id), rows ++ [(id, document)])
        else (.error (.documentNotObject id name), rows)
  | .get name id =>
    ((collections.find name).bind fun rows =>
      match Keyed.get? id rows with
      | some document => .ok (.json document)
      | none => .error (.documentNotFound id name), collections)
  | .remove name id =>
    collections.write name (collections.find name) fun rows =>
      (.ok (.flag (Keyed.contains id rows)), Keyed.erase id rows)
  | .count name => ((collections.find name).map fun rows => .number rows.length, collections)
  | .documents name => ((collections.find name).map .documents, collections)

/-- The answers to commands in a row. -/
def answers : Collections → List DocumentCommand → List (Except Error Answer)
  | _, [] => []
  | collections, command :: rest =>
    (collections.execute command).1 :: answers (collections.execute command).2 rest

/-- The collections after commands in a row. -/
def after (collections : Collections) (commands : List DocumentCommand) : Collections :=
  commands.foldl (fun collections command => (collections.execute command).2) collections

theorem set_of_eq {collections : Collections} {name : String} {rows : Collection}
    (h : collections name = some rows) : collections.set name rows = collections := by
  rw [set, ← h, Function.update_eq_self]

theorem set_set (collections : Collections) (name : String) (first second : Collection) :
    (collections.set name first).set name second = collections.set name second :=
  Function.update_idem ..

-- A command that writes one collection is a change at one name, so that every other name keeps its
-- rows.
theorem write_other {collections : Collections} {name other : String} (hne : other ≠ name)
    (found : Except Error Collection) (change : Collection → Except Error Answer × Collection) :
    (collections.write name found change).2 other = collections other := by
  cases found with
  | error error => rfl
  | ok rows => exact Function.update_of_ne hne _ _

-- Whatever a command does, it does to the collection it is about.
theorem execute_other {collections : Collections} {command : DocumentCommand}
    {name other : String} (htarget : command.target? = some name) (hne : other ≠ name) :
    (collections.execute command).2 other = collections other := by
  cases command with
  | clear => cases htarget
  | createIndex | put | add | remove =>
    cases htarget
    exact write_other hne _ _
  | deleteIndex =>
    cases htarget
    simp only [execute]
    cases collections.find name with
    | error error => rfl
    | ok rows => exact Function.update_of_ne hne _ _
  | get | count | documents => rfl

end Collections

namespace Database

/-- The collections of a database. -/
def collections (db : Database) : Collections := fun name =>
  (Keyed.get? name db.indexes).map fun index => index.documents.toList

/-- The answers to commands in a row. -/
def answers : Database → List Command → List (Except Error Answer)
  | _, [] => []
  | db, command :: rest => (db.execute command).1 :: answers (db.execute command).2 rest

/-- An outcome as it is seen by those who know of collections only. -/
def seen (outcome : Except Error Answer × Database) : Except Error Answer × Collections :=
  (outcome.1, outcome.2.collections)

variable {db ensured : Database} {name : String} {index : Index}

/-! ### Looking at a database -/

theorem collections_empty (config : Config) : (empty config).collections = fun _ => none := rfl

/-- Storing an index sets the collection of its name. -/
theorem collections_store (db : Database) (name : String) (index : Index) :
    (db.store name index).collections = db.collections.set name index.documents.toList := by
  funext other
  rw [collections, store, Keyed.get?_insert, Collections.set, Function.update_apply]
  by_cases h : name = other
  · rw [if_pos h, if_pos h.symm, Option.map_some]
  · rw [if_neg h, if_neg (fun heq => h heq.symm)]
    rfl

theorem collections_erase (db : Database) (name : String) :
    ({ db with indexes := Keyed.erase name db.indexes } : Database).collections
      = Function.update db.collections name none := by
  funext other
  rw [collections, Keyed.get?_erase, Function.update_apply]
  by_cases h : name = other
  · rw [if_pos h, if_pos h.symm, Option.map_none]
  · rw [if_neg h, if_neg (fun heq => h heq.symm)]
    rfl

/-- A name leads to a collection exactly when it leads to an index, and the failure is the same. -/
theorem find_collections (db : Database) (name : String) :
    db.collections.find name = (db.index name).map fun index => index.documents.toList := by
  unfold Collections.find collections Database.index
  cases Keyed.get? name db.indexes with
  | none => rfl
  | some index => rfl

/-- The empty collection stands for the index that a write would create, and the empty name is
    refused by both. -/
theorem findOrNew_collections (db : Database) (name : String) :
    db.collections.findOrNew name
      = (db.ensureIndex name).map fun found => found.1.documents.toList := by
  unfold Collections.findOrNew collections ensureIndex
  cases Keyed.get? name db.indexes with
  | some index => rfl
  | none =>
    by_cases h : name = ""
    · simp only [Option.map_none, if_pos h]
      rfl
    · simp only [Option.map_none, if_neg h]
      rfl

-- What is found or created holds what was under the name, which is nothing where it is new.
theorem getD_collections (h : db.ensureIndex name = .ok (index, ensured)) :
    (db.collections name).getD [] = index.documents.toList := by
  rw [collections]
  rcases Database.ensureIndex_cases h with ⟨hget, -⟩ | ⟨hfree, -, rfl, -⟩
  · rw [hget]
    rfl
  · rw [hfree]
    rfl

-- Finding an index or creating it puts its collection under its name.
theorem collections_of_ensureIndex (h : db.ensureIndex name = .ok (index, ensured)) :
    ensured.collections = db.collections.set name index.documents.toList := by
  rcases ensureIndex_cases h with ⟨hget, rfl⟩ | ⟨_, _, _, rfl⟩
  · refine (Collections.set_of_eq ?_).symm
    rw [collections, hget, Option.map_some]
  · exact collections_store db name _

-- What is found or created and then stored again replaces the collection of its name.
theorem collections_store_of_ensureIndex (h : db.ensureIndex name = .ok (index, ensured))
    (written : Index) :
    (ensured.store name written).collections
      = db.collections.set name written.documents.toList := by
  rw [collections_store, collections_of_ensureIndex h, Collections.set_set]

/-! ### One command -/

-- Here and below, one lemma for each command: what a caller sees of it, the answer and the
-- documents behind it, is what the reference collections give. Each follows the command's own case
-- distinctions, and the facts on tables replace the maps by the rows.
theorem seen_createIndex (db : Database) (name : String) (settings : Option Json) :
    seen (db.execute (.createIndex name settings))
      = db.collections.execute (.createIndex name settings) := by
  -- Whether the index is new has to be known before it is created.
  have hnone : (db.collections name).isNone = !db.indexExists name := by
    unfold collections indexExists Keyed.contains
    cases Keyed.get? name db.indexes with
    | none => rfl
    | some index => rfl
  simp only [seen, execute, answer, Collections.execute, Collections.write,
    findOrNew_collections, hnone]
  unfold createIndex
  cases hensure : db.ensureIndex name with
  | error error => rfl
  | ok found =>
    cases settings with
    | none => simp [Except.map, collections_of_ensureIndex hensure]
    | some settings =>
      simp [Except.map, collections_store_of_ensureIndex hensure, Index.setSettings]

theorem seen_deleteIndex (db : Database) (name : String) :
    seen (db.execute (.deleteIndex name)) = db.collections.execute (.deleteIndex name) := by
  simp only [seen, execute, answer, Collections.execute, find_collections]
  unfold deleteIndex indexExists Keyed.contains Database.index
  cases hget : Keyed.get? name db.indexes with
  | none => rfl
  | some index => simp [Except.map, collections_erase]

/-- The write checks the name before the document, so a refused document leaves an empty collection
    behind in both. -/
theorem seen_put (h : EachIndex Index.Sound db) (name id : String) (document : Json) :
    seen (db.execute (.put name id document))
      = db.collections.execute (.put name id document) := by
  simp only [seen, execute, answer, Collections.execute, Collections.write, findOrNew_collections]
  unfold put
  cases hensure : db.ensureIndex name with
  | error error => rfl
  | ok found =>
    rcases found with ⟨index, ensured⟩
    rcases sound_of_ensureIndex h hensure with ⟨hname, hsound⟩
    cases hobject : document.isObject with
    | true =>
      simp [Index.put_of_isObject hobject, Except.map, collections_store_of_ensureIndex hensure,
        DocumentTable.fst_put hsound.linked, DocumentTable.toList_put hsound.linked]
    | false =>
      simp [Index.put_of_not_isObject hobject, Except.map, collections_of_ensureIndex hensure,
        hname]

/-- Both look for the drawn ids in the same set. -/
theorem unusedId?_toList (h : index.documents.Linked) (draw : Nat → String) :
    unusedId? index draw = Collection.unusedId? index.documents.toList draw := by
  unfold unusedId? Collection.unusedId? Keyed.contains Index.get?
  simp only [DocumentTable.get?_toList h, Option.not_isSome]

-- An id is drawn where the collection has none, so its document comes behind all others.
theorem seen_add (h : EachIndex Index.Sound db) (name : String) (document : Json)
    (draw : Nat → String) :
    seen (db.execute (.add name document draw))
      = db.collections.execute (.add name document draw) := by
  simp only [seen, execute, answer, Collections.execute, Collections.write, findOrNew_collections]
  unfold add
  cases hensure : db.ensureIndex name with
  | error error => rfl
  | ok found =>
    rcases found with ⟨index, ensured⟩
    rcases sound_of_ensureIndex h hensure with ⟨hname, hsound⟩
    -- The reference draws among the ids of its rows, the database among those of the map.
    have hunused := unusedId?_toList hsound.linked draw
    cases hdraw : Collection.unusedId? index.documents.toList draw with
    | none =>
      simp [hdraw, hunused, Except.map, collections_of_ensureIndex hensure, hname]
    | some id =>
      cases hobject : document.isObject with
      | true =>
        simp [hdraw, hunused, Index.put_of_isObject hobject, Except.map,
          collections_store_of_ensureIndex hensure, DocumentTable.toList_put hsound.linked,
          Collection.put_of_notMem (Collection.notMem_keys_of_unusedId? hdraw)]
      | false =>
        simp [hdraw, hunused, Index.put_of_not_isObject hobject, Except.map,
          collections_of_ensureIndex hensure, hname]

theorem seen_get (h : EachIndex Index.Sound db) (name id : String) :
    seen (db.execute (.get name id)) = db.collections.execute (.get name id) := by
  simp only [seen, execute, Collections.execute, find_collections]
  unfold get
  cases hindex : db.index name with
  | error error => rfl
  | ok index =>
    have hget := DocumentTable.get?_toList (sound_of_index h hindex).2.linked id
    simp only [Except.map, Except.bind, hget, Index.get?]
    cases index.documents.get? id with
    | none => rfl
    | some document => rfl

theorem seen_remove (h : EachIndex Index.Sound db) (name id : String) :
    seen (db.execute (.remove name id)) = db.collections.execute (.remove name id) := by
  simp only [seen, execute, answer, Collections.execute, Collections.write, find_collections]
  unfold remove
  cases hindex : db.index name with
  | error error => rfl
  | ok index =>
    have hlinked := (sound_of_index h hindex).2.linked
    simp [Except.map, collections_store, Index.remove, DocumentTable.fst_remove hlinked,
      DocumentTable.toList_remove hlinked, Keyed.contains]

theorem seen_count (h : EachIndex Index.Sound db) (name : String) :
    seen (db.execute (.count name)) = db.collections.execute (.count name) := by
  simp only [seen, execute, Collections.execute, find_collections]
  unfold count
  cases hindex : db.index name with
  | error error => rfl
  | ok index =>
    have hlength := DocumentTable.length_toList (sound_of_index h hindex).2.linked
    simp only [Except.map, Index.size, hlength]

theorem seen_documents (db : Database) (name : String) :
    seen (db.execute (.documents name)) = db.collections.execute (.documents name) := by
  simp only [seen, execute, Collections.execute, find_collections]
  unfold documents
  cases db.index name with
  | error error => rfl
  | ok index => rfl

/-- A command does to a database what it does to its collections, and gives the same
    answer. -/
theorem seen_execute (h : EachIndex Index.Sound db) (command : DocumentCommand) :
    seen (db.execute command.toCommand) = db.collections.execute command := by
  cases command with
  | createIndex name settings => exact seen_createIndex db name settings
  | deleteIndex name => exact seen_deleteIndex db name
  | clear => rfl
  | put name id document => exact seen_put h name id document
  | add name document draw => exact seen_add h name document draw
  | get name id => exact seen_get h name id
  | remove name id => exact seen_remove h name id
  | count name => exact seen_count h name
  | documents name => exact seen_documents db name

/-! ### Commands in a row -/

/-- Over a whole run the answers agree, by induction on the commands from the agreement on one. -/
theorem answers_eq (h : EachIndex Index.Sound db) (commands : List DocumentCommand) :
    db.answers (commands.map DocumentCommand.toCommand) = db.collections.answers commands := by
  induction commands generalizing db with
  | nil => rfl
  | cons command rest ih =>
    have hstep := seen_execute h command
    have hanswer : (db.execute command.toCommand).1 = (db.collections.execute command).1 :=
      congrArg Prod.fst hstep
    have hnext : (db.execute command.toCommand).2.collections
        = (db.collections.execute command).2 := congrArg Prod.snd hstep
    rw [List.map_cons, answers, Collections.answers, hanswer, ← hnext]
    exact congrArg _ (ih (eachIndex_execute Index.invariant_sound h command.toCommand))

/-- Over a whole run the documents agree, by the same induction. -/
theorem collections_after (h : EachIndex Index.Sound db) (commands : List DocumentCommand) :
    (db.after (commands.map DocumentCommand.toCommand)).collections
      = db.collections.after commands := by
  induction commands generalizing db with
  | nil => rfl
  | cons command rest ih =>
    have hnext : (db.execute command.toCommand).2.collections
        = (db.collections.execute command).2 := congrArg Prod.snd (seen_execute h command)
    have hrest := ih (eachIndex_execute Index.invariant_sound h command.toCommand)
    rw [hnext] at hrest
    exact hrest

/-- A reachable database answers commands on documents and indexes, however many and in
    whatever order, as its collections do, and it goes on having the collections that they
    lead to. A new database has none. A command on one index changes no collection but its
    own. And in every index the two maps of the table undo each other, so that reading,
    asking, counting and listing agree. -/
theorem store_refines_collections (config : Config) (history : List Command) :
    let db := (empty config).after history
    (∀ commands : List DocumentCommand,
        db.answers (commands.map DocumentCommand.toCommand) = db.collections.answers commands
          ∧ (db.after (commands.map DocumentCommand.toCommand)).collections
            = db.collections.after commands)
      ∧ (empty config).collections = (fun _ => none)
      ∧ (∀ (command : DocumentCommand) (name other : String), command.target? = some name →
          other ≠ name →
          (db.execute command.toCommand).2.collections other = db.collections other)
      ∧ ∀ name index, db.index name = .ok index → index.documents.Mirrored := by
  intro db
  have hsound : EachIndex Index.Sound db := sound_after config history
  refine ⟨fun commands => ⟨answers_eq hsound commands, collections_after hsound commands⟩,
    collections_empty config, ?_, ?_⟩
  · intro command name other htarget hne
    have hstep : (db.execute command.toCommand).2.collections
        = (db.collections.execute command).2 := congrArg Prod.snd (seen_execute hsound command)
    rw [hstep]
    exact Collections.execute_other htarget hne
  · intro name index hindex
    exact DocumentTable.mirrored_of_linked (sound_of_index hsound hindex).2.linked

end Database

end DocSearch
