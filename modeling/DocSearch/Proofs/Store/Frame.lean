import DocSearch.Proofs.Store.Changes

/-!
# What Commands Leave Alone

The two halves of a database, the indexes and the open scrolls, are changed by different
commands.

Writing does not touch the scrolls, whether it succeeds or not, and whatever it does to the
indexes. Searching and reading scrolls do not touch the indexes. Only clearing the database
changes both. What is proved of scrolls can therefore pass over all writing, and what is
proved of indexes can pass over all searching.

## Main definitions

* `Database.KeepsScrolls`: The scrolls are as before.
* `Database.KeepsIndexes`: The indexes are as before.

## Theorems

* `keepsScrolls_execute`: All other commands leave the scrolls alone.
* `keepsIndexes_execute`: All other commands leave the indexes alone.
* `config_after`: No command changes the configuration.
-/

namespace DocSearch

namespace Database

/-- The scrolls, and what bounds them, are as before. -/
structure KeepsScrolls (before after : Database) : Prop where
  config : after.config = before.config
  scrolls : after.scrolls = before.scrolls

/-- The indexes, and what numbers them, are as before. -/
structure KeepsIndexes (before after : Database) : Prop where
  config : after.config = before.config
  indexes : after.indexes = before.indexes
  nextIdentity : after.nextIdentity = before.nextIdentity

theorem KeepsScrolls.refl (db : Database) : KeepsScrolls db db := ⟨rfl, rfl⟩

theorem KeepsScrolls.trans {first second third : Database} (h : KeepsScrolls first second)
    (h' : KeepsScrolls second third) : KeepsScrolls first third :=
  ⟨h'.config.trans h.config, h'.scrolls.trans h.scrolls⟩

theorem KeepsIndexes.refl (db : Database) : KeepsIndexes db db := ⟨rfl, rfl, rfl⟩

theorem KeepsIndexes.trans {first second third : Database} (h : KeepsIndexes first second)
    (h' : KeepsIndexes second third) : KeepsIndexes first third :=
  ⟨h'.config.trans h.config, h'.indexes.trans h.indexes,
    h'.nextIdentity.trans h.nextIdentity⟩

/-! ### Writing -/

/-- No change of the indexes touches the scrolls or the configuration, by induction on the run of
    changes. -/
theorem keepsScrolls_of_changes {before after : Database}
    (h : Relation.ReflTransGen Change before after) : KeepsScrolls before after := by
  induction h with
  | refl => exact KeepsScrolls.refl before
  | tail _ hchange ih =>
    refine ih.trans ?_
    cases hchange with
    | create _ _ => exact ⟨rfl, rfl⟩
    | write _ _ => exact ⟨rfl, rfl⟩
    | clone _ _ => exact ⟨rfl, rfl⟩
    | delete _ => exact ⟨rfl, rfl⟩

/-- Writing and reading documents leave the scrolls alone, whether they succeed or not. -/
theorem keepsScrolls_execute (db : Database) {command : Command}
    (h : command.touchesScrolls = false) : KeepsScrolls db (db.execute command).2 :=
  keepsScrolls_of_changes (changes_execute db h)

/-! ### Searching -/

/-- A search writes at most a new cursor. -/
theorem keepsIndexes_search (db : Database) (names : List String) (request : SearchRequest)
    (node : String) : KeepsIndexes db (db.search names request node).2 := by
  unfold search
  cases names.mapM db.index with
  | error error => exact KeepsIndexes.refl db
  | ok indexes => exact ⟨rfl, rfl, rfl⟩

/-- A body is read before anything else, so this is the same as for a search request. -/
theorem keepsIndexes_searchBody (db : Database) (names : List String) (body : Json)
    (scroll : Option String) (node : String) :
    KeepsIndexes db (db.searchBody names body scroll node).2 := by
  unfold searchBody
  cases SearchRequest.ofJson db.config body with
  | error error => exact KeepsIndexes.refl db
  | ok request => exact keepsIndexes_search db names _ node

-- Induction on the requests; the place of each in the list only decides which node names are used.
theorem keepsIndexes_multiSearch (nodes : Nat → String)
    (requests : List (String × SearchRequest)) :
    ∀ (place : Nat) (db : Database),
      KeepsIndexes db (db.multiSearch nodes place requests).2 := by
  induction requests with
  | nil => exact fun _ db => KeepsIndexes.refl db
  | cons head rest ih =>
    intro place db
    rcases head with ⟨name, request⟩
    exact (keepsIndexes_search db [name] request (nodes place)).trans (ih (place + 1) _)

/-- Searching, and everything that is done with scrolls, leaves the indexes alone. -/
theorem keepsIndexes_execute (db : Database) {command : Command}
    (h : command.touchesIndexes = false) : KeepsIndexes db (db.execute command).2 := by
  cases command with
  | search names request node => exact keepsIndexes_search db names request node
  | searchBody names body scroll node =>
    exact keepsIndexes_searchBody db names body scroll node
  | multiSearch requests nodes => exact keepsIndexes_multiSearch nodes requests 0 db
  | continueScroll scrollId => exact ⟨rfl, rfl, rfl⟩
  | clearScroll scrollIds => exact ⟨rfl, rfl, rfl⟩
  | indexExists | indexNames | indexInfo | get | mappings | settings | count | documents
  | activeScrollIds => exact KeepsIndexes.refl db
  | createIndex | deleteIndex | clear | put | add | remove | setMappings | setSettings
  | cloneIndex | reindex => exact absurd h (by simp [Command.touchesIndexes])

/-! ### Both -/

/-- No command changes the configuration. -/
theorem config_execute (db : Database) (command : Command) :
    (db.execute command).2.config = db.config := by
  by_cases hscrolls : command.touchesScrolls = false
  · exact (keepsScrolls_execute db hscrolls).config
  · by_cases hindexes : command.touchesIndexes = false
    · exact (keepsIndexes_execute db hindexes).config
    · -- Only clearing changes both halves.
      cases command with
      | clear => rfl
      | _ => simp_all [Command.touchesScrolls, Command.touchesIndexes]

/-- No command changes the configuration. -/
theorem config_after (db : Database) (commands : List Command) :
    (db.after commands).config = db.config := by
  induction commands generalizing db with
  | nil => rfl
  | cons command rest ih => exact (ih (db.execute command).2).trans (config_execute db command)

end Database

end DocSearch
