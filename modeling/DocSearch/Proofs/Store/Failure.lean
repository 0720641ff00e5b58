import DocSearch.Proofs.Scroll.Table
import DocSearch.Proofs.Search.Found
import DocSearch.Proofs.Store.Contents

/-!
# What Failed Commands Leave Behind

A command that fails leaves the database as it was, with one exception that is part of what
writing means here.

Reading and searching can fail at many places: an index in the middle of a list may be missing,
only the last schema may object to the query, one scroll id of several may be damaged. In each
case the failure comes before the first change, so there is nothing to take back. That has to
be seen of every command once, and it holds in every database.

Writing creates an index that is not there. Most commands that do so look at everything else
first or have nothing else to look at. Putting a document and setting mappings are different:
the index is created, and then the document or the mapping tree may turn out to be of no use.
What is left is the index, without documents, mappings and settings. Copying documents would be
worse off, as it could stop halfway, but the documents that an index holds are all objects and
are never refused. This is where the history of the database matters.

## Main definitions

* `Command.presumes`: The commands that presume that what they name is there.
* `Command.createsIndex`: The commands that create an index that is not there.
* `Command.createsFirst?`: The index that is created before all else.
* `Database.withIndex`: A database in which an index is created.

## Theorems

* `read_of_error`, `close_of_error`: Scrolls after a failure.
* `search_of_error`: A search that fails changes nothing.
* `failed_reading_keeps`: Commands that presume something, and which of them must fail.
* `put_of_error`, `add_of_error`, `setMappings_of_error`: What is left of a rejected write.
* `rejected_put_leaves_index`: It need not be the database as it was.
* `failed_writing_leaves`: Commands that create an index.
-/

namespace DocSearch

/-- Whether a command presumes that the indexes, the document or the scrolls it names are
    there. -/
def Command.presumes : Command → Bool
  | .search .. | .searchBody .. | .continueScroll _ | .clearScroll _ | .get .. | .remove ..
  | .deleteIndex _ | .cloneIndex .. => true
  | _ => false

/-- Whether a command creates the index it writes to where there is none. -/
def Command.createsIndex : Command → Bool
  | .createIndex .. | .put .. | .add .. | .setMappings .. | .setSettings .. | .reindex .. => true
  | _ => false

/-- The index that a command creates before it looks at the document or the mapping tree that
    it was given. -/
def Command.createsFirst? : Command → Option String
  | .put name .. | .add name .. | .setMappings name _ => some name
  | _ => none

/-! ### Scrolls -/

namespace ScrollTable

variable {table : ScrollTable} {error : Error}

/-- A page that cannot be read moves no cursor. -/
theorem read_of_error {scrollId : String} (h : (table.read scrollId).1 = .error error) :
    (table.read scrollId).2 = table := by
  rcases read_cases table scrollId with ⟨_, hread⟩ | ⟨_, _, -, -, hread⟩
  · rw [hread]
  · rw [hread] at h
    exact absurd h (by simp)

-- All ids are decoded before the first scroll is closed.
theorem close_of_error {scrollIds : List String} (h : (table.close scrollIds).1 = .error error) :
    (table.close scrollIds).2 = table := by
  unfold close at h ⊢
  cases hdecode : scrollIds.mapM ScrollId.decode with
  | error fault => rfl
  | ok nodes =>
    simp only [hdecode] at h
    exact absurd h (by simp)

/-- One id that does not decode fails the whole call, since all ids are decoded before any cursor is
    dropped. -/
theorem close_of_undecodable (table : ScrollTable) {scrollIds : List String}
    (h : ∃ id ∈ scrollIds, ∀ node, ScrollId.decode id ≠ .ok node) :
    ∃ error, (table.close scrollIds).1 = .error error := by
  rcases h with ⟨id, hmem, hid⟩
  unfold close
  cases hdecode : scrollIds.mapM ScrollId.decode with
  | error fault => exact ⟨fault, rfl⟩
  | ok nodes =>
    rcases Outcome.ok_of_mem_of_mapM hdecode hmem with ⟨node, hnode⟩
    exact absurd hnode (hid node)

end ScrollTable

namespace Database

variable {db ensured : Database} {name : String} {index : Index} {error : Error}

theorem error_of_answer {α : Type} {form : α → Answer} {outcome : Except Error α × Database}
    (h : (answer form outcome).1 = .error error) : outcome.1 = .error error :=
  Outcome.map_eq_error_iff.mp h

/-! ### Commands that presume -/

/-- With its indexes and its scrolls a database is the same as a whole. -/
theorem eq_of_keepsIndexes {after : Database} (h : KeepsIndexes db after)
    (hscrolls : after.scrolls = db.scrolls) : after = db := by
  cases db
  cases after
  rcases h with ⟨hconfig, hindexes, hidentity⟩
  simp only at hconfig hindexes hidentity hscrolls
  rw [hconfig, hindexes, hidentity, hscrolls]

-- From here on, one lemma for each reading call. A search changes the table of scrolls only when it
-- opens a cursor, and it opens one only after all that can fail has succeeded.
theorem search_of_error {names : List String} {request : SearchRequest} {node : String}
    (h : (db.search names request node).1 = .error error) :
    (db.search names request node).2 = db :=
  eq_of_keepsIndexes (keepsIndexes_search db names request node) (scrolls_search_of_error h)

theorem searchBody_of_error {names : List String} {body : Json} {scroll : Option String}
    {node : String} (h : (db.searchBody names body scroll node).1 = .error error) :
    (db.searchBody names body scroll node).2 = db := by
  unfold searchBody at h ⊢
  cases hbody : SearchRequest.ofJson db.config body with
  | error fault => rfl
  | ok request =>
    simp only [hbody] at h
    exact search_of_error h

-- A search that succeeded found every index and compiled the query for each.
theorem search_of_not_searchable {names : List String} {request : SearchRequest}
    (node : String) (h : ¬ db.Searchable request.query names) :
    ∃ error, (db.search names request node).1 = .error error := by
  cases hsearch : (db.search names request node).1 with
  | error error => exact ⟨error, rfl⟩
  | ok results =>
    rcases search_eq_ok_iff.mp hsearch with ⟨indexes, found, hindexes, _, hfound, _⟩
    exact absurd (searchable_of_hitsOf hindexes hfound) h

theorem continueScroll_of_error {scrollId : String}
    (h : (db.continueScroll scrollId).1 = .error error) :
    (db.continueScroll scrollId).2 = db :=
  eq_of_keepsIndexes ⟨rfl, rfl, rfl⟩ (ScrollTable.read_of_error h)

theorem clearScroll_of_error {scrollIds : List String}
    (h : (db.clearScroll scrollIds).1 = .error error) : (db.clearScroll scrollIds).2 = db :=
  eq_of_keepsIndexes ⟨rfl, rfl, rfl⟩ (ScrollTable.close_of_error h)

/-- The document is looked up before the index is written back. -/
theorem remove_of_error {id : String} (h : (db.remove name id).1 = .error error) :
    (db.remove name id).2 = db := by
  unfold remove at h ⊢
  cases hindex : db.index name with
  | error fault => rfl
  | ok index =>
    simp only [hindex] at h
    exact absurd h (by simp)

theorem deleteIndex_of_error (h : (db.deleteIndex name).1 = .error error) :
    (db.deleteIndex name).2 = db := by
  unfold deleteIndex at h ⊢
  cases hexists : db.indexExists name with
  | false => rfl
  | true =>
    rw [hexists] at h
    exact absurd h (by simp)

/-- The copy is stored only once the source has been found write-blocked and the target name free.
    -/
theorem cloneIndex_of_error {target : String} (h : (db.cloneIndex name target).1 = .error error) :
    (db.cloneIndex name target).2 = db := by
  rcases cloneIndex_cases db name target with ⟨_, hfails⟩ | ⟨_, -, -, -, hok⟩
  · rw [hfails]
  · rw [hok] at h
    exact absurd h (by simp)

/-- A command that presumes something and fails leaves the database as it was. To these
    belongs every search in which an index of the list is missing or does not allow the query,
    and every request to close scrolls in which one id is damaged, wherever in the list it
    stands. -/
theorem failed_reading_keeps (db : Database) :
    (∀ command : Command, command.presumes = true → ∀ error,
        (db.execute command).1 = .error error → (db.execute command).2 = db)
      ∧ (∀ (names : List String) (request : SearchRequest) (node : String),
          ¬ db.Searchable request.query names →
          ∃ error, db.search names request node = (.error error, db))
      ∧ ∀ scrollIds : List String, (∃ id ∈ scrollIds, ∀ node, ScrollId.decode id ≠ .ok node) →
          ∃ error, db.clearScroll scrollIds = (.error error, db) := by
  refine ⟨?_, ?_, ?_⟩
  · -- Commands that create an index are not covered by the first part; the others have each their
    -- lemma.
    intro command hpresumes error hfails
    cases command with
    | search => exact search_of_error (error_of_answer hfails)
    | searchBody => exact searchBody_of_error (error_of_answer hfails)
    | continueScroll => exact continueScroll_of_error (error_of_answer hfails)
    | clearScroll => exact clearScroll_of_error (error_of_answer hfails)
    | get => rfl
    | remove => exact remove_of_error (error_of_answer hfails)
    | deleteIndex => exact deleteIndex_of_error (error_of_answer hfails)
    | cloneIndex => exact cloneIndex_of_error (error_of_answer hfails)
    | _ => exact absurd hpresumes (by simp [Command.presumes])
  · intro names request node hmissing
    rcases search_of_not_searchable node hmissing with ⟨error, hfails⟩
    exact ⟨error, Prod.ext hfails (search_of_error hfails)⟩
  · intro scrollIds hdamaged
    rcases ScrollTable.close_of_undecodable db.scrolls hdamaged with ⟨error, hfails⟩
    exact ⟨error, Prod.ext hfails (clearScroll_of_error hfails)⟩

/-! ### Commands that create -/

/-- The same database with an index under a name: a new and empty one where there is none, as
    long as there is a name. -/
def withIndex (db : Database) (name : String) : Database :=
  if db.indexExists name = true ∨ name = "" then db
  else
    { db.store name (Index.empty name db.nextIdentity) with
      nextIdentity := db.nextIdentity + 1 }

/-- When an index is found or created, what is left behind is the database with that index. -/
theorem withIndex_of_ok (h : db.ensureIndex name = .ok (index, ensured)) :
    ensured = db.withIndex name := by
  unfold withIndex indexExists Keyed.contains
  rcases ensureIndex_cases h with ⟨hget, rfl⟩ | ⟨hfree, hname, rfl, rfl⟩
  · rw [hget, if_pos (Or.inl Option.isSome_some)]
  · rw [hfree, if_neg (by simp [hname])]

-- What has no name cannot be created.
theorem withIndex_of_error (h : db.ensureIndex name = .error error) : db.withIndex name = db := by
  have hnone : ¬ (name ≠ "" ∨ db.indexExists name = true) := by
    rw [← exists_ensureIndex_iff, h]
    simp
  rw [not_or, not_not] at hnone
  rw [withIndex, if_pos (Or.inr hnone.1)]

-- The calls below that set something differ in where they can fail: creating an index and its
-- settings fail only on the name, before anything is written, while documents and mappings are
-- checked when the index is already there.
theorem createIndex_of_error {settings : Option Json}
    (h : (db.createIndex name settings).1 = .error error) :
    (db.createIndex name settings).2 = db := by
  unfold createIndex at h ⊢
  cases hensure : db.ensureIndex name with
  | error fault => rfl
  | ok found =>
    simp only [hensure] at h
    exact absurd h (by simp)

theorem setSettings_of_error {settings : Json}
    (h : (db.setSettings name settings).1 = .error error) :
    (db.setSettings name settings).2 = db := by
  unfold setSettings at h ⊢
  cases hensure : db.ensureIndex name with
  | error fault => rfl
  | ok found =>
    simp only [hensure] at h
    exact absurd h (by simp)

/-- A refused document leaves the index that was created for it. -/
theorem put_of_error {id : String} {document : Json}
    (h : (db.put name id document).1 = .error error) :
    (db.put name id document).2 = db.withIndex name := by
  unfold put at h ⊢
  cases hensure : db.ensureIndex name with
  | error fault => exact (withIndex_of_error hensure).symm
  | ok found =>
    rcases found with ⟨index, ensured⟩
    cases hput : index.put id document with
    | error fault =>
      simp only [hput]
      exact withIndex_of_ok hensure
    | ok written =>
      simp only [hensure, hput] at h
      exact absurd h (by simp)

/-- The index is created before an id is drawn and before the document is checked, so each of the
    two failures leaves it. -/
theorem add_of_error {document : Json} {draw : Nat → String}
    (h : (db.add name document draw).1 = .error error) :
    (db.add name document draw).2 = db.withIndex name := by
  unfold add at h ⊢
  cases hensure : db.ensureIndex name with
  | error fault => exact (withIndex_of_error hensure).symm
  | ok found =>
    rcases found with ⟨index, ensured⟩
    -- From here on the index exists, and neither failure takes it back.
    cases hdraw : unusedId? index draw with
    | none =>
      simp only [hdraw]
      exact withIndex_of_ok hensure
    | some id =>
      cases hput : index.put id document with
      | error fault =>
        simp only [hdraw, hput]
        exact withIndex_of_ok hensure
      | ok written =>
        simp only [hensure, hdraw, hput] at h
        exact absurd h (by simp)

/-- A refused tree leaves the index that was created for it, with the mappings it had. -/
theorem setMappings_of_error {tree : Json} (h : (db.setMappings name tree).1 = .error error) :
    (db.setMappings name tree).2 = db.withIndex name := by
  unfold setMappings at h ⊢
  cases hensure : db.ensureIndex name with
  | error fault => exact (withIndex_of_error hensure).symm
  | ok found =>
    rcases found with ⟨index, ensured⟩
    cases hset : index.setMappings tree with
    | error fault =>
      simp only [hset]
      exact withIndex_of_ok hensure
    | ok mapped =>
      simp only [hensure, hset] at h
      exact absurd h (by simp)

-- What is copied was accepted before, so copying does not stop halfway.
theorem reindex_of_error (hsound : EachIndex Index.Sound db) {target : String}
    (h : (db.reindex name target).1 = .error error) : (db.reindex name target).2 = db := by
  unfold reindex at h ⊢
  cases hdocuments : db.documents name with
  | error fault => rfl
  | ok documents =>
    cases hensure : db.ensureIndex target with
    | error fault => rfl
    | ok found =>
      rcases found with ⟨index, ensured⟩
      rcases Outcome.map_eq_ok_iff.mp hdocuments with ⟨source, hsource, rfl⟩
      have hcopied := putAll_of_isObject _ index (sound_of_index hsound hsource).2.objects
      simp only [hdocuments, hensure, hcopied] at h
      exact absurd h (by simp [Except.map])

/-- A document that is refused leaves the index behind that was created for it. -/
theorem rejected_put_leaves_index :
    (empty {}).indexNames = []
      ∧ ((empty {}).execute (.put "books" "1" (.arr []))).1
          = .error (.documentNotObject "1" "books")
      ∧ ((empty {}).execute (.put "books" "1" (.arr []))).2.indexNames = ["books"] := by
  exact ⟨rfl, rfl, rfl⟩

/-- A command that would create an index and fails leaves a reachable database as it was,
    unless it creates the index before all else. Then the index is there afterwards, as a new
    and empty one if there was none before, and nothing else has changed. -/
theorem failed_writing_leaves (config : Config) (history : List Command) {db : Database}
    (hdb : db = (empty config).after history) (command : Command)
    (hcreates : command.createsIndex = true) {error : Error}
    (hfails : (db.execute command).1 = .error error) :
    (db.execute command).2
      = match command.createsFirst? with
        | none => db
        | some name => db.withIndex name := by
  cases command with
  | createIndex => exact createIndex_of_error (error_of_answer hfails)
  | put => exact put_of_error (error_of_answer hfails)
  | add => exact add_of_error (error_of_answer hfails)
  | setMappings => exact setMappings_of_error (error_of_answer hfails)
  | setSettings => exact setSettings_of_error (error_of_answer hfails)
  | reindex =>
    -- Reindexing cannot fail at a document: those of a reachable database are objects.
    have hsound : EachIndex Index.Sound db := by
      rw [hdb]
      exact sound_after config history
    exact reindex_of_error hsound (error_of_answer hfails)
  | _ => exact absurd hcreates (by simp [Command.createsIndex])

/-- In the harbour a document that is none makes a new index, and copying from an index that is
    not there makes none. -/
theorem failed_writing_leaves_harbour :
    (harbour.execute (.put "docks" "1" (.bool true))).2 = harbour.withIndex "docks"
      ∧ (harbour.execute (.reindex "docks" "piers")).2 = harbour := by
  exact ⟨failed_writing_leaves {} fillHarbour rfl (.put "docks" "1" (.bool true)) rfl rfl,
    failed_writing_leaves {} fillHarbour rfl (.reindex "docks" "piers") rfl rfl⟩

end Database

end DocSearch
