import DocSearch.Search.Run

/-!
# The Database

The indexes by name, the open scrolls, and every operation on them.

An operation takes the database and gives its answer together with the database
afterwards, also when the answer is an error. Writing to an index that does not exist
creates it; reading from one is an error. Identifiers that have to be drawn are handed in,
the first few that the source of randomness gives.

## Main definitions

* `Database`: The state.
* `Database.index`, `Database.ensureIndex`: An index that has to exist, and one that is
  created if it does not.
* `Database.put`, `Database.add`, `Database.get`, `Database.remove`: Documents.
* `Database.cloneIndex`, `Database.reindex`: Copying an index, and its documents.
* `Database.search`, `Database.multiSearch`: Searching.
* `Database.continueScroll`, `Database.clearScroll`: Scrolls.
-/

namespace DocSearch

/-- The indexes by name, and the open scrolls. -/
structure Database where
  config : Config
  /-- The indexes, in the order of their names. -/
  indexes : List (String × Index) := []
  scrolls : ScrollTable
  /-- The identity the next new index gets. -/
  nextIdentity : Nat := 0

namespace Database

/-- A database without indexes. -/
def empty (config : Config) : Database :=
  { config, scrolls := .ofCapacity config.scrollCapacity }

/-- How many identifiers are drawn for a document before the store gives up. -/
def drawAttempts : Nat := 8

/-- An index that has to exist. -/
def index (db : Database) (name : String) : Except Error Index :=
  match Keyed.get? name db.indexes with
  | some index => .ok index
  | none => .error (.indexNotFound name)

/-- Keep an index under a name. -/
def store (db : Database) (name : String) (index : Index) : Database :=
  { db with indexes := Keyed.insert name index db.indexes }

/-- An index, created if it does not exist. Its name must not be empty then. -/
def ensureIndex (db : Database) (name : String) : Except Error (Index × Database) :=
  match Keyed.get? name db.indexes with
  | some index => .ok (index, db)
  | none =>
    if name = "" then .error .indexNameEmpty
    else
      let index := Index.empty name db.nextIdentity
      .ok (index, { db.store name index with nextIdentity := db.nextIdentity + 1 })

/-- Whether an index exists. -/
def indexExists (db : Database) (name : String) : Bool := Keyed.contains name db.indexes

/-- The names of all indexes, in order. -/
def indexNames (db : Database) : List String := Keyed.keys db.indexes

/-- Create an index, or give an existing one new settings. Says whether it was created. -/
def createIndex (db : Database) (name : String) (settings : Option Json) :
    Except Error Bool × Database :=
  match db.ensureIndex name with
  | .error error => (.error error, db)
  | .ok (index, ensured) =>
    let changed := match settings with
      | some settings => ensured.store name (index.setSettings settings)
      | none => ensured
    -- Whether it is new is asked of the database before the operation.
    (.ok (!db.indexExists name), changed)

/-- Delete an index. -/
def deleteIndex (db : Database) (name : String) : Except Error Unit × Database :=
  if db.indexExists name then (.ok (), { db with indexes := Keyed.erase name db.indexes })
  else (.error (.indexNotFound name), db)

/-- What can be told about an index. -/
def indexInfo (db : Database) (name : String) : Except Error IndexInfo :=
  (db.index name).map Index.info

/-- Delete all indexes and close all scrolls. -/
def clear (db : Database) : Database :=
  { db with indexes := [], scrolls := db.scrolls.closeAll.2 }

/-- Put a document under an id. Says whether the id was new. -/
def put (db : Database) (name id : String) (document : Json) : Except Error Bool × Database :=
  match db.ensureIndex name with
  | .error error => (.error error, db)
  | .ok (index, db) =>
    match index.put id document with
    | .error error => (.error error, db)
    | .ok (isNew, index) => (.ok isNew, db.store name index)

/-- The first of some identifiers that is not in use in an index. -/
def unusedId? (index : Index) (draw : Nat → String) : Option String :=
  ((List.range drawAttempts).map draw).find? fun id => (index.get? id).isNone

/-- Put a document under an identifier that is drawn for it. -/
def add (db : Database) (name : String) (document : Json) (draw : Nat → String) :
    Except Error String × Database :=
  match db.ensureIndex name with
  | .error error => (.error error, db)
  -- From here on the index is there, whether the document is accepted or not.
  | .ok (index, db) =>
    match unusedId? index draw with
    | none => (.error (.identifiersExhausted index.name), db)
    | some id =>
      match index.put id document with
      | .error error => (.error error, db)
      | .ok (_, index) => (.ok id, db.store name index)

/-- The document under an id. -/
def get (db : Database) (name id : String) : Except Error Json :=
  match db.index name with
  | .error error => .error error
  | .ok index =>
    match index.get? id with
    | some document => .ok document
    | none => .error (.documentNotFound id name)

/-- Take a document out. Says whether it was there. -/
def remove (db : Database) (name id : String) : Except Error Bool × Database :=
  match db.index name with
  | .error error => (.error error, db)
  | .ok index =>
    let (removed, index) := index.remove id
    (.ok removed.isSome, db.store name index)

/-- Replace the mappings of an index. -/
def setMappings (db : Database) (name : String) (tree : Json) : Except Error Unit × Database :=
  match db.ensureIndex name with
  | .error error => (.error error, db)
  | .ok (index, db) =>
    match index.setMappings tree with
    | .error error => (.error error, db)
    | .ok index => (.ok (), db.store name index)

/-- The mapping tree of an index. -/
def mappings (db : Database) (name : String) : Except Error Json :=
  (db.index name).map fun index => index.schema.toTree

/-- Replace the settings of an index. -/
def setSettings (db : Database) (name : String) (settings : Json) :
    Except Error Unit × Database :=
  match db.ensureIndex name with
  | .error error => (.error error, db)
  | .ok (index, db) => (.ok (), db.store name (index.setSettings settings))

/-- The settings of an index. -/
def settings (db : Database) (name : String) : Except Error Json :=
  (db.index name).map Index.settings

/-- How many documents an index has. -/
def count (db : Database) (name : String) : Except Error Nat :=
  (db.index name).map Index.size

/-- The ids and documents of an index, in order. -/
def documents (db : Database) (name : String) : Except Error (List (String × Json)) :=
  (db.index name).map fun index => index.documents.toList

/-- Copy an index that is blocked for writing under a name that is not in use. -/
def cloneIndex (db : Database) (source target : String) : Except Error Unit × Database :=
  match db.index source with
  | .error error => (.error error, db)
  | .ok index =>
    if !index.isWriteBlocked then (.error (.notWriteBlocked source), db)
    else if db.indexExists target then (.error (.indexExists target), db)
    else
      -- The copy is stored as it is and not created, so its name may be empty.
      let copy := index.cloneAs target db.nextIdentity
      (.ok (), { db.store target copy with nextIdentity := db.nextIdentity + 1 })

/-- Put documents one after another, up to the first that is refused. -/
def putAll (index : Index) : List (String × Json) → Except Error Unit × Index
  | [] => (.ok (), index)
  | (id, document) :: rest =>
    match index.put id document with
    | .error error => (.error error, index)
    | .ok (_, index) => putAll index rest

/-- Copy the documents of an index into another one. Says how many there were. -/
def reindex (db : Database) (source target : String) : Except Error Nat × Database :=
  match db.documents source with
  | .error error => (.error error, db)
  | .ok documents =>
    match db.ensureIndex target with
    | .error error => (.error error, db)
    | .ok (index, db) =>
      let (copied, index) := putAll index documents
      (copied.map fun () => documents.length, db.store target index)

/-- Search some indexes. The node names the scroll, should one be opened. -/
def search (db : Database) (names : List String) (request : SearchRequest) (node : String) :
    Except Error SearchResults × Database :=
  match names.mapM db.index with
  | .error error => (.error error, db)
  | .ok indexes =>
    let (results, scrolls) := Search.run indexes request node db.scrolls
    (results, { db with scrolls })

/-- Search some indexes as a body asks for, with a keep-alive that comes beside it. -/
def searchBody (db : Database) (names : List String) (body : Json) (scroll : Option String)
    (node : String) : Except Error SearchResults × Database :=
  match SearchRequest.ofJson db.config body with
  | .error error => (.error error, db)
  | .ok request => db.search names { request with scroll } node

/-- Search one index after another, each with a request of its own. One search failing does
    not keep the others from being answered. The first node is for the first request, and so
    on. -/
def multiSearch (db : Database) (nodes : Nat → String) :
    Nat → List (String × SearchRequest) → List (Except Error SearchResults) × Database
  | _, [] => ([], db)
  | place, (name, request) :: rest =>
    let (results, db) := db.search [name] request (nodes place)
    let (others, db) := multiSearch db nodes (place + 1) rest
    (results :: others, db)

/-- The next page of a scroll. -/
def continueScroll (db : Database) (scrollId : String) : Except Error ScrollPage × Database :=
  let (page, scrolls) := db.scrolls.read scrollId
  (page, { db with scrolls })

/-- Close some scrolls. Says how many of them were open. -/
def clearScroll (db : Database) (scrollIds : List String) : Except Error Nat × Database :=
  let (closed, scrolls) := db.scrolls.close scrollIds
  (closed, { db with scrolls })

/-- The ids of the open scrolls, oldest first. -/
def activeScrollIds (db : Database) : List String := db.scrolls.activeIds

end Database

end DocSearch
