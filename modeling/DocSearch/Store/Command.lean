import DocSearch.Store.Database

/-!
# Commands

Everything a client can ask of a database, as data. What holds of every database a client
can meet is what holds after any list of commands, so the states worth reasoning about are
given by one function.

## Main definitions

* `Command`: The operations with their arguments.
* `Answer`: What they answer when they do not fail.
* `Database.execute`: One command.
* `Database.after`: The state after some commands.
-/

namespace DocSearch

/-- An operation with its arguments. Where identifiers are drawn, the draws are arguments. -/
inductive Command where
  | createIndex (name : String) (settings : Option Json)
  | deleteIndex (name : String)
  | indexExists (name : String)
  | indexNames
  | indexInfo (name : String)
  | clear
  | put (name id : String) (document : Json)
  | add (name : String) (document : Json) (draw : Nat → String)
  | get (name id : String)
  | remove (name id : String)
  | setMappings (name : String) (tree : Json)
  | mappings (name : String)
  | setSettings (name : String) (settings : Json)
  | settings (name : String)
  | count (name : String)
  | documents (name : String)
  | cloneIndex (source target : String)
  | reindex (source target : String)
  | search (names : List String) (request : SearchRequest) (node : String)
  | searchBody (names : List String) (body : Json) (scroll : Option String) (node : String)
  | multiSearch (requests : List (String × SearchRequest)) (nodes : Nat → String)
  | continueScroll (scrollId : String)
  | clearScroll (scrollIds : List String)
  | activeScrollIds

/-- What an operation answers. -/
inductive Answer where
  | done
  | flag (value : Bool)
  | number (value : Nat)
  | text (value : String)
  | texts (values : List String)
  | json (value : Json)
  | documents (documents : List (String × Json))
  | info (info : IndexInfo)
  | results (results : SearchResults)
  | manyResults (results : List (Except Error SearchResults))
  | page (page : ScrollPage)

namespace Database

/-- An outcome in the form of an answer. -/
def answer {α : Type} (form : α → Answer) (outcome : Except Error α × Database) :
    Except Error Answer × Database :=
  (outcome.1.map form, outcome.2)

/-- Carry out a command. -/
def execute (db : Database) : Command → Except Error Answer × Database
  | .createIndex name settings => answer .flag (db.createIndex name settings)
  | .deleteIndex name => answer (fun () => .done) (db.deleteIndex name)
  | .indexExists name => (.ok (.flag (db.indexExists name)), db)
  | .indexNames => (.ok (.texts db.indexNames), db)
  | .indexInfo name => ((db.indexInfo name).map .info, db)
  | .clear => (.ok .done, db.clear)
  | .put name id document => answer .flag (db.put name id document)
  | .add name document draw => answer .text (db.add name document draw)
  | .get name id => ((db.get name id).map .json, db)
  | .remove name id => answer .flag (db.remove name id)
  | .setMappings name tree => answer (fun () => .done) (db.setMappings name tree)
  | .mappings name => ((db.mappings name).map .json, db)
  | .setSettings name settings =>
    answer (fun () => .done) (db.setSettings name settings)
  | .settings name => ((db.settings name).map .json, db)
  | .count name => ((db.count name).map .number, db)
  | .documents name => ((db.documents name).map .documents, db)
  | .cloneIndex source target =>
    answer (fun () => .done) (db.cloneIndex source target)
  | .reindex source target => answer .number (db.reindex source target)
  | .search names request node => answer .results (db.search names request node)
  | .searchBody names body scroll node =>
    answer .results (db.searchBody names body scroll node)
  | .multiSearch requests nodes =>
    let (results, db) := db.multiSearch nodes 0 requests
    (.ok (.manyResults results), db)
  | .continueScroll scrollId => answer .page (db.continueScroll scrollId)
  | .clearScroll scrollIds => answer .number (db.clearScroll scrollIds)
  | .activeScrollIds => (.ok (.texts db.activeScrollIds), db)

/-- The state after some commands. -/
def after (db : Database) (commands : List Command) : Database :=
  commands.foldl (fun db command => (db.execute command).2) db

end Database

end DocSearch
