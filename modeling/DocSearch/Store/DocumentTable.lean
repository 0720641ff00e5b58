import DocSearch.Json.Basic

/-!
# Document Tables

The documents of an index by id, in the order in which their ids were first put there.
Putting a document under an id that is in use replaces the document and keeps its place;
taking one out gives its place up, so the same id comes last when it is put again.

Ids are given sequence numbers. One map leads from an id to its number, the other from the
number to the document, and since numbers only grow the second map is in the order of
insertion without being sorted. `toList` is the view that hides the numbers.

## Main definitions

* `DocumentTable`: The two maps and the next number.
* `DocumentTable.put`, `DocumentTable.get?`, `DocumentTable.remove`: The operations.
* `DocumentTable.toList`: Ids and documents in order.
-/

namespace DocSearch

/-- An id and a document under their sequence number. -/
structure TableEntry where
  sequence : Nat
  id : String
  document : Json

/-- Documents by id, in the order of insertion. -/
structure DocumentTable where
  /-- The entries, by rising sequence number. -/
  entries : List TableEntry := []
  /-- The sequence number of every id, in key order. -/
  sequences : List (String × Nat) := []
  /-- The number the next new id gets. -/
  next : Nat := 0

namespace DocumentTable

/-- A table without documents. -/
def empty : DocumentTable := {}

/-- The entry with a sequence number. -/
def entry? (table : DocumentTable) (sequence : Nat) : Option TableEntry :=
  table.entries.find? fun entry => entry.sequence = sequence

/-- Put a document under an id. Says whether the id was new. -/
def put (table : DocumentTable) (id : String) (document : Json) : Bool × DocumentTable :=
  match Keyed.get? id table.sequences with
  | some sequence =>
    let entries := table.entries.map fun entry =>
      if entry.sequence = sequence then { entry with document } else entry
    (false, { table with entries })
  | none =>
    (true,
      { entries := table.entries ++ [⟨table.next, id, document⟩]
        sequences := Keyed.insert id table.next table.sequences
        next := table.next + 1 })

/-- The document under an id. -/
def get? (table : DocumentTable) (id : String) : Option Json := do
  let sequence ← Keyed.get? id table.sequences
  let entry ← table.entry? sequence
  return entry.document

/-- Take the document under an id out. -/
def remove (table : DocumentTable) (id : String) : Option Json × DocumentTable :=
  match Keyed.get? id table.sequences with
  | none => (none, table)
  | some sequence =>
    ((table.entry? sequence).map TableEntry.document,
      { table with
        entries := table.entries.filter fun entry => entry.sequence ≠ sequence
        sequences := Keyed.erase id table.sequences })

/-- Whether an id is in use. -/
def contains (table : DocumentTable) (id : String) : Bool :=
  Keyed.contains id table.sequences

/-- How many documents there are. -/
def size (table : DocumentTable) : Nat := table.sequences.length

/-- Whether there are no documents. -/
def isEmpty (table : DocumentTable) : Bool := table.sequences.isEmpty

/-- Ids and documents, in order. -/
def toList (table : DocumentTable) : List (String × Json) :=
  table.entries.map fun entry => (entry.id, entry.document)

end DocumentTable

end DocSearch
