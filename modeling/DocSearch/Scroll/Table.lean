import DocSearch.Hit.Codec
import DocSearch.Scroll.Id
import DocSearch.Scroll.KeepAlive

/-!
# Open Scrolls

A scroll is the sorted hit list of one search, frozen, with a place up to which it has
been read. The store keeps a bounded number of them in the order in which they were
opened. When there is no room, opening one closes the oldest. Reading a page moves the
place and nothing else; in particular it does not make a scroll younger.

Each scroll is kept under a node, an identifier drawn when it is opened. Should an
identifier be drawn twice, the new scroll takes the place of the old one and is the
youngest.

Places are counted in 64 bits and stay at the greatest count instead of starting over.

## Main definitions

* `Cursor`, `Cursor.page`, `Cursor.advance`: A scroll and reading it.
* `ScrollTable`: The open scrolls, oldest first.
* `ScrollTable.push`, `ScrollTable.openAt`, `ScrollTable.openFromStart`: Opening one.
* `ScrollTable.read`: The next page.
* `ScrollTable.close`, `ScrollTable.closeAll`: Closing some or all.
* `ScrollPage`: A page as clients see it.
-/

namespace DocSearch

/-- Move a place, as far as it goes. -/
def advancePlace (place step : Nat) : Nat := min (place + step) Number.greatestWord

/-- A frozen hit list and the place of its next page. -/
structure Cursor where
  hits : List Hit
  /-- Where the next page starts. -/
  offset : Nat
  /-- How many hits a page has. -/
  size : Nat
  /-- How long the client asked for it to be kept. -/
  keepAlive : Duration

namespace Cursor

/-- The next page. -/
def page (cursor : Cursor) : List Hit :=
  (cursor.hits.drop cursor.offset).take cursor.size

/-- The cursor behind its next page. -/
def advance (cursor : Cursor) : Cursor :=
  { cursor with offset := advancePlace cursor.offset cursor.size }

end Cursor

/-- A page that continues a scroll. -/
structure ScrollPage where
  scrollId : String
  totalHits : Nat
  hits : List Hit

/-- The open scrolls by node, oldest first. -/
structure ScrollTable where
  /-- How many scrolls may be open. -/
  capacity : Nat
  cursors : List (String × Cursor) := []

namespace ScrollTable

/-- A table without scrolls. There is always room for one. -/
def ofCapacity (capacity : Nat) : ScrollTable := ⟨max capacity 1, []⟩

/-- The scroll kept under a node. -/
def find? (table : ScrollTable) (node : String) : Option Cursor :=
  Keyed.get? node table.cursors

/-- Take a node out. -/
def drop (table : ScrollTable) (node : String) : ScrollTable :=
  { table with cursors := Keyed.erase node table.cursors }

/-- Keep a scroll under a node, as the youngest. If the node is in use the scroll there is
    replaced; otherwise the oldest one makes room when there is none. -/
def push (table : ScrollTable) (node : String) (cursor : Cursor) : ScrollTable :=
  -- Replacing a scroll frees the room it needs, so no other has to go.
  let kept :=
    if (table.find? node).isSome then Keyed.erase node table.cursors
    else if table.cursors.length < table.capacity then table.cursors
    else table.cursors.drop 1
  { table with cursors := kept ++ [(node, cursor)] }

/-- Open a scroll whose first page starts at a place, under the node that was drawn. -/
def openAt (table : ScrollTable) (node : String) (hits : List Hit) (offset size : Nat)
    (keepAlive : String) : Except Error String × ScrollTable :=
  match Duration.ofText keepAlive with
  | .error error => (.error error, table)
  | .ok keepAlive =>
    (.ok (ScrollId.encode node), table.push node ⟨hits, offset, size, keepAlive⟩)

/-- Open a scroll whose first page starts at the first hit. -/
def openFromStart (table : ScrollTable) (node : String) (hits : List Hit) (size : Nat)
    (keepAlive : String) : Except Error String × ScrollTable :=
  table.openAt node hits 0 size keepAlive

/-- Put another cursor in the place of one. -/
def replace (node : String) (cursor : Cursor) :
    List (String × Cursor) → List (String × Cursor)
  | [] => []
  | (other, old) :: rest =>
    if other = node then (other, cursor) :: rest else (other, old) :: replace node cursor rest

/-- The next page of a scroll. -/
def read (table : ScrollTable) (scrollId : String) : Except Error ScrollPage × ScrollTable :=
  match ScrollId.decode scrollId with
  | .error error => (.error error, table)
  | .ok node =>
    match table.find? node with
    | none => (.error (.scrollNotFound node), table)
    | some cursor =>
      (.ok ⟨scrollId, cursor.hits.length, cursor.page⟩,
        { table with cursors := replace node cursor.advance table.cursors })

/-- Close the scrolls under some nodes, and count those that were open. -/
def closeNodes : List String → ScrollTable → Nat × ScrollTable
  | [], table => (0, table)
  | node :: rest, table =>
    let (closed, left) := closeNodes rest (table.drop node)
    ((if (table.find? node).isSome then 1 else 0) + closed, left)

/-- Close some scrolls. All ids are decoded first, so a malformed one closes nothing. -/
def close (table : ScrollTable) (scrollIds : List String) : Except Error Nat × ScrollTable :=
  match scrollIds.mapM ScrollId.decode with
  | .error error => (.error error, table)
  | .ok nodes =>
    let (closed, table) := closeNodes nodes table
    (.ok closed, table)

/-- Close all scrolls, and count them. -/
def closeAll (table : ScrollTable) : Nat × ScrollTable :=
  (table.cursors.length, { table with cursors := [] })

/-- The ids of the open scrolls, oldest first. -/
def activeIds (table : ScrollTable) : List String :=
  table.cursors.map fun (node, _) => ScrollId.encode node

end ScrollTable

namespace ScrollPage

/-- A page as clients see it. -/
def toJson (page : ScrollPage) : Json :=
  .object
    [("_scroll_id", .str page.scrollId), ("total_hits", .ofNat page.totalHits),
     ("hits", .arr (page.hits.map Hit.toJson))]

/-- Read a page. -/
def ofJson? (value : Json) : Option ScrollPage := do
  let record ← Json.Record.ofJson? 3 3 value
  let scrollId ← (← record.field? 0 "_scroll_id").asText?
  let totalHits ← (← record.field? 1 "total_hits").asCount?
  let hits ← (← (← record.field? 2 "hits").asArray?).mapM Hit.ofJson?
  return ⟨scrollId, totalHits, hits⟩

end ScrollPage

end DocSearch
