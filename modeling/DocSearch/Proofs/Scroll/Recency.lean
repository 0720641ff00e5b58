import DocSearch.Proofs.Scroll.Id
import DocSearch.Proofs.Scroll.Queue

/-!
# Scrolls Kept by Recency

The table of open scrolls is a cache that closes what was used least recently, with the twist
that only opening counts as a use.

Such a cache keeps its entries in the order of their last use, the latest in front, and makes
room at the other end. It has nothing to do with age as such. A cache in which reading a page
counted as a use would keep the scrolls that are read and close those that wait. Here pages are
read by looking at an entry and changing it where it stands, and scrolls are closed by taking
entries out, and neither moves an entry. Opening is the one use, so the order of last use is
the order of opening read backwards, and the cache is a queue.

This is said of the table in both forms. Seen from its young end it is such a cache, operation
by operation, and seen from its old end it is the queue.

## Main definitions

* `RecencyCache`: Entries in the order of their last use.
* `RecencyCache.execute`: One operation on scrolls that are kept in a cache.
* `ScrollTable.recency`: A table seen from its young end.

## Theorems

* `execute_recency`: One operation does to a table what it does to its cache.
* `scrolls_first_in_first_out`: Cache, table and queue are one.
-/

namespace DocSearch

/-- Entries by key, the most recently used first. -/
structure RecencyCache (α : Type) where
  /-- How many entries there may be. -/
  capacity : Nat
  entries : List (String × α) := []

namespace RecencyCache

variable {α : Type}

/-- Look at the value under a key. This is no use of it. -/
def peek? (cache : RecencyCache α) (key : String) : Option α := Keyed.get? key cache.entries

/-- Put a value under a key, as the most recently used. Another value under the key is
    replaced; otherwise the least recently used one goes when the cache is full. -/
def push (cache : RecencyCache α) (key : String) (value : α) : RecencyCache α :=
  let others :=
    match cache.peek? key with
    | some _ => Keyed.erase key cache.entries
    | none =>
      if cache.entries.length = cache.capacity then cache.entries.dropLast else cache.entries
  { cache with entries := (key, value) :: others }

/-- Change the value under a key where it stands. This is no use of it either. -/
def modify (cache : RecencyCache α) (key : String) (change : α → α) : RecencyCache α :=
  { cache with
    entries := cache.entries.map fun entry =>
      if entry.1 = key then (key, change entry.2) else entry }

/-- Take some keys out, one after another, and count those that were there. -/
def popAll (cache : RecencyCache α) : List String → Nat × RecencyCache α
  | [] => (0, cache)
  | key :: rest =>
    let (popped, left) :=
      popAll { cache with entries := Keyed.erase key cache.entries } rest
    ((if (cache.peek? key).isSome then 1 else 0) + popped, left)

/-- Open a scroll in a cache. -/
def openAt (cache : RecencyCache Cursor) (node : String) (hits : List Hit) (offset size : Nat)
    (keepAlive : String) : Except Error Answer × RecencyCache Cursor :=
  match Duration.ofText keepAlive with
  | .error error => (.error error, cache)
  | .ok duration =>
    (.ok (.text (ScrollId.encode node)), cache.push node ⟨hits, offset, size, duration⟩)

/-- What an operation on scrolls in a cache answers, and the cache behind it. -/
def execute (cache : RecencyCache Cursor) :
    ScrollOperation → Except Error Answer × RecencyCache Cursor
  | .openFromStart node hits size keepAlive => cache.openAt node hits 0 size keepAlive
  | .openAt node hits offset size keepAlive => cache.openAt node hits offset size keepAlive
  | .read scrollId =>
    match ScrollId.decode scrollId with
    | .error error => (.error error, cache)
    | .ok node =>
      match cache.peek? node with
      | none => (.error (.scrollNotFound node), cache)
      | some cursor =>
        (.ok (.page ⟨scrollId, cursor.hits.length,
            (cursor.hits.drop cursor.offset).take cursor.size⟩),
          cache.modify node fun cursor =>
            { cursor with offset := min (cursor.offset + cursor.size) (2 ^ 64 - 1) })
  | .close scrollIds =>
    match scrollIds.mapM ScrollId.decode with
    | .error error => (.error error, cache)
    | .ok nodes => (.ok (.number (cache.popAll nodes).1), (cache.popAll nodes).2)
  | .closeAll => (.ok (.number cache.entries.length), { cache with entries := [] })
  -- The oldest scroll is the last of the cache, and ids are listed from there.
  | .activeIds =>
    (.ok (.texts (cache.entries.map fun entry => ScrollId.encode entry.1).reverse), cache)

end RecencyCache

namespace ScrollTable

variable {table : ScrollTable} {capacity : Nat} {node : String} {cursor : Cursor}

/-- The table as a cache: the latest scroll to be opened is the most recently used one. -/
def recency (table : ScrollTable) : RecencyCache Cursor :=
  ⟨table.capacity, table.cursors.reverse⟩

/-- The first entry with a node is also the last one, so it is found from both ends. -/
theorem peek?_recency (h : table.Sound capacity) (node : String) :
    table.recency.peek? node = table.find? node :=
  Keyed.get?_reverse h.nodup node

/-- Opening puts a scroll in front of the cache, which is behind all others in the table. -/
theorem recency_push (h : table.Sound capacity) (node : String) (cursor : Cursor) :
    (table.push node cursor).recency = table.recency.push node cursor := by
  rw [recency, cursors_push h, List.reverse_append, RecencyCache.push, peek?_recency h,
    capacity_push, ScrollQueue.remaining]
  cases hfind : table.find? node with
  | none =>
    have hunused := (Keyed.get?_eq_none_iff node table.cursors).mp hfind
    rw [if_neg hunused]
    simp only [recency, List.length_reverse, h.room, List.dropLast_reverse]
    -- The oldest scroll is the last one of the cache.
    by_cases hfull : table.cursors.length = capacity
    · rw [if_pos hfull, if_pos hfull]
      rfl
    · rw [if_neg hfull, if_neg hfull]
      rfl
  | some found =>
    have hused : node ∈ Keyed.keys table.cursors :=
      List.mem_map_of_mem (Keyed.mem_of_get?_eq_some hfind)
    rw [if_pos hused]
    simp only [recency, Keyed.erase, List.filter_reverse]
    rfl

/-- Scrolls are closed one after another on both sides. -/
theorem recency_popAll (nodes : List String) : ∀ {table : ScrollTable},
    table.Sound capacity →
      table.recency.popAll nodes
        = ((closeNodes nodes table).1, (closeNodes nodes table).2.recency) := by
  induction nodes with
  | nil => exact fun _ => rfl
  | cons node rest ih =>
    intro table h
    have hdrop : (table.drop node).Sound capacity := sound_of_sublist h List.filter_sublist
    have hrecency : ({ table.recency with
          entries := Keyed.erase node table.recency.entries } : RecencyCache Cursor)
        = (table.drop node).recency := by
      simp only [recency, drop, Keyed.erase, List.filter_reverse]
    rw [RecencyCache.popAll, hrecency, ih hdrop, peek?_recency h]
    rfl

-- Reading moves the scroll where it stands, from whichever end it is found.
theorem recency_modify (h : table.Sound capacity) (hfind : table.find? node = some cursor) :
    (table.recency.modify node fun cursor =>
        { cursor with offset := min (cursor.offset + cursor.size) (2 ^ 64 - 1) })
      = ({ table with cursors := replace node cursor.advance table.cursors } :
          ScrollTable).recency := by
  simp only [RecencyCache.modify, recency, replace_eq_move h.nodup hfind, List.map_reverse]
  rfl

/-- Opening does to the table what it does to its cache. -/
theorem recency_openAt (h : table.Sound capacity) (node : String) (hits : List Hit)
    (offset size : Nat) (keepAlive : String) :
    table.recency.openAt node hits offset size keepAlive
      = ((table.execute (.openAt node hits offset size keepAlive)).1,
        (table.execute (.openAt node hits offset size keepAlive)).2.recency) := by
  rw [execute_openAt, answer]
  rcases openAt_cases table node hits offset size keepAlive with
    ⟨error, hduration, heq⟩ | ⟨duration, hduration, heq⟩
  · simp only [RecencyCache.openAt, hduration, heq, Except.map]
  · simp only [RecencyCache.openAt, hduration, heq, Except.map, recency_push h]

/-- One operation does to a table what it does to its cache, and gives the same answer. -/
theorem execute_recency (h : table.Sound capacity) (operation : ScrollOperation) :
    table.recency.execute operation
      = ((table.execute operation).1, (table.execute operation).2.recency) := by
  -- The cache lists the cursors from the newest to the oldest, so every operation is the one on the
  -- table read backwards. A page is read without a touch, and so it does not change the order.
  cases operation with
  | openFromStart node hits size keepAlive =>
    rw [execute_openFromStart]
    exact recency_openAt h node hits 0 size keepAlive
  | openAt node hits offset size keepAlive =>
    exact recency_openAt h node hits offset size keepAlive
  | read scrollId =>
    simp only [RecencyCache.execute, execute, answer, read]
    cases ScrollId.decode scrollId with
    | error error => rfl
    | ok node =>
      simp only [peek?_recency h]
      cases hfind : table.find? node with
      | none => simp only [Except.map]
      | some cursor => simp only [Except.map, recency_modify h hfind, Cursor.page]
  | close scrollIds =>
    simp only [RecencyCache.execute, execute, answer, close]
    cases scrollIds.mapM ScrollId.decode with
    | error error => rfl
    | ok nodes => simp only [recency_popAll nodes h, Except.map]
  | closeAll =>
    simp only [RecencyCache.execute, execute, closeAll, recency, List.length_reverse,
      List.reverse_nil]
  | activeIds =>
    simp only [RecencyCache.execute, execute, activeIds, recency, List.map_reverse,
      List.reverse_reverse]

/-- Open scrolls are a queue, first in, first out. Whatever is done to scrolls, in whatever
    order and under whatever nodes, a table with room for so many, or for one if that is none,
    gives the answers of a queue of that length and holds what the queue holds, in its order.
    The same is true of a cache that closes what was used least recently, read from its end.
    The nodes of the queue are distinct, it never grows beyond its room, and the active ids are
    those of its nodes, the oldest first. -/
theorem scrolls_first_in_first_out (capacity : Nat) (operations : List ScrollOperation) :
    let table := runAll execute (ofCapacity capacity) operations
    let queue := runAll (ScrollQueue.execute (max capacity 1)) [] operations
    let cache := runAll RecencyCache.execute ⟨max capacity 1, []⟩ operations
    table.1 = queue.1 ∧ table.2.cursors = queue.2
      ∧ cache.1 = queue.1 ∧ cache.2.entries.reverse = queue.2
      ∧ (Keyed.keys queue.2).Nodup ∧ queue.2.length ≤ max capacity 1
      ∧ table.2.activeIds = (Keyed.keys queue.2).map ScrollId.encode := by
  intro table queue cache
  have hsound := sound_ofCapacity capacity
  rcases runAll_cursors hsound operations with ⟨hqueue, hkept⟩
  rcases runAll_of_simulation recency (Sound (max capacity 1))
    (fun _ operation h => sound_execute h operation)
    (fun _ operation h => execute_recency h operation) operations _ hsound with
    ⟨hcache, _⟩
  have hqueue' : queue = (table.1, table.2.cursors) := hqueue
  have hcache' : cache = (table.1, table.2.recency) := hcache
  rw [hqueue', hcache']
  refine ⟨rfl, rfl, rfl, List.reverse_reverse _, hkept.nodup, hkept.bounded, ?_⟩
  simp only [activeIds, Keyed.keys, List.map_map]
  rfl

/-- Two reads of one scroll give its first and its second hit, although another scroll was opened
    between them, and leave it where it stands. -/
theorem scrolls_first_in_first_out_pages :
    let dune : Hit := ⟨"books", "1", 1.0, none, none⟩
    let emma : Hit := ⟨"books", "2", 1.0, none, none⟩
    let table := runAll execute (ofCapacity 2)
      [.openFromStart "a" [dune, emma] 1 "1m", .read (ScrollId.encode "a"),
        .openFromStart "b" [emma] 1 "1m", .read (ScrollId.encode "a"), .activeIds]
    table.1
        = [.ok (.text (ScrollId.encode "a")), .ok (.page ⟨ScrollId.encode "a", 2, [dune]⟩),
          .ok (.text (ScrollId.encode "b")), .ok (.page ⟨ScrollId.encode "a", 2, [emma]⟩),
          .ok (.texts [ScrollId.encode "a", ScrollId.encode "b"])]
      ∧ table.2.cursors
        = [("a", ⟨[dune, emma], 2, 1, ⟨60, 0⟩⟩), ("b", ⟨[emma], 0, 1, ⟨60, 0⟩⟩)] := by
  intro dune emma table
  have hdecode : ScrollId.decode (ScrollId.encode "a") = .ok "a" :=
    ScrollId.decode_eq_ok_iff_encode.mpr rfl
  have hminute : Duration.ofText "1m" = .ok ⟨60, 0⟩ := by rfl
  rcases scrolls_first_in_first_out 2
    [.openFromStart "a" [dune, emma] 1 "1m", .read (ScrollId.encode "a"),
      .openFromStart "b" [emma] 1 "1m", .read (ScrollId.encode "a"), .activeIds] with
    ⟨hanswers, hcursors, _⟩
  rw [hanswers, hcursors]
  simp [runAll, ScrollQueue.execute, ScrollQueue.openAt, ScrollQueue.remaining, ScrollQueue.move,
    hdecode, hminute, Keyed.keys]

-- The oldest scroll goes, although it is the one that was read.
example : (runAll execute (ofCapacity 2)
    [.openFromStart "a" [] 1 "1m", .openFromStart "b" [] 1 "1m",
      .read (ScrollId.encode "a"), .openFromStart "c" [] 1 "1m"]).2.activeIds
      = [ScrollId.encode "b", ScrollId.encode "c"] := by
  cbv

end ScrollTable

end DocSearch
