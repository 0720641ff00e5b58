import DocSearch.Proofs.Scroll.Table
import DocSearch.Store.Command
import Mathlib.Algebra.Group.Nat.Defs

/-!
# Scrolls as a Queue

The table of open scrolls is a queue of bounded length, first in, first out, whatever is done
to it and in whatever order.

The queue is described here once more, as a list that is only ever filtered, mapped and
appended to. A scroll that is opened goes to the end. If its node is in use it takes the place
of the scroll there, and otherwise the front of the queue goes when the queue is full. Reading
changes the place of one scroll and the order of none. Closing takes out those that are named
and counts them once each, however often they are named.

The table does all this one entry at a time: it looks for the first entry with a node, replaces
that entry, takes nodes out one after another. Both descriptions agree as long as no node
occurs twice, which is what every operation keeps, along with the bound on the length.

## Main definitions

* `ScrollOperation`: What can be asked of open scrolls.
* `runAll`: Operations in a row, for anything that can carry out one.
* `ScrollTable.execute`: One operation on a table.
* `ScrollQueue.execute`: One operation on a queue.
* `ScrollTable.Sound`: Nodes are distinct and the bound is kept.

## Theorems

* `runAll_of_simulation`: Two that agree on every operation agree on operations in a row.
* `sound_execute`: Operations keep a table sound.
* `execute_cursors`: One operation does to a table what it does to its queue.
* `runAll_cursors`: So do operations in a row.
-/

namespace DocSearch

/-- An operation on open scrolls. Where a node is drawn, it is an argument. -/
inductive ScrollOperation where
  | openFromStart (node : String) (hits : List Hit) (size : Nat) (keepAlive : String)
  | openAt (node : String) (hits : List Hit) (offset size : Nat) (keepAlive : String)
  | read (scrollId : String)
  | close (scrollIds : List String)
  | closeAll
  | activeIds

/-- The answers to operations in a row, and the state behind them. -/
def runAll {σ : Type} (step : σ → ScrollOperation → Except Error Answer × σ) :
    σ → List ScrollOperation → List (Except Error Answer) × σ
  | state, [] => ([], state)
  | state, operation :: rest =>
    ((step state operation).1 :: (runAll step (step state operation).2 rest).1,
      (runAll step (step state operation).2 rest).2)

/-- Two that agree on every operation, as far as the states of one are seen in the states of
    the other, agree on operations in a row. -/
theorem runAll_of_simulation {σ τ : Type} {step : σ → ScrollOperation → Except Error Answer × σ}
    {step' : τ → ScrollOperation → Except Error Answer × τ} (view : σ → τ) (kept : σ → Prop)
    (hkept : ∀ state operation, kept state → kept (step state operation).2)
    (hstep : ∀ state operation, kept state →
      step' (view state) operation = ((step state operation).1, view (step state operation).2))
    (operations : List ScrollOperation) :
    ∀ state, kept state →
      runAll step' (view state) operations
          = ((runAll step state operations).1, view (runAll step state operations).2)
        ∧ kept (runAll step state operations).2 := by
  induction operations with
  | nil => exact fun _ h => ⟨rfl, h⟩
  | cons operation rest ih =>
    intro state h
    rcases ih _ (hkept state operation h) with ⟨hrest, hlast⟩
    refine ⟨?_, hlast⟩
    simp only [runAll, hstep state operation h, hrest]

namespace ScrollTable

/-- An outcome in the form of an answer. -/
def answer {α : Type} (form : α → Answer) (outcome : Except Error α × ScrollTable) :
    Except Error Answer × ScrollTable :=
  (outcome.1.map form, outcome.2)

/-- Carry out an operation. -/
def execute (table : ScrollTable) : ScrollOperation → Except Error Answer × ScrollTable
  | .openFromStart node hits size keepAlive =>
    answer .text (table.openFromStart node hits size keepAlive)
  | .openAt node hits offset size keepAlive =>
    answer .text (table.openAt node hits offset size keepAlive)
  | .read scrollId => answer .page (table.read scrollId)
  | .close scrollIds => answer .number (table.close scrollIds)
  | .closeAll => (.ok (.number table.closeAll.1), table.closeAll.2)
  | .activeIds => (.ok (.texts table.activeIds), table)

end ScrollTable

/-! ### The queue -/

/-- Open scrolls by node, the oldest first. -/
abbrev ScrollQueue := List (String × Cursor)

namespace ScrollQueue

/-- Those that stay when another scroll is opened: all under other nodes, save the oldest one
    where the queue is full and none is replaced. -/
def remaining (capacity : Nat) (node : String) (queue : ScrollQueue) : ScrollQueue :=
  if node ∈ Keyed.keys queue then queue.filter fun entry => entry.1 ≠ node
  else if queue.length = capacity then queue.tail
  else queue

/-- Open a scroll under a node, as the newest. -/
def openAt (capacity : Nat) (queue : ScrollQueue) (node : String) (hits : List Hit)
    (offset size : Nat) (keepAlive : String) : Except Error Answer × ScrollQueue :=
  match Duration.ofText keepAlive with
  | .error error => (.error error, queue)
  | .ok duration =>
    (.ok (.text (ScrollId.encode node)),
      queue.remaining capacity node ++ [(node, ⟨hits, offset, size, duration⟩)])

/-- Move the scroll under a node to its next page, where it stands. No place is behind the last one
    that 64 bits can count to. -/
def move (node : String) (queue : ScrollQueue) : ScrollQueue :=
  queue.map fun entry =>
    if entry.1 = node then
      (node, { entry.2 with offset := min (entry.2.offset + entry.2.size) (2 ^ 64 - 1) })
    else entry

/-- What an operation answers, and the queue behind it. -/
def execute (capacity : Nat) (queue : ScrollQueue) :
    ScrollOperation → Except Error Answer × ScrollQueue
  | .openFromStart node hits size keepAlive =>
    openAt capacity queue node hits 0 size keepAlive
  | .openAt node hits offset size keepAlive =>
    openAt capacity queue node hits offset size keepAlive
  | .read scrollId =>
    match ScrollId.decode scrollId with
    | .error error => (.error error, queue)
    | .ok node =>
      match queue.find? fun entry => entry.1 = node with
      | none => (.error (.scrollNotFound node), queue)
      | some (_, cursor) =>
        (.ok (.page ⟨scrollId, cursor.hits.length,
            (cursor.hits.drop cursor.offset).take cursor.size⟩), queue.move node)
  | .close scrollIds =>
    match scrollIds.mapM ScrollId.decode with
    | .error error => (.error error, queue)
    | .ok named =>
      (.ok (.number (queue.countP fun entry => entry.1 ∈ named)),
        queue.filter fun entry => entry.1 ∉ named)
  | .closeAll => (.ok (.number queue.length), [])
  | .activeIds => (.ok (.texts ((Keyed.keys queue).map ScrollId.encode)), queue)

variable {queue : ScrollQueue} {capacity : Nat}

-- Those that stay have kept their order, and none of them has the node.
theorem remaining_sublist (capacity : Nat) (node : String) (queue : ScrollQueue) :
    (queue.remaining capacity node).Sublist queue := by
  unfold remaining
  split
  · exact List.filter_sublist
  · split
    · exact List.tail_sublist queue
    · exact List.Sublist.refl queue

theorem notMem_keys_remaining (capacity : Nat) (node : String) (queue : ScrollQueue) :
    node ∉ Keyed.keys (queue.remaining capacity node) := by
  by_cases hused : node ∈ Keyed.keys queue
  · rw [remaining, if_pos hused]
    exact Keyed.notMem_keys_erase node queue
  · exact fun hmem => hused (((remaining_sublist capacity node queue).map Prod.fst).subset hmem)

-- There is room for one more among those that stay.
theorem length_remaining_lt (node : String) (hpositive : 0 < capacity)
    (hbounded : queue.length ≤ capacity) :
    (queue.remaining capacity node).length < capacity := by
  unfold remaining
  by_cases hused : node ∈ Keyed.keys queue
  · rw [if_pos hused]
    rcases List.mem_map.mp hused with ⟨entry, hentry, rfl⟩
    have hshorter : (queue.filter fun other => other.1 ≠ entry.1).length < queue.length :=
      List.length_filter_lt_length_iff_exists.mpr ⟨entry, hentry, by simp⟩
    omega
  · rw [if_neg hused]
    by_cases hfull : queue.length = capacity
    · rw [if_pos hfull, List.length_tail]
      omega
    · rw [if_neg hfull]
      omega

end ScrollQueue

/-! ### Tables -/

namespace ScrollTable

variable {table : ScrollTable} {capacity : Nat} {node : String} {cursor : Cursor}

/-- Nodes are distinct, and there are no more scrolls than may be open, which is one at
    least. -/
structure Sound (capacity : Nat) (table : ScrollTable) : Prop where
  room : table.capacity = capacity
  positive : 0 < capacity
  nodup : (Keyed.keys table.cursors).Nodup
  bounded : table.cursors.length ≤ capacity

theorem sound_ofCapacity (capacity : Nat) : (ofCapacity capacity).Sound (max capacity 1) :=
  ⟨rfl, Nat.le_max_right capacity 1, List.nodup_nil, Nat.zero_le _⟩

-- Opening puts a scroll behind those that stay.
theorem cursors_push (h : table.Sound capacity) (node : String) (cursor : Cursor) :
    (table.push node cursor).cursors
      = ScrollQueue.remaining capacity node table.cursors ++ [(node, cursor)] := by
  have hused : (table.find? node).isSome = true ↔ node ∈ Keyed.keys table.cursors :=
    Keyed.contains_iff
  have hroom : table.cursors.length < table.capacity ↔ ¬ table.cursors.length = capacity := by
    have hbounded := h.bounded
    have hcapacity := h.room
    omega
  simp only [push, ScrollQueue.remaining, hused, hroom, ite_not, List.drop_one, Keyed.erase]

/-- Opening keeps a table sound: the node is new among those that stay, and there is room for it. -/
theorem sound_push (h : table.Sound capacity) (node : String) (cursor : Cursor) :
    (table.push node cursor).Sound capacity := by
  have hnew := ScrollQueue.notMem_keys_remaining capacity node table.cursors
  have hshort := ScrollQueue.length_remaining_lt node h.positive h.bounded
  have hkept := ((ScrollQueue.remaining_sublist capacity node table.cursors).map
    Prod.fst).nodup h.nodup
  refine ⟨h.room, h.positive, ?_, ?_⟩
  · rw [cursors_push h, Keyed.keys_append, List.nodup_append]
    refine ⟨hkept, List.pairwise_singleton _ node, fun other hother single hsingle heq => ?_⟩
    have hnode : other = node := heq.trans (List.mem_singleton.mp hsingle)
    exact hnew (hnode ▸ hother)
  · rw [cursors_push h, List.length_append]
    exact hshort

/-- Opening is refused for its keep-alive, or the scroll is there. -/
theorem openAt_cases (table : ScrollTable) (node : String) (hits : List Hit) (offset size : Nat)
    (keepAlive : String) :
    (∃ error, Duration.ofText keepAlive = .error error
        ∧ table.openAt node hits offset size keepAlive = (.error error, table))
      ∨ ∃ duration, Duration.ofText keepAlive = .ok duration
        ∧ table.openAt node hits offset size keepAlive
          = (.ok (ScrollId.encode node), table.push node ⟨hits, offset, size, duration⟩) := by
  unfold openAt
  cases Duration.ofText keepAlive with
  | error error => exact Or.inl ⟨error, rfl, rfl⟩
  | ok duration => exact Or.inr ⟨duration, rfl, rfl⟩

/-- Reading changes no node and takes no scroll out. -/
theorem sound_read (h : table.Sound capacity) (scrollId : String) :
    (table.read scrollId).2.Sound capacity := by
  rcases read_cases table scrollId with ⟨_, hread⟩ | ⟨node, cursor, -, -, hread⟩
  · rw [hread]
    exact h
  · rw [hread]
    have hkeys := keys_replace node cursor.advance table.cursors
    have hlength := congrArg List.length hkeys
    rw [Keyed.keys, Keyed.keys, List.length_map, List.length_map] at hlength
    exact ⟨h.room, h.positive, hkeys ▸ h.nodup, hlength ▸ h.bounded⟩

-- Taking scrolls out keeps a table sound.
theorem sound_of_sublist {cursors : List (String × Cursor)} (h : table.Sound capacity)
    (hsub : cursors.Sublist table.cursors) :
    ({ table with cursors } : ScrollTable).Sound capacity :=
  ⟨h.room, h.positive, (hsub.map Prod.fst).nodup h.nodup,
    Nat.le_trans hsub.length_le h.bounded⟩

/-! ### Reading and closing -/

-- The first entry with a node is the only one.
theorem find?_eq_find? (table : ScrollTable) (node : String) :
    (table.cursors.find? fun entry => entry.1 = node)
      = (table.find? node).map fun cursor => (node, cursor) := by
  unfold find?
  induction table.cursors with
  | nil => rfl
  | cons entry rest ih =>
    rcases entry with ⟨other, cursor⟩
    rw [List.find?_cons, Keyed.get?]
    by_cases h : other = node
    · simp [h]
    · simp [h, ih]

-- The next place of a scroll in full. A count of 64 bits stays at the last number that it has.
theorem advance_eq (cursor : Cursor) :
    cursor.advance = { cursor with offset := min (cursor.offset + cursor.size) (2 ^ 64 - 1) } := rfl

-- Only one entry has the node, so replacing the first one is changing all of them.
theorem replace_eq_move {cursors : List (String × Cursor)} (hnodup : (Keyed.keys cursors).Nodup)
    (hget : Keyed.get? node cursors = some cursor) :
    replace node cursor.advance cursors = ScrollQueue.move node cursors := by
  induction cursors with
  | nil => exact absurd hget (by simp)
  | cons entry rest ih =>
    rcases entry with ⟨other, first⟩
    rw [Keyed.keys_cons, List.nodup_cons] at hnodup
    rw [Keyed.get?] at hget
    rw [replace, ScrollQueue.move, List.map_cons]
    by_cases h : other = node
    · rw [if_pos h, Option.some.injEq] at hget
      -- Behind the scroll itself no other has its node.
      have hrest : ∀ entry ∈ rest, entry.1 ≠ node := fun entry hmem heq =>
        hnodup.1 (List.mem_map.mpr ⟨entry, hmem, heq.trans h.symm⟩)
      rw [if_pos h, if_pos h, hget, h, List.map_congr_left fun entry hmem =>
        if_neg (hrest entry hmem), List.map_id', advance_eq]
    · rw [if_neg h] at hget
      rw [if_neg h, if_neg h, ih hnodup.2 hget]
      rfl

-- A node that is in use is in use once.
theorem countP_node {cursors : List (String × Cursor)} (hnodup : (Keyed.keys cursors).Nodup)
    (node : String) :
    (cursors.countP fun entry => entry.1 = node)
      = if (Keyed.get? node cursors).isSome then 1 else 0 := by
  have hcount : (cursors.countP fun entry => entry.1 = node)
      = (Keyed.keys cursors).count node := by
    rw [Keyed.keys, List.count_eq_countP, List.countP_map]
    rfl
  rw [hcount, hnodup.count]
  simp only [← Keyed.contains_iff, Keyed.contains]

-- The scrolls that are named are the one under the first name and, of the others, those that
-- are named behind it.
theorem countP_mem_cons {cursors : List (String × Cursor)} (hnodup : (Keyed.keys cursors).Nodup)
    (node : String) (named : List String) :
    (cursors.countP fun entry => entry.1 ∈ node :: named)
      = (if (Keyed.get? node cursors).isSome then 1 else 0)
        + (Keyed.erase node cursors).countP fun entry => entry.1 ∈ named := by
  rw [List.countP_eq_countP_filter_add _ _ fun entry => decide (entry.1 = node),
    ← countP_node hnodup]
  congr 1
  · rw [List.countP_filter]
    refine List.countP_congr fun entry _ => ?_
    simp +contextual
  · have herase : (cursors.filter fun entry => !decide (entry.1 = node))
        = Keyed.erase node cursors := by
      simp only [Keyed.erase, ne_eq, decide_not]
    rw [herase]
    refine List.countP_congr fun entry hmem => ?_
    have hne : entry.1 ≠ node := of_decide_eq_true (List.mem_filter.mp hmem).2
    simp [hne]

/-- Closing scrolls one name after another takes out those that are named, and counts each of
    them once. -/
theorem closeNodes_eq (named : List String) : ∀ {table : ScrollTable},
    (Keyed.keys table.cursors).Nodup →
      closeNodes named table
        = (table.cursors.countP fun entry => entry.1 ∈ named,
          { table with cursors := table.cursors.filter fun entry => entry.1 ∉ named }) := by
  induction named with
  | nil =>
    intro table _
    have hall : (table.cursors.filter fun entry => entry.1 ∉ []) = table.cursors :=
      List.filter_eq_self.mpr fun entry _ => by simp
    have hnone : (table.cursors.countP fun entry => entry.1 ∈ []) = 0 :=
      List.countP_eq_zero.mpr fun entry _ => by simp
    rw [closeNodes, hall, hnone]
  | cons node rest ih =>
    intro table hnodup
    have herased : (Keyed.keys (table.drop node).cursors).Nodup :=
      (Keyed.keys_erase_sublist node table.cursors).nodup hnodup
    -- Taking out one node and then the others is taking out all of them.
    have hleft : (Keyed.erase node table.cursors).filter (fun entry => entry.1 ∉ rest)
        = table.cursors.filter fun entry => entry.1 ∉ node :: rest := by
      rw [Keyed.erase, List.filter_filter]
      refine List.filter_congr fun entry _ => ?_
      simp [Bool.and_comm]
    rw [closeNodes, ih herased, countP_mem_cons hnodup]
    simp only [drop, hleft, find?]
    rfl

theorem sound_close (h : table.Sound capacity) (scrollIds : List String) :
    (table.close scrollIds).2.Sound capacity := by
  unfold close
  cases scrollIds.mapM ScrollId.decode with
  | error error => exact h
  | ok named =>
    simp only [closeNodes_eq named h.nodup]
    exact sound_of_sublist h List.filter_sublist

/-! ### Operations -/

-- To open from the start is to open at the first place.
theorem execute_openFromStart (table : ScrollTable) (node : String) (hits : List Hit)
    (size : Nat) (keepAlive : String) :
    table.execute (.openFromStart node hits size keepAlive)
      = table.execute (.openAt node hits 0 size keepAlive) := rfl

theorem execute_openAt (table : ScrollTable) (node : String) (hits : List Hit)
    (offset size : Nat) (keepAlive : String) :
    table.execute (.openAt node hits offset size keepAlive)
      = answer .text (table.openAt node hits offset size keepAlive) := rfl

theorem sound_openAt (h : table.Sound capacity) (node : String) (hits : List Hit)
    (offset size : Nat) (keepAlive : String) :
    (table.execute (.openAt node hits offset size keepAlive)).2.Sound capacity := by
  rw [execute_openAt, answer]
  rcases openAt_cases table node hits offset size keepAlive with
    ⟨error, _, heq⟩ | ⟨duration, _, heq⟩
  · rw [heq]
    exact h
  · rw [heq]
    exact sound_push h node _

/-- Operations keep a table sound. -/
theorem sound_execute (h : table.Sound capacity) (operation : ScrollOperation) :
    (table.execute operation).2.Sound capacity := by
  cases operation with
  | openFromStart node hits size keepAlive =>
    rw [execute_openFromStart]
    exact sound_openAt h node hits 0 size keepAlive
  | openAt node hits offset size keepAlive => exact sound_openAt h node hits offset size keepAlive
  | read scrollId => exact sound_read h scrollId
  | close scrollIds => exact sound_close h scrollIds
  | closeAll => exact sound_of_sublist h (List.nil_sublist _)
  | activeIds => exact h

-- An opened scroll goes to the end of the queue.
theorem openAt_cursors (h : table.Sound capacity) (node : String) (hits : List Hit)
    (offset size : Nat) (keepAlive : String) :
    ScrollQueue.openAt capacity table.cursors node hits offset size keepAlive
      = ((table.execute (.openAt node hits offset size keepAlive)).1,
        (table.execute (.openAt node hits offset size keepAlive)).2.cursors) := by
  rw [execute_openAt, answer]
  rcases openAt_cases table node hits offset size keepAlive with
    ⟨error, hduration, heq⟩ | ⟨duration, hduration, heq⟩
  · simp only [ScrollQueue.openAt, hduration, heq, Except.map]
  · simp only [ScrollQueue.openAt, hduration, heq, Except.map, cursors_push h]

/-- One operation does to a table what it does to its queue, and gives the same answer. -/
theorem execute_cursors (h : table.Sound capacity) (operation : ScrollOperation) :
    ScrollQueue.execute capacity table.cursors operation
      = ((table.execute operation).1, (table.execute operation).2.cursors) := by
  -- Both sides decode the same ids and find the same cursors; what they do with a cursor once it is
  -- found differs in form only.
  cases operation with
  | openFromStart node hits size keepAlive =>
    rw [execute_openFromStart]
    exact openAt_cursors h node hits 0 size keepAlive
  | openAt node hits offset size keepAlive =>
    exact openAt_cursors h node hits offset size keepAlive
  | read scrollId =>
    simp only [ScrollQueue.execute, execute, answer, read]
    cases ScrollId.decode scrollId with
    | error error => rfl
    | ok node =>
      simp only [find?_eq_find?]
      cases hfind : table.find? node with
      | none => simp only [Option.map_none, Except.map]
      | some cursor =>
        simp only [Option.map_some, Except.map, replace_eq_move h.nodup hfind, Cursor.page]
  | close scrollIds =>
    simp only [ScrollQueue.execute, execute, answer, close]
    cases scrollIds.mapM ScrollId.decode with
    | error error => rfl
    | ok named => simp only [closeNodes_eq named h.nodup, Except.map]
  | closeAll => rfl
  | activeIds =>
    simp only [ScrollQueue.execute, execute, activeIds, Keyed.keys, List.map_map]
    rfl

/-- Operations in a row do to a table what they do to its queue, and keep it sound. -/
theorem runAll_cursors (h : table.Sound capacity) (operations : List ScrollOperation) :
    runAll (ScrollQueue.execute capacity) table.cursors operations
        = ((runAll execute table operations).1, (runAll execute table operations).2.cursors)
      ∧ (runAll execute table operations).2.Sound capacity :=
  runAll_of_simulation cursors (Sound capacity) (fun _ operation h => sound_execute h operation)
    (fun _ operation h => execute_cursors h operation) operations table h

end ScrollTable

end DocSearch
