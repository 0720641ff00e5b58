import DocSearch.Proofs.Keyed
import DocSearch.Store.DocumentTable
import Mathlib.Data.List.Nodup
import Mathlib.Tactic.ByContra

/-!
# Tables as Lists

A document table behaves like a list of ids and documents in which every id occurs once.

The table does its work with two maps and a counter. An id leads to a number and a number to
an id with its document, so whatever is asked of the table is answered by one of the maps or
by both, and a table whose maps have come apart would answer one question from the one and
the next from the other. `Linked` says that they lead to each other: an id has a number
exactly if there is an entry with this id and this number. Along with it goes what makes the
order of the entries the order of insertion, namely that numbers rise and the counter is above
all of them.

From then on the numbers do not matter. Putting into a linked table puts into the list,
removing from it erases from the list, and all four questions are answered from the list.

## Main definitions

* `Collection`, `Collection.put`: Documents by id in the order of insertion.
* `DocumentTable.Linked`: The two maps lead to each other.
* `DocumentTable.Mirrored`: What a client can tell from that.

## Theorems

* `linked_put`, `linked_remove`: The operations keep the maps linked.
* `get?_toList`, `contains_toList`, `length_toList`: What the table answers, the list answers.
* `toList_put`, `toList_remove`: What the operations do to the list.
* `put_of_get?`: Putting a document where it is.
* `mirrored_of_linked`: All of it for one table.
-/

namespace DocSearch

/-- Documents by id, in the order in which their ids were put. -/
abbrev Collection := List (String × Json)

/-- Put a document under an id: in the place of the one that is there, or behind all others. -/
def Collection.put (id : String) (document : Json) : Collection → Collection
  | [] => [(id, document)]
  | row :: rest => if row.1 = id then (id, document) :: rest else row :: put id document rest

namespace Collection

variable {id : String} {document : Json} {rows : Collection}

/-- A document under a new id goes behind all that are there. -/
theorem put_of_notMem (h : id ∉ Keyed.keys rows) :
    put id document rows = rows ++ [(id, document)] := by
  induction rows with
  | nil => rfl
  | cons row rest ih =>
    rw [Keyed.keys_cons, List.mem_cons, not_or] at h
    rw [put, if_neg (fun heq => h.1 heq.symm), ih h.2, List.cons_append]

-- Putting under an id that is in use touches the row of that id and no other.
theorem put_of_mem (hnodup : (Keyed.keys rows).Nodup) (h : id ∈ Keyed.keys rows) :
    put id document rows = rows.map fun row => if row.1 = id then (id, document) else row := by
  induction rows with
  | nil => exact absurd h List.not_mem_nil
  | cons row rest ih =>
    rw [Keyed.keys_cons, List.nodup_cons] at hnodup
    rw [put, List.map_cons]
    by_cases hrow : row.1 = id
    · -- The id does not occur again, so the rest is as it was.
      have hrest : ∀ other ∈ rest, other.1 ≠ id := by
        intro other hother heq
        exact hnodup.1 (by rw [hrow, ← heq]; exact List.mem_map_of_mem hother)
      have hsame :
          rest.map (fun other => if other.1 = id then (id, document) else other) = rest := by
        rw [List.map_congr_left fun other hother => if_neg (hrest other hother), List.map_id']
      rw [if_pos hrow, if_pos hrow, hsame]
    · have hmem : id ∈ Keyed.keys rest := by
        rcases List.mem_cons.mp h with heq | hmem
        · exact absurd heq.symm hrow
        · exact hmem
      rw [if_neg hrow, if_neg hrow, ih hnodup.2 hmem]

-- Induction on the rows along the recursion of the write: the row it stops at is replaced, the rows
-- before it are passed over, and at the end of the list the new row is added.
theorem mem_of_mem_put {row : String × Json} (h : row ∈ put id document rows) :
    row = (id, document) ∨ row ∈ rows := by
  induction rows with
  | nil => exact Or.inl (List.mem_singleton.mp h)
  | cons head rest ih =>
    rw [put] at h
    by_cases hhead : head.1 = id
    · rw [if_pos hhead] at h
      rcases List.mem_cons.mp h with heq | hmem
      · exact Or.inl heq
      · exact Or.inr (List.mem_cons_of_mem _ hmem)
    · rw [if_neg hhead] at h
      rcases List.mem_cons.mp h with rfl | hmem
      · exact Or.inr List.mem_cons_self
      · exact (ih hmem).imp_right (List.mem_cons_of_mem _)

/-- Reading after a write gives the document written under its own id and what was there under every
    other. -/
theorem get?_put (id other : String) (document : Json) (rows : Collection) :
    Keyed.get? other (put id document rows)
      = if id = other then some document else Keyed.get? other rows := by
  induction rows with
  | nil => rfl
  | cons row rest ih =>
    rcases row with ⟨key, old⟩
    rw [put]
    -- The row with the id is replaced; every other row is passed over.
    by_cases hkey : key = id
    · rw [if_pos hkey, Keyed.get?, Keyed.get?, hkey]
      by_cases hid : id = other
      · rw [if_pos hid, if_pos hid]
      · rw [if_neg hid, if_neg hid, if_neg hid]
    · rw [if_neg hkey, Keyed.get?, Keyed.get?, ih]
      by_cases hother : key = other
      · have hne : ¬ id = other := fun hid => hkey (hother.trans hid.symm)
        rw [if_pos hother, if_neg hne, if_pos hother]
      · rw [if_neg hother, if_neg hother]

/-- A write adds its id to the ids, and removes none. -/
theorem mem_keys_put {other : String} :
    other ∈ Keyed.keys (put id document rows) ↔ id = other ∨ other ∈ Keyed.keys rows := by
  rw [← not_iff_not, ← Keyed.get?_eq_none_iff, get?_put, not_or, ← Keyed.get?_eq_none_iff]
  by_cases hid : id = other
  · simp [hid]
  · simp [hid]

/-- Ids stay distinct: a write either replaces the row that has the id or adds a row when there is
    none. -/
theorem nodup_keys_put (h : (Keyed.keys rows).Nodup) :
    (Keyed.keys (put id document rows)).Nodup := by
  induction rows with
  | nil => exact List.nodup_singleton id
  | cons row rest ih =>
    rw [Keyed.keys_cons, List.nodup_cons] at h
    rw [put]
    by_cases hrow : row.1 = id
    · rw [if_pos hrow, Keyed.keys_cons, List.nodup_cons, ← hrow]
      exact h
    · rw [if_neg hrow, Keyed.keys_cons, List.nodup_cons, mem_keys_put, not_or]
      exact ⟨⟨fun heq => hrow heq.symm, h.1⟩, ih h.2⟩

end Collection

namespace DocumentTable

/-- The two maps of a table lead to each other, and numbers rise from entry to entry. -/
structure Linked (table : DocumentTable) : Prop where
  rising : table.entries.Pairwise fun a b => a.sequence < b.sequence
  below_next : ∀ entry ∈ table.entries, entry.sequence < table.next
  ordered : Keyed.Ordered table.sequences
  get?_iff : ∀ id sequence, Keyed.get? id table.sequences = some sequence
    ↔ ∃ entry ∈ table.entries, entry.id = id ∧ entry.sequence = sequence

variable {table : DocumentTable} {id : String} {sequence : Nat} {entry : TableEntry}

theorem linked_empty : empty.Linked where
  rising := List.Pairwise.nil
  below_next := fun _ h => absurd h List.not_mem_nil
  ordered := List.Pairwise.nil
  get?_iff := by simp [empty]

/-! ### Entries, ids and numbers -/

/-- The id of every entry leads to the number the entry is kept under. -/
theorem get?_of_mem (h : table.Linked) (hmem : entry ∈ table.entries) :
    Keyed.get? entry.id table.sequences = some entry.sequence :=
  (h.get?_iff _ _).mpr ⟨entry, hmem, rfl, rfl⟩

-- A number belongs to one entry, since numbers rise.
theorem eq_of_sequence_eq (h : table.Linked) {other : TableEntry} (hmem : entry ∈ table.entries)
    (hother : other ∈ table.entries) (heq : entry.sequence = other.sequence) : entry = other := by
  have hnodup : (table.entries.map TableEntry.sequence).Nodup := by
    rw [List.Nodup, List.pairwise_map]
    exact h.rising.imp fun hlt => Nat.ne_of_lt hlt
  exact List.inj_on_of_nodup_map hnodup hmem hother heq

/-- Numbers and ids tell entries apart equally well, which is why the table may compare the numbers
    where the reference compares ids. -/
theorem sequence_eq_iff (h : table.Linked) (hget : Keyed.get? id table.sequences = some sequence)
    (hmem : entry ∈ table.entries) : entry.sequence = sequence ↔ entry.id = id := by
  constructor
  · intro heq
    rcases (h.get?_iff id sequence).mp hget with ⟨other, hother, hid, hsequence⟩
    rw [eq_of_sequence_eq h hmem hother (heq.trans hsequence.symm)]
    exact hid
  · intro heq
    have hentry := get?_of_mem h hmem
    rw [heq, hget, Option.some.injEq] at hentry
    exact hentry.symm

/-- The number of an entry leads back to the entry: the numbers rise, so the first entry with the
    number is the only one. -/
theorem entry?_of_mem (h : table.Linked) (hmem : entry ∈ table.entries) :
    table.entry? entry.sequence = some entry := by
  unfold entry?
  cases hfind : table.entries.find? fun other => other.sequence = entry.sequence with
  | none =>
    have hnone := List.find?_eq_none.mp hfind entry hmem
    exact absurd rfl (of_decide_eq_false (Bool.eq_false_iff.mpr hnone))
  | some other =>
    have hsame := List.find?_some hfind
    have hsequence : other.sequence = entry.sequence := of_decide_eq_true hsame
    rw [eq_of_sequence_eq h (List.mem_of_find?_eq_some hfind) hmem hsequence]

/-- What is found under a number is exactly the entry kept under it. -/
theorem entry?_eq_some_iff (h : table.Linked) :
    table.entry? sequence = some entry ↔ entry ∈ table.entries ∧ entry.sequence = sequence := by
  constructor
  · intro hentry
    have hsame := List.find?_some hentry
    exact ⟨List.mem_of_find?_eq_some hentry, of_decide_eq_true hsame⟩
  · rintro ⟨hmem, rfl⟩
    exact entry?_of_mem h hmem

theorem keys_toList (table : DocumentTable) :
    Keyed.keys table.toList = table.entries.map TableEntry.id := by
  simp only [toList, Keyed.keys, List.map_map]
  rfl

/-- The ids of the rows are the keys of the map from ids to numbers. -/
theorem mem_keys_toList (h : table.Linked) :
    id ∈ Keyed.keys table.toList ↔ id ∈ Keyed.keys table.sequences := by
  rw [keys_toList, List.mem_map]
  constructor
  · rintro ⟨entry, hmem, rfl⟩
    by_contra hnone
    rw [← Keyed.get?_eq_none_iff, get?_of_mem h hmem] at hnone
    exact absurd hnone (by simp)
  · intro hkey
    -- A key of the map leads to a number, and every number in it belongs to an entry.
    cases hget : Keyed.get? id table.sequences with
    | none => exact absurd hkey ((Keyed.get?_eq_none_iff id _).mp hget)
    | some sequence =>
      rcases (h.get?_iff id sequence).mp hget with ⟨entry, hmem, hid, _⟩
      exact ⟨entry, hmem, hid⟩

-- Two entries with one id would have one number, but numbers rise.
theorem nodup_keys_toList (h : table.Linked) : (Keyed.keys table.toList).Nodup := by
  rw [keys_toList, List.Nodup, List.pairwise_map]
  refine h.rising.imp_of_mem fun {a b} ha hb hlt heq => ?_
  have hnumber := get?_of_mem h ha
  rw [heq, get?_of_mem h hb, Option.some.injEq] at hnumber
  omega

/-! ### Questions -/

/-- Reading through the two maps gives what a search through the rows gives. -/
theorem get?_toList (h : table.Linked) (id : String) :
    Keyed.get? id table.toList = table.get? id := by
  unfold get?
  cases hget : Keyed.get? id table.sequences with
  | none =>
    refine (Keyed.get?_eq_none_iff id _).mpr ?_
    rw [mem_keys_toList h]
    exact (Keyed.get?_eq_none_iff id _).mp hget
  | some sequence =>
    rcases (h.get?_iff id sequence).mp hget with ⟨entry, hmem, rfl, rfl⟩
    have hrow : (entry.id, entry.document) ∈ table.toList :=
      List.mem_map_of_mem (f := fun entry : TableEntry => (entry.id, entry.document)) hmem
    rw [Keyed.get?_of_mem (nodup_keys_toList h) hrow]
    simp only [Option.bind_eq_bind, Option.bind_some, entry?_of_mem h hmem]
    rfl

theorem contains_toList (h : table.Linked) (id : String) :
    Keyed.contains id table.toList = table.contains id := by
  rw [Bool.eq_iff_iff, Keyed.contains_iff, contains, Keyed.contains_iff, mem_keys_toList h]

-- Both maps have every id once, so they have equally many.
theorem length_toList (h : table.Linked) : table.toList.length = table.size := by
  have hperm : (Keyed.keys table.toList).Perm (Keyed.keys table.sequences) :=
    (List.perm_ext_iff_of_nodup (nodup_keys_toList h) (Keyed.nodup_keys_of_ordered h.ordered)).mpr
      fun id => mem_keys_toList h
  have hlength := hperm.length_eq
  rw [Keyed.keys, Keyed.keys, List.length_map, List.length_map] at hlength
  exact hlength

/-! ### Operations -/

/-- The first component says whether the id is new. -/
theorem fst_put (h : table.Linked) (id : String) (document : Json) :
    (table.put id document).1 = !Keyed.contains id table.toList := by
  rw [contains_toList h, contains, Keyed.contains]
  unfold put
  cases Keyed.get? id table.sequences with
  | none => rfl
  | some sequence => rfl

-- Changing documents changes no id and no number.
theorem linked_map (h : table.Linked) {change : TableEntry → TableEntry}
    (hid : ∀ entry, (change entry).id = entry.id)
    (hsequence : ∀ entry, (change entry).sequence = entry.sequence) :
    Linked { table with entries := table.entries.map change } where
  rising := by
    rw [List.pairwise_map]
    exact h.rising.imp fun {a b} hlt => by rwa [hsequence, hsequence]
  below_next := by
    intro entry hmem
    rcases List.mem_map.mp hmem with ⟨old, hold, rfl⟩
    rw [hsequence]
    exact h.below_next old hold
  ordered := h.ordered
  get?_iff id sequence := by
    rw [h.get?_iff]
    simp only [List.mem_map, exists_exists_and_eq_and, hid, hsequence]

/-- A write keeps the two maps inverse to each other. An id that is there keeps its number and its
    place; a new one takes the next number, which is above all that were given out. -/
theorem linked_put (h : table.Linked) (id : String) (document : Json) :
    (table.put id document).2.Linked := by
  unfold put
  cases hget : Keyed.get? id table.sequences with
  | some sequence =>
    refine linked_map h (fun entry => ?_) (fun entry => ?_)
    · split <;> rfl
    · split <;> rfl
  | none =>
    refine ⟨?_, ?_, Keyed.ordered_insert id table.next h.ordered, fun other number => ?_⟩
    · -- The entries stay in the order of their numbers.
      rw [List.pairwise_append]
      refine ⟨h.rising, List.pairwise_singleton _ _, fun a ha b hb => ?_⟩
      rw [List.mem_singleton.mp hb]
      exact h.below_next a ha
    · intro entry hmem
      rcases List.mem_append.mp hmem with hold | hnew
      · exact Nat.lt_succ_of_lt (h.below_next entry hold)
      · rw [List.mem_singleton.mp hnew]
        exact Nat.lt_succ_self _
    · rw [Keyed.get?_insert]
      simp only [List.mem_append, List.mem_singleton, or_and_right, exists_or, exists_eq_left]
      by_cases hother : id = other
      · -- No old entry has the id, so the new one is the only one.
        have hfree : ¬ ∃ entry ∈ table.entries, entry.id = other ∧ entry.sequence = number := by
          rintro ⟨entry, hmem, heq, _⟩
          have hentry := get?_of_mem h hmem
          rw [heq, ← hother, hget] at hentry
          exact absurd hentry (by simp)
        simp [hother, hfree]
      · rw [if_neg hother, h.get?_iff]
        simp [hother]

-- Putting into a table puts into the list.
theorem toList_put (h : table.Linked) (id : String) (document : Json) :
    (table.put id document).2.toList = Collection.put id document table.toList := by
  unfold put
  cases hget : Keyed.get? id table.sequences with
  | some sequence =>
    have hmem : id ∈ Keyed.keys table.toList := by
      rw [mem_keys_toList h]
      by_contra hnone
      rw [← Keyed.get?_eq_none_iff, hget] at hnone
      exact absurd hnone (by simp)
    -- The table replaces the entry with the number, the collection the row with the id, and these
    -- belong together.
    rw [Collection.put_of_mem (nodup_keys_toList h) hmem]
    simp only [toList, List.map_map]
    refine List.map_congr_left fun entry hentry => ?_
    have hiff := sequence_eq_iff h hget hentry
    by_cases heq : entry.id = id
    · simp [Function.comp, heq, hiff.mpr heq]
    · simp [Function.comp, heq, mt hiff.mp heq]
  | none =>
    have hfree : id ∉ Keyed.keys table.toList := by
      rw [mem_keys_toList h]
      exact (Keyed.get?_eq_none_iff id _).mp hget
    rw [Collection.put_of_notMem hfree]
    simp only [toList, List.map_append, List.map_cons, List.map_nil]

/-- Putting a document under an id that it is under already leaves the table as it is, with all
    its numbers. -/
theorem put_of_get? (h : table.Linked) {document : Json} (hget : table.get? id = some document) :
    table.put id document = (false, table) := by
  unfold get? at hget
  cases hnumber : Keyed.get? id table.sequences with
  | none =>
    rw [hnumber] at hget
    exact absurd hget (by simp)
  | some number =>
    rcases (h.get?_iff id number).mp hnumber with ⟨entry, hentry, rfl, rfl⟩
    have hdocument : entry.document = document := by
      simpa [hnumber, entry?_of_mem h hentry] using hget
    have hsame : table.entries.map (fun other =>
        if other.sequence = entry.sequence then { other with document } else other)
          = table.entries := by
      refine (List.map_congr_left fun other hother => ?_).trans (List.map_id' _)
      by_cases heq : other.sequence = entry.sequence
      · -- The number belongs to the entry, and the entry has the document.
        rw [if_pos heq, eq_of_sequence_eq h hother hentry heq, ← hdocument]
      · rw [if_neg heq]
    rw [put, hnumber]
    simp only [hsame]

/-- Removal gives back the document that was stored. -/
theorem fst_remove (h : table.Linked) (id : String) :
    (table.remove id).1 = Keyed.get? id table.toList := by
  rw [get?_toList h]
  unfold remove get?
  cases Keyed.get? id table.sequences with
  | none => rfl
  | some sequence =>
    cases hentry : table.entry? sequence with
    | none => simp [hentry]
    | some entry => simp [hentry]

/-- A removal takes the entry out of both maps. The next number is not turned back, so that a number
    is never given out twice. -/
theorem linked_remove (h : table.Linked) (id : String) : (table.remove id).2.Linked := by
  unfold remove
  cases hget : Keyed.get? id table.sequences with
  | none => exact h
  | some sequence =>
    refine ⟨h.rising.sublist List.filter_sublist, fun entry hmem => ?_,
      Keyed.ordered_erase id h.ordered, fun other number => ?_⟩
    · exact h.below_next entry (List.mem_filter.mp hmem).1
    · rw [Keyed.get?_erase]
      by_cases hother : id = other
      · -- Under the removed id nothing is left: an entry with that id would have the removed
        -- number.
        rw [if_pos hother]
        simp only [reduceCtorEq, false_iff]
        rintro ⟨entry, hmem, heq, _⟩
        rcases List.mem_filter.mp hmem with ⟨hentry, hkept⟩
        exact of_decide_eq_true hkept ((sequence_eq_iff h hget hentry).mpr (heq.trans hother.symm))
      · -- Another id keeps its entry, since that entry has another number.
        rw [if_neg hother, h.get?_iff]
        constructor
        · rintro ⟨entry, hmem, heq, hnumber⟩
          have hkept : entry.sequence ≠ sequence := by
            intro hremoved
            exact hother (((sequence_eq_iff h hget hmem).mp hremoved).symm.trans heq)
          exact ⟨entry, List.mem_filter.mpr ⟨hmem, decide_eq_true hkept⟩, heq, hnumber⟩
        · rintro ⟨entry, hmem, hentry⟩
          exact ⟨entry, (List.mem_filter.mp hmem).1, hentry⟩

-- Removing from a table erases from the list.
theorem toList_remove (h : table.Linked) (id : String) :
    (table.remove id).2.toList = Keyed.erase id table.toList := by
  unfold remove
  cases hget : Keyed.get? id table.sequences with
  | none =>
    have hfree : id ∉ Keyed.keys table.toList := by
      rw [mem_keys_toList h]
      exact (Keyed.get?_eq_none_iff id _).mp hget
    exact (Keyed.erase_of_notMem hfree).symm
  | some sequence =>
    simp only [toList, Keyed.erase, List.filter_map]
    refine congrArg _ (List.filter_congr fun entry hentry => ?_)
    exact decide_eq_decide.mpr (not_congr (sequence_eq_iff h hget hentry))

/-! ### What a client can tell -/

/-- The two maps of a table undo each other, and everything that can be asked of the table is
    answered as its list would answer it. -/
structure Mirrored (table : DocumentTable) : Prop where
  inverse : ∀ id sequence, Keyed.get? id table.sequences = some sequence
    ↔ ∃ document, table.entry? sequence = some ⟨sequence, id, document⟩
  nodup : (Keyed.keys table.toList).Nodup
  get? : ∀ id, table.get? id = Keyed.get? id table.toList
  contains : ∀ id, table.contains id = Keyed.contains id table.toList
  size : table.size = table.toList.length
  isEmpty : table.isEmpty = table.toList.isEmpty

/-- All that the reference collections look at can be read off the table's two maps. -/
theorem mirrored_of_linked (h : table.Linked) : table.Mirrored where
  inverse id sequence := by
    -- From the id to the number and back.
    rw [h.get?_iff]
    constructor
    · rintro ⟨entry, hmem, rfl, rfl⟩
      exact ⟨entry.document, entry?_of_mem h hmem⟩
    · rintro ⟨document, hentry⟩
      have hmem := ((entry?_eq_some_iff h).mp hentry).1
      exact ⟨_, hmem, rfl, rfl⟩
  nodup := nodup_keys_toList h
  get? id := (get?_toList h id).symm
  contains id := (contains_toList h id).symm
  size := (length_toList h).symm
  isEmpty := by
    have hlength := length_toList h
    rw [size] at hlength
    rw [isEmpty, Bool.eq_iff_iff, List.isEmpty_iff_length_eq_zero, List.isEmpty_iff_length_eq_zero,
      hlength]

end DocumentTable

end DocSearch
