import DocSearch.Proofs.Keyed
import DocSearch.Scroll.Table

/-!
# A Scroll Among Others

One open scroll, and what happens to it while others are opened, read and closed.

The table keeps scrolls in the order in which they were opened and closes the oldest when
there is no room. So the one thing to know about a scroll, besides what it holds, is how many
have been opened since: it stands in the table with those behind it, and it is safe as long
as there is room for it and all of them. Where it stands from the front does not matter.

Opening another scroll puts one more behind it. Closing others may take some away. Reading
another changes nothing here, and reading the scroll itself moves its place and no more.

## Main definitions

* `ScrollTable.Holds`: A scroll is open, and so many have been opened since.

## Theorems

* `holds_push_self`: A scroll is open after it was opened.
* `holds_push`: It stays open while others are opened, as long as there is room.
* `holds_closeNodes`: It stays open while others are closed.
* `read_cases`: What reading can do.
* `read_of_holds`: Reading it gives its page, and moves it.
* `holds_read_other`: Reading others leaves it alone.
-/

namespace DocSearch

namespace ScrollTable

variable {table : ScrollTable} {node other : String} {cursor : Cursor} {younger : Nat}

/-- A scroll is open under a node, and at most so many have been opened since. -/
def Holds (table : ScrollTable) (node : String) (cursor : Cursor) (younger : Nat) : Prop :=
  ∃ older newer, table.cursors = older ++ (node, cursor) :: newer
    ∧ node ∉ Keyed.keys older ∧ node ∉ Keyed.keys newer ∧ newer.length ≤ younger

/-- A scroll that is held is found. -/
theorem find?_of_holds (h : table.Holds node cursor younger) :
    table.find? node = some cursor := by
  rcases h with ⟨older, newer, hcursors, holder, _, _⟩
  rw [find?, hcursors, Keyed.get?_append, (Keyed.get?_eq_none_iff node older).mpr holder,
    Option.none_or, Keyed.get?, if_pos rfl]

theorem holds_mono {more : Nat} (h : table.Holds node cursor younger) (hle : younger ≤ more) :
    table.Holds node cursor more := by
  rcases h with ⟨older, newer, hcursors, holder, hnewer, hlength⟩
  exact ⟨older, newer, hcursors, holder, hnewer, Nat.le_trans hlength hle⟩

/-! ### Opening -/

theorem capacity_push (table : ScrollTable) (node : String) (cursor : Cursor) :
    (table.push node cursor).capacity = table.capacity := rfl

/-- A scroll is open after it was opened, and it is the youngest. -/
theorem holds_push_self (table : ScrollTable) (node : String) (cursor : Cursor) :
    (table.push node cursor).Holds node cursor 0 := by
  unfold push
  -- The node may be in use, in which case the old cursor is dropped first; otherwise the oldest one
  -- may have to make room.
  by_cases hused : (table.find? node).isSome = true
  · rw [if_pos hused]
    exact ⟨_, [], rfl, Keyed.notMem_keys_erase node _, List.not_mem_nil, Nat.le_refl 0⟩
  · have hfree : node ∉ Keyed.keys table.cursors := by
      rw [← Keyed.get?_eq_none_iff]
      exact Option.not_isSome_iff_eq_none.mp hused
    rw [if_neg hused]
    refine ⟨_, [], rfl, ?_, List.not_mem_nil, Nat.le_refl 0⟩
    by_cases hroom : table.cursors.length < table.capacity
    · rw [if_pos hroom]
      exact hfree
    · rw [if_neg hroom]
      exact fun hmem => hfree ((List.drop_sublist 1 _).map Prod.fst |>.subset hmem)

-- Taking another node out leaves the scroll where it is.
theorem holds_erase (hne : other ≠ node) {cursors : List (String × Cursor)}
    (h : Holds ⟨table.capacity, cursors⟩ node cursor younger) :
    Holds ⟨table.capacity, Keyed.erase other cursors⟩ node cursor younger := by
  rcases h with ⟨older, newer, hcursors, holder, hnewer, hlength⟩
  have hself : Keyed.erase other ((node, cursor) :: newer)
      = (node, cursor) :: Keyed.erase other newer := by
    rw [Keyed.erase, List.filter_cons, if_pos (by simpa using hne.symm)]
    rfl
  refine ⟨Keyed.erase other older, Keyed.erase other newer, ?_, ?_, ?_, ?_⟩
  · have hcursors' : cursors = older ++ (node, cursor) :: newer := hcursors
    rw [hcursors', Keyed.erase_append, hself]
  · exact fun hmem => holder ((Keyed.keys_erase_sublist other older).subset hmem)
  · exact fun hmem => hnewer ((Keyed.keys_erase_sublist other newer).subset hmem)
  · exact Nat.le_trans (List.length_filter_le _ _) hlength

/-- A scroll stays open while another is opened, as long as there is room for it and for all
    that were opened since. If there is none, some older scroll has to go. -/
theorem holds_push (h : table.Holds node cursor younger) (hne : other ≠ node)
    (hroom : younger + 1 < table.capacity) (opened : Cursor) :
    (table.push other opened).Holds node cursor (younger + 1) := by
  -- Opening makes room first and then puts the new scroll behind all others.
  have hbehind : ∀ kept : List (String × Cursor),
      Holds ⟨table.capacity, kept⟩ node cursor younger →
      Holds ⟨table.capacity, kept ++ [(other, opened)]⟩ node cursor (younger + 1) := by
    rintro kept ⟨older, newer, hkept, holder, hnewer, hlength⟩
    have hkept' : kept = older ++ (node, cursor) :: newer := hkept
    refine ⟨older, newer ++ [(other, opened)], ?_, holder, ?_, ?_⟩
    · rw [hkept', List.append_assoc, List.cons_append]
    · rw [Keyed.keys_append, List.mem_append, not_or]
      exact ⟨hnewer, fun hmem => hne (List.mem_singleton.mp hmem).symm⟩
    · rw [List.length_append, List.length_singleton]
      omega
  unfold push
  by_cases hused : (table.find? other).isSome = true
  · rw [if_pos hused]
    exact hbehind _ (holds_erase hne h)
  · rw [if_neg hused]
    by_cases hspace : table.cursors.length < table.capacity
    · rw [if_pos hspace]
      exact hbehind _ h
    · rw [if_neg hspace]
      refine hbehind _ ?_
      rcases h with ⟨older, newer, hcursors, holder, hnewer, hlength⟩
      have htotal := congrArg List.length hcursors
      rw [List.length_append, List.length_cons] at htotal
      -- With so few behind it, the oldest is not the scroll itself.
      rcases older with _ | ⟨oldest, others⟩
      · rw [List.length_nil] at htotal
        omega
      · refine ⟨others, newer, ?_, ?_, hnewer, hlength⟩
        · simp only [hcursors, List.cons_append, List.drop_succ_cons, List.drop_zero]
        · exact fun hmem => holder (List.mem_cons_of_mem _ hmem)

/-! ### Closing -/

/-- A scroll stays open while others are closed. -/
theorem holds_closeNodes {nodes : List String} :
    ∀ {table : ScrollTable}, table.Holds node cursor younger → node ∉ nodes →
      (closeNodes nodes table).2.Holds node cursor younger := by
  induction nodes with
  | nil => exact fun h _ => h
  | cons head rest ih =>
    intro table h hnodes
    rw [List.mem_cons, not_or] at hnodes
    exact ih (holds_erase (fun he => hnodes.1 he.symm) h) hnodes.2

-- Closing does not change how many scrolls may be open.
theorem capacity_closeNodes (nodes : List String) :
    ∀ table : ScrollTable, (closeNodes nodes table).2.capacity = table.capacity := by
  induction nodes with
  | nil => exact fun _ => rfl
  | cons head rest ih => exact fun table => ih (table.drop head)

theorem capacity_close (table : ScrollTable) (scrollIds : List String) :
    (table.close scrollIds).2.capacity = table.capacity := by
  unfold close
  cases scrollIds.mapM ScrollId.decode with
  | error error => rfl
  | ok nodes => exact capacity_closeNodes nodes table

/-! ### Reading -/

/-- Replacing a cursor keeps the nodes and their order. -/
theorem keys_replace (node : String) (cursor : Cursor) (cursors : List (String × Cursor)) :
    Keyed.keys (replace node cursor cursors) = Keyed.keys cursors := by
  induction cursors with
  | nil => rfl
  | cons entry rest ih =>
    rcases entry with ⟨head, old⟩
    rw [replace]
    by_cases h : head = node
    · rw [if_pos h]
      rfl
    · rw [if_neg h, Keyed.keys_cons, ih, Keyed.keys_cons]

-- The first entry with the node is the one that is replaced.
theorem replace_append (node : String) (cursor old : Cursor)
    {older : List (String × Cursor)} (newer : List (String × Cursor))
    (h : node ∉ Keyed.keys older) :
    replace node cursor (older ++ (node, old) :: newer) = older ++ (node, cursor) :: newer := by
  induction older with
  | nil => rw [List.nil_append, replace, if_pos rfl, List.nil_append]
  | cons entry rest ih =>
    rcases entry with ⟨head, first⟩
    rw [Keyed.keys_cons, List.mem_cons, not_or] at h
    rw [List.cons_append, replace, if_neg fun he => h.1 he.symm, ih h.2, List.cons_append]

/-- Replacing the cursor of another node leaves a scroll between the same nodes. -/
theorem replace_append_other (replaced : Cursor) (hne : other ≠ node)
    (older newer : List (String × Cursor)) :
    ∃ older' newer', replace other replaced (older ++ (node, cursor) :: newer)
        = older' ++ (node, cursor) :: newer'
      ∧ Keyed.keys older' = Keyed.keys older ∧ Keyed.keys newer' = Keyed.keys newer := by
  induction older with
  | nil =>
    refine ⟨[], replace other replaced newer, ?_, rfl, keys_replace other replaced newer⟩
    rw [List.nil_append, replace, if_neg hne.symm, List.nil_append]
  | cons entry rest ih =>
    rcases entry with ⟨head, first⟩
    rw [List.cons_append, replace]
    by_cases h : head = other
    · rw [if_pos h]
      exact ⟨(head, replaced) :: rest, newer, rfl, rfl, rfl⟩
    · rw [if_neg h]
      rcases ih with ⟨older', newer', heq, holder, hnewer⟩
      refine ⟨(head, first) :: older', newer', by rw [heq, List.cons_append], ?_, hnewer⟩
      rw [Keyed.keys_cons, holder, Keyed.keys_cons]

/-- All that reading can do: it fails and moves nothing, or it gives the page of an open scroll and
    moves that scroll. -/
theorem read_cases (table : ScrollTable) (scrollId : String) :
    (∃ error, table.read scrollId = (.error error, table))
      ∨ ∃ node cursor, ScrollId.decode scrollId = .ok node ∧ table.find? node = some cursor
        ∧ table.read scrollId
          = (.ok ⟨scrollId, cursor.hits.length, cursor.page⟩,
              { table with cursors := replace node cursor.advance table.cursors }) := by
  unfold read
  cases hdecode : ScrollId.decode scrollId with
  | error error => exact .inl ⟨error, rfl⟩
  | ok node =>
    cases hfind : table.find? node with
    | none => exact .inl ⟨.scrollNotFound node, by simp only [hfind]⟩
    | some cursor => exact .inr ⟨node, cursor, rfl, hfind, by simp only [hfind]⟩

/-- Reading a scroll gives its page, counts all of its hits, and moves its place. -/
theorem read_of_holds {scrollId : String} (hid : ScrollId.decode scrollId = .ok node)
    (h : table.Holds node cursor younger) :
    (table.read scrollId).1 = .ok ⟨scrollId, cursor.hits.length, cursor.page⟩
      ∧ (table.read scrollId).2.Holds node cursor.advance younger := by
  have hfind := find?_of_holds h
  rcases h with ⟨older, newer, hcursors, holder, hnewer, hlength⟩
  unfold read
  simp only [hid, hfind]
  refine ⟨trivial, older, newer, ?_, holder, hnewer, hlength⟩
  rw [hcursors]
  exact replace_append node cursor.advance cursor newer holder

/-- Reading another scroll leaves a scroll where it is. -/
theorem holds_read_other {scrollId : String} (hid : ScrollId.decode scrollId ≠ .ok node)
    (h : table.Holds node cursor younger) :
    (table.read scrollId).2.Holds node cursor younger := by
  rcases read_cases table scrollId with ⟨_, hread⟩ | ⟨found, moved, hdecode, -, hread⟩
  · rw [hread]
    exact h
  · rw [hread]
    have hne : found ≠ node := fun he => hid (he ▸ hdecode)
    rcases h with ⟨older, newer, hcursors, holder, hnewer, hlength⟩
    -- Another scroll is moved, before this one or behind it.
    rcases replace_append_other moved.advance hne older newer with
      ⟨older', newer', heq, hkeysOlder, hkeysNewer⟩
    refine ⟨older', newer', by rw [hcursors]; exact heq, ?_, ?_, ?_⟩
    · rw [hkeysOlder]
      exact holder
    · rw [hkeysNewer]
      exact hnewer
    · have hcount := congrArg List.length hkeysNewer
      rw [Keyed.keys, Keyed.keys, List.length_map, List.length_map] at hcount
      omega

-- Nor does reading.
theorem capacity_read (table : ScrollTable) (scrollId : String) :
    (table.read scrollId).2.capacity = table.capacity := by
  rcases read_cases table scrollId with ⟨_, hread⟩ | ⟨_, _, -, -, hread⟩ <;> rw [hread]

end ScrollTable

end DocSearch
