import DocSearch.Config
import DocSearch.Identifier
import DocSearch.Proofs.Scroll.Id
import DocSearch.Proofs.Scroll.Queue

/-!
# Opening a Scroll Beside Others

A client who opens a scroll should not take anything away from the others, as long as there is
room for all of them.

Opening draws a node and asks no further. A document that is added without an id is different:
there identifiers are drawn until one is not in use. So the one thing that opening depends on,
besides room, is that the node is new. If it is, all scrolls stay as they are, save the oldest
one of a full table, and the id that is handed out is nobody's. If it is not, the scroll under
the node is gone, and its reader goes on with the pages of the new one without being told. The
others are left alone even then, and nobody has to make room.

With identifiers of the usual length this is a matter of luck. With identifiers of no length
there is only one, and every scroll takes the place of the one before.

## Main definitions

* `ScrollTable.Spares`: Opening has taken nothing from those who were there before.

## Theorems

* `find?_push_other`: What opening does to scrolls under other nodes.
* `mem_activeIds_iff`: The active ids are those of the nodes in use.
* `drawn_twice_takes_over`: A node that is in use is taken over.
* `opening_spares_iff`: Opening takes nothing from anybody exactly if the node is new.
-/

namespace DocSearch

namespace ScrollTable

variable {table : ScrollTable} {capacity : Nat} {node other : String} {cursor held : Cursor}

/-- Opening, which led from one table to the other and handed out an id, has taken nothing from
    those who were there before. Every scroll is still open, with its hits, its place and its
    size, unless it was the oldest of a full table, and none of them went by this id. -/
def Spares (before after : ScrollTable) (scrollId : String) : Prop :=
  (∀ node cursor, before.find? node = some cursor →
      after.find? node = some cursor
        ∨ before.cursors.length = before.capacity
          ∧ before.cursors.head? = some (node, cursor))
    ∧ scrollId ∉ before.activeIds

/-- A scroll stays as it is when one is opened under another node, unless it is the oldest and
    has to make room. -/
theorem find?_push_other (h : table.Sound capacity) (hne : other ≠ node)
    (hheld : table.find? other = some held) (cursor : Cursor) :
    (table.push node cursor).find? other = some held
      ∨ table.find? node = none ∧ table.cursors.length = table.capacity
        ∧ table.cursors.head? = some (other, held) := by
  -- The new scroll has another node, so it is among those that stay that the scroll has to be
  -- found.
  have hremaining : (table.push node cursor).find? other
      = Keyed.get? other (ScrollQueue.remaining capacity node table.cursors) := by
    rw [find?, cursors_push h, Keyed.get?_append, Keyed.get?, if_neg hne.symm, Keyed.get?_nil,
      Option.or_none]
  rw [hremaining, ScrollQueue.remaining]
  by_cases hused : node ∈ Keyed.keys table.cursors
  · rw [if_pos hused]
    exact Or.inl ((Keyed.get?_erase node other table.cursors).trans
      ((if_neg hne.symm).trans hheld))
  · rw [if_neg hused]
    by_cases hfull : table.cursors.length = capacity
    · rw [if_pos hfull]
      have hnone : table.find? node = none := (Keyed.get?_eq_none_iff node _).mpr hused
      unfold find? at hheld
      -- The oldest scroll is the one that goes, so it matters whether it is this one.
      cases hcursors : table.cursors with
      | nil =>
        rw [hcursors] at hheld
        exact absurd hheld (by simp)
      | cons oldest rest =>
        rcases oldest with ⟨first, kept⟩
        rw [hcursors, Keyed.get?] at hheld
        by_cases hfirst : first = other
        · rw [if_pos hfirst, Option.some.injEq] at hheld
          rw [← hcursors, h.room]
          exact Or.inr ⟨hnone, hfull, by rw [hcursors, hfirst, hheld, List.head?_cons]⟩
        · rw [if_neg hfirst] at hheld
          exact Or.inl hheld
    · rw [if_neg hfull]
      exact Or.inl hheld

/-- The active ids are those of the nodes in use. -/
theorem mem_activeIds_iff (table : ScrollTable) (node : String) :
    ScrollId.encode node ∈ table.activeIds ↔ table.find? node ≠ none := by
  rw [find?, ne_eq, Keyed.get?_eq_none_iff, Decidable.not_not, activeIds]
  constructor
  · intro hmem
    rcases List.mem_map.mp hmem with ⟨entry, hentry, hid⟩
    rw [← ScrollId.encode_injective hid]
    exact List.mem_map_of_mem hentry
  · intro hmem
    rcases List.mem_map.mp hmem with ⟨entry, hentry, rfl⟩
    exact List.mem_map.mpr ⟨entry, hentry, rfl⟩

/-- Opening spares all scrolls unless its node is in use. -/
theorem spares_push_iff (h : table.Sound capacity) (node : String) (cursor : Cursor) :
    table.Spares (table.push node cursor) (ScrollId.encode node) ↔ table.find? node = none := by
  constructor
  · intro hspares
    cases hfind : table.find? node with
    | none => rfl
    | some held =>
      refine absurd ((mem_activeIds_iff table node).mpr ?_) hspares.2
      rw [hfind]
      exact Option.some_ne_none held
  · intro hnew
    refine ⟨fun other held hheld => ?_, fun hmem => (mem_activeIds_iff table node).mp hmem hnew⟩
    have hne : other ≠ node := by
      rintro rfl
      rw [hnew] at hheld
      exact absurd hheld (by simp)
    exact (find?_push_other h hne hheld cursor).imp_right And.right

/-- The table after some operations on an empty one. -/
def afterAll (config : Config) (operations : List ScrollOperation) : ScrollTable :=
  (runAll execute (ofCapacity config.scrollCapacity) operations).2

/-- A table is sound, whatever was done to it. -/
theorem sound_afterAll (config : Config) (operations : List ScrollOperation) :
    (afterAll config operations).Sound (max config.scrollCapacity 1) :=
  (runAll_cursors (sound_ofCapacity config.scrollCapacity) operations).2

/-- A hit of the first scroll. -/
def ashore : Hit := { index := "crews", id := "1", score := 1.0 }

/-- A hit of the second one. -/
def aboard : Hit := { index := "crews", id := "2", score := 1.0 }

/-- A node that is drawn twice is taken over. Identifiers of no length are all the same, so the
    second of two scrolls gets the id of the first, in a table that has room for twenty, and
    who reads the first is given the hits of the second. -/
theorem drawn_twice_takes_over :
    let config : Config := { identifierLength := 0 }
    let node := Identifier.ofChoices (fun _ => 0) config.identifierLength
    let table := afterAll config [.openFromStart node [ashore] 1 "1m"]
    let opened := table.openFromStart node [aboard] 1 "1m"
    (opened.1 = .ok (ScrollId.encode node)
        ∧ table.cursors.length = 1 ∧ table.capacity = 20
        ∧ table.activeIds = [ScrollId.encode node]
        ∧ (table.find? node).map (fun cursor => cursor.hits.map Hit.id) = some ["1"]
        ∧ (opened.2.find? node).map (fun cursor => cursor.hits.map Hit.id) = some ["2"])
      ∧ ¬ table.Spares opened.2 (ScrollId.encode node) := by
  intro config node table opened
  have hids : table.activeIds = [ScrollId.encode node] := rfl
  refine ⟨⟨rfl, rfl, rfl, hids, rfl, rfl⟩, fun hspares => hspares.2 ?_⟩
  rw [hids]
  exact List.mem_singleton_self _

/-- Opening a scroll takes nothing from those who were there before exactly if the node that is
    drawn for it is not in use, whatever has been done to the table before and however it is
    configured. If the node is in use, all scrolls under other nodes are left as they are, the
    oldest one too. -/
theorem opening_spares_iff (config : Config) (operations : List ScrollOperation)
    (choose : Nat → Nat) (hits : List Hit) (offset size : Nat) (keepAlive : String)
    {scrollId : String} :
    let table := afterAll config operations
    let node := Identifier.ofChoices choose config.identifierLength
    let opened := table.openAt node hits offset size keepAlive
    opened.1 = .ok scrollId →
      (table.Spares opened.2 scrollId ↔ table.find? node = none)
        ∧ (table.find? node ≠ none →
            ∀ other held, other ≠ node → table.find? other = some held →
              opened.2.find? other = some held)
        ∧ scrollId = ScrollId.encode node := by
  intro table node opened hopened
  have hsound := sound_afterAll config operations
  rcases openAt_cases table node hits offset size keepAlive with
    ⟨error, _, heq⟩ | ⟨duration, _, heq⟩
  · have hrefused : opened.1 = .error error := congrArg Prod.fst heq
    rw [hrefused] at hopened
    exact absurd hopened (by simp)
  · -- It was opened under the node that was drawn.
    have hid : ScrollId.encode node = scrollId := by
      have haccepted : opened.1 = .ok (ScrollId.encode node) := congrArg Prod.fst heq
      rw [haccepted, Except.ok.injEq] at hopened
      exact hopened
    have hafter : opened.2 = table.push node ⟨hits, offset, size, duration⟩ :=
      congrArg Prod.snd heq
    rw [hafter, ← hid]
    refine ⟨spares_push_iff hsound node _, fun hused other held hne hheld => ?_, rfl⟩
    exact (find?_push_other hsound hne hheld _).resolve_right fun holdest => hused holdest.1

/-- A second scroll under a node of the usual length takes nothing from the first. One under
    the only node of no length leaves a third one alone, although the table is full. -/
theorem opening_spares_iff_crews :
    (let table := afterAll {} [.openFromStart "a" [ashore] 1 "1m"]
      let node := Identifier.ofChoices (fun _ => 0) 20
      table.Spares (table.openAt node [aboard] 0 1 "1m").2 (ScrollId.encode node))
      ∧ (let table := afterAll { scrollCapacity := 2, identifierLength := 0 }
          [.openFromStart "b" [ashore] 1 "1m", .openFromStart "" [ashore] 1 "1m"]
        let held : Cursor := ⟨[ashore], 0, 1, ⟨60, 0⟩⟩
        (table.openAt "" [aboard] 0 1 "1m").2.find? "b" = some held) := by
  constructor
  · exact (opening_spares_iff {} [.openFromStart "a" [ashore] 1 "1m"] (fun _ => 0) [aboard] 0 1
      "1m" rfl).1.mpr rfl
  · exact (opening_spares_iff { scrollCapacity := 2, identifierLength := 0 }
      [.openFromStart "b" [ashore] 1 "1m", .openFromStart "" [ashore] 1 "1m"] (fun _ => 0)
      [aboard] 0 1 "1m" rfl).2.1 (Option.some_ne_none _) "b" _ (by decide) rfl

end ScrollTable

end DocSearch
