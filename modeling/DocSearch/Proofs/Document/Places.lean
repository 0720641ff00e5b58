import DocSearch.Mapping.Schema
import DocSearch.Proofs.Keyed

/-!
# Where Paths Lead

Which lists of paths lead to the same texts, whatever the document.

Reading takes one `.keyword` ending off, so a list of paths may gain and lose such endings and
leads to the same texts. It may do nothing else. There is a document that tells all paths of a
list apart: under every name there stands an array, in it the path that leads there and the
next level of the document. An array stands for its scalars at the end of a path and for its
objects on the way, so one place serves both a path and all paths that go on from it, and every
path leads to itself.

## Main definitions

* `Schema.textsOf`: The texts that some paths lead to.
* `Path.atlas`: A document in which every path of some names leads to itself.
* `Schema.atlasOf`: One in which every one of some paths does.

## Theorems

* `textsOf_eq_of_endings`: Lists of paths that differ in one ending each lead to the same texts.
* `textsOf_atlas`: In the atlas a path leads to itself, without its ending.
* `exists_textsOf_ne`: Lists of paths that differ in more lead to different texts somewhere.
* `perm_valuesOf_iff`: The same where the order of the values does not matter.
-/

namespace DocSearch

/-- The texts that some paths lead to in a document, in order. -/
def Schema.textsOf (document : Json) (paths : List String) : List String :=
  (Schema.valuesOf document paths).filterMap Json.asText?

namespace Path

/-- The path of some member names. -/
def ofNames (names : List String) : String :=
  String.ofList (Text.join '.' (names.map String.toList))

/-- A document, so many levels deep, in which every path of some names leads to itself. -/
def atlas (names : List String) : Nat → List String → Json
  | 0, _ => .obj []
  | depth + 1, above =>
    .obj <| Keyed.ofList <| names.map fun name =>
      (name, .arr [.str (ofNames (above ++ [name])), atlas names depth (above ++ [name])])

/-- The names of a path with dots between them are the path. -/
theorem ofNames_segments (path : String) : ofNames (segments path) = path := by
  have hback : (segments path).map String.toList = Text.pieces '.' path.toList := by
    rw [segments, Text.split, List.map_map]
    exact (List.map_congr_left fun piece _ => String.toList_ofList).trans (List.map_id _)
  rw [ofNames, hback, Text.join_pieces, String.ofList_toList]

/-- Every path has a name, the empty one a name without letters. -/
theorem segments_ne_nil (path : String) : segments path ≠ [] := by
  simp [segments, Text.split, Text.pieces]

variable {names : List String} {name : String} {depth : Nat}

-- Each level of an atlas has a member for every name, which holds the path to it and the next
-- level.
theorem get?_atlas (hname : name ∈ names) (depth : Nat) (above : List String) :
    (atlas names (depth + 1) above).get? name
      = some (.arr [.str (ofNames (above ++ [name])), atlas names depth (above ++ [name])]) :=
  Keyed.get?_ofList_map
    (fun name => Json.arr [.str (ofNames (above ++ [name])), atlas names depth (above ++ [name])])
    hname

theorem exists_atlas_eq_obj (names : List String) (depth : Nat) (above : List String) :
    ∃ members, atlas names depth above = .obj members := by
  cases depth with
  | zero => exact ⟨_, rfl⟩
  | succ depth => exact ⟨_, rfl⟩

/-- An atlas is in key order on every level. -/
theorem ordered_atlas (names : List String) (depth : Nat) :
    ∀ above, (atlas names depth above).Ordered := by
  induction depth with
  | zero => exact fun _ => .obj List.Pairwise.nil fun _ h => absurd h List.not_mem_nil
  | succ depth ih =>
    intro above
    refine .obj (Keyed.ordered_ofList _) fun member hmem => ?_
    rcases List.mem_map.mp (Keyed.mem_of_mem_ofList hmem) with ⟨name, _, rfl⟩
    refine .arr fun element helement => ?_
    rcases List.mem_cons.mp helement with rfl | helement
    · exact .str _
    · rw [List.mem_singleton.mp helement]
      exact ih _

/-- Every path of the names leads to itself. The induction is on the path, level by level. -/
theorem scalars_atlas : ∀ (path : List String) (depth : Nat) (above : List String), path ≠ [] →
    (∀ name ∈ path, name ∈ names) → path.length ≤ depth →
      (elementsAt path (atlas names depth above)).flatMap scalarsOf
        = [.str (ofNames (above ++ path))]
  | [], _, _, hne, _, _ => absurd rfl hne
  | _ :: _, 0, _, _, _, hlength => absurd hlength (by simp)
  | [name], depth + 1, above, _, hnames, _ => by
    -- At the end of a path an array stands for the scalars in it.
    rcases exists_atlas_eq_obj names depth (above ++ [name]) with ⟨members, hobj⟩
    rw [elementsAt_singleton, get?_atlas (hnames name List.mem_cons_self), hobj]
    rfl
  | name :: next :: rest, depth + 1, above, _, hnames, hlength => by
    -- On the way it stands for the objects, of which there is one.
    rcases exists_atlas_eq_obj names depth (above ++ [name]) with ⟨members, hobj⟩
    have hstep : (((atlas names (depth + 1) above).get? name).toList.flatMap objectsOf)
        = [atlas names depth (above ++ [name])] := by
      rw [get?_atlas (hnames name List.mem_cons_self), hobj]
      rfl
    have hrest := scalars_atlas (next :: rest) depth (above ++ [name]) (by simp)
      (fun other hother => hnames other (List.mem_cons_of_mem _ hother))
      (Nat.le_of_succ_le_succ hlength)
    rw [elementsAt_cons_cons, hstep, List.flatMap_singleton, hrest, List.append_assoc,
      List.singleton_append]

end Path

namespace Schema

variable {first second : List String}

-- Reading takes one ending off, and nothing else of a path is lost.
theorem valuesOf_eq_flatMap (document : Json) (paths : List String) :
    valuesOf document paths
      = (paths.map Path.withoutKeyword).flatMap fun path =>
          (Path.elementsAt (Path.segments path) document).flatMap Path.scalarsOf := by
  rw [valuesOf, List.flatMap_map]
  rfl

/-- Paths that differ in one ending lead to the same values. -/
theorem valuesOf_eq_of_endings (h : first.map Path.withoutKeyword = second.map Path.withoutKeyword)
    (document : Json) : valuesOf document first = valuesOf document second := by
  rw [valuesOf_eq_flatMap, valuesOf_eq_flatMap, h]

/-- Paths that differ in one ending lead to the same texts. -/
theorem textsOf_eq_of_endings (h : first.map Path.withoutKeyword = second.map Path.withoutKeyword)
    (document : Json) : textsOf document first = textsOf document second := by
  rw [textsOf, textsOf, valuesOf_eq_of_endings h]

/-- A document in which every one of some paths leads to itself. -/
def atlasOf (paths : List String) : Json :=
  let names := paths.flatMap fun path => Path.segments (Path.withoutKeyword path)
  Path.atlas names names.length []

/-- In the atlas every path leads to itself, without its ending. -/
theorem textsOf_atlas {paths chosen : List String} (h : ∀ path ∈ chosen, path ∈ paths) :
    textsOf (atlasOf paths) chosen = chosen.map Path.withoutKeyword := by
  -- The atlas is deep enough for the names of any of the paths, so it has a place for each of them.
  have hone : ∀ path ∈ paths, Path.valuesAt (atlasOf paths) path
      = [.str (Path.withoutKeyword path)] := by
    intro path hpath
    have hsub : (Path.segments (Path.withoutKeyword path)).Sublist
        (paths.flatMap fun path => Path.segments (Path.withoutKeyword path)) := by
      rw [List.flatMap_def]
      exact List.sublist_flatten_of_mem (List.mem_map_of_mem hpath)
    have hscalars := Path.scalars_atlas _ _ [] (Path.segments_ne_nil _)
      (fun name hname => hsub.subset hname) hsub.length_le
    rw [List.nil_append, Path.ofNames_segments] at hscalars
    exact hscalars
  induction chosen with
  | nil => rfl
  | cons path rest ih =>
    have hrest := ih fun other hother => h other (List.mem_cons_of_mem _ hother)
    rw [textsOf, valuesOf] at hrest ⊢
    rw [List.flatMap_cons, hone path (h path List.mem_cons_self), List.filterMap_append, hrest]
    rfl

/-- Lists of paths that differ in more than one ending each lead to different texts in some
    document. -/
theorem exists_textsOf_ne
    (h : first.map Path.withoutKeyword ≠ second.map Path.withoutKeyword) :
    ∃ document : Json, document.isObject = true ∧ document.Ordered
      ∧ textsOf document first ≠ textsOf document second := by
  refine ⟨atlasOf (first ++ second), ?_, Path.ordered_atlas _ _ _, ?_⟩
  · rcases Path.exists_atlas_eq_obj _ _ _ with ⟨members, hobj⟩
    rw [atlasOf, hobj]
    rfl
  · rw [textsOf_atlas fun path => List.mem_append_left second,
      textsOf_atlas fun path => List.mem_append_right first]
    exact h

/-- Lists of paths lead to the same values in every document, in whatever order, exactly if they are
    the same paths up to their order and one ending each. -/
theorem perm_valuesOf_iff :
    (∀ document, (valuesOf document first).Perm (valuesOf document second))
      ↔ (first.map Path.withoutKeyword).Perm (second.map Path.withoutKeyword) := by
  constructor
  · intro hsame
    have htexts := (hsame (atlasOf (first ++ second))).filterMap Json.asText?
    rw [← textsOf, ← textsOf, textsOf_atlas fun path => List.mem_append_left second,
      textsOf_atlas fun path => List.mem_append_right first] at htexts
    exact htexts
  · intro hsame document
    rw [valuesOf_eq_flatMap, valuesOf_eq_flatMap]
    exact hsame.flatMap_right _

end Schema

end DocSearch
