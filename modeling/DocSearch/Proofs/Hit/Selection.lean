import DocSearch.Proofs.Keyed
import DocSearch.Proofs.Outcome
import DocSearch.Proofs.Pattern.Globs

/-!
# Selecting Members

Which members of a document a source filter keeps.

A filter can be written in several ways: as one glob, as an array of them, or as an object with one
list of globs to keep and one to leave out, each under a long or a short name. All of them come to
two lists of globs, and what a value comes to is said here without reading it. A long name wins over
the short one wherever it is there, even with nothing in its list.

Whether a member is kept depends on its name and nothing else. That is why it does not matter how
often a filter is applied, nor whether both lists are applied at once or one after the other.

## Main definitions

* `Lists`, `SourceFilter.Names`: The globs that a value lists, and those that a filter names.
* `SourceFilter.Selected`: A name that two lists of globs select.

## Theorems

* `globsOf_eq_ok_iff`: Reading a list of globs.
* `ofJson_eq_ok_iff`: Reading a filter.
* `keeps_iff`: Keeping a name is selecting it.
* `apply_bind_apply`: Both lists at once, or one after the other.
* `filters_keep_selected`: What a filter leaves of a document.
-/

namespace DocSearch

/-- The globs that a value lists: none, one, or those of an array. -/
inductive Lists : Json → List String → Prop
  | nothing : Lists .null []
  | one (glob : String) : Lists (.str glob) [glob]
  | several (globs : List String) : Lists (Json.ofTexts globs) globs

namespace SourceFilter

/-- The member of an object that goes by either of two names, of which the first wins. -/
def memberNamed (name shortName : String) (members : List (String × Json)) : Json :=
  ((Keyed.get? name members).or (Keyed.get? shortName members)).getD .null

/-- The globs that a filter names: those that a name has to match one of, if there are any, and
    those that it must not match. -/
inductive Names : Json → List String → List String → Prop
  | one (glob : String) : Names (.str glob) [glob] []
  | several (globs : List String) : Names (Json.ofTexts globs) globs []
  | both {members : List (String × Json)} {includes excludes : List String}
      (kept : Lists (memberNamed "includes" "include" members) includes)
      (left : Lists (memberNamed "excludes" "exclude" members) excludes) :
      Names (.obj members) includes excludes

/-- Whether two lists of globs select a name. -/
def Selected (includes excludes : List String) (name : String) : Prop :=
  (includes = [] ∨ ∃ glob ∈ includes, CutsInto false glob name)
    ∧ ¬ ∃ glob ∈ excludes, CutsInto false glob name

variable {value : Json} {filter : SourceFilter} {globs includes excludes : List String}
  {name : String} {members : List (String × Json)}

/-! ### Reading -/

-- An array is read if all its elements are texts, and then it is the array of these texts.
theorem globsOf_arr_eq_ok_iff {elements : List Json} :
    globsOf (.arr elements) = .ok globs ↔ elements = globs.map .str := by
  induction elements generalizing globs with
  | nil =>
    constructor
    · intro h
      rw [← Except.ok.inj h]
      rfl
    · intro h
      rw [eq_comm, List.map_eq_nil_iff] at h
      rw [h]
      rfl
  | cons element elements ih =>
    rw [globsOf] at ih ⊢
    rw [Outcome.mapM_cons_eq_ok_iff]
    constructor
    · rintro ⟨glob, others, hglob, hothers, rfl⟩
      -- An element that is no text fails the whole array.
      cases htext : element.asText? with
      | none =>
        rw [htext] at hglob
        exact absurd hglob (by simp)
      | some text =>
        rw [htext, Except.ok.injEq] at hglob
        rw [Json.asText?_eq_some_iff] at htext
        rw [List.map_cons, htext, hglob, ih.mp hothers]
    · intro h
      cases globs with
      | nil => exact absurd h (by simp)
      | cons glob others =>
        rw [List.map_cons, List.cons.injEq] at h
        refine ⟨glob, others, ?_, ih.mpr h.2, rfl⟩
        rw [h.1, Json.asText?]

/-- Reading a list of globs gives those that are listed. -/
theorem globsOf_eq_ok_iff : globsOf value = .ok globs ↔ Lists value globs := by
  constructor
  · intro h
    -- There are three ways to list globs, and any other value is refused.
    cases value with
    | null =>
      rw [← Except.ok.inj h]
      exact .nothing
    | str glob =>
      rw [← Except.ok.inj h]
      exact .one glob
    | arr elements =>
      rw [globsOf_arr_eq_ok_iff.mp h]
      exact .several globs
    | _ => exact absurd h (by simp [globsOf])
  · intro h
    cases h with
    | nothing => rfl
    | one glob => rfl
    | several => exact globsOf_arr_eq_ok_iff.mpr rfl

/-- Reading a filter that is neither null nor a boolean gives the globs that it names. -/
theorem ofJson_eq_ok_iff (hnull : value ≠ .null) (hbool : ∀ b, value ≠ .bool b) :
    ofJson value = .ok filter
      ↔ ∃ includes excludes, Names value includes excludes
        ∧ filter = .fields includes excludes := by
  constructor
  · intro h
    cases value with
    | null => exact absurd rfl hnull
    | bool b => exact absurd rfl (hbool b)
    | num number => exact absurd h (by simp [ofJson])
    | str glob => exact ⟨[glob], [], .one glob, (Except.ok.inj h).symm⟩
    -- An array at the top lists what is kept, and leaves nothing out.
    | arr elements =>
      rcases Outcome.map_eq_ok_iff.mp h with ⟨includes, hglobs, rfl⟩
      rw [globsOf_eq_ok_iff] at hglobs
      cases hglobs with
      | several => exact ⟨includes, [], .several includes, rfl⟩
    | obj members =>
      rcases Outcome.bind_eq_ok_iff.mp h with ⟨includes, hincludes, hrest⟩
      rcases Outcome.bind_eq_ok_iff.mp hrest with ⟨excludes, hexcludes, hfilter⟩
      exact ⟨includes, excludes,
        .both (globsOf_eq_ok_iff.mp hincludes) (globsOf_eq_ok_iff.mp hexcludes),
        (Except.ok.inj hfilter).symm⟩
  · rintro ⟨includes, excludes, hnames, rfl⟩
    cases hnames with
    | one glob => rfl
    | several =>
      exact Outcome.map_eq_ok_iff.mpr ⟨includes, globsOf_eq_ok_iff.mpr (.several includes), rfl⟩
    | both kept left =>
      exact Outcome.bind_eq_ok_iff.mpr ⟨includes, globsOf_eq_ok_iff.mpr kept,
        Outcome.bind_eq_ok_iff.mpr ⟨excludes, globsOf_eq_ok_iff.mpr left, rfl⟩⟩

/-! ### Keeping -/

/-- Keeping a name is selecting it. -/
theorem keeps_iff : keeps includes excludes name = true ↔ Selected includes excludes name := by
  rw [keeps, Bool.and_eq_true, Bool.or_eq_true, List.isEmpty_iff, fits_iff, Bool.not_eq_true',
    ← Bool.not_eq_true, fits_iff, Selected]

/-- Both lists at once select what one after the other does. -/
theorem keeps_eq_and (includes excludes : List String) (name : String) :
    keeps includes excludes name = (keeps [] excludes name && keeps includes [] name) := by
  simp [keeps, fits, Bool.and_comm]

/-- Keeping some members and then leaving some of them out is done in one step. -/
theorem apply_bind_apply (includes excludes : List String) (source : Json) :
    ((fields includes []).apply source).bind (fields [] excludes).apply
      = (fields includes excludes).apply source := by
  cases source with
  | obj members =>
    simp only [apply, Option.bind_some, List.filter_filter, ← keeps_eq_and]
  | _ => rfl

/-- What was selected once is selected again. -/
theorem apply_bind_self (includes excludes : List String) (source : Json) :
    ((fields includes excludes).apply source).bind (fields includes excludes).apply
      = (fields includes excludes).apply source := by
  cases source with
  | obj members =>
    simp only [apply, Option.bind_some, List.filter_filter, Bool.and_self]
  | _ => rfl

/-- A value that is read as a filter, and is neither null nor a boolean, names two lists of globs.
    Of an object the filter leaves an object with the members that the lists select, in order and
    with their values, and nothing else. To apply it again changes nothing. What it leaves of any
    value is also left by a filter for the first list alone with one for the second list alone
    behind it. -/
theorem filters_keep_selected (hnull : value ≠ .null) (hbool : ∀ b, value ≠ .bool b)
    (h : ofJson value = .ok filter) :
    ∃ includes excludes, Names value includes excludes ∧ filter = .fields includes excludes
      ∧ (∀ members, ∃ kept, filter.apply (.obj members) = some (.obj kept)
          ∧ kept.Sublist members
          ∧ ∀ name member, Keyed.get? name kept = some member
            ↔ Keyed.get? name members = some member ∧ Selected includes excludes name)
      ∧ (∀ source, (filter.apply source).bind filter.apply = filter.apply source)
      ∧ ∃ first second,
          ofJson (.obj [("includes", Json.ofTexts includes)]) = .ok first
            ∧ ofJson (.obj [("excludes", Json.ofTexts excludes)]) = .ok second
            ∧ ∀ source, filter.apply source = (first.apply source).bind second.apply := by
  rcases (ofJson_eq_ok_iff hnull hbool).mp h with ⟨includes, excludes, hnames, rfl⟩
  -- Each half of the filter is read by itself, as a filter with the other half empty.
  have hfirst : Names (.obj [("includes", Json.ofTexts includes)]) includes [] :=
    .both (.several includes) .nothing
  have hsecond : Names (.obj [("excludes", Json.ofTexts excludes)]) [] excludes :=
    .both .nothing (.several excludes)
  refine ⟨includes, excludes, hnames, rfl, fun members => ?_, apply_bind_self includes excludes,
    .fields includes [], .fields [] excludes, ?_, ?_, fun source => ?_⟩
  · refine ⟨members.filter fun member => keeps includes excludes member.1, rfl,
      List.filter_sublist, fun name member => ?_⟩
    rw [Keyed.get?_filter_keys (keeps includes excludes), Option.ite_none_right_eq_some, keeps_iff,
      and_comm]
  · exact (ofJson_eq_ok_iff (by simp) (by simp)).mpr ⟨includes, [], hfirst, rfl⟩
  · exact (ofJson_eq_ok_iff (by simp) (by simp)).mpr ⟨[], excludes, hsecond, rfl⟩
  · exact (apply_bind_apply includes excludes source).symm

/-- The age is selected by the first list and left out by the second. -/
theorem filters_keep_selected_crew :
    let value : Json := .obj [("exclude", .str "age"), ("includes", .ofTexts ["*name", "a*"])]
    let members := [("age", .ofNat 30), ("name", .str "alice"), ("nickname", .str "al")]
    ∃ filter kept, ofJson value = .ok filter ∧ filter.apply (.obj members) = some (.obj kept)
      ∧ Keyed.get? "nickname" kept = some (.str "al") ∧ Keyed.get? "age" kept = none
      ∧ filter.apply (.obj kept) = some (.obj kept) := by
  intro value members
  rcases @filters_keep_selected value _ (by simp [value]) (by simp [value]) rfl with
    ⟨includes, excludes, -, hfilter, happly, htwice, -⟩
  rw [fields.injEq] at hfilter
  rcases hfilter with ⟨rfl, rfl⟩
  rcases happly members with ⟨kept, hkept, -, hget⟩
  refine ⟨_, kept, rfl, hkept, ?_, ?_, ?_⟩
  · exact (hget _ _).mpr ⟨rfl, keeps_iff.mp (by decide)⟩
  · refine Option.eq_none_iff_forall_ne_some.mpr fun member hmember => ?_
    have hselected := keeps_iff.mpr ((hget _ _).mp hmember).2
    exact absurd hselected (by decide)
  · have hsource := htwice (.obj members)
    rwa [hkept] at hsource

end SourceFilter

end DocSearch
