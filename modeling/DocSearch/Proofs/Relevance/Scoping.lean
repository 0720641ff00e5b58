import DocSearch.Proofs.Mapping.Reading
import DocSearch.Proofs.Relevance.Compile

/-!
# Nested Scopes

A nested query compiles its inner query under a schema of its own, in which the path of the
nested query is marked as being inside the scope. Here it is shown how little that changes:
the inner query compiles to the very scorer it would have had outside, unless it asks
whether just that path exists.

Two things could go wrong. The mark replaces a mapping, and the copy targets are computed
from the mappings, so a mark that lost the targets of its path, or stood in a second entry
beside the old one, would change what other paths read. And scopes are stacked: below a
second nested query both schemas are marked once more, in the other order than the stack
suggests.

`InsideScope` is what survives: the two schemas read every path the same way and know every
field alike, except the path itself, which is marked in one of them. Going into a further
scope on another path keeps that, and a further scope on the same path is refused inside,
so nothing has to be said about it.

## Main definitions

* `Schema.Derived`: The schemas that trees and overrides give.
* `Query.asksExistenceOf`: Whether a query asks, at any depth, if a field exists.
* `InsideScope`: One schema is another one seen from inside a nested query.

## Theorems

* `mappings_ordered_of_derived`: Their mappings are in key order.
* `copies_inScope`: A scope changes no copy target.
* `insideScope_inScope`: Going into a scope on another path keeps the relation.
* `compile_of_insideScope`: What compiles inside compiles outside to the same scorer.
* `score_nested`: A nested query scores like its inner query.
-/

namespace DocSearch

/-- The schemas that come from a mapping tree, and from those by replacing mappings, as a
    nested query does with its path. -/
inductive Schema.Derived : Schema → Prop where
  | ofTree {indexName : String} {tree : Json} {schema : Schema} :
      Schema.ofTree indexName tree = .ok schema → Derived schema
  | override {schema : Schema} (path : String) (mapping : FieldMapping) :
      Derived schema → Derived (schema.override path mapping)

/-- The mappings that are read from a tree are in key order. -/
theorem mappings_ordered_of_derived {schema : Schema} (h : schema.Derived) :
    Keyed.Ordered schema.mappings := by
  induction h with
  | ofTree hread =>
    rcases Outcome.map_eq_ok_iff.mp (Schema.faithful_of_ofTree hread) with ⟨fields, _, hfields⟩
    rw [← hfields]
    exact Keyed.ordered_ofList fields
  | override path mapping _ ih => exact Keyed.ordered_insert path mapping ih

namespace Query

mutual

/-- Whether a query asks, at any depth, if a field exists. -/
def asksExistenceOf (field : String) : Query → Bool
  | .fieldExists other => other = field
  | .boolean must mustNot should filter =>
    anyAsksExistenceOf field must || anyAsksExistenceOf field mustNot
      || anyAsksExistenceOf field should || anyAsksExistenceOf field filter
  | .nested _ query => asksExistenceOf field query
  | _ => false

/-- Whether one of some queries asks if a field exists. -/
def anyAsksExistenceOf (field : String) : List Query → Bool
  | [] => false
  | query :: rest => asksExistenceOf field query || anyAsksExistenceOf field rest

end

/-- Marking a path as being in scope keeps them so. -/
theorem inScope_ordered {schema : Schema} (path : String)
    (h : Keyed.Ordered schema.mappings) : Keyed.Ordered (inScope schema path).mappings :=
  Keyed.ordered_insert path _ h

/-- The path itself has the mark for its type, and all others have their mappings. -/
theorem field?_inScope (schema : Schema) (path other : String) :
    (inScope schema path).field? other
      = if path = other then
          some ⟨.nestedScope, ((schema.field? path).map FieldMapping.copyTo).getD []⟩
        else schema.field? other :=
  Keyed.get?_insert path other _ schema.mappings

/-- The mark keeps the targets of its path, and it takes the place of the old mapping, so
    every field is next to the same targets as before. -/
theorem copies_inScope {schema : Schema} (path : String)
    (h : Keyed.Ordered schema.mappings) : (inScope schema path).copies = schema.copies := by
  refine Keyed.flatMap_insert _ path _ h ?_
  unfold Schema.field?
  cases Keyed.get? path schema.mappings with
  | none => rfl
  | some mapping => rfl

/-- The copy targets of the path are kept with it, so the sources of every target are the same. -/
theorem copySources?_inScope {schema : Schema} (path target : String)
    (h : Keyed.Ordered schema.mappings) :
    (inScope schema path).copySources? target = schema.copySources? target := by
  unfold Schema.copySources?
  rw [copies_inScope path h]

/-- The schema `inner` is `outer` seen from inside a nested query on a path: both read every
    path the same way and know every other field alike, and the path itself is marked. -/
structure InsideScope (path : String) (outer inner : Schema) : Prop where
  outer_ordered : Keyed.Ordered outer.mappings
  inner_ordered : Keyed.Ordered inner.mappings
  copySources : ∀ target, inner.copySources? target = outer.copySources? target
  field_of_ne : ∀ other, other ≠ path → inner.field? other = outer.field? other
  marked : ∃ targets, inner.field? path = some ⟨.nestedScope, targets⟩

/-- The schema that a nested query is compiled under is inside its scope. -/
theorem insideScope_self {schema : Schema} (path : String)
    (h : Keyed.Ordered schema.mappings) : InsideScope path schema (inScope schema path) where
  outer_ordered := h
  inner_ordered := inScope_ordered path h
  copySources target := copySources?_inScope path target h
  field_of_ne other hne := by rw [field?_inScope, if_neg (fun he => hne he.symm)]
  marked := ⟨_, by rw [field?_inScope, if_pos rfl]⟩

/-- A further scope on another path marks both schemas alike. -/
theorem insideScope_inScope {path below : String} {outer inner : Schema}
    (hne : below ≠ path) (h : InsideScope path outer inner) :
    InsideScope path (inScope outer below) (inScope inner below) where
  outer_ordered := inScope_ordered below h.outer_ordered
  inner_ordered := inScope_ordered below h.inner_ordered
  copySources target := by
    rw [copySources?_inScope below target h.inner_ordered,
      copySources?_inScope below target h.outer_ordered, h.copySources]
  field_of_ne other hother := by
    rw [field?_inScope, field?_inScope, h.field_of_ne below hne, h.field_of_ne other hother]
  marked := by
    rcases h.marked with ⟨targets, htargets⟩
    exact ⟨targets, by rw [field?_inScope, if_neg hne, htargets]⟩

-- What is asked of a schema inside the scope has the answer of the schema outside, unless it is
-- asked about the path itself.
theorem readPaths_of_insideScope {path : String} {outer inner : Schema}
    (h : InsideScope path outer inner) (field : String) :
    inner.readPaths field = outer.readPaths field := by
  simp only [Schema.readPaths, h.copySources]

theorem isNested_of_insideScope {path field : String} {outer inner : Schema}
    (h : InsideScope path outer inner) (hne : field ≠ path) :
    inner.isNested field = outer.isNested field := by
  unfold Schema.isNested
  rw [h.field_of_ne field hne]

/-- Inside its scope a path is refused as the path of a nested query. -/
theorem refusesNested_of_insideScope {path : String} {outer inner : Schema}
    (h : InsideScope path outer inner) : refusesNested inner path = true := by
  rcases h.marked with ⟨targets, htargets⟩
  unfold refusesNested
  rw [htargets]
  rfl

/-- So other nested queries are refused inside exactly if they are refused outside. -/
theorem refusesNested_eq_of_insideScope {path below : String} {outer inner : Schema}
    (h : InsideScope path outer inner) (hne : below ≠ path) :
    refusesNested inner below = refusesNested outer below := by
  unfold refusesNested
  rw [h.field_of_ne below hne]

mutual

/-- What compiles inside a scope compiles outside to the same scorer, unless it asks if the
    path of the scope exists. The induction is on the query, with the pair of schemas left
    open because every nested query below moves on to another pair. -/
theorem compile_of_insideScope (path : String) :
    ∀ (query : Query) (outer inner : Schema) (scorer : Scorer),
      InsideScope path outer inner → query.asksExistenceOf path = false →
      compile inner query = .ok scorer → compile outer query = .ok scorer
  | .all, _, _, _, _, _, hok => by simpa only [compile] using hok
  | .unsupported _, _, _, _, _, _, hok => by simpa only [compile] using hok
  -- A compound query is compiled clause by clause, under the same two schemas.
  | .boolean must mustNot should filter, outer, inner, scorer, h, hasks, hok => by
    simp only [asksExistenceOf, Bool.or_eq_false_iff] at hasks
    rcases hasks with ⟨⟨⟨hmust, hmustNot⟩, hshould⟩, hfilter⟩
    rcases compile_boolean_eq_ok_iff.mp hok with
      ⟨musts, mustNots, shoulds, filters, hmusts, hmustNots, hshoulds, hfilters, rfl⟩
    refine compile_boolean_eq_ok_iff.mpr
      ⟨musts, mustNots, shoulds, filters, ?_, ?_, ?_, ?_, rfl⟩
    · exact compileAll_of_insideScope path must outer inner musts h hmust hmusts
    · exact compileAll_of_insideScope path mustNot outer inner mustNots h hmustNot hmustNots
    · exact compileAll_of_insideScope path should outer inner shoulds h hshould hshoulds
    · exact compileAll_of_insideScope path filter outer inner filters h hfilter hfilters
  -- The leaves ask for the paths to read and for nothing else.
  | .words field text, _, _, _, h, _, hok => by
    simpa only [compile, readPaths_of_insideScope h] using hok
  | .wildcard field pattern, _, _, _, h, _, hok => by
    simpa only [compile, readPaths_of_insideScope h] using hok
  | .term field value boost, _, _, _, h, _, hok => by
    simpa only [compile, readPaths_of_insideScope h] using hok
  | .terms field values boost, _, _, _, h, _, hok => by
    simpa only [compile, readPaths_of_insideScope h] using hok
  | .fieldExists field, _, _, _, h, hasks, hok => by
    simp only [asksExistenceOf, decide_eq_false_iff_not] at hasks
    simpa only [compile, isNested_of_insideScope h hasks] using hok
  | .nested below query, outer, inner, scorer, h, hasks, hok => by
    simp only [asksExistenceOf] at hasks
    rcases compile_nested_eq_ok_iff.mp hok with ⟨hrefuses, hinner⟩
    -- A second nested query on the path of the scope would have been refused.
    have hne : below ≠ path := fun heq => by
      rw [heq, refusesNested_of_insideScope h] at hrefuses
      exact Bool.noConfusion hrefuses
    refine compile_nested_eq_ok_iff.mpr ⟨?_, ?_⟩
    · rw [← refusesNested_eq_of_insideScope h hne]
      exact hrefuses
    · exact compile_of_insideScope path query _ _ scorer (insideScope_inScope hne h) hasks hinner
  | .range field bounds, _, _, _, h, _, hok => by
    simpa only [compile, readPaths_of_insideScope h] using hok

-- The lists of clauses are gone through along with the queries in them.
theorem compileAll_of_insideScope (path : String) :
    ∀ (queries : List Query) (outer inner : Schema) (scorers : List Scorer),
      InsideScope path outer inner → anyAsksExistenceOf path queries = false →
      compileAll inner queries = .ok scorers → compileAll outer queries = .ok scorers
  | [], _, _, _, _, _, hok => by simpa only [compileAll] using hok
  | query :: rest, outer, inner, scorers, h, hasks, hok => by
    simp only [anyAsksExistenceOf, Bool.or_eq_false_iff] at hasks
    rcases compileAll_cons_eq_ok_iff.mp hok with ⟨scorer, others, hscorer, hothers, rfl⟩
    refine compileAll_cons_eq_ok_iff.mpr ⟨scorer, others, ?_, ?_, rfl⟩
    · exact compile_of_insideScope path query outer inner scorer h hasks.1 hscorer
    · exact compileAll_of_insideScope path rest outer inner others h hasks.2 hothers

end

/-- A nested query scores like its inner query, which compiles outside the scope whenever the
    nested query does. Asking whether the path itself exists is the one question that the
    scope answers differently. -/
theorem score_nested {schema : Schema} (hschema : schema.Derived) (path : String)
    (query : Query) (hasks : query.asksExistenceOf path = false) (within : Scorer)
    (hok : compile schema (.nested path query) = .ok within) :
    ∃ outside, compile schema query = .ok outside
      ∧ ∀ document, outside.score document = within.score document := by
  -- The two scorers are not only equally good, they are the same one.
  have hordered := mappings_ordered_of_derived hschema
  have hinner := (compile_nested_eq_ok_iff.mp hok).2
  have houter := compile_of_insideScope path query schema (inScope schema path) within
    (insideScope_self path hordered) hasks hinner
  exact ⟨within, houter, fun _ => rfl⟩

/-- A mapping tree in which a nested field is copied from and encloses a second one. -/
def threadTree : Json :=
  .obj
    [("comments", .obj
        [("copy_to", .arr [.str "all", .str "threads"]),
         ("properties", .obj
            [("author", .obj [("copy_to", .str "all"), ("type", .str "keyword")]),
             ("replies", .obj [("type", .str "nested")])]),
         ("type", .str "nested")]),
     ("title", .obj [("copy_to", .str "all"), ("type", .str "text")])]

/-- A query that reads a copy target and goes into the second scope. -/
def threadQuery : Query :=
  .boolean [.words "all" (some "dune")] [.nested "comments.replies" (.wildcard "threads" "*x*")]
    [.fieldExists "comments.author"] [.term "comments.author.keyword" (.str "ann") 1.0]

/-- A nested query in the scope of another one, whose field is copied to. -/
theorem score_nested_thread :
    ∃ schema within, Schema.ofTree "books" threadTree = .ok schema
      ∧ compile (inScope schema "threads") (.nested "comments" threadQuery) = .ok within
      ∧ threadQuery.asksExistenceOf "comments" = false
      ∧ ∃ outside, compile (inScope schema "threads") threadQuery = .ok outside
        ∧ ∀ document, outside.score document = within.score document := by
  refine ⟨_, _, rfl, rfl, rfl, ?_⟩
  have hread := @Schema.Derived.ofTree "books" threadTree _ rfl
  exact score_nested (hread.override "threads" _) "comments" threadQuery rfl _ rfl

end Query

end DocSearch
