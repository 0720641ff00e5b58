import DocSearch.Bucket.Tally
import DocSearch.Hit.Sorting
import DocSearch.Proofs.Relevance.Subfields

/-!
# One Meaning of a Path

Queries, sorting and aggregations read documents at paths, and a client takes it that a path
means the same to all of them.

They do not read by the same rule. Sorting and aggregations hand the path to the document, which
takes one `.keyword` ending off. Queries ask the schema first, and the schema takes the ending off
to see whether a copy target is meant. Where none is, it hands on what is left, and the document
looks for an ending once more. So a second ending is lost to queries and kept by everyone else:
for a member called `keyword` inside a field the two sides go to different places.

That is all that can go wrong. With at most one ending the two sides read the same values in every
document, and then each of them can be described by what the other one reads.

## Main definitions

* `Scalar.only?`: The scalar that some values are, if they are a single one.
* `Schema.ReadsAlike`: Queries, sorting and aggregations read the same values at a path.

## Theorems

* `resolve_of_no_target`: Where no copy target is meant, an ending is taken off first.
* `resolve_eq_valuesAt`: With at most one ending it makes no difference.
* `exists_resolve_ne_valuesAt`: With two of them it does in some document.
* `second_ending_lost`: A document with a member called `keyword`.
* `readsAlike_iff`: Which paths mean one thing.
-/

namespace DocSearch

/-- The scalar that some values are, if they are a single one. -/
def Scalar.only? : List Json → Option Scalar
  | [value] => Scalar.ofJson? value
  | _ => none

namespace Schema

variable {schema : Schema} {path : String}

/-- Where no copy target is meant, an ending is taken off before the document is asked. -/
theorem resolve_of_no_target (h : schema.copySources? (Path.withoutKeyword path) = none)
    (document : Json) :
    schema.resolve document path = Path.valuesAt document (Path.withoutKeyword path) := by
  have hread : schema.readPaths path = [Path.withoutKeyword path] := by
    rw [readPaths, h, Option.getD_none]
  rw [resolve, hread, valuesOf, List.flatMap_singleton]

/-- With at most one ending the document is asked for the same path in the end. -/
theorem resolve_eq_valuesAt (h : schema.copySources? (Path.withoutKeyword path) = none)
    (hsingle : ¬ Path.EndsInKeyword (Path.withoutKeyword path)) (document : Json) :
    schema.resolve document path = Path.valuesAt document path := by
  rw [resolve_of_no_target h, Path.valuesAt, Path.valuesAt,
    Path.withoutKeyword_of_not_endsInKeyword hsingle]

/-- With two endings there is a document in which it is asked for different values. -/
theorem exists_resolve_ne_valuesAt (h : schema.copySources? (Path.withoutKeyword path) = none)
    (hdouble : Path.EndsInKeyword (Path.withoutKeyword path)) :
    ∃ document : Json, document.isObject = true ∧ document.Ordered
      ∧ schema.resolve document path ≠ Path.valuesAt document path := by
  have hpaths : [Path.withoutKeyword path].map Path.withoutKeyword
      ≠ [path].map Path.withoutKeyword := by
    intro hsame
    rw [List.map_singleton, List.map_singleton, List.cons.injEq, and_iff_left rfl] at hsame
    exact Path.withoutKeyword_eq_self_iff.mp hsame hdouble
  rcases exists_textsOf_ne hpaths with ⟨document, hobject, hordered, hne⟩
  refine ⟨document, hobject, hordered, fun hsame => hne ?_⟩
  rw [textsOf, textsOf, valuesOf, valuesOf, List.flatMap_singleton, List.flatMap_singleton,
    ← resolve_of_no_target h, hsame]

/-- Queries, sorting and aggregations read the same values at a path. What queries score is
    given by what the others read, and what the others make of a hit by what queries read. -/
structure ReadsAlike (schema : Schema) (path : String) : Prop where
  values : ∀ document, schema.resolve document path = Path.valuesAt document path
  scores : ∀ question : FieldQuestion, question.asksValues = true →
    ∃ scorer, (question.on path).compile schema = .ok scorer
      ∧ ∃ scoreOf : List Json → Float,
          ∀ document, scorer.score document = scoreOf (Path.valuesAt document path)
  sorts : ∀ (direction : Direction) (hit : Hit),
    SortKey.valueOf? ⟨path, direction⟩ hit
      = hit.source.bind fun document => Scalar.only? (schema.resolve document path)
  counts : path ≠ indexField → ∀ (hit : Hit) (document : Json), hit.source = some document →
    hit.terms path
      = Keyed.distinct ((schema.resolve document path).filterMap Json.asText?)

/-- If a path resolves to the values that stand at it, queries and hits read the same of it. -/
theorem readsAlike_of_values
    (h : ∀ document, schema.resolve document path = Path.valuesAt document path) :
    schema.ReadsAlike path where
  values := h
  scores question hvalues := by
    rcases FieldQuestion.score_of_asksValues hvalues with ⟨scoreOf, hscore⟩
    rcases hscore schema path with ⟨scorer, hscorer, hscorerScore⟩
    refine ⟨scorer, hscorer, scoreOf, fun document => ?_⟩
    rw [hscorerScore, h]
  sorts direction hit := by
    cases hsource : hit.source with
    | none => rw [SortKey.valueOf?, hsource, Option.bind_none]
    | some document =>
      simp only [SortKey.valueOf?, hsource, Option.bind_some, h]
      -- both sides ask the same values whether they are a single one
      rcases Path.valuesAt document path with _ | ⟨value, _ | ⟨next, values⟩⟩ <;> rfl
  counts hfield hit document hsource := by
    rw [Hit.terms, if_neg hfield, hsource, h]

/-- Of a member called `keyword` inside a field, sorting finds the text, and so do aggregations. A
    query finds nothing, because it takes two endings off. -/
theorem second_ending_lost :
    let schema : Schema := ⟨"books", [], []⟩
    let document : Json := .obj [("shelf", .obj [("keyword", .str "B4")])]
    schema.copySources? (Path.withoutKeyword "shelf.keyword.keyword") = none
      ∧ (schema.resolve document "shelf.keyword.keyword").filterMap Json.asText? = []
      ∧ (Path.valuesAt document "shelf.keyword.keyword").filterMap Json.asText? = ["B4"]
      ∧ (schema.resolve document "shelf.keyword").filterMap Json.asText? = []
      ∧ (Path.valuesAt document "shelf.keyword").filterMap Json.asText? = [] := by
  decide

/-- A path that means no copy target means one thing to queries, sorting and aggregations exactly
    if it has at most one ending. If it has two, queries read what stands at the path without
    both, and there is a document in which that is something else. -/
theorem readsAlike_iff (h : schema.copySources? (Path.withoutKeyword path) = none) :
    (schema.ReadsAlike path ↔ ¬ Path.EndsInKeyword (Path.withoutKeyword path))
      ∧ (Path.EndsInKeyword (Path.withoutKeyword path) →
          (∀ document, schema.resolve document path
            = Path.valuesAt document (Path.withoutKeyword path))
          ∧ ∃ document : Json, document.isObject = true ∧ document.Ordered
            ∧ schema.resolve document path ≠ Path.valuesAt document path) := by
  refine ⟨⟨fun halike hdouble => ?_, fun hsingle => ?_⟩, fun hdouble => ⟨?_, ?_⟩⟩
  · rcases exists_resolve_ne_valuesAt h hdouble with ⟨document, _, _, hne⟩
    exact hne (halike.values document)
  · exact readsAlike_of_values (resolve_eq_valuesAt h hsingle)
  · exact resolve_of_no_target h
  · exact exists_resolve_ne_valuesAt h hdouble

/-- A field of that name inside nothing, a title with one ending, and a shelf with two. -/
theorem readsAlike_iff_titles :
    FieldQuestion.titles.ReadsAlike "keyword.keyword"
      ∧ FieldQuestion.titles.ReadsAlike "title.keyword"
      ∧ ¬ FieldQuestion.titles.ReadsAlike "shelf.keyword.keyword"
      ∧ ∃ document : Json, document.isObject = true ∧ document.Ordered
        ∧ FieldQuestion.titles.resolve document "shelf.keyword.keyword"
          ≠ Path.valuesAt document "shelf.keyword.keyword" := by
  refine ⟨?_, ?_, ?_, ?_⟩
  · exact (readsAlike_iff (by decide)).1.mpr (by decide)
  · exact (readsAlike_iff (by decide)).1.mpr (by decide)
  · exact fun halike => (readsAlike_iff (by decide)).1.mp halike (by decide)
  · exact ((readsAlike_iff (by decide)).2 (by decide)).2

end Schema

end DocSearch
