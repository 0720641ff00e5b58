import DocSearch.Hit.Highlight
import DocSearch.Proofs.Document.Places
import DocSearch.Relevance.Compile

/-!
# Marking Where Scores Come From

A document is found for the values at some paths, and marked in the values at some paths. They
had better be the same ones, or what is found comes back without a mark.

Scoring takes the `.keyword` ending off a field before it looks for copy targets. Marking looks
for the field as it is written, so a copy target with the ending is no target to it. It goes on
to read a field of that name, which holds nothing as a rule. Fields that are no copy targets are
safe from this, because reading takes an ending off in any case. They are not safe from a second
ending, which scoring takes off as well and marking does not.

The two sides agree on all documents exactly if their paths agree up to one ending each. That is
so for every field without the ending, copy target or not.

## Main definitions

* `Schema.pathsAsWritten`: The paths that marking reads.
* `Schema.SamePlaces`: They lead where the paths of scoring lead.
* `Scorer.values`, `Highlighter.texts`: What the two sides look at in a document.

## Theorems

* `samePlaces_of_withoutKeyword_eq`: Without an ending the paths agree.
* `samePlaces_iff_of_plain`, `samePlaces_iff_of_suffixed_target`: When they agree for a field
  with the ending, whether or not a copy target has its name.
* `suffixed_target_unmarked`: A copy target with the ending is found and not marked.
* `marks_scored_iff`: Marking looks at what scoring looks at exactly if the paths agree.
-/

namespace DocSearch

namespace Schema

variable {schema : Schema} {field : String} {sources : List String}

/-- The paths of the values of a field that is looked up as it is written. -/
def pathsAsWritten (schema : Schema) (field : String) : List String :=
  (schema.copySources? field).getD [field]

/-- Looking a field up as it is written leads where looking it up without its ending does. -/
def SamePlaces (schema : Schema) (field : String) : Prop :=
  (schema.pathsAsWritten field).map Path.withoutKeyword
    = (schema.readPaths field).map Path.withoutKeyword

instance (schema : Schema) (field : String) : Decidable (schema.SamePlaces field) :=
  inferInstanceAs (Decidable (_ = _))

/-- A field without the keyword ending is looked up as it is written, by queries and by
    highlighting. -/
theorem samePlaces_of_withoutKeyword_eq (schema : Schema)
    (h : Path.withoutKeyword field = field) : schema.SamePlaces field := by
  have hread : schema.readPaths field = schema.pathsAsWritten field :=
    congrArg schema.pathsAsWritten h
  rw [SamePlaces, hread]

/-- A field that is no copy target as it is written is one path, which has to lead where all
    paths of scoring lead. -/
theorem samePlaces_iff_of_no_target (h : schema.copySources? field = none) :
    schema.SamePlaces field
      ↔ (schema.readPaths field).map Path.withoutKeyword = [Path.withoutKeyword field] := by
  rw [SamePlaces, pathsAsWritten, h, Option.getD_none, List.map_singleton, eq_comm]

/-- Where neither the field nor its parent is a target, both read the field itself, and differ only
    in how many endings they take off. -/
theorem samePlaces_iff_of_plain (h : schema.copySources? field = none)
    (hplain : schema.copySources? (Path.withoutKeyword field) = none) :
    schema.SamePlaces field
      ↔ Path.withoutKeyword (Path.withoutKeyword field) = Path.withoutKeyword field := by
  have hread : schema.readPaths field = [Path.withoutKeyword field] := by
    rw [readPaths, hplain, Option.getD_none]
  rw [samePlaces_iff_of_no_target h, hread, List.map_singleton, List.cons.injEq,
    and_iff_left rfl]

/-- Where the parent is a target, queries read its sources and highlighting reads the field. -/
theorem samePlaces_iff_of_suffixed_target (h : schema.copySources? field = none)
    (htarget : schema.copySources? (Path.withoutKeyword field) = some sources) :
    schema.SamePlaces field
      ↔ sources.map Path.withoutKeyword = [Path.withoutKeyword field] := by
  have hread : schema.readPaths field = sources := by
    rw [readPaths, htarget, Option.getD_some]
  rw [samePlaces_iff_of_no_target h, hread]

end Schema

/-- The paths at which a scorer for one field reads its values. -/
def Scorer.paths : Scorer → List String
  | .words _ paths | .wildcard _ paths | .terms _ _ paths | .range _ paths => paths
  | .constant | .zero _ | .boolean .. | .fieldExists _ => []

/-- The values that a scorer for one field looks at in a document. -/
def Scorer.values (scorer : Scorer) (document : Json) : List Json :=
  Schema.valuesOf document scorer.paths

namespace Highlighter

/-- The texts that a highlighter looks at in a document. -/
def texts (highlighter : Highlighter) (document : Json) : List String :=
  Schema.textsOf document highlighter.paths

/-- The snippets at all paths are those of the texts that were looked at. -/
theorem flatMap_snippetsAt (highlighter : Highlighter) (document : Json) :
    highlighter.paths.flatMap (highlighter.snippetsAt document)
      = (highlighter.texts document).filterMap
          (snippet? highlighter.pattern highlighter.preTag highlighter.postTag) := by
  rw [texts, Schema.textsOf, Schema.valuesOf, List.filterMap_flatMap, List.filterMap_flatMap]
  rfl

variable {query : Query} {request : HighlightRequest} {schema : Schema} {field : String}
  {pattern : Pattern}

/-- A query that can be marked is scored by the values of its field, and by nothing else. -/
theorem compile_of_target (schema : Schema) (h : target? query = some (field, pattern)) :
    ∃ scorer, query.compile schema = .ok scorer ∧ scorer.paths = schema.readPaths field
      ∧ ∃ scoreOf : List Json → Float,
          ∀ document, scorer.score document = scoreOf (scorer.values document) := by
  -- Three kinds of query have a target, and each of them names its field.
  cases query with
  | words name text =>
    simp only [target?, Option.ite_none_left_eq_some, Option.some.injEq, Prod.mk.injEq] at h
    rw [← h.2.1, Query.compile]
    refine ⟨_, rfl, rfl, fun values => if ((text.map tokenize).getD []).isEmpty then 0.0
      else Scorer.scoreWords ((text.map tokenize).getD []) values, fun document => ?_⟩
    rw [Scorer.score]
    rfl
  | wildcard name glob =>
    rw [target?, Option.some.injEq, Prod.mk.injEq] at h
    rw [← h.1, Query.compile]
    refine ⟨_, rfl, rfl, Scorer.scoreWildcard (Pattern.glob glob true), fun document => ?_⟩
    rw [Scorer.score]
    rfl
  | term name value boost =>
    rw [target?, Option.ite_none_left_eq_some, Option.some.injEq, Prod.mk.injEq] at h
    rw [← h.2.1, Query.compile]
    refine ⟨_, rfl, rfl, Scorer.scoreTerms (if value.isNull then [] else [value]) boost,
      fun document => ?_⟩
    rw [Scorer.score]
    rfl
  -- All other kinds have nothing to highlight.
  | _ => exact absurd h (by simp [target?])

/-- On a field that is asked for it is marked by the field as it is written. -/
theorem ofQuery?_of_target (h : target? query = some (field, pattern))
    (heligible : field ∈ request.eligible schema) :
    ofQuery? query request schema
      = some ⟨pattern, schema.pathsAsWritten field, request.preTag, request.postTag⟩ := by
  rw [ofQuery?, h]
  exact if_pos heligible

/-- Books, whose titles are copied to all that can be searched. -/
def books : Schema := ⟨"books", [("title", ⟨.text, ["all"]⟩)], []⟩

/-- A copy target with the ending is found by the title that is copied to it, and no text is
    looked at to mark it. By its own name it is. -/
theorem suffixed_target_unmarked :
    let document : Json := .obj [("title", .str "Dune")]
    let query (field : String) : Query := .termOf field (.str "Dune")
    let scored (field : String) : List String :=
      (books.resolve document field).filterMap Json.asText?
    let marked (field : String) : Option (List String) :=
      (ofQuery? (query field) { fields := [field] } books).map (texts · document)
    (scored "all.keyword" = ["Dune"] ∧ marked "all.keyword" = some [])
      ∧ (scored "all" = ["Dune"] ∧ marked "all" = some ["Dune"])
      ∧ "all.keyword" ∈ HighlightRequest.eligible { fields := ["all.keyword"] } books
      ∧ highlightsOf (query "all.keyword") { fields := ["all.keyword"] } books document = [] := by
  decide

/-- A query that can be marked, on a field that is asked for, is scored by the values of the
    field and by nothing else. What is marked are the texts among these, in order, in every
    document exactly if the field means the same as it is written and without its ending. If
    not, there is a document in which other texts are looked at. A field without an ending means
    the same, whatever is copied to it. So does one with a single ending where no copy target is
    involved. A copy target to which the ending is added does not, unless nothing is copied to
    it but itself. -/
theorem marks_scored_iff (htarget : target? query = some (field, pattern))
    (heligible : field ∈ request.eligible schema) :
    ∃ scorer highlighter,
      query.compile schema = .ok scorer ∧ ofQuery? query request schema = some highlighter
        ∧ (∀ document, scorer.values document = schema.resolve document field)
        ∧ (∃ scoreOf : List Json → Float,
            ∀ document, scorer.score document = scoreOf (scorer.values document))
        ∧ (∀ document, highlighter.paths.flatMap (highlighter.snippetsAt document)
            = (highlighter.texts document).filterMap
                (snippet? pattern request.preTag request.postTag))
        ∧ (schema.SamePlaces field → ∀ document,
            highlighter.texts document = (scorer.values document).filterMap Json.asText?)
        ∧ (¬ schema.SamePlaces field → ∃ document : Json,
            document.isObject = true ∧ document.Ordered
              ∧ highlighter.texts document ≠ (scorer.values document).filterMap Json.asText?)
        ∧ (Path.withoutKeyword field = field → schema.SamePlaces field)
        ∧ (schema.copySources? field = none →
            schema.copySources? (Path.withoutKeyword field) = none →
              (schema.SamePlaces field
                ↔ Path.withoutKeyword (Path.withoutKeyword field) = Path.withoutKeyword field))
        ∧ (schema.copySources? field = none →
            ∀ sources, schema.copySources? (Path.withoutKeyword field) = some sources →
              (schema.SamePlaces field
                ↔ sources.map Path.withoutKeyword = [Path.withoutKeyword field])) := by
  rcases compile_of_target schema htarget with ⟨scorer, hscorer, hpaths, hscore⟩
  have hvalues : ∀ document, scorer.values document = schema.resolve document field := by
    intro document
    rw [Scorer.values, hpaths, Schema.resolve]
  refine ⟨scorer, _, hscorer, ofQuery?_of_target htarget heligible, hvalues,
    hscore, flatMap_snippetsAt _, fun hsame document => ?_, fun hdiffer => ?_,
    Schema.samePlaces_of_withoutKeyword_eq schema, Schema.samePlaces_iff_of_plain,
    fun hfield sources => Schema.samePlaces_iff_of_suffixed_target hfield⟩
  · -- The same places hold the same texts, and different places can be told apart by a document.
    rw [hvalues]
    exact Schema.textsOf_eq_of_endings hsame document
  · rcases Schema.exists_textsOf_ne hdiffer with ⟨document, hobject, hordered, hne⟩
    refine ⟨document, hobject, hordered, ?_⟩
    rw [hvalues]
    exact hne

/-- What a glob finds under a copy target is looked at to mark it, in every document. With the
    ending there is a document in which it is not. -/
theorem marks_scored_iff_all :
    (∃ scorer highlighter,
        (Query.wildcard "all" "D*").compile books = .ok scorer
          ∧ ofQuery? (.wildcard "all" "D*") { fields := ["all"] } books = some highlighter
          ∧ ∀ document,
              highlighter.texts document = (scorer.values document).filterMap Json.asText?)
      ∧ ∃ scorer highlighter,
        (Query.wildcard "all.keyword" "D*").compile books = .ok scorer
          ∧ ofQuery? (.wildcard "all.keyword" "D*") { fields := ["all.keyword"] } books
              = some highlighter
          ∧ ∃ document : Json, document.isObject = true ∧ document.Ordered
              ∧ highlighter.texts document ≠ (scorer.values document).filterMap Json.asText? := by
  constructor
  · rcases @marks_scored_iff (.wildcard "all" "D*") { fields := ["all"] } books "all"
        (Pattern.glob "D*" true) rfl (by decide)
      with ⟨scorer, highlighter, hscorer, hhighlighter, _, _, _, hsame, _, hplain, _⟩
    exact ⟨scorer, highlighter, hscorer, hhighlighter, hsame (hplain (by decide))⟩
  · rcases @marks_scored_iff (.wildcard "all.keyword" "D*") { fields := ["all.keyword"] } books
        "all.keyword" (Pattern.glob "D*" true) rfl (by decide)
      with ⟨scorer, highlighter, hscorer, hhighlighter, _, _, _, _, hdiffer, _⟩
    exact ⟨scorer, highlighter, hscorer, hhighlighter, hdiffer (by decide)⟩

end Highlighter

end DocSearch
