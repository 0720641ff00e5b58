import DocSearch.Proofs.Document.Endings
import DocSearch.Relevance.Compile

/-!
# Questions to One Field

What a query that names a single field depends on, and whether its answer changes with a `.keyword`
ending put on the field.

Five of the six questions ask for values. Once the schema has said where the values of a field
are found, they are answered from those values alone, and in saying so the schema takes the ending
off. So a field that does not have the ending already may gain it, copy target or not, and no
score changes.

The sixth question is whether a field is there. It is answered from the objects around the leaf and
asks the schema for nothing but nested fields. To it the ending is one more member name, and it
looks for a member called `keyword` inside the field. A document that has the field and no such
member tells the two apart. Only where the field is mapped as nested with the ending and without
is there nothing to tell, because then no document scores.

## Main definitions

* `FieldQuestion`: What can be asked of one field.
* `FieldQuestion.on`: The query that asks it.
* `FieldQuestion.KeepsScore`: Putting the ending on a field changes no score.

## Theorems

* `score_of_asksValues`: Values are all that counts to a question that asks for them.
* `score_present`: Whether a field is there is asked of the document only.
* `scoreExists_append_keyword`: With the ending, a member called `keyword` is looked for.
* `present_misses_subfield`: The ending can hide a field that is there.
* `subfield_scores_iff`: Which questions the ending leaves as they are.
-/

namespace DocSearch

namespace Schema

/-- A field and the field with the ending put on it are read at the same paths. -/
theorem readPaths_append_keyword (schema : Schema) {field : String}
    (h : ¬ Path.EndsInKeyword field) :
    schema.readPaths (field ++ Path.keywordEnding) = schema.readPaths field := by
  rw [readPaths, readPaths, Path.withoutKeyword_append, Path.withoutKeyword_of_not_endsInKeyword h]

/-- A field and the field with the ending put on it have the same values. -/
theorem resolve_append_keyword (schema : Schema) {field : String} (h : ¬ Path.EndsInKeyword field)
    (document : Json) :
    schema.resolve document (field ++ Path.keywordEnding) = schema.resolve document field := by
  rw [resolve, resolve, readPaths_append_keyword schema h]

end Schema

/-- What can be asked of one field, whichever it is. -/
inductive FieldQuestion where
  | words (text : Option String)
  | wildcard (pattern : String)
  | term (value : Json) (boost : Float)
  | terms (values : List Json) (boost : Float)
  | range (bounds : Bounds)
  | present

namespace FieldQuestion

/-- The query that asks a question of a field. -/
def on (field : String) : FieldQuestion → Query
  | .words text => .words field text
  | .wildcard pattern => .wildcard field pattern
  | .term value boost => .term field value boost
  | .terms values boost => .terms field values boost
  | .range bounds => .range field bounds
  | .present => .fieldExists field

/-- Whether a question is about the values of a field, and not about its being there. -/
def asksValues : FieldQuestion → Bool
  | .present => false
  | _ => true

/-- Putting the ending on a field changes no score. It does not where values are asked for, and it
    does not where being there never scores. -/
def KeepsScore (question : FieldQuestion) (schema : Schema) (field : String) : Prop :=
  question.asksValues = true
    ∨ schema.isNested field = true ∧ schema.isNested (field ++ Path.keywordEnding) = true

instance (question : FieldQuestion) (schema : Schema) (field : String) :
    Decidable (question.KeepsScore schema field) :=
  inferInstanceAs (Decidable (_ ∨ _))

/-! ### Values -/

/-- A question about values is answered from the values of its field by a rule that knows neither
    the field nor the schema. -/
theorem score_of_asksValues {question : FieldQuestion} (h : question.asksValues = true) :
    ∃ scoreOf : List Json → Float, ∀ (schema : Schema) (field : String),
      ∃ scorer, (question.on field).compile schema = .ok scorer
        ∧ ∀ document, scorer.score document = scoreOf (schema.resolve document field) := by
  -- For each kind of question the score is written down as a function of the values, the one that
  -- it is compiled to.
  cases question with
  | words text =>
    refine ⟨fun values => if ((text.map tokenize).getD []).isEmpty then 0.0
      else Scorer.scoreWords ((text.map tokenize).getD []) values, fun schema field => ?_⟩
    rw [on, Query.compile]
    refine ⟨_, rfl, fun document => ?_⟩
    rw [Scorer.score]
    rfl
  | wildcard pattern =>
    refine ⟨Scorer.scoreWildcard (Pattern.glob pattern true), fun schema field => ?_⟩
    rw [on, Query.compile]
    refine ⟨_, rfl, fun document => ?_⟩
    rw [Scorer.score]
    rfl
  | term value boost =>
    refine ⟨Scorer.scoreTerms (if value.isNull then [] else [value]) boost,
      fun schema field => ?_⟩
    rw [on, Query.compile]
    refine ⟨_, rfl, fun document => ?_⟩
    rw [Scorer.score]
    rfl
  | terms values boost =>
    refine ⟨Scorer.scoreTerms values boost, fun schema field => ?_⟩
    rw [on, Query.compile]
    refine ⟨_, rfl, fun document => ?_⟩
    rw [Scorer.score]
    rfl
  | range bounds =>
    -- Bounds that are no numbers leave nothing to ask, whatever the field.
    cases hlimits : Query.limits? bounds with
    | none =>
      refine ⟨fun _ => 0.0, fun schema field => ?_⟩
      rw [on, Query.compile, hlimits]
      refine ⟨_, rfl, fun document => ?_⟩
      rw [Scorer.score]
    | some limits =>
      refine ⟨Scorer.scoreRange limits, fun schema field => ?_⟩
      rw [on, Query.compile, hlimits]
      refine ⟨_, rfl, fun document => ?_⟩
      rw [Scorer.score]
      rfl
  | present => exact absurd h (by simp [asksValues])

/-! ### Being there -/

/-- Whether a field is there is asked of the document only, unless the field is mapped as nested. -/
theorem score_present (schema : Schema) (field : String) :
    ∃ scorer, (present.on field).compile schema = .ok scorer
      ∧ ∀ document, scorer.score document
          = if schema.isNested field = true then 0.0 else Scorer.scoreExists field document := by
  rw [on, Query.compile]
  by_cases h : schema.isNested field = true
  · rw [if_pos h]
    refine ⟨_, rfl, fun document => ?_⟩
    rw [Scorer.score, if_pos h]
  · rw [if_neg h]
    refine ⟨_, rfl, fun document => ?_⟩
    rw [Scorer.score, if_neg h]

/-- With the ending, the objects that a field leads to are counted, those that have a member
    called `keyword`. -/
theorem scoreExists_append_keyword (field : String) (document : Json) :
    Scorer.scoreExists (field ++ Path.keywordEnding) document
      = Scorer.ofCount (((Path.elementsAt (Path.segments field) document).flatMap
          Path.objectsOf).filter fun parent => (parent.get? "keyword").isSome).length := by
  simp only [Scorer.scoreExists, Path.leafName_append_keyword, Path.parentsOfLeaf_append_keyword]

/-- In a line of its names a field is there once. -/
theorem scoreExists_line (field : String) :
    Scorer.scoreExists field (Path.line (Path.segments field) .null) = 1.0 := by
  have hmember : ((Json.obj [(Path.leafName field, .null)]).get? (Path.leafName field)).isSome
      = true := by
    simp [Json.get?, Keyed.get?]
  have hone : Scorer.ofCount 1 = 1.0 := by decide
  simp only [Scorer.scoreExists, Path.parentsOfLeaf_line, List.filter_cons_of_pos, hmember,
    List.filter_nil, List.length_singleton, hone]

/-- There is nothing inside it. -/
theorem scoreExists_append_keyword_line (field : String) :
    Scorer.scoreExists (field ++ Path.keywordEnding) (Path.line (Path.segments field) .null)
      = 0.0 := by
  have hnone : Scorer.ofCount 0 = 0.0 := by decide
  rw [scoreExists_append_keyword, Path.elementsAt_line]
  exact hnone

/-- Unless no document scores with the ending and without, there is one that tells them apart. -/
theorem exists_score_present_ne {schema : Schema} {field : String} {parent sub : Scorer}
    (hparent : ∀ document, parent.score document
      = if schema.isNested field = true then 0.0 else Scorer.scoreExists field document)
    (hsub : ∀ document, sub.score document
      = if schema.isNested (field ++ Path.keywordEnding) = true then 0.0
        else Scorer.scoreExists (field ++ Path.keywordEnding) document)
    (h : ¬ (schema.isNested field = true
      ∧ schema.isNested (field ++ Path.keywordEnding) = true)) :
    ∃ document : Json, document.isObject = true ∧ document.Ordered
      ∧ sub.score document ≠ parent.score document := by
  by_cases hnested : schema.isNested field = true
  · -- The field itself never scores, and a line that goes on to the member does.
    have hsubNested : ¬ schema.isNested (field ++ Path.keywordEnding) = true :=
      fun hboth => h ⟨hnested, hboth⟩
    refine ⟨Path.line (Path.segments (field ++ Path.keywordEnding)) .null,
      Path.isObject_line (Path.segments_ne_nil _) _, Path.ordered_line _ .null, ?_⟩
    rw [hsub, hparent, if_pos hnested, if_neg hsubNested, scoreExists_line]
    decide
  · -- A line that ends with the field has no member inside it.
    refine ⟨Path.line (Path.segments field) .null,
      Path.isObject_line (Path.segments_ne_nil _) _, Path.ordered_line _ .null, ?_⟩
    have hzero : sub.score (Path.line (Path.segments field) .null) = 0.0 := by
      rw [hsub, scoreExists_append_keyword_line, ite_self]
    rw [hzero, hparent, if_neg hnested, scoreExists_line]
    decide

/-- Books with a title. -/
def titles : Schema := ⟨"books", [("title", ⟨.text, []⟩)], []⟩

/-- A title is there and is not there with the ending, although both have the same value. -/
theorem present_misses_subfield :
    let document : Json := .obj [("title", .str "Dune")]
    let score (question : FieldQuestion) (field : String) : Option Float :=
      ((question.on field).compile titles).toOption.map (·.score document)
    ¬ Path.EndsInKeyword "title"
      ∧ score present "title" = some 1.0 ∧ score present "title.keyword" = some 0.0
      ∧ score (.term (.str "Dune") 1.0) "title" = some 1.0
      ∧ score (.term (.str "Dune") 1.0) "title.keyword" = some 1.0 := by
  decide

/-- Every question can be asked of every field. A field without the ending may gain it, and all
    documents score as before exactly if values are asked for, or if the field is mapped as nested
    in both forms. Otherwise there is a document that scores differently. -/
theorem subfield_scores_iff (schema : Schema) {field : String}
    (hfield : ¬ Path.EndsInKeyword field) (question : FieldQuestion) :
    ∃ parent sub, (question.on field).compile schema = .ok parent
      ∧ (question.on (field ++ Path.keywordEnding)).compile schema = .ok sub
      ∧ (question.KeepsScore schema field →
          ∀ document, sub.score document = parent.score document)
      ∧ (¬ question.KeepsScore schema field →
          ∃ document : Json, document.isObject = true ∧ document.Ordered
            ∧ sub.score document ≠ parent.score document) := by
  -- Questions about values have one score for both paths. Only a question about presence looks at
  -- the path itself.
  by_cases hvalues : question.asksValues = true
  · rcases score_of_asksValues hvalues with ⟨scoreOf, hscore⟩
    rcases hscore schema field with ⟨parent, hparent, hparentScore⟩
    rcases hscore schema (field ++ Path.keywordEnding) with ⟨sub, hsub, hsubScore⟩
    refine ⟨parent, sub, hparent, hsub, fun _ document => ?_, fun h => absurd (Or.inl hvalues) h⟩
    rw [hsubScore, hparentScore, Schema.resolve_append_keyword schema hfield]
  · have hpresent : question = present := by
      cases question with
      | present => rfl
      | _ => exact absurd rfl hvalues
    rw [hpresent]
    rcases score_present schema field with ⟨parent, hparent, hparentScore⟩
    rcases score_present schema (field ++ Path.keywordEnding) with ⟨sub, hsub, hsubScore⟩
    refine ⟨parent, sub, hparent, hsub, fun h document => ?_, fun h => ?_⟩
    · rcases h.resolve_left (by simp [asksValues]) with ⟨hnested, hsubNested⟩
      rw [hsubScore, hparentScore, if_pos hnested, if_pos hsubNested]
    · exact exists_score_present_ne hparentScore hsubScore fun hboth => h (Or.inr hboth)

/-- A glob finds the same titles with the ending and without, in every document. Being there is
    told apart by some document. -/
theorem subfield_scores_iff_titles :
    ¬ Path.EndsInKeyword "title"
      ∧ (∃ parent sub, (Query.wildcard "title" "D*").compile titles = .ok parent
          ∧ (Query.wildcard "title.keyword" "D*").compile titles = .ok sub
          ∧ ∀ document, sub.score document = parent.score document)
      ∧ ∃ parent sub, (Query.fieldExists "title").compile titles = .ok parent
          ∧ (Query.fieldExists "title.keyword").compile titles = .ok sub
          ∧ ∃ document : Json, document.isObject = true ∧ document.Ordered
            ∧ sub.score document ≠ parent.score document := by
  refine ⟨by decide, ?_, ?_⟩
  · rcases subfield_scores_iff titles (by decide : ¬ Path.EndsInKeyword "title") (.wildcard "D*")
      with ⟨parent, sub, hparent, hsub, hkeeps, _⟩
    exact ⟨parent, sub, hparent, hsub, hkeeps (by decide)⟩
  · rcases subfield_scores_iff titles (by decide : ¬ Path.EndsInKeyword "title") present
      with ⟨parent, sub, hparent, hsub, _, hdiffers⟩
    exact ⟨parent, sub, hparent, hsub, hdiffers (by decide)⟩

end FieldQuestion

end DocSearch
