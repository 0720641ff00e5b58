import DocSearch.Proofs.Number.Zeros
import DocSearch.Proofs.Relevance.Sums
import DocSearch.Query.Reader

/-!
# Any of Several Queries

When a bool query of optional clauses scores nothing.

Such a query has no gate and no point of its own, so its score is the sum of the scores of its
clauses. It should be zero exactly if all of them are: a document is found by any of several queries
if one of them finds it.

That holds as long as the sum is not taken of scores with different signs. Doubles on one side of
zero do not cancel, however large or small they are and in whatever order they come, and what is no
number stays none. But one clause above zero and another below it can add up to zero, and then the
document is lost although both clauses score. Only a negative boost puts a clause below zero.

## Main definitions

* `Query.anyOf`: The bool query of some optional clauses.
* `Scorer.Opposed`: Two clauses have scores with different signs.

## Theorems

* `sum_eq_zero_iff`: On one side of zero a sum is zero only if everything in it is.
* `score_optional`: The score of a document under optional clauses.
* `opposed_clauses_cancel`: Two clauses that score and cancel.
* `any_of_zero_iff`: When the score is zero.
-/

namespace DocSearch

open Number

namespace Scorer

open Float.Model.UnpackedFloat in
-- By induction on the scores. What has been added up so far is on the same side as they are.
theorem sum_eq_zero_iff {s : Sign} {scores : List Float} (h : ∀ score ∈ scores, OnSide s score)
    {start : Float} (hstart : OnSide s start) :
    sum start scores == 0.0 ↔ start == 0.0 ∧ ∀ score ∈ scores, score == 0.0 := by
  induction scores generalizing start with
  | nil => simp [sum]
  | cons score rest ih =>
    rw [List.forall_mem_cons] at h
    rw [sum, List.foldl_cons, ← sum, ih h.2 (hstart.add h.1), List.forall_mem_cons, ← and_assoc]
    refine and_congr_left' ?_
    rw [beq_zero_iff, beq_zero_iff, beq_zero_iff]
    exact hstart.add_eq_zero_iff h.1

variable {document : Json}

/-- Optional clauses alone have no gate, and their scores are added up from zero. -/
theorem score_optional {should : List Scorer} (h : should ≠ []) :
    (Scorer.boolean [] [] should []).score document
      = sum 0.0 (should.map (Scorer.score document)) := by
  have hopen : ¬ GateShut document [] [] [] := by simp [GateShut]
  have hsome : should.isEmpty = false := by simpa using h
  rw [score_boolean, if_neg hopen, hsome]
  rfl

/-- Some clause scores above zero and another one below. -/
def Opposed (document : Json) (scorers : List Scorer) : Prop :=
  (∃ scorer ∈ scorers, 0.0 < scorer.score document)
    ∧ ∃ scorer ∈ scorers, scorer.score document < 0.0

instance (document : Json) (scorers : List Scorer) : Decidable (Opposed document scorers) :=
  inferInstanceAs (Decidable (_ ∧ _))

/-- Where no two clauses have different signs, the score is zero exactly if all clauses score
    zero. -/
theorem score_optional_zero_iff {should : List Scorer} (h : should ≠ [])
    (hside : ¬ Opposed document should) :
    (Scorer.boolean [] [] should []).score document == 0.0
      ↔ ∀ scorer ∈ should, scorer.score document == 0.0 := by
  have hzero : (0.0 : Float) == 0.0 := rfl
  rw [score_optional h]
  -- All scores are on one side of zero, and no sum comes back to zero from there.
  by_cases hnegative : ∃ scorer ∈ should, scorer.score document < 0.0
  · have hscores : ∀ score ∈ should.map (Scorer.score document), OnSide .negative score := by
      intro score hmem
      obtain ⟨scorer, hscorer, rfl⟩ := List.mem_map.mp hmem
      exact fun hpositive => hside ⟨⟨scorer, hscorer, hpositive⟩, hnegative⟩
    rw [sum_eq_zero_iff hscores not_negative_zero, and_iff_right hzero, List.forall_mem_map]
  · have hscores : ∀ score ∈ should.map (Scorer.score document), OnSide .positive score := by
      intro score hmem
      obtain ⟨scorer, hscorer, rfl⟩ := List.mem_map.mp hmem
      exact fun hbelow => hnegative ⟨scorer, hscorer, hbelow⟩
    rw [sum_eq_zero_iff hscores not_negative_zero, and_iff_right hzero, List.forall_mem_map]

end Scorer

namespace Query

/-- The bool query of some optional clauses. -/
def anyOf (queries : List Query) : Query := .boolean [] [] queries []

variable {schema : Schema} {queries : List Query} {scorer : Scorer}

/-- A query for any of some queries compiles if all of them do. -/
theorem compile_anyOf_eq_ok_iff :
    compile schema (anyOf queries) = .ok scorer
      ↔ ∃ clauses, compileAll schema queries = .ok clauses
        ∧ scorer = .boolean [] [] clauses [] := by
  rw [anyOf, compile_boolean_eq_ok_iff]
  constructor
  · rintro ⟨musts, mustNots, shoulds, filters, hmusts, hmustNots, hshoulds, hfilters, rfl⟩
    rw [compileAll] at hmusts hmustNots hfilters
    rw [← Except.ok.inj hmusts, ← Except.ok.inj hmustNots, ← Except.ok.inj hfilters]
    exact ⟨shoulds, hshoulds, rfl⟩
  · rintro ⟨clauses, hclauses, rfl⟩
    exact ⟨[], [], clauses, [], rfl, rfl, hclauses, rfl, rfl⟩

/-- A tag that is asked for twice, the second time with a negative boost. Both clauses score, and
    the document that has the tag is not found. -/
theorem opposed_clauses_cancel :
    let asked : Json := .obj [("bool", .obj [("should", .arr
      [.obj [("term", .obj [("tag", .str "x")])],
       .obj [("term", .obj
         [("tag", .obj [("boost", .num (.integer (-1))), ("value", .str "x")])])]])])]
    let schema : Schema := ⟨"books", [], []⟩
    let document : Json := .obj [("tag", .str "x")]
    ∃ queries scorer clauses, queries ≠ [] ∧ ofJson asked = .ok (anyOf queries)
      ∧ compile schema (anyOf queries) = .ok scorer ∧ compileAll schema queries = .ok clauses
      ∧ scorer.score document = 0.0 ∧ clauses.map (Scorer.score document) = [1.0, -1.0]
      ∧ ¬ (1.0 : Float) == 0.0 ∧ ¬ (-1.0 : Float) == 0.0 := by
  refine ⟨[.term "tag" (.str "x") 1.0, .term "tag" (.str "x") (-1.0)], _, _, by simp, rfl, rfl, rfl,
    ?_⟩
  decide

/-- A bool query of optional clauses scores zero exactly if all clauses do, on every document on
    which no clause scores above zero while another one scores below. There is no such document if
    no boost in the query is negative. -/
theorem any_of_zero_iff (hsome : queries ≠ [])
    (h : compile schema (anyOf queries) = .ok scorer) :
    ∃ clauses, compileAll schema queries = .ok clauses
      ∧ (∀ document, ¬ Scorer.Opposed document clauses →
          (scorer.score document == 0.0 ↔ ∀ clause ∈ clauses, clause.score document == 0.0))
      ∧ ((∀ boost, (anyOf queries).HasBoost boost → ¬ boost < 0.0) →
          ∀ document, ¬ Scorer.Opposed document clauses) := by
  rcases compile_anyOf_eq_ok_iff.mp h with ⟨clauses, hclauses, rfl⟩
  have hclausesSome : clauses ≠ [] := by
    rintro rfl
    have hempty := isEmpty_of_compileAll hclauses
    exact hsome (List.isEmpty_iff.mp hempty.symm)
  refine ⟨clauses, hclauses, ?_, ?_⟩
  · intro document hside
    exact Scorer.score_optional_zero_iff hclausesSome hside
  · rintro hboost document ⟨-, clause, hmem, hnegative⟩
    have hnotNegative := not_negative_scores document queries schema clauses
      (fun query hquery boost hin => hboost boost (.clause (by simp) hquery hin)) hclauses
    exact hnotNegative clause hmem hnegative

/-- A book is found by its tag with a boost, or by its shelf below a bool query that has a gate. -/
theorem any_of_zero_iff_shelf :
    let schema : Schema := ⟨"books", [], []⟩
    let queries : List Query := [.term "tag" (.str "x") 0.5,
      .boolean [.term "shelf" (.str "B4") 2.0] [] [] [.fieldExists "tag"]]
    ∃ scorer, queries ≠ [] ∧ compile schema (anyOf queries) = .ok scorer
      ∧ scorer.score (.obj [("tag", .str "y")]) == 0.0
      ∧ ¬ scorer.score (.obj [("shelf", .str "B4"), ("tag", .str "y")]) == 0.0 := by
  intro schema queries
  have hsome : queries ≠ [] := by simp [queries]
  have hscorer : compile schema (anyOf queries) = .ok _ := rfl
  rcases any_of_zero_iff hsome hscorer with ⟨clauses, hclauses, hzero, -⟩
  rw [← Except.ok.inj hclauses] at hzero
  refine ⟨_, hsome, hscorer, ?_, ?_⟩
  · exact (hzero _ (by decide)).mpr (by decide)
  · exact fun hfound => absurd ((hzero _ (by decide)).mp hfound) (by decide)

end Query

end DocSearch
