import DocSearch.Proofs.Relevance.Sums
import DocSearch.Proofs.Search.Found

/-!
# Forbidding a Query

Which documents are found if a query is all that is forbidden.

Forbidding a query should find what the query does not find. It never finds more: a document that
the query finds is turned away at once. But it can find less, because a clause that is let through
adds its score to the one point that there is without optional clauses, and that score can be
negative. Only a boost makes it so. A document that the query scores at minus one or less is found
neither way, and so is one whose score is no number.

So the two searches part those documents of an index between them that score above minus one.

## Main definitions

* `Query.negation`: The bool query that only forbids a query.

## Theorems

* `score_negation`: The score of a document when a query is forbidden.
* `low_boost_found_neither_way`: A document that is found neither way.
* `perm_finds_negation`: What the two searches of an index find together.
* `negation_complements`: Which documents are found one way, and none both ways.
-/

namespace DocSearch

open Number

namespace Query

/-- The bool query that only forbids a query. -/
def negation (query : Query) : Query := .boolean [] [query] [] []

/-- The negation of a query that compiles is compiled to one forbidden clause. -/
theorem compile_negation {schema : Schema} {query : Query} {scorer : Scorer}
    (h : compile schema query = .ok scorer) :
    compile schema query.negation = .ok (.boolean [] [scorer] [] []) :=
  compile_boolean_eq_ok_iff.mpr ⟨[], [scorer], [], [], rfl,
    compileAll_cons_eq_ok_iff.mpr ⟨scorer, [], h, rfl, rfl⟩, rfl, rfl, rfl⟩

/-- A document that scores is turned away, and every other one gets a point on top of its score. -/
theorem score_negation (scorer : Scorer) (document : Json) :
    Scorer.score document (.boolean [] [scorer] [] [])
      = if 0.0 < scorer.score document then 0.0 else 1.0 + scorer.score document := by
  have hgate : Scorer.GateShut document [] [scorer] [] ↔ 0.0 < scorer.score document := by
    simp [Scorer.GateShut]
  simp only [Scorer.score_boolean, hgate]
  rfl

/-- No document is found both ways. -/
theorem not_both_score (scorer : Scorer) (document : Json) :
    ¬ (0.0 < scorer.score document
      ∧ 0.0 < Scorer.score document (.boolean [] [scorer] [] [])) := by
  rintro ⟨hscores, hnegated⟩
  rw [score_negation, if_pos hscores] at hnegated
  exact Scorer.not_negative_zero hnegated

/-- A document is found one way exactly if the query scores it above minus one. -/
theorem either_scores_iff (scorer : Scorer) (document : Json) :
    (0.0 < scorer.score document ∨ 0.0 < Scorer.score document (.boolean [] [scorer] [] []))
      ↔ -1.0 < scorer.score document := by
  rw [score_negation]
  by_cases hscores : 0.0 < scorer.score document
  · exact iff_of_true (.inl hscores)
      (neg_one_lt_of_not_negative (not_negative_of_zero_lt hscores) (isNaN_of_zero_lt hscores))
  · rw [if_neg hscores, zero_lt_one_add_iff]
    exact or_iff_right hscores

/-! ### Two searches of an index -/

variable {index : Index} {query : Query} {scorer : Scorer}

/-- The documents that are found are those with a positive score, in the order in which they are
    stored. -/
theorem ids_finds (name : String) (h : compile index.schema query = .ok scorer) :
    (index.finds name query).map Hit.id
      = (index.documents.toList.filter fun entry => 0.0 < scorer.score entry.2).map Prod.fst := by
  simp only [Index.finds, h, List.map_map]
  rfl

-- What the two find of the documents above minus one is all that they find.
theorem perm_finds_negation (name : String) (h : compile index.schema query = .ok scorer) :
    ((index.finds name query ++ index.finds name query.negation).map Hit.id).Perm
      ((index.documents.toList.filter fun entry => -1.0 < scorer.score entry.2).map Prod.fst) := by
  rw [List.map_append, ids_finds name h, ids_finds name (compile_negation h), ← List.map_append]
  refine .map _ (.trans (.of_eq ?_)
    (List.filter_append_perm (fun entry => decide (0.0 < scorer.score entry.2)) _))
  -- A document is found by at most one of the two queries, and by one of them exactly when its
  -- score is above minus one.
  have hboth := fun entry : String × Json => not_both_score scorer entry.2
  have heither := fun entry : String × Json => either_scores_iff scorer entry.2
  rw [List.filter_filter, List.filter_filter]
  congr 1
  · refine List.filter_congr fun entry _ => ?_
    rw [← Bool.decide_and, decide_eq_decide, ← heither]
    exact (and_iff_left_of_imp Or.inl).symm
  · refine List.filter_congr fun entry _ => ?_
    rw [← decide_not, ← Bool.decide_and, decide_eq_decide, ← heither]
    have := hboth entry
    tauto

/-! ### Which documents are found -/

/-- A query that is asked with a negative boost, and a document that it scores at minus one. With
    the point for the rest of the bool query that makes zero, so the document is found neither
    way. -/
theorem low_boost_found_neither_way :
    let asked : Json := .obj [("term", .obj
      [("tag", .obj [("boost", .num (.integer (-1))), ("value", .str "x")])])]
    let schema : Schema := ⟨"books", [], []⟩
    let document : Json := .obj [("tag", .str "x")]
    let score (query : Query) : Option Float :=
      (query.compile schema).toOption.map (·.score document)
    ∃ query, ofJson asked = .ok query
      ∧ score query = some (-1.0) ∧ score query.negation = some 0.0
      ∧ ¬ (0.0 : Float) < -1.0 ∧ ¬ (0.0 : Float) < 0.0 := by
  refine ⟨_, rfl, ?_⟩
  decide

/-- No document is found by a query and by what forbids it, and one is found one way exactly if the
    query scores it above minus one. The two searches of an index part these documents between them.
    Where no boost in the query is negative, these are all documents whose score is a number. -/
theorem negation_complements {schema : Schema} (h : compile schema query = .ok scorer) :
    ∃ negated, compile schema query.negation = .ok negated
      ∧ (∀ document,
          ¬ (0.0 < scorer.score document ∧ 0.0 < negated.score document)
            ∧ ((0.0 < scorer.score document ∨ 0.0 < negated.score document)
              ↔ -1.0 < scorer.score document))
      ∧ (∀ (index : Index) (name : String), index.schema = schema →
          ((index.finds name query ++ index.finds name query.negation).map Hit.id).Perm
            ((index.documents.toList.filter fun entry =>
              -1.0 < scorer.score entry.2).map Prod.fst))
      ∧ ((∀ boost, query.HasBoost boost → ¬ boost < 0.0) →
          ∀ document, (scorer.score document).isNaN = false → -1.0 < scorer.score document) := by
  refine ⟨_, compile_negation h, fun document => ⟨not_both_score scorer document,
    either_scores_iff scorer document⟩, ?_, ?_⟩
  · rintro index name rfl
    exact perm_finds_negation name h
  · intro hboost document hnumber
    exact neg_one_lt_of_not_negative (not_negative_score document query schema scorer hboost h)
      hnumber

/-- With half the boost the document is found where the query is forbidden. -/
theorem negation_complements_half :
    let schema : Schema := ⟨"books", [], []⟩
    let document : Json := .obj [("tag", .str "x")]
    let query : Query := .term "tag" (.str "x") (-0.5)
    ∃ scorer negated, query.compile schema = .ok scorer
      ∧ query.negation.compile schema = .ok negated
      ∧ ¬ 0.0 < scorer.score document ∧ 0.0 < negated.score document := by
  intro schema document query
  have hscorer : query.compile schema = .ok (.terms [.str "x"] (-0.5) ["tag"]) := rfl
  obtain ⟨negated, hnegated, hfinds, _⟩ := negation_complements hscorer
  have hlow : ¬ 0.0 < Scorer.score document (.terms [.str "x"] (-0.5) ["tag"]) := by decide
  have hhigh : -1.0 < Scorer.score document (.terms [.str "x"] (-0.5) ["tag"]) := by decide
  exact ⟨_, negated, hscorer, hnegated, hlow,
    ((hfinds document).2.mpr hhigh).resolve_left hlow⟩

end Query

end DocSearch
