import DocSearch.Proofs.Relevance.Gates
import DocSearch.Proofs.Relevance.Weights

/-!
# Scores That Are Not Negative

Scores are sums of weights and counts, and of these only a boost can be negative. So a query without
a negative boost anywhere never has a negative score, and in a sum of scores that are not negative
nothing can cancel: the sum is positive exactly if one of them is and all of them are numbers.

## Main definitions

* `Query.HasBoost`: A boost stands somewhere in a query.

## Theorems

* `zero_lt_sum_iff`: When a sum of scores is positive.
* `not_negative_score`: Without a negative boost no score is negative.
-/

namespace DocSearch

open Number

namespace Scorer

/-! ### Sums -/

-- Sums, counts and single scores that are not negative.
theorem not_negative_sum {scores : List Float} (h : ∀ score ∈ scores, ¬ score < 0.0)
    {start : Float} (hstart : ¬ start < 0.0) : ¬ Scorer.sum start scores < 0.0 := by
  induction scores generalizing start with
  | nil => exact hstart
  | cons score rest ih =>
    rw [List.forall_mem_cons] at h
    exact ih h.2 (not_negative_add hstart h.1)

-- By induction on the scores. What has been added up so far is not negative either.
theorem zero_lt_sum_from_iff {scores : List Float} (h : ∀ score ∈ scores, ¬ score < 0.0)
    {start : Float} (hstart : ¬ start < 0.0) :
    0.0 < Scorer.sum start scores
      ↔ (start.isNaN = false ∧ ∀ score ∈ scores, score.isNaN = false)
        ∧ (0.0 < start ∨ ∃ score ∈ scores, 0.0 < score) := by
  induction scores generalizing start with
  | nil => simpa [Scorer.sum] using isNaN_of_zero_lt
  | cons score rest ih =>
    rw [List.forall_mem_cons] at h
    rw [Scorer.sum, List.foldl_cons, ← Scorer.sum, ih h.2 (not_negative_add hstart h.1),
      isNaN_add hstart h.1, zero_lt_add_iff hstart h.1, List.forall_mem_cons,
      List.exists_mem_cons_iff]
    constructor
    · rintro ⟨⟨⟨hstart, hscore⟩, hrest⟩, ⟨-, hpos⟩ | hpos⟩
      · exact ⟨⟨hstart, hscore, hrest⟩, or_assoc.mp (.inl hpos)⟩
      · exact ⟨⟨hstart, hscore, hrest⟩, .inr (.inr hpos)⟩
    · rintro ⟨⟨hstart, hscore, hrest⟩, hpos⟩
      exact ⟨⟨⟨hstart, hscore⟩, hrest⟩, (or_assoc.mpr hpos).imp_left fun hpos =>
        ⟨⟨hstart, hscore⟩, hpos⟩⟩

theorem not_negative_zero : ¬ (0.0 : Float) < 0.0 := by decide

/-- A sum of scores that are not negative is positive if one of them is, unless one of them is no
    number. -/
theorem zero_lt_sum_iff {scores : List Float} (h : ∀ score ∈ scores, ¬ score < 0.0) :
    0.0 < Scorer.sum 0.0 scores
      ↔ (∃ score ∈ scores, 0.0 < score) ∧ ∀ score ∈ scores, score.isNaN = false := by
  have hnumber : (0.0 : Float).isNaN = false := rfl
  rw [zero_lt_sum_from_iff h not_negative_zero]
  simp only [hnumber, not_negative_zero, true_and, false_or, and_comm]

/-! ### Leaves -/

theorem not_negative_ofCount (count : Nat) : ¬ Scorer.ofCount count < 0.0 :=
  (unsigned_ofNat count).not_negative

/-- A count is positive as a score if it is positive. -/
theorem zero_lt_ofCount_iff {count : Nat} : 0.0 < Scorer.ofCount count ↔ 0 < count := by
  refine ⟨fun h => Nat.pos_of_ne_zero fun hzero => ?_, zero_lt_ofNat⟩
  rw [hzero] at h
  exact not_negative_zero h

/-- The score of words is a sum of weights. -/
theorem not_negative_scoreWords (tokens : List String) (values : List Json) :
    ¬ scoreWords tokens values < 0.0 := by
  refine not_negative_sum (fun score hmem => ?_) not_negative_zero
  obtain ⟨text, _, hshared⟩ := List.mem_flatMap.mp hmem
  exact not_negative_of_mem_sharedWeights hshared

/-- Single matches score one or a loose match. -/
theorem not_negative_of_mem_matchScores {wanted : List Json} {found : Scalar} {score : Float}
    (h : score ∈ matchScores wanted found) : ¬ score < 0.0 := by
  have hexact : ¬ exactMatch < 0.0 := by decide
  have hloose : ¬ looseMatch < 0.0 := by decide
  obtain ⟨value, _, hvalue⟩ := List.mem_filterMap.mp h
  split_ifs at hvalue with hsame htext
  · rw [← Option.some.inj hvalue]
    exact hexact
  · rw [← Option.some.inj hvalue]
    exact hloose

-- The sum is not negative, so only the boost could make the score so.
theorem not_negative_scoreTerms (wanted : List Json) {boost : Float} (h : ¬ boost < 0.0)
    (values : List Json) : ¬ scoreTerms wanted boost values < 0.0 := by
  rw [scoreTerms]
  by_cases hnone : wanted.isEmpty = true
  · rw [if_pos hnone]
    exact not_negative_zero
  · rw [if_neg hnone]
    refine not_negative_mul (not_negative_sum (fun score hmem => ?_) not_negative_zero) h
    obtain ⟨found, _, hfound⟩ := List.mem_flatMap.mp hmem
    exact not_negative_of_mem_matchScores hfound

/-! ### Bool queries -/

variable {document : Json}

/-- A compound query adds the scores of its clauses, so it is not negative if none of them is. The
    clauses of the filter do not count. -/
theorem not_negative_boolean {must mustNot should : List Scorer} (filter : List Scorer)
    (hmust : ∀ scorer ∈ must, ¬ scorer.score document < 0.0)
    (hmustNot : ∀ scorer ∈ mustNot, ¬ scorer.score document < 0.0)
    (hshould : ∀ scorer ∈ should, ¬ scorer.score document < 0.0) :
    ¬ (Scorer.boolean must mustNot should filter).score document < 0.0 := by
  have hbase : ¬ (if should.isEmpty then 1.0 else 0.0 : Float) < 0.0 := by
    split <;> decide
  rw [score_boolean]
  by_cases hshut : GateShut document must mustNot filter
  · rw [if_pos hshut]
    exact not_negative_zero
  · rw [if_neg hshut]
    refine not_negative_sum ?_ hbase
    simp only [List.forall_mem_map, List.forall_mem_append]
    exact ⟨⟨hmust, hmustNot⟩, hshould⟩

end Scorer

namespace Query

/-- A boost stands somewhere in a query. -/
inductive HasBoost : Query → Float → Prop where
  | term (field : String) (value : Json) (boost : Float) : HasBoost (.term field value boost) boost
  | terms (field : String) (values : List Json) (boost : Float) :
      HasBoost (.terms field values boost) boost
  | nested {path : String} {query : Query} {boost : Float} (h : HasBoost query boost) :
      HasBoost (.nested path query) boost
  | clause {must mustNot should filter queries : List Query} {query : Query} {boost : Float}
      (hlist : queries ∈ [must, mustNot, should, filter]) (hmem : query ∈ queries)
      (h : HasBoost query boost) : HasBoost (.boolean must mustNot should filter) boost

mutual

/-- A query without a negative boost has no negative score. -/
theorem not_negative_score (document : Json) :
    ∀ (query : Query) (schema : Schema) (scorer : Scorer),
      (∀ boost, query.HasBoost boost → ¬ boost < 0.0) → compile schema query = .ok scorer →
      ¬ scorer.score document < 0.0
  | .all, _, _, _, h => by
    rw [compile] at h
    rw [← Except.ok.inj h, Scorer.score]
    decide
  | .unsupported _, _, _, _, h => by
    rw [compile] at h
    rw [← Except.ok.inj h, Scorer.score]
    exact Scorer.not_negative_zero
  | .words _ _, _, _, _, h => by
    rw [compile] at h
    rw [← Except.ok.inj h, Scorer.score]
    split
    · exact Scorer.not_negative_zero
    · exact Scorer.not_negative_scoreWords _ _
  | .wildcard _ _, _, _, _, h => by
    rw [compile] at h
    rw [← Except.ok.inj h, Scorer.score]
    exact Scorer.not_negative_ofCount _
  | .term _ _ _, _, _, hboost, h => by
    rw [compile] at h
    rw [← Except.ok.inj h, Scorer.score]
    exact Scorer.not_negative_scoreTerms _ (hboost _ (.term ..)) _
  | .terms _ _ _, _, _, hboost, h => by
    rw [compile] at h
    rw [← Except.ok.inj h, Scorer.score]
    exact Scorer.not_negative_scoreTerms _ (hboost _ (.terms ..)) _
  | .fieldExists field, schema, _, _, h => by
    rw [compile] at h
    split at h
    · rw [← Except.ok.inj h, Scorer.score]
      exact Scorer.not_negative_zero
    · rw [← Except.ok.inj h, Scorer.score]
      exact Scorer.not_negative_ofCount _
  | .range _ bounds, _, _, _, h => by
    rw [compile] at h
    split at h
    · rw [← Except.ok.inj h, Scorer.score]
      exact Scorer.not_negative_ofCount _
    · rw [← Except.ok.inj h, Scorer.score]
      exact Scorer.not_negative_zero
  -- A nested query scores what its inner query does, under the schema inside its scope.
  | .nested path query, schema, scorer, hboost, h =>
    not_negative_score document query _ scorer (fun boost hin => hboost boost (.nested hin))
      (compile_nested_eq_ok_iff.mp h).2
  -- Each clause has the boosts of its queries among the boosts of the whole.
  | .boolean must mustNot should filter, schema, scorer, hboost, h => by
    rcases compile_boolean_eq_ok_iff.mp h with
      ⟨musts, mustNots, shoulds, filters, hmusts, hmustNots, hshoulds, _, rfl⟩
    refine Scorer.not_negative_boolean filters ?_ ?_ ?_
    · exact not_negative_scores document must schema musts
        (fun query hmem boost hin => hboost boost (.clause (by simp) hmem hin)) hmusts
    · exact not_negative_scores document mustNot schema mustNots
        (fun query hmem boost hin => hboost boost (.clause (by simp) hmem hin)) hmustNots
    · exact not_negative_scores document should schema shoulds
        (fun query hmem boost hin => hboost boost (.clause (by simp) hmem hin)) hshoulds

-- The lists of clauses are gone through along with the queries in them.
theorem not_negative_scores (document : Json) :
    ∀ (queries : List Query) (schema : Schema) (scorers : List Scorer),
      (∀ query ∈ queries, ∀ boost, query.HasBoost boost → ¬ boost < 0.0) →
      compileAll schema queries = .ok scorers → ∀ scorer ∈ scorers, ¬ scorer.score document < 0.0
  | [], _, scorers, _, h => by
    rw [compileAll] at h
    rw [← Except.ok.inj h]
    exact fun _ hmem => absurd hmem List.not_mem_nil
  | query :: rest, schema, scorers, hboost, h => by
    rw [List.forall_mem_cons] at hboost
    rcases compileAll_cons_eq_ok_iff.mp h with ⟨scorer, others, hscorer, hothers, rfl⟩
    rw [List.forall_mem_cons]
    exact ⟨not_negative_score document query schema scorer hboost.1 hscorer,
      not_negative_scores document rest schema others hboost.2 hothers⟩

end

end Query

end DocSearch
