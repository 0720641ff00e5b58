import DocSearch.Proofs.Relevance.Compile
import Mathlib.Data.List.Perm.Basic

/-!
# Gates of Bool Queries

What a bool query scores, whatever its clauses are.

Three of the four lists can turn a document away: a filter or a required clause that does not score
shuts a gate, and so does a forbidden clause that scores. The lists are walked one after another and
the walk stops at the first clause that shuts one, with a total that has grown on the way. Nothing
of this can be seen from outside. Behind a shut gate the score is zero, wherever the clause stands,
and behind open gates it is the sum of everything but the filters.

A score that is no number shuts no gate, because it is neither above zero nor at zero or below. So
"does not score" has to be said with the comparison that the walk makes, and not with its opposite.

That a filter counts nothing follows. Filters take part in the gates only, and a gate does not ask
for an order, so they may change places. A filter that is added anywhere turns away the documents it
does not score and leaves every other score alone.

## Main definitions

* `Scorer.GateShut`: A clause turns a document away.

## Theorems

* `passesAll_iff`, `addRequired_eq`, `addForbidden_eq`, `addOptional_eq`: What each walk comes to.
* `score_boolean`: The score of a bool query.
* `score_boolean_of_perm`: Filters may change places.
* `score_boolean_cons`: One more filter.
* `compileAll_eq_ok_iff`: The scorers of some queries, one by one.
* `bool_scores_behind_gates`: The same for queries.
-/

namespace DocSearch

namespace Scorer

variable {document : Json}

/-! ### The walks -/

/-- A filter is passed if none of its clauses scores zero or less. What is no number passes. -/
theorem passesAll_iff (filter : List Scorer) :
    passesAll document filter = true ↔ ∀ scorer ∈ filter, ¬ scorer.score document ≤ 0.0 := by
  induction filter with
  | nil => simp [passesAll]
  | cons scorer rest ih =>
    rw [passesAll, List.forall_mem_cons]
    by_cases hscore : scorer.score document ≤ 0.0
    · simp [hscore]
    · rw [if_neg hscore, ih, and_iff_right hscore]

-- The total is left general, since every clause adds to it before the next one is asked.
theorem addRequired_eq (total : Float) (must : List Scorer) :
    addRequired document total must
      = if ∃ scorer ∈ must, scorer.score document ≤ 0.0 then none
        else some (sum total (must.map (score document))) := by
  induction must generalizing total with
  | nil => simp [addRequired, sum]
  | cons scorer rest ih =>
    rw [addRequired]
    by_cases hscore : scorer.score document ≤ 0.0
    · rw [if_pos hscore, if_pos ⟨scorer, List.mem_cons_self, hscore⟩]
    · simp only [ih, List.exists_mem_cons_iff, hscore, false_or]
      rfl

/-- The walk over the forbidden clauses stops at the first one that is found, and adds up the scores
    otherwise. -/
theorem addForbidden_eq (total : Float) (mustNot : List Scorer) :
    addForbidden document total mustNot
      = if ∃ scorer ∈ mustNot, 0.0 < scorer.score document then none
        else some (sum total (mustNot.map (score document))) := by
  induction mustNot generalizing total with
  | nil => simp [addForbidden, sum]
  | cons scorer rest ih =>
    rw [addForbidden]
    by_cases hscore : 0.0 < scorer.score document
    · rw [if_pos hscore, if_pos ⟨scorer, List.mem_cons_self, hscore⟩]
    · simp only [gt_iff_lt, ih, List.exists_mem_cons_iff, hscore, false_or]
      rfl

/-- The walk over the optional clauses only adds. -/
theorem addOptional_eq (total : Float) (should : List Scorer) :
    addOptional document total should = sum total (should.map (score document)) := by
  induction should generalizing total with
  | nil => rfl
  | cons scorer rest ih =>
    rw [addOptional, ih]
    rfl

-- Sums are taken from the left, so scores in a row can be cut anywhere.
theorem sum_append (start : Float) (front back : List Float) :
    sum start (front ++ back) = sum (sum start front) back := List.foldl_append

/-! ### Bool queries -/

/-- A clause turns a document away: a filter or a required clause that stays at zero or below, or a
    forbidden one that does not. -/
def GateShut (document : Json) (must mustNot filter : List Scorer) : Prop :=
  (∃ scorer ∈ filter, scorer.score document ≤ 0.0)
    ∨ (∃ scorer ∈ must, scorer.score document ≤ 0.0)
    ∨ ∃ scorer ∈ mustNot, 0.0 < scorer.score document

instance (document : Json) (must mustNot filter : List Scorer) :
    Decidable (GateShut document must mustNot filter) :=
  inferInstanceAs (Decidable (_ ∨ _ ∨ _))

/-- A document that is turned away scores zero. Every other one scores the sum of all clauses but
    the filters, from left to right. -/
theorem score_boolean (must mustNot should filter : List Scorer) :
    (Scorer.boolean must mustNot should filter).score document
      = if GateShut document must mustNot filter then 0.0
        else sum (if should.isEmpty then 1.0 else 0.0)
          ((must ++ mustNot ++ should).map (score document)) := by
  rw [score]
  by_cases hfilter : passesAll document filter = true
  · have hopen : ¬ ∃ scorer ∈ filter, scorer.score document ≤ 0.0 := by
      simpa using (passesAll_iff filter).mp hfilter
    simp only [hfilter, if_true, addRequired_eq, addForbidden_eq, addOptional_eq, GateShut, hopen,
      false_or, List.map_append, sum_append]
    -- Each of the walks either ends early with zero or hands on the sum so far.
    by_cases hmust : ∃ scorer ∈ must, scorer.score document ≤ 0.0
    · rw [if_pos hmust, if_pos (.inl hmust)]
    · by_cases hmustNot : ∃ scorer ∈ mustNot, 0.0 < scorer.score document
      · simp only [if_neg hmust, if_pos hmustNot, if_pos (Or.inr hmustNot)]
      · simp only [if_neg hmust, if_neg hmustNot, if_neg (not_or_intro hmust hmustNot)]
  · have hshut : ∃ scorer ∈ filter, scorer.score document ≤ 0.0 := by
      rw [passesAll_iff] at hfilter
      simpa using hfilter
    rw [if_neg hfilter, if_pos (.inl hshut)]

/-- Filters may change places. -/
theorem score_boolean_of_perm (must mustNot should : List Scorer) {filter filter' : List Scorer}
    (h : filter'.Perm filter) :
    (Scorer.boolean must mustNot should filter').score document
      = (Scorer.boolean must mustNot should filter).score document := by
  have hgate : GateShut document must mustNot filter' ↔ GateShut document must mustNot filter := by
    unfold GateShut
    simp only [h.mem_iff]
  simp only [score_boolean, hgate]

/-- One more filter turns away what it does not score, and counts nothing. -/
theorem score_boolean_cons (must mustNot should filter : List Scorer) (added : Scorer) :
    (Scorer.boolean must mustNot should (added :: filter)).score document
      = if added.score document ≤ 0.0 then 0.0
        else (Scorer.boolean must mustNot should filter).score document := by
  have hgate : GateShut document must mustNot (added :: filter)
      ↔ added.score document ≤ 0.0 ∨ GateShut document must mustNot filter := by
    unfold GateShut
    rw [List.exists_mem_cons_iff, or_assoc]
  by_cases hadded : added.score document ≤ 0.0
  · rw [score_boolean, if_pos (hgate.mpr (.inl hadded)), if_pos hadded]
  · simp only [score_boolean, hgate, hadded, false_or, if_false]

end Scorer

namespace Query

variable {schema : Schema}

/-! ### Queries -/

/-- A list of queries is compiled query by query. -/
theorem compileAll_eq_ok_iff {queries : List Query} {scorers : List Scorer} :
    compileAll schema queries = .ok scorers
      ↔ List.Forall₂ (fun query scorer => compile schema query = .ok scorer) queries scorers := by
  induction queries generalizing scorers with
  | nil => simp [compileAll, eq_comm]
  | cons query rest ih =>
    rw [compileAll_cons_eq_ok_iff, List.forall₂_cons_left_iff]
    simp only [ih]

-- Queries in another order compile to the same scorers in that order.
theorem exists_compileAll_of_perm {queries queries' : List Query} {scorers : List Scorer}
    (hperm : queries'.Perm queries) (h : compileAll schema queries = .ok scorers) :
    ∃ scorers', compileAll schema queries' = .ok scorers' ∧ scorers'.Perm scorers := by
  rcases List.perm_comp_forall₂ hperm (compileAll_eq_ok_iff.mp h) with ⟨scorers', hforall, hsame⟩
  exact ⟨scorers', compileAll_eq_ok_iff.mpr hforall, hsame⟩

/-- There are scorers exactly if there are queries. -/
theorem isEmpty_of_compileAll {queries : List Query} {scorers : List Scorer}
    (h : compileAll schema queries = .ok scorers) : scorers.isEmpty = queries.isEmpty := by
  cases compileAll_eq_ok_iff.mp h with
  | nil => rfl
  | cons _ _ => rfl

variable {must mustNot should filter : List Query} {scorer : Scorer}

/-- A bool query whose filters are those of another one in any order. -/
theorem exists_boolean_of_perm {filter' : List Query} (hperm : filter'.Perm filter)
    (h : compile schema (.boolean must mustNot should filter) = .ok scorer) :
    ∃ reordered, compile schema (.boolean must mustNot should filter') = .ok reordered
      ∧ ∀ document, reordered.score document = scorer.score document := by
  rcases compile_boolean_eq_ok_iff.mp h with
    ⟨musts, mustNots, shoulds, filters, hmusts, hmustNots, hshoulds, hfilters, rfl⟩
  rcases exists_compileAll_of_perm hperm hfilters with ⟨filters', hfilters', hsame⟩
  exact ⟨_, compile_boolean_eq_ok_iff.mpr
    ⟨musts, mustNots, shoulds, filters', hmusts, hmustNots, hshoulds, hfilters', rfl⟩,
    fun _ => Scorer.score_boolean_of_perm musts mustNots shoulds hsame⟩

/-- A bool query with one filter more, in front of the others. -/
theorem exists_boolean_cons {clause : Query} {added : Scorer}
    (h : compile schema (.boolean must mustNot should filter) = .ok scorer)
    (hadded : compile schema clause = .ok added) :
    ∃ widened, compile schema (.boolean must mustNot should (clause :: filter)) = .ok widened
      ∧ ∀ document, widened.score document
        = if added.score document ≤ 0.0 then 0.0 else scorer.score document := by
  rcases compile_boolean_eq_ok_iff.mp h with
    ⟨musts, mustNots, shoulds, filters, hmusts, hmustNots, hshoulds, hfilters, rfl⟩
  have hmore := compileAll_cons_eq_ok_iff.mpr ⟨added, filters, hadded, hfilters, rfl⟩
  exact ⟨_, compile_boolean_eq_ok_iff.mpr
    ⟨musts, mustNots, shoulds, added :: filters, hmusts, hmustNots, hshoulds, hmore, rfl⟩,
    fun _ => Scorer.score_boolean_cons musts mustNots shoulds filters added⟩

/-- A bool query scores zero if one of its clauses turns the document away, wherever it stands, and
    otherwise the sum of its required, forbidden and optional clauses, on top of one point where no
    clause is optional. Its filters can be asked in any order, and a filter that is added anywhere
    makes the score zero where it does not score itself and leaves it as it was everywhere else. -/
theorem bool_scores_behind_gates
    (h : compile schema (.boolean must mustNot should filter) = .ok scorer) :
    (∃ musts mustNots shoulds filters,
        compileAll schema must = .ok musts ∧ compileAll schema mustNot = .ok mustNots
          ∧ compileAll schema should = .ok shoulds ∧ compileAll schema filter = .ok filters
          ∧ ∀ document, scorer.score document
            = if Scorer.GateShut document musts mustNots filters then 0.0
              else Scorer.sum (if should.isEmpty then 1.0 else 0.0)
                ((musts ++ mustNots ++ shoulds).map (Scorer.score document)))
      ∧ (∀ filter', filter'.Perm filter →
          ∃ reordered, compile schema (.boolean must mustNot should filter') = .ok reordered
            ∧ ∀ document, reordered.score document = scorer.score document)
      ∧ ∀ front back clause added, filter = front ++ back → compile schema clause = .ok added →
          ∃ widened,
            compile schema (.boolean must mustNot should (front ++ clause :: back)) = .ok widened
              ∧ ∀ document, widened.score document
                = if added.score document ≤ 0.0 then 0.0 else scorer.score document := by
  refine ⟨?_, fun filter' hperm => exists_boolean_of_perm hperm h, ?_⟩
  · rcases compile_boolean_eq_ok_iff.mp h with
      ⟨musts, mustNots, shoulds, filters, hmusts, hmustNots, hshoulds, hfilters, rfl⟩
    refine ⟨musts, mustNots, shoulds, filters, hmusts, hmustNots, hshoulds, hfilters, ?_⟩
    intro document
    rw [Scorer.score_boolean, isEmpty_of_compileAll hshoulds]
  · rintro front back clause added rfl hadded
    -- In front of all filters first, and then moved to its place.
    rcases exists_boolean_cons h hadded with ⟨first, hfirst, hfirstScore⟩
    rcases exists_boolean_of_perm List.perm_middle hfirst with ⟨widened, hwidened, hsame⟩
    exact ⟨widened, hwidened, fun document => (hsame document).trans (hfirstScore document)⟩

/-- A crew member scores one point for being asked for at all and half a point for the name. A
    filter for a ship that is put between the others leaves that as it is or takes it away. -/
theorem bool_scores_behind_gates_crew :
    let schema : Schema := ⟨"crew", [], []⟩
    let document : Json := .obj [("name", .str "ann"), ("rank", .null),
      ("ship", .str "dawn")]
    let on (ship : String) : Query := .term "ship" (.str ship) 1.0
    let ranked : List Query := [.fieldExists "rank", .boolean [] [on "dusk"] [] []]
    let asked (filter : List Query) : Query :=
      .boolean [.all] [on "dusk"] [.term "name" (.str "ann") 0.5] filter
    ∃ scorer, compile schema (asked ranked) = .ok scorer ∧ scorer.score document = 1.5
      ∧ (∃ found, compile schema (asked [.fieldExists "rank", on "dawn", ranked[1]]) = .ok found
          ∧ found.score document = 1.5)
      ∧ ∃ lost, compile schema (asked [.fieldExists "rank", on "dusk", ranked[1]]) = .ok lost
          ∧ lost.score document = 0.0 := by
  intro schema document on ranked asked
  have hscorer : compile schema (asked ranked) = .ok _ := rfl
  -- One clause more is put between the two of the filter, which passes in the one case and not in
  -- the other.
  rcases bool_scores_behind_gates hscorer with ⟨-, -, hwidened⟩
  refine ⟨_, hscorer, by decide, ?_, ?_⟩
  · rcases hwidened [.fieldExists "rank"] [ranked[1]] (on "dawn") _ rfl rfl with
      ⟨found, hfound, hscore⟩
    refine ⟨found, hfound, ?_⟩
    rw [hscore]
    decide
  · rcases hwidened [.fieldExists "rank"] [ranked[1]] (on "dusk") _ rfl rfl with
      ⟨lost, hlost, hscore⟩
    refine ⟨lost, hlost, ?_⟩
    rw [hscore]
    decide

end Query

end DocSearch
