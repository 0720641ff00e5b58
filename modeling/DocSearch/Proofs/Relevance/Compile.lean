import DocSearch.Proofs.Outcome
import DocSearch.Relevance.Compile

/-!
# Compiled Queries

What it takes for a query to compile, kind by kind. Only two kinds can fail of themselves
or through their parts: a bool query needs all its clauses to compile, and a nested query
needs its path not to be refused and its inner query to compile inside the scope.

## Theorems

* `compile_boolean_eq_ok_iff`: A bool query.
* `compile_nested_eq_ok_iff`: A nested query.
* `compileAll_cons_eq_ok_iff`: A list of queries, from its head.
* `compileAll_of_mem_of_boolean`, `compile_of_mem_of_compileAll`: From a bool query that
  compiles to one of its lists, and from a list to one of its queries.
* `compile_boolean_eq_error`: A bool query that fails has a clause that does.
* `compile_nested_eq_error_iff`: A nested query that fails.
-/

namespace DocSearch

namespace Query

/-- A compound query compiles if all of its clauses do. -/
theorem compile_boolean_eq_ok_iff {schema : Schema} {must mustNot should filter : List Query}
    {scorer : Scorer} :
    compile schema (.boolean must mustNot should filter) = .ok scorer
      ↔ ∃ musts mustNots shoulds filters,
          compileAll schema must = .ok musts ∧ compileAll schema mustNot = .ok mustNots
            ∧ compileAll schema should = .ok shoulds ∧ compileAll schema filter = .ok filters
            ∧ scorer = .boolean musts mustNots shoulds filters := by
  -- The four lists are compiled one after another, and each has to succeed.
  rw [compile, Outcome.bind_eq_ok_iff]
  constructor
  · rintro ⟨musts, hmusts, h⟩
    rcases Outcome.bind_eq_ok_iff.mp h with ⟨mustNots, hmustNots, h⟩
    rcases Outcome.bind_eq_ok_iff.mp h with ⟨shoulds, hshoulds, h⟩
    rcases Outcome.bind_eq_ok_iff.mp h with ⟨filters, hfilters, h⟩
    exact ⟨musts, mustNots, shoulds, filters, hmusts, hmustNots, hshoulds, hfilters,
      (Except.ok.inj h).symm⟩
  · rintro ⟨musts, mustNots, shoulds, filters, hmusts, hmustNots, hshoulds, hfilters, rfl⟩
    refine ⟨musts, hmusts, ?_⟩
    simp only [hmustNots, hshoulds, hfilters]
    rfl

/-- A nested query compiles if it is not refused and its inner query compiles inside the scope. -/
theorem compile_nested_eq_ok_iff {schema : Schema} {path : String} {query : Query}
    {scorer : Scorer} :
    compile schema (.nested path query) = .ok scorer
      ↔ refusesNested schema path = false ∧ compile (inScope schema path) query = .ok scorer := by
  rw [compile]
  cases refusesNested schema path with
  | true => simp
  | false => simp

/-- A list of clauses compiles if the first one does and the others do. -/
theorem compileAll_cons_eq_ok_iff {schema : Schema} {query : Query} {rest : List Query}
    {scorers : List Scorer} :
    compileAll schema (query :: rest) = .ok scorers
      ↔ ∃ scorer others, compile schema query = .ok scorer
          ∧ compileAll schema rest = .ok others ∧ scorers = scorer :: others := by
  rw [compileAll]
  cases hquery : compile schema query with
  | error error => simp
  | ok scorer =>
    simp only [Outcome.map_eq_ok_iff]
    constructor
    · rintro ⟨others, hothers, rfl⟩
      exact ⟨scorer, others, rfl, hothers, rfl⟩
    · rintro ⟨first, others, hfirst, hothers, rfl⟩
      rw [← Except.ok.inj hfirst]
      exact ⟨others, hothers, rfl⟩

/-- Each clause of a compound query that compiles has compiled. -/
theorem compileAll_of_mem_of_boolean {schema : Schema} {must mustNot should filter : List Query}
    {scorer : Scorer} (hok : compile schema (.boolean must mustNot should filter) = .ok scorer)
    {queries : List Query} (hmem : queries ∈ [must, mustNot, should, filter]) :
    ∃ scorers, compileAll schema queries = .ok scorers := by
  rcases compile_boolean_eq_ok_iff.mp hok with
    ⟨musts, mustNots, shoulds, filters, hmusts, hmustNots, hshoulds, hfilters, _⟩
  simp only [List.mem_cons, List.not_mem_nil, or_false] at hmem
  rcases hmem with rfl | rfl | rfl | rfl
  · exact ⟨musts, hmusts⟩
  · exact ⟨mustNots, hmustNots⟩
  · exact ⟨shoulds, hshoulds⟩
  · exact ⟨filters, hfilters⟩

/-- So has each query of a list that compiles. -/
theorem compile_of_mem_of_compileAll {schema : Schema} {queries : List Query}
    {scorers : List Scorer} (hok : compileAll schema queries = .ok scorers) {query : Query}
    (hmem : query ∈ queries) : ∃ scorer, compile schema query = .ok scorer := by
  induction queries generalizing scorers with
  | nil => exact absurd hmem List.not_mem_nil
  | cons head rest ih =>
    rcases compileAll_cons_eq_ok_iff.mp hok with ⟨scorer, others, hscorer, hothers, _⟩
    rcases List.mem_cons.mp hmem with rfl | hmem
    · exact ⟨scorer, hscorer⟩
    · exact ih hothers hmem

/-! ### Failing -/

-- The four lists are compiled one after another, up to the first that fails.
theorem compile_boolean_eq_error {schema : Schema} {must mustNot should filter : List Query}
    {error : Error} (h : compile schema (.boolean must mustNot should filter) = .error error) :
    ∃ queries ∈ [must, mustNot, should, filter], compileAll schema queries = .error error := by
  simp only [List.mem_cons, List.not_mem_nil, or_false, exists_eq_or_imp, exists_eq_left]
  rw [compile] at h
  rcases Outcome.bind_eq_error_iff.mp h with hmust | ⟨_, _, h⟩
  · exact Or.inl hmust
  rcases Outcome.bind_eq_error_iff.mp h with hmustNot | ⟨_, _, h⟩
  · exact Or.inr (Or.inl hmustNot)
  rcases Outcome.bind_eq_error_iff.mp h with hshould | ⟨_, _, h⟩
  · exact Or.inr (Or.inr (Or.inl hshould))
  rcases Outcome.bind_eq_error_iff.mp h with hfilter | ⟨_, _, h⟩
  · exact Or.inr (Or.inr (Or.inr hfilter))
  · exact absurd h (by simp [pure, Except.pure])

/-- A nested query fails because it is refused, or with the error of its inner query. -/
theorem compile_nested_eq_error_iff {schema : Schema} {path : String} {query : Query}
    {error : Error} :
    compile schema (.nested path query) = .error error
      ↔ refusesNested schema path = true ∧ error = .notNested path
        ∨ refusesNested schema path = false
          ∧ compile (inScope schema path) query = .error error := by
  rw [compile]
  cases refusesNested schema path with
  | true => simp [eq_comm]
  | false => simp

/-- A list of clauses fails with the error of the first query that fails. -/
theorem compileAll_cons_eq_error_iff {schema : Schema} {query : Query} {rest : List Query}
    {error : Error} :
    compileAll schema (query :: rest) = .error error
      ↔ compile schema query = .error error
        ∨ (∃ scorer, compile schema query = .ok scorer)
          ∧ compileAll schema rest = .error error := by
  rw [compileAll]
  cases hquery : compile schema query with
  | error error => simp
  | ok scorer => simp [Outcome.map_eq_error_iff]

end Query

end DocSearch
