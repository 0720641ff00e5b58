import DocSearch.Proofs.Relevance.Scoping

/-!
# Which Queries Are Refused

Compiling a query fails for one reason only: a nested query stands where it must not.

There are two such places. The schema maps its path to something that is no nested field, or
another nested query on the same path is around it. Neither can be told from the schema that
the nested query itself is compiled under, which has been marked once for every nested query
around it. So a nested query is looked at together with the paths that enclose it, and the
two places are said in terms of these and of the schema at the outside. Going into a scope
then moves a path from the query to the schema and changes nothing else.

Whatever else a query holds is no reason to refuse it. A kind that is not evaluated, a text or
a value that is missing, a bound that is no number and a field that nobody mapped all compile.

## Main definitions

* `Query.Nests`: A nested query on a path, and the paths that enclose it.
* `Query.Misplaced`: A nested query on a path must not stand there.

## Theorems

* `misplaced_inScope_iff`: Going into a scope changes no answer.
* `compile_ne_ok_of_nests`: A misplaced nested query is refused.
* `nests_of_compile_error`: Only misplaced nested queries are.
* `compile_fails_iff`: Both together.
-/

namespace DocSearch

namespace Query

/-- A nested query on a path stands in a query, below nested queries on the enclosing paths, of
    which the outermost comes first. -/
inductive Nests : Query → List String → String → Prop where
  | here (path : String) (query : Query) : Nests (.nested path query) [] path
  | inside {path inner : String} {query : Query} {enclosing : List String} :
      Nests query enclosing inner → Nests (.nested path query) (path :: enclosing) inner
  | clause {must mustNot should filter queries : List Query} {query : Query}
      {enclosing : List String} {path : String} :
      queries ∈ [must, mustNot, should, filter] → query ∈ queries → Nests query enclosing path →
      Nests (.boolean must mustNot should filter) enclosing path

/-- A nested query on a path must not stand below nested queries on the enclosing paths. It
    would be inside its own scope, or it is mapped to a type that is not nested. -/
def Misplaced (schema : Schema) (enclosing : List String) (path : String) : Prop :=
  path ∈ enclosing
    ∨ ∃ mapping, schema.field? path = some mapping ∧ mapping.fieldType ≠ .nested

variable {schema : Schema} {query : Query} {enclosing : List String} {path : String}

/-- With no nested queries around it a path is misplaced if the schema itself refuses it. -/
theorem misplaced_nil_iff : Misplaced schema [] path ↔ refusesNested schema path = true := by
  unfold Misplaced refusesNested
  cases schema.field? path with
  | none => simp
  | some mapping => simp

-- The mark of a scope says what the enclosing path says.
theorem misplaced_inScope_iff {outer : String} :
    Misplaced (inScope schema outer) enclosing path
      ↔ Misplaced schema (outer :: enclosing) path := by
  unfold Misplaced
  rw [field?_inScope, List.mem_cons]
  by_cases h : outer = path
  · simp [h]
  · have hne : path ≠ outer := fun heq => h heq.symm
    simp only [if_neg h, hne, false_or]

/-! ### Misplaced nested queries are refused -/

-- By induction on where the nested query stands, with the schema left open, since every
-- enclosing path moves over to it.
theorem compile_ne_ok_of_nests (hnests : query.Nests enclosing path) :
    ∀ (schema : Schema) (scorer : Scorer), Misplaced schema enclosing path →
      compile schema query ≠ .ok scorer := by
  -- The induction is on the way to the nested query. Each nested query on the way puts one more
  -- path in scope.
  induction hnests with
  | here path query =>
    intro schema scorer hmisplaced hok
    have hrefused := misplaced_nil_iff.mp hmisplaced
    have hallowed := (compile_nested_eq_ok_iff.mp hok).1
    rw [hrefused] at hallowed
    exact Bool.noConfusion hallowed
  | inside _ ih =>
    intro schema scorer hmisplaced hok
    have hinner := (compile_nested_eq_ok_iff.mp hok).2
    exact ih _ _ (misplaced_inScope_iff.mpr hmisplaced) hinner
  | clause hlist hmem _ ih =>
    intro schema scorer hmisplaced hok
    rcases compileAll_of_mem_of_boolean hok hlist with ⟨scorers, hscorers⟩
    rcases compile_of_mem_of_compileAll hscorers hmem with ⟨clause, hclause⟩
    exact ih schema clause hmisplaced hclause

/-! ### No other query is -/

mutual

-- By recursion on the query. Only two kinds can be refused at all: a nested query, on its own
-- path or further inside, and a boolean query, through one of its clauses.
theorem nests_of_compile_error :
    ∀ (query : Query) (schema : Schema) (error : Error), compile schema query = .error error →
      ∃ enclosing path, query.Nests enclosing path ∧ Misplaced schema enclosing path
        ∧ error = .notNested path
  | .all, _, _, h => by simp [compile] at h
  | .unsupported _, _, _, h => by simp [compile] at h
  | .words _ _, _, _, h => by simp [compile] at h
  | .wildcard _ _, _, _, h => by simp [compile] at h
  | .term _ _ _, _, _, h => by simp [compile] at h
  | .terms _ _ _, _, _, h => by simp [compile] at h
  | .fieldExists field, schema, _, h => by
    rw [compile] at h
    cases hnested : schema.isNested field with
    | true => simp [hnested] at h
    | false => simp [hnested] at h
  | .range _ bounds, _, _, h => by
    rw [compile] at h
    cases hlimits : limits? bounds with
    | none => simp [hlimits] at h
    | some limits => simp [hlimits] at h
  | .nested path query, schema, error, h => by
    rcases compile_nested_eq_error_iff.mp h with ⟨hrefused, rfl⟩ | ⟨_, hinner⟩
    · exact ⟨[], path, Nests.here path query, misplaced_nil_iff.mpr hrefused, rfl⟩
    · rcases nests_of_compile_error query _ error hinner with
        ⟨enclosing, inner, hnests, hmisplaced, herror⟩
      exact ⟨path :: enclosing, inner, Nests.inside hnests, misplaced_inScope_iff.mp hmisplaced,
        herror⟩
  | .boolean must mustNot should filter, schema, error, h => by
    have hmust := nests_of_compileAll_error must schema error
    have hmustNot := nests_of_compileAll_error mustNot schema error
    have hshould := nests_of_compileAll_error should schema error
    have hfilter := nests_of_compileAll_error filter schema error
    rcases compile_boolean_eq_error h with ⟨queries, hlist, hfails⟩
    have hclause : ∃ query ∈ queries, ∃ enclosing path, query.Nests enclosing path
        ∧ Misplaced schema enclosing path ∧ error = .notNested path := by
      have hlist' := hlist
      simp only [List.mem_cons, List.not_mem_nil, or_false] at hlist'
      rcases hlist' with rfl | rfl | rfl | rfl
      · exact hmust hfails
      · exact hmustNot hfails
      · exact hshould hfails
      · exact hfilter hfails
    rcases hclause with ⟨query, hmem, enclosing, path, hnests, hmisplaced, herror⟩
    exact ⟨enclosing, path, Nests.clause hlist hmem hnests, hmisplaced, herror⟩

-- Lists of clauses fail with one of their queries.
theorem nests_of_compileAll_error :
    ∀ (queries : List Query) (schema : Schema) (error : Error),
      compileAll schema queries = .error error →
      ∃ query ∈ queries, ∃ enclosing path, query.Nests enclosing path
        ∧ Misplaced schema enclosing path ∧ error = .notNested path
  | [], _, _, h => by simp [compileAll] at h
  | query :: rest, schema, error, h => by
    rcases compileAll_cons_eq_error_iff.mp h with hquery | ⟨_, hrest⟩
    · exact ⟨query, List.mem_cons_self, nests_of_compile_error query schema error hquery⟩
    · rcases nests_of_compileAll_error rest schema error hrest with ⟨other, hmem, hother⟩
      exact ⟨other, List.mem_cons_of_mem _ hmem, hother⟩

end

/-- A query is refused under a schema exactly if some nested query in it, at any depth, is
    mapped to another type there or stands inside a nested query on its own path. The error
    names the path of such a nested query, and the request is at fault. In particular a query
    without nested queries compiles, whatever kinds, texts, values, bounds and fields are in
    it. -/
theorem compile_fails_iff (schema : Schema) (query : Query) :
    ((∃ error, compile schema query = .error error)
        ↔ ∃ enclosing path, query.Nests enclosing path ∧ Misplaced schema enclosing path)
      ∧ (∀ error, compile schema query = .error error → error.kind = .validation
          ∧ ∃ enclosing path, query.Nests enclosing path ∧ Misplaced schema enclosing path
            ∧ error = .notNested path)
      ∧ ((∀ enclosing path, ¬ query.Nests enclosing path) →
          ∃ scorer, compile schema query = .ok scorer) := by
  refine ⟨⟨?_, ?_⟩, ?_, ?_⟩
  · rintro ⟨error, hfails⟩
    rcases nests_of_compile_error query schema error hfails with
      ⟨enclosing, path, hnests, hmisplaced, _⟩
    exact ⟨enclosing, path, hnests, hmisplaced⟩
  · rintro ⟨enclosing, path, hnests, hmisplaced⟩
    -- A query that neither fails nor compiles does not exist.
    cases hcompile : compile schema query with
    | error error => exact ⟨error, rfl⟩
    | ok scorer =>
      exact absurd hcompile (compile_ne_ok_of_nests hnests schema scorer hmisplaced)
  · intro error hfails
    rcases nests_of_compile_error query schema error hfails with
      ⟨enclosing, path, hnests, hmisplaced, rfl⟩
    exact ⟨rfl, enclosing, path, hnests, hmisplaced, rfl⟩
  · intro hnone
    cases hcompile : compile schema query with
    | ok scorer => exact ⟨scorer, rfl⟩
    | error error =>
      rcases nests_of_compile_error query schema error hcompile with
        ⟨enclosing, path, hnests, _⟩
      exact absurd hnests (hnone enclosing path)

end Query

end DocSearch
