import DocSearch.Proofs.Bucket.Regrouping
import DocSearch.Proofs.Outcome
import DocSearch.Search.Run

/-!
# Searching Under Another Name

A search of one index gives the same answer when the index goes by another name, except that
the hits carry the new name.

The name is in three places. The index has it, its schema has it, and every hit has it, so a
step that looked at one of them would make a difference somewhere. Compiling a query and
choosing what to highlight ask a schema for its mappings alone. Sorting asks a hit for its score
and its document. Two steps do look at the name of a hit. One is the choice of the schema that a
hit is highlighted under, and there the name of the hit and the name of the index are changed
together. The other is an aggregation over the field that stands for the index, and that one is
set apart: it can tell a copy from its original, and it should.

## Main definitions

* `Hit.under`: A hit under another name.
* `Aggregation.ReadsIndex`, `SearchRequest.ReadsIndex`: What asks a hit for its index.
* `SearchResults.SameUnder`: The same results, with the hits under another name.

## Theorems

* `compile_of_mappings`, `highlightsOf_of_mappings`: What is asked of a schema.
* `runAggregations_under`: Aggregations that do not ask for the index.
* `sortHits_under`: Sorting.
* `search_cloneAs`, `hitsOf_cloneAs`: What a copy finds.
* `resultsOf_cloneAs`: What is answered.
-/

namespace DocSearch

/-! ### Schemas -/

section Mappings

variable {schema other : Schema}

-- A schema is used through its mappings only, so schemas with the same mappings compile a query to
-- the same scorer. The reading functions come first.
theorem Schema.copySources?_of_mappings (h : other.mappings = schema.mappings)
    (target : String) : other.copySources? target = schema.copySources? target := by
  rw [copySources?, copySources?, copies, copies, h]

theorem Schema.readPaths_of_mappings (h : other.mappings = schema.mappings) (path : String) :
    other.readPaths path = schema.readPaths path := by
  simp only [readPaths, copySources?_of_mappings h]

theorem Schema.fieldNames_of_mappings (h : other.mappings = schema.mappings) :
    other.fieldNames = schema.fieldNames := by
  rw [fieldNames, fieldNames, copyTable, copyTable, copies, copies, h]

namespace Query

theorem mappings_inScope_of_mappings (h : other.mappings = schema.mappings) (path : String) :
    (inScope other path).mappings = (inScope schema path).mappings := by
  rw [inScope, inScope, Schema.field?, Schema.field?, Schema.override, Schema.override, h]

mutual

/-- A query compiles by the mappings alone. The induction is on the query, with the schemas left
    open because a nested query moves on to another pair with equal mappings. -/
theorem compile_of_mappings : ∀ (query : Query) {schema other : Schema},
    other.mappings = schema.mappings → compile other query = compile schema query
  | .all, _, _, _ | .unsupported _, _, _, _ => by rw [compile, compile]
  | .boolean must mustNot should filter, _, _, h => by
    rw [compile, compile, compileAll_of_mappings must h, compileAll_of_mappings mustNot h,
      compileAll_of_mappings should h, compileAll_of_mappings filter h]
  -- A leaf looks up the paths of its field and nothing else.
  | .words field _, _, _, h | .wildcard field _, _, _, h | .term field _ _, _, _, h
  | .terms field _ _, _, _, h | .range field _, _, _, h => by
    rw [compile, compile, Schema.readPaths_of_mappings h]
  | .fieldExists field, _, _, h => by
    rw [compile, compile, Schema.isNested, Schema.isNested, Schema.field?, Schema.field?, h]
  | .nested path query, _, _, h => by
    rw [compile, compile, refusesNested, refusesNested, Schema.field?, Schema.field?, h,
      compile_of_mappings query (mappings_inScope_of_mappings h path)]

-- The lists of a compound query are compiled along with the query, in one mutual induction.
theorem compileAll_of_mappings : ∀ (queries : List Query) {schema other : Schema},
    other.mappings = schema.mappings → compileAll other queries = compileAll schema queries
  | [], _, _, _ => by rw [compileAll, compileAll]
  | query :: rest, _, _, h => by
    rw [compileAll, compileAll, compile_of_mappings query h, compileAll_of_mappings rest h]

end

end Query

/-- So do snippets depend on the mappings alone. -/
theorem highlightsOf_of_mappings (h : other.mappings = schema.mappings) (query : Query)
    (request : HighlightRequest) (document : Json) :
    highlightsOf query request other document = highlightsOf query request schema document := by
  have heligible : request.eligible other = request.eligible schema := by
    simp only [HighlightRequest.eligible, Schema.fieldNames_of_mappings h]
  simp only [highlightsOf, Highlighter.ofQuery?, heligible, Schema.copySources?_of_mappings h]

end Mappings

/-! ### Hits -/

/-- The hit under another name. -/
def Hit.under (name : String) (hit : Hit) : Hit := { hit with index := name }

/-- The name shows in the terms of a hit only when they are asked for by the field that holds it. -/
theorem Hit.terms_under (name : String) (hit : Hit) {field : String} (h : field ≠ indexField) :
    (hit.under name).terms field = hit.terms field := by
  rw [Hit.terms, Hit.terms, if_neg h, if_neg h]
  rfl

/-- Whether an aggregation asks a hit for its index. -/
def Aggregation.ReadsIndex : Aggregation → Prop
  | .terms aggregation => aggregation.field = indexField
  | .composite aggregation => ∃ source ∈ aggregation.sources, source.field = indexField
  | .unsupported _ => False

theorem Aggregation.run_under (name : String) (hits : List Hit) {aggregation : Aggregation}
    (h : ¬ aggregation.ReadsIndex) :
    aggregation.run (hits.map (Hit.under name)) = aggregation.run hits := by
  cases aggregation with
  -- Both kinds of buckets are counted from terms of the hits, which are the same under another
  -- name.
  | terms aggregation =>
    have hterms (hit : Hit) : (hit.under name).terms aggregation.field
        = hit.terms aggregation.field := Hit.terms_under name hit h
    refine congrArg AggregationResult.terms (TermsAggregation.run_of_counts ?_)
    rw [TermsAggregation.counts, TermsAggregation.counts, List.flatMap_map]
    simp only [hterms]
  | composite aggregation =>
    have hkeys (hit : Hit) : CompositeAggregation.keysOf aggregation.sources (hit.under name)
        = CompositeAggregation.keysOf aggregation.sources hit := by
      rw [CompositeAggregation.keysOf, CompositeAggregation.keysOf]
      refine congrArg _ (List.map_congr_left fun source hsource => ?_)
      exact Hit.terms_under name hit fun hfield => h ⟨source, hsource, hfield⟩
    refine congrArg AggregationResult.composite (CompositeAggregation.run_of_counts ?_)
    rw [CompositeAggregation.counts, CompositeAggregation.counts, List.flatMap_map]
    exact congrArg (fun keys => (tally keys).mergeSort _)
      (List.flatMap_congr fun hit _ => hkeys hit)
  | unsupported kind => rfl

/-- Whether a request has an aggregation that asks for the index. -/
def SearchRequest.ReadsIndex (request : SearchRequest) : Prop :=
  ∃ entry ∈ request.aggregations, entry.2.ReadsIndex

/-- Aggregations that do not read the name do not see it. -/
theorem runAggregations_under (name : String) (hits : List Hit) {request : SearchRequest}
    (h : ¬ request.ReadsIndex) :
    runAggregations request.aggregations (hits.map (Hit.under name))
      = runAggregations request.aggregations hits := by
  rw [runAggregations, runAggregations]
  refine congrArg Keyed.ofList (List.map_congr_left fun entry hentry => ?_)
  exact congrArg (Prod.mk entry.1)
    (Aggregation.run_under name hits fun hreads => h ⟨entry, hentry, hreads⟩)

/-- A comparison of hits reads scores and documents. -/
theorem compareHits_under (name : String) (keys : List SortKey) (a b : Hit) :
    compareHits keys (a.under name) (b.under name) = compareHits keys a b := by
  induction keys with
  | nil => rfl
  | cons key rest ih =>
    have hkey : key.compare (a.under name) (b.under name) = key.compare a b := rfl
    rw [compareHits, compareHits, hkey, ih]

theorem hitOrder_under (name : String) (keys : List SortKey) (a b : Hit) :
    hitOrder keys (a.under name) (b.under name) = hitOrder keys a b := by
  rw [hitOrder]
  by_cases hempty : keys.isEmpty = true
  · rw [if_pos hempty]
    rfl
  · rw [if_neg hempty, compareHits_under]

/-- Hits that are renamed after sorting are hits that are sorted after renaming, since the
    comparison does not see the names. -/
theorem sortHits_under (name : String) (keys : List SortKey) (hits : List Hit) :
    sortHits keys (hits.map (Hit.under name)) = (sortHits keys hits).map (Hit.under name) := by
  rw [sortHits, sortHits]
  refine (List.map_mergeSort fun a _ b _ => ?_).symm
  rw [hitOrder_under]

/-! ### One index -/

namespace Search

theorem bestScore_under (name : String) (hits : List Hit) :
    bestScore (hits.map (Hit.under name)) = bestScore hits := by
  cases hits with
  | nil => rfl
  | cons hit rest =>
    rw [List.map_cons, bestScore, bestScore, List.foldl_map]
    rfl

theorem pageOf_under (name : String) (start size : Nat) (hits : List Hit) :
    pageOf start size (hits.map (Hit.under name))
      = (pageOf start size hits).map (Hit.under name) := by
  rw [pageOf, pageOf, List.map_take, List.map_drop]

variable (index : Index) (name : String) (identity : Nat)

/-- A copy of an index finds the same hits under its own name. -/
theorem search_cloneAs (scorer : Scorer) :
    (index.cloneAs name identity).search scorer = (index.search scorer).map (Hit.under name) := by
  rw [Index.search, Index.search, List.map_filterMap]
  refine List.filterMap_congr fun entry _ => ?_
  by_cases hscore : scorer.score entry.2 > 0.0
  · simp only [if_pos hscore]
    rfl
  · simp only [if_neg hscore]
    rfl

theorem hitsOf_single (query : Query) :
    hitsOf query [index] = (query.compile index.schema).map index.search := by
  rw [hitsOf]
  cases query.compile index.schema with
  | error error => rfl
  | ok scorer => exact congrArg Except.ok (List.append_nil _)

/-- A copy finds what its original finds, or refuses what that refuses. -/
theorem hitsOf_cloneAs (query : Query) :
    hitsOf query [index.cloneAs name identity]
      = (hitsOf query [index]).map (List.map (Hit.under name)) := by
  have hschema : query.compile (index.cloneAs name identity).schema
      = query.compile index.schema := Query.compile_of_mappings query rfl
  rw [hitsOf_single, hitsOf_single, hschema]
  cases query.compile index.schema with
  | error error => rfl
  | ok scorer => exact congrArg Except.ok (search_cloneAs index name identity scorer)

variable {index}

-- The only index in the list is found by its name.
theorem schemaOf?_single {hit : Hit} (h : hit.index = index.name) :
    schemaOf? [index] hit.index = some index.schema := by
  simp only [schemaOf?, h, List.reverse_singleton, List.find?_cons, decide_true, Option.map_some]

-- The hit and the index it is looked up by are renamed together.
theorem dress_cloneAs (request : SearchRequest) {hit : Hit} (h : hit.index = index.name) :
    dress [index.cloneAs name identity] request (hit.under name)
      = (dress [index] request hit).under name := by
  have hcopy := @schemaOf?_single (index.cloneAs name identity) (hit.under name) rfl
  have hsnippets (asked : HighlightRequest) (document : Json) :
      highlightsOf request.query asked (index.cloneAs name identity).schema document
        = highlightsOf request.query asked index.schema document :=
    highlightsOf_of_mappings rfl request.query asked document
  -- The snippets are looked up by the name of the hit, which leads to the copy for a hit of the
  -- copy and to the original for one of the original. Both have the same mappings.
  have hhighlight : highlightHit [index.cloneAs name identity] request.query request.highlight
        (hit.under name)
      = (highlightHit [index] request.query request.highlight hit).under name := by
    unfold highlightHit
    rw [hcopy, schemaOf?_single h]
    cases request.highlight with
    | none => rfl
    | some asked =>
      have hsource : (hit.under name).source = hit.source := rfl
      rw [hsource]
      cases hit.source with
      | none => rfl
      | some document =>
        simp only [hsnippets]
        cases highlightsOf request.query asked index.schema document <;> rfl
  simp only [dress, hhighlight]
  rfl

theorem index_of_mem_search {scorer : Scorer} {hit : Hit} (h : hit ∈ index.search scorer) :
    hit.index = index.name := by
  rcases List.mem_filterMap.mp h with ⟨entry, _, hentry⟩
  by_cases hscore : scorer.score entry.2 > 0.0
  · simp only [if_pos hscore, Option.some.injEq] at hentry
    rw [← hentry]
  · simp only [if_neg hscore] at hentry
    exact absurd hentry (by simp)

end Search

/-- The same results, with the hits under another name. The id of a scroll is not compared: it is
    drawn for each search. -/
structure SearchResults.SameUnder (name : String) (original copy : SearchResults) : Prop where
  totalHits : copy.totalHits = original.totalHits
  maxScore : copy.maxScore = original.maxScore
  aggregations : copy.aggregations = original.aggregations
  hits : copy.hits = original.hits.map (Hit.under name)

/-- What is answered from the same hits under another name, unless an aggregation asks for the
    name. -/
theorem Search.resultsOf_cloneAs {index : Index} (name : String) (identity : Nat)
    {request : SearchRequest} (hreads : ¬ request.ReadsIndex) {found : List Hit}
    (hfound : ∀ hit ∈ found, hit.index = index.name) (scrollId otherId : Option String) :
    SearchResults.SameUnder name
      (resultsOf [index] request found (sortHits request.sort found) scrollId)
      (resultsOf [index.cloneAs name identity] request (found.map (Hit.under name))
        (sortHits request.sort (found.map (Hit.under name))) otherId) where
  totalHits := by
    rw [sortHits_under]
    exact List.length_map _
  maxScore := by
    rw [sortHits_under]
    exact bestScore_under name _
  aggregations := by
    simp only [resultsOf, runAggregations_under name found hreads]
  hits := by
    simp only [resultsOf, sortHits_under, pageOf_under, List.map_map]
    refine List.map_congr_left fun hit hhit => ?_
    -- A hit on the page was found, so it carries the name of the index.
    have hsorted : hit ∈ sortHits request.sort found :=
      List.mem_of_mem_drop (List.mem_of_mem_take hhit)
    exact dress_cloneAs name identity request (hfound hit (List.mem_mergeSort.mp hsorted))

end DocSearch
