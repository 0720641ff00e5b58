import DocSearch.Proofs.Json.Order
import DocSearch.Proofs.Outcome
import DocSearch.Query.Reader
import Mathlib.Tactic.MkIffOfInductiveProp

/-!
# The Grammar of Queries

Which values are queries.

Reading follows a value from the outside in and stops at the first thing it cannot use. What it
accepts is said here the other way round, as a grammar: what a query is, what the body of each kind
is, and what may stand where a bool query expects clauses. The three lean on each other, since
queries stand inside bodies and clauses.

Two things are easily missed. A body about one field may have a boost beside the field, and the
boost is told apart by its name alone, so a field of that name cannot be asked about, and of several
other members only the one with the least name counts. And a kind that is not evaluated is no
error, whatever its body, while a kind that is evaluated has to be asked for in full.

Every step of reading is shown to accept what the grammar says and to blame the request for what it
refuses. The two go together, because the steps do: a body is refused by the first of its parts
that is.

## Main definitions

* `Json.AsksField`: The field of a body about one field.
* `Json.IsQuery`, `Json.IsBody`, `Json.IsClause`: The grammar.

## Theorems

* `fieldEntry?_eq_some_iff`: The field that is found is the one that is meant.
* `decides_ofJson`: Reading decides the grammar.
* `readClause_insert_single`: A query on its own is read like the list of it alone.
* `reads_exactly`: The grammar, the blame, and single clauses.
-/

namespace DocSearch

namespace Json

/-- The field of a body about one field and the value under it: of the members that are not the
    boost, the one with the least name. -/
structure AsksField (members : List (String × Json)) (field : String) (value : Json) : Prop where
  mem : (field, value) ∈ members
  ne_boost : field ≠ "boost"
  least : ∀ other ∈ members, other.1 ≠ "boost" →
    other.1 = field ∨ String.compare field other.1 = .lt

/-- The pattern of a wildcard query: a text, or an object that has one under `value` or, if there
    is nothing under that name, under `wildcard`. -/
def HasPattern (value : Json) : Prop :=
  ∃ pattern, value = .str pattern ∨ ∃ parameters, value = .obj parameters
    ∧ (Keyed.get? "value" parameters = some (.str pattern)
      ∨ Keyed.get? "value" parameters = none
        ∧ Keyed.get? "wildcard" parameters = some (.str pattern))

/-- The kinds of queries whose bodies are looked at. -/
def particularKinds : List String :=
  ["bool", "match", "wildcard", "term", "terms", "exists", "nested", "range"]

mutual

/-- The values that are queries. -/
inductive IsQuery : Json → Prop where
  | null : IsQuery .null
  | empty : IsQuery (.obj [])
  | one {kind : String} {body : Json} (h : IsBody kind body) : IsQuery (.obj [(kind, body)])

/-- The bodies that a query of a kind may have. -/
inductive IsBody : String → Json → Prop where
  | boolean {members : List (String × Json)}
      (h : ∀ clause ∈ ["must", "must_not", "should", "filter"], ∀ value,
        Keyed.get? clause members = some value → IsClause value) :
      IsBody "bool" (.obj members)
  | words {members : List (String × Json)} (h : ∃ member ∈ members, member.1 ≠ "boost") :
      IsBody "match" (.obj members)
  | term {members : List (String × Json)} (h : ∃ member ∈ members, member.1 ≠ "boost") :
      IsBody "term" (.obj members)
  | wildcard {members : List (String × Json)}
      (h : ∃ field value, AsksField members field value ∧ value.HasPattern) :
      IsBody "wildcard" (.obj members)
  | terms {members : List (String × Json)}
      (h : ∃ field values, AsksField members field (.arr values)) : IsBody "terms" (.obj members)
  | range {members : List (String × Json)}
      (h : ∃ field bounds, AsksField members field (.obj bounds)) : IsBody "range" (.obj members)
  | fieldExists {members : List (String × Json)}
      (h : ∃ field, Keyed.get? "field" members = some (.str field)) : IsBody "exists" (.obj members)
  | nested {members : List (String × Json)} {inner : Json}
      (hpath : ∃ path, Keyed.get? "path" members = some (.str path))
      (hinner : Keyed.get? "query" members = some inner) (hnull : inner.isNull = false)
      (h : IsQuery inner) : IsBody "nested" (.obj members)
  | other {kind : String} {body : Json} (h : kind ∉ particularKinds) : IsBody kind body

/-- The values that may stand for the clauses of one list of a bool query. -/
inductive IsClause : Json → Prop where
  | null : IsClause .null
  | one {members : List (String × Json)} (h : IsQuery (.obj members)) : IsClause (.obj members)
  | many {queries : List Json} (h : ∀ query ∈ queries, IsQuery query) : IsClause (.arr queries)

end

attribute [mk_iff] IsQuery IsBody IsClause

end Json

namespace Query

open Json (ordered_of_cons ordered_single)

/-! ### Bodies about one field -/

-- In key order the first member that is not the boost is the least one.
theorem fieldEntry?_eq_some_iff {members : List (String × Json)} (h : Keyed.Ordered members)
    {field : String} {value : Json} :
    fieldEntry? members = some (field, value) ↔ Json.AsksField members field value := by
  induction members with
  | nil => exact iff_of_false (by simp [ fieldEntry?]) fun hasks => absurd hasks.mem (by simp)
  | cons member rest ih =>
    rcases List.pairwise_cons.mp h with ⟨hfirst, hrest⟩
    by_cases hboost : member.1 = "boost"
    · -- the boost is passed over, and it is not the field either
      have hskip : fieldEntry? (member :: rest) = fieldEntry? rest := by
        rw [ fieldEntry?, List.find?_cons_of_neg (by simp [hboost])]
        rfl
      rw [hskip, ih hrest]
      constructor
      · rintro ⟨hmem, hne, hleast⟩
        refine ⟨List.mem_cons_of_mem _ hmem, hne, fun other hother hotherNe => ?_⟩
        rcases List.mem_cons.mp hother with rfl | hother
        · exact absurd hboost hotherNe
        · exact hleast other hother hotherNe
      · rintro ⟨hmem, hne, hleast⟩
        refine ⟨?_, hne, fun other hother => hleast other (List.mem_cons_of_mem _ hother)⟩
        rcases List.mem_cons.mp hmem with rfl | hmem
        · exact absurd hboost hne
        · exact hmem
    · -- The members are in key order, so the first one that is no boost is the least one.
      have hfound : fieldEntry? (member :: rest) = some member := by
        rw [ fieldEntry?, List.find?_cons_of_pos (by simp [hboost])]
      rw [hfound, Option.some.injEq]
      constructor
      · rintro rfl
        refine ⟨List.mem_cons_self, hboost, fun other hother _ => ?_⟩
        rcases List.mem_cons.mp hother with rfl | hother
        · exact Or.inl rfl
        · exact Or.inr (hfirst other hother)
      · rintro ⟨hmem, _, hleast⟩
        rcases List.mem_cons.mp hmem with heq | hmem
        · exact heq.symm
        · -- a later member cannot be the least one, because the first comes before it
          have hlt := hfirst _ hmem
          rcases hleast member List.mem_cons_self hboost with hsame | hgt
          · rw [hsame, Keyed.compare_eq_iff.mpr rfl] at hlt
            exact absurd hlt (by simp)
          · rw [Std.OrientedCmp.gt_of_lt hgt] at hlt
            exact absurd hlt (by simp)

/-- There is a field exactly if some member is no boost. -/
theorem exists_asksField_iff {members : List (String × Json)} (h : Keyed.Ordered members) :
    (∃ field value, Json.AsksField members field value)
      ↔ ∃ member ∈ members, member.1 ≠ "boost" := by
  constructor
  · rintro ⟨field, value, hasks⟩
    exact ⟨_, hasks.mem, hasks.ne_boost⟩
  · rintro ⟨member, hmem, hne⟩
    cases hfind : fieldEntry? members with
    | none => exact absurd (List.find?_eq_none.mp hfind member hmem) (by simpa using hne)
    | some entry => exact ⟨entry.1, entry.2, (fieldEntry?_eq_some_iff h).mp hfind⟩

/-- A body about one field is decided by what stands under the field. -/
theorem decides_fieldEntry {kind : String} {members : List (String × Json)}
    (h : Keyed.Ordered members) {read : String × Json → Except Error Query}
    {Q : String → Json → Prop}
    (hread : ∀ field value, Decides (read (field, value)) (Q field value)) :
    Decides (fieldEntry kind members >>= read)
      (∃ field value, Json.AsksField members field value ∧ Q field value) := by
  rw [fieldEntry]
  -- The members ask for at most one field, so the reader decides about all of them by deciding
  -- about that one.
  cases hfind : fieldEntry? members with
  | none =>
    refine Decides.of_error rfl ?_
    rintro ⟨field, value, hasks, _⟩
    rw [(fieldEntry?_eq_some_iff h).mpr hasks] at hfind
    exact absurd hfind (by simp)
  | some entry =>
    refine (hread entry.1 entry.2).congr ⟨fun hQ => ?_, ?_⟩
    · exact ⟨entry.1, entry.2, (fieldEntry?_eq_some_iff h).mp hfind, hQ⟩
    · rintro ⟨field, value, hasks, hQ⟩
      rw [(fieldEntry?_eq_some_iff h).mpr hasks, Option.some.injEq] at hfind
      rw [← hfind]
      exact hQ

-- A kind that takes whatever stands under the field.
theorem decides_anyEntry {kind : String} {members : List (String × Json)}
    (h : Keyed.Ordered members) {read : String × Json → Except Error Query}
    (hread : ∀ field value, ∃ query, read (field, value) = .ok query) :
    Decides (fieldEntry kind members >>= read) (∃ member ∈ members, member.1 ≠ "boost") := by
  rw [← exists_asksField_iff h]
  refine (decides_fieldEntry (Q := fun _ _ => True) h fun field value => ?_).congr (by simp)
  obtain ⟨query, hquery⟩ := hread field value
  rw [hquery]
  exact Decides.of_ok query trivial

-- A kind that takes values of one form only.
theorem decides_entryOfForm {α : Type} {form : α → Json} {kind : String}
    {members : List (String × Json)} (h : Keyed.Ordered members)
    {read : String × Json → Except Error Query}
    (hread : ∀ field value, Decides (read (field, value)) (∃ part, value = form part)) :
    Decides (fieldEntry kind members >>= read)
      (∃ field part, Json.AsksField members field (form part)) := by
  refine (decides_fieldEntry h hread).congr ⟨?_, ?_⟩
  · rintro ⟨field, _, hasks, part, rfl⟩
    exact ⟨field, part, hasks⟩
  · rintro ⟨field, part, hasks⟩
    exact ⟨field, _, hasks, part, rfl⟩

-- The readers of the kinds with a field take what has one, and check its value.
theorem decides_readWords {members : List (String × Json)} (h : Keyed.Ordered members) :
    Decides (readWords members) (∃ member ∈ members, member.1 ≠ "boost") := by
  rw [readWords]
  refine decides_anyEntry h fun field value => ?_
  cases value <;> exact ⟨_, rfl⟩

theorem decides_readTerm {members : List (String × Json)} (h : Keyed.Ordered members) :
    Decides (readTerm members) (∃ member ∈ members, member.1 ≠ "boost") := by
  rw [readTerm]
  refine decides_anyEntry h fun field value => ?_
  cases value <;> exact ⟨_, rfl⟩

/-- A pattern is found under one of two names, and the first of them is preferred. -/
theorem hasPattern_obj_iff {parameters : List (String × Json)} :
    (Json.obj parameters).HasPattern
      ↔ ∃ pattern, ((Keyed.get? "value" parameters).or (Keyed.get? "wildcard" parameters)).bind
          Json.asText? = some pattern := by
  simp only [Json.HasPattern, Option.bind_eq_some_iff, Json.asText?_eq_some_iff,
    Option.or_eq_some_iff, reduceCtorEq, false_or, Json.obj.injEq, exists_eq_left',
    exists_eq_right]

/-- A wildcard query needs a field and a pattern for it. -/
theorem decides_readWildcard {members : List (String × Json)} (h : Keyed.Ordered members) :
    Decides (readWildcard members)
      (∃ field value, Json.AsksField members field value ∧ value.HasPattern) := by
  rw [readWildcard]
  refine decides_fieldEntry h fun field value => ?_
  cases value with
  | str pattern => exact Decides.of_ok _ ⟨pattern, Or.inl rfl⟩
  | obj parameters =>
    simp only
    rw [hasPattern_obj_iff]
    -- The pattern stands under one of two names, and the first of them hides the second.
    cases ((Keyed.get? "value" parameters).or (Keyed.get? "wildcard" parameters)).bind
        Json.asText? with
    | none => exact Decides.of_error rfl (by simp)
    | some pattern => exact Decides.of_ok _ ⟨pattern, rfl⟩
  | _ => exact Decides.of_error rfl (by simp [Json.HasPattern])

/-- A query for several terms needs a field and an array for it. -/
theorem decides_readTerms {members : List (String × Json)} (h : Keyed.Ordered members) :
    Decides (readTerms members)
      (∃ field values, Json.AsksField members field (.arr values)) := by
  rw [readTerms]
  refine decides_entryOfForm h fun field value => ?_
  cases value with
  | arr values => exact Decides.of_ok _ ⟨values, rfl⟩
  | _ => exact Decides.of_error rfl (by simp)

/-- A range needs a field and an object of bounds for it. -/
theorem decides_readRange {members : List (String × Json)} (h : Keyed.Ordered members) :
    Decides (readRange members)
      (∃ field bounds, Json.AsksField members field (.obj bounds)) := by
  rw [readRange]
  refine decides_entryOfForm h fun field value => ?_
  cases value with
  | obj bounds => exact Decides.of_ok _ ⟨bounds, rfl⟩
  | _ => exact Decides.of_error rfl (by simp)

/-- A query for a field that exists needs its name. -/
theorem decides_readExists (members : List (String × Json)) :
    Decides (readExists members) (∃ field, Keyed.get? "field" members = some (.str field)) := by
  rw [readExists]
  cases hfield : Keyed.get? "field" members with
  | none => exact Decides.of_error rfl (by simp)
  | some found =>
    cases found with
    | str field => exact Decides.of_ok _ ⟨field, rfl⟩
    | _ => exact Decides.of_error rfl (by simp)

/-- A nested query needs a path and an inner query. -/
theorem isBody_nested_iff {members : List (String × Json)} :
    Json.IsBody "nested" (.obj members)
      ↔ (∃ path, Keyed.get? "path" members = some (.str path))
        ∧ ∃ inner, Keyed.get? "query" members = some inner ∧ inner.isNull = false
          ∧ inner.IsQuery := by
  constructor
  · intro hbody
    have hmembers : ∃ others, (∃ path, Keyed.get? "path" others = some (.str path))
        ∧ ∃ inner, Keyed.get? "query" others = some inner ∧ inner.isNull = false ∧ inner.IsQuery
          ∧ members = others := by
      simpa [Json.isBody_iff, Json.particularKinds] using hbody
    rcases hmembers with ⟨_, hpath, inner, hinner, hnull, h, rfl⟩
    exact ⟨hpath, inner, hinner, hnull, h⟩
  · rintro ⟨hpath, inner, hinner, hnull, h⟩
    exact .nested hpath hinner hnull h

-- The path is looked for before the query.
theorem decides_nested {members : List (String × Json)} {P : Prop} {inner : Except Error Query}
    (h : Decides inner P) :
    Decides
      (match (Keyed.get? "path" members).bind Json.asText? with
        | none => .error (.queryMemberMissing "nested" "path")
        | some path => inner.map (Query.nested path))
      ((∃ path, Keyed.get? "path" members = some (.str path)) ∧ P) := by
  have hpath : (∃ path, Keyed.get? "path" members = some (.str path))
      ↔ ∃ path, (Keyed.get? "path" members).bind Json.asText? = some path := by
    simp [Option.bind_eq_some_iff, Json.asText?_eq_some_iff]
  rw [hpath]
  cases (Keyed.get? "path" members).bind Json.asText? with
  | none => exact Decides.of_error rfl (by simp)
  | some path => exact (h.map _).congr (by simp)

/-- A kind that is not looked into may have any body. -/
theorem exists_readKind_eq_ok {kind : String} (h : kind ∉ Json.particularKinds) (body : Json) :
    ∃ query, readKind kind body = .ok query := by
  by_cases hall : kind = "match_all"
  · subst hall
    cases body <;> exact ⟨_, rfl⟩
  · refine ⟨.unsupported kind, ?_⟩
    simp only [Json.particularKinds, List.mem_cons, List.not_mem_nil, or_false, not_or] at h
    cases body <;> simp [readKind, h]

-- A kind that is looked into needs an object.
theorem decides_readKind_of_not_isObject (kind : String) {body : Json}
    (h : body.isObject = false) : Decides (readKind kind body) (Json.IsBody kind body) := by
  by_cases hkind : kind ∈ Json.particularKinds
  · cases body with
    | obj members => exact absurd h (by simp [Json.isObject])
    | _ =>
      simp only [Json.particularKinds, List.mem_cons, List.not_mem_nil, or_false] at hkind
      rcases hkind with rfl | rfl | rfl | rfl | rfl | rfl | rfl | rfl <;>
        exact Decides.of_error rfl (by simp [Json.isBody_iff, Json.particularKinds])
  · rcases exists_readKind_eq_ok hkind body with ⟨query, hquery⟩
    rw [hquery]
    exact Decides.of_ok _ (.other hkind)

/-! ### Queries inside queries -/

mutual

-- By recursion on the value, along the recursion of reading. Where a member has to be found, the
-- recursion goes through the members, and what is found has to be in the grammar.
theorem decides_ofJson : ∀ {value : Json}, value.Ordered → Decides (ofJson value) value.IsQuery
  | .null, _ => by
    rw [ofJson]
    exact Decides.of_ok _ .null
  | .obj members, h => by
    rw [ofJson]
    exact decides_readObject h
  | .bool _, _ | .num _, _ | .str _, _ | .arr _, _ => by
    rw [ofJson]
    · exact Decides.of_error rfl (by simp [Json.isQuery_iff])
    · simp
    · simp

-- As in the reader, the lemmas on its parts call each other. Each of them decides about its part of
-- the value.
theorem decides_readObject : ∀ {members : List (String × Json)}, (Json.obj members).Ordered →
    Decides (readObject members) (Json.obj members).IsQuery
  | [], _ => by
    rw [readObject]
    exact Decides.of_ok _ .empty
  | [(kind, body)], h => by
    rw [readObject]
    refine (decides_readKind kind (ordered_of_cons h).1).congr ⟨.one, fun hquery => ?_⟩
    cases hquery with
    | one hbody => exact hbody
  -- More than one kind is refused, whatever the kinds are.
  | _ :: _ :: _, _ => by
    rw [readObject]
    exact Decides.of_error rfl (by simp [Json.isQuery_iff])

/-- The body of a query of some kind is accepted if it is a body of that kind. -/
theorem decides_readKind (kind : String) :
    ∀ {body : Json}, body.Ordered → Decides (readKind kind body) (Json.IsBody kind body)
  | .obj members, h => by
    have hordered := h.keyed
    have hclause (clause : String) := decides_readClause clause h
    have hinner := decides_readInner h
    -- There are eight kinds that ask for something in their bodies. All others take any body.
    by_cases hkind : kind ∈ Json.particularKinds
    · simp only [Json.particularKinds, List.mem_cons, List.not_mem_nil, or_false] at hkind
      rcases hkind with rfl | rfl | rfl | rfl | rfl | rfl | rfl | rfl
      · refine ((hclause "must").bind fun _ _ => (hclause "must_not").bind fun _ _ =>
          (hclause "should").bind fun _ _ => (hclause "filter").map _).congr ?_
        simp [Json.isBody_iff, Json.particularKinds]
      · exact (decides_readWords hordered).congr
          (by simp [Json.isBody_iff, Json.particularKinds])
      · exact (decides_readWildcard hordered).congr
          (by simp [Json.isBody_iff, Json.particularKinds])
      · exact (decides_readTerm hordered).congr
          (by simp [Json.isBody_iff, Json.particularKinds])
      · exact (decides_readTerms hordered).congr
          (by simp [Json.isBody_iff, Json.particularKinds])
      · exact (decides_readExists members).congr
          (by simp [Json.isBody_iff, Json.particularKinds])
      · exact (decides_nested hinner).congr isBody_nested_iff.symm
      · exact (decides_readRange hordered).congr
          (by simp [Json.isBody_iff, Json.particularKinds])
    · rcases exists_readKind_eq_ok hkind (.obj members) with ⟨query, hquery⟩
      rw [hquery]
      exact Decides.of_ok _ (.other hkind)
  | .null, _ | .bool _, _ | .num _, _ | .str _, _ | .arr _, _ =>
    decides_readKind_of_not_isObject kind rfl

-- A missing clause is a clause without queries.
theorem decides_readClause (clause : String) :
    ∀ {members : List (String × Json)}, (Json.obj members).Ordered →
      Decides (readClause clause members)
        (∀ value, Keyed.get? clause members = some value → value.IsClause)
  | [], _ => by
    rw [readClause]
    exact Decides.of_ok _ (by simp)
  | (name, value) :: rest, h => by
    rw [readClause, Keyed.get?]
    by_cases hname : name = clause
    · rw [if_pos hname, if_pos hname]
      exact (decides_readClauses clause (ordered_of_cons h).1).congr (by simp)
    · rw [if_neg hname, if_neg hname]
      exact decides_readClause clause (ordered_of_cons h).2

-- A single query is as good as an array of one.
theorem decides_readClauses (clause : String) :
    ∀ {value : Json}, value.Ordered → Decides (readClauses clause value) value.IsClause
  | .null, _ => by
    rw [readClauses]
    exact Decides.of_ok _ .null
  | .arr queries, h => by
    rw [readClauses]
    have hqueries : ∀ query ∈ queries, query.Ordered := by
      cases h with
      | arr hqueries => exact hqueries
    refine (decides_readAll hqueries).congr ⟨.many, fun hclause => ?_⟩
    cases hclause with
    | many hall => exact hall
  | .obj members, h => by
    rw [readClauses]
    refine ((decides_readObject h).map _).congr ⟨.one, fun hclause => ?_⟩
    cases hclause with
    | one hquery => exact hquery
  | .bool _, _ | .num _, _ | .str _, _ => by
    rw [readClauses]
    · exact Decides.of_error rfl (by simp [Json.isClause_iff])
    all_goals simp

-- The queries of an array are decided one by one, and the first fault is reported.
theorem decides_readAll : ∀ {queries : List Json}, (∀ query ∈ queries, query.Ordered) →
    Decides (readAll queries) (∀ query ∈ queries, query.IsQuery)
  | [], _ => by
    rw [readAll]
    exact Decides.of_ok _ (by simp)
  | query :: rest, h => by
    have hstep : readAll (query :: rest)
        = ofJson query >>= fun query => (readAll rest).map (query :: ·) := by
      rw [readAll]
      cases ofJson query <;> rfl
    have hrest := decides_readAll fun other hother => h other (List.mem_cons_of_mem _ hother)
    rw [hstep, List.forall_mem_cons]
    exact (decides_ofJson (h query List.mem_cons_self)).bind fun _ _ => hrest.map _

/-- The inner query of a nested query has to be there, and must not be `null`. -/
theorem decides_readInner : ∀ {members : List (String × Json)}, (Json.obj members).Ordered →
    Decides (readInner members)
      (∃ inner, Keyed.get? "query" members = some inner ∧ inner.isNull = false ∧ inner.IsQuery)
  | [], _ => by
    rw [readInner]
    exact Decides.of_error rfl (by simp)
  | (name, value) :: rest, h => by
    rw [readInner.eq_def, Keyed.get?]
    simp only
    by_cases hname : name = "query"
    · rw [if_pos hname, if_pos hname]
      have hquery := decides_ofJson (ordered_of_cons h).1
      -- A null under the name is as good as no inner query at all.
      cases value with
      | null => exact Decides.of_error rfl (by simp [Json.isNull])
      | _ => exact hquery.congr (by simp [Json.isNull])
    · rw [if_neg hname, if_neg hname]
      exact decides_readInner (ordered_of_cons h).2

end

/-! ### Single clauses -/

/-- A clause is looked up among the members. -/
theorem readClause_eq (clause : String) (members : List (String × Json)) :
    readClause clause members
      = match Keyed.get? clause members with
        | none => .ok []
        | some value => readClauses clause value := by
  have hread : readClause clause members
      = (Keyed.get? clause members).elim (.ok []) (readClauses clause) :=
    Keyed.eq_elim_get? (by rw [readClause]) (fun _ _ _ => by rw [readClause]) members
  rw [hread]
  cases Keyed.get? clause members <;> rfl

/-- A single query and an array of one are read as the same. -/
theorem readClauses_single (clause : String) (query : List (String × Json)) :
    readClauses clause (.obj query) = readClauses clause (.arr [.obj query]) := by
  rw [readClauses, readClauses, readAll, ofJson, readAll]
  cases readObject query <;> rfl

-- Under every other name both lists of members have what they had before.
theorem readClause_insert_single (clause name : String) (query members : List (String × Json)) :
    readClause clause (Keyed.insert name (.obj query) members)
      = readClause clause (Keyed.insert name (.arr [.obj query]) members) := by
  rw [readClause_eq, readClause_eq, Keyed.get?_insert, Keyed.get?_insert]
  by_cases hname : name = clause
  · simp only [if_pos hname, readClauses_single]
  · simp only [if_neg hname]

/-- A value is read as a query exactly if it is one by the grammar, and what is refused is refused
    as a fault of the request. A query on its own, wherever a bool query expects clauses, is read
    like the list of it alone. -/
theorem reads_exactly :
    (∀ value : Json, value.Ordered →
        ((∃ query, ofJson value = .ok query) ↔ value.IsQuery)
          ∧ ∀ error, ofJson value = .error error → error.kind = .validation)
      ∧ ∀ (members : List (String × Json)) (clause : String) (query : List (String × Json)),
        ofJson (.obj [("bool", .obj (Keyed.insert clause (.obj query) members))])
          = ofJson (.obj [("bool", .obj (Keyed.insert clause (.arr [.obj query]) members))]) := by
  refine ⟨fun value h => ⟨(decides_ofJson h).accepts, (decides_ofJson h).blames⟩,
    fun members clause query => ?_⟩
  simp only [ofJson, readObject, readKind, readClause_insert_single _ clause query members]

/-- Books of a price that nobody reviewed, with a boost beside the price. -/
def unreviewed : Json :=
  .obj [("bool", .obj
    [("filter", .obj [("range", .obj [("boost", .null), ("price", .obj [("gte", .null)])])]),
      ("must_not", .arr [.obj [("exists", .obj [("field", .str "reviews")])]])])]

/-- The query of the example is in key order. -/
theorem ordered_unreviewed : unreviewed.Ordered := by
  have hbounds : (Json.obj [("boost", .null), ("price", .obj [("gte", .null)])]).Ordered :=
    .obj (List.pairwise_pair.mpr (by decide))
      (by simpa using ⟨Json.Ordered.null, ordered_single "gte" .null⟩)
  have hclauses : (Json.arr [.obj [("exists", .obj [("field", .str "reviews")])]]).Ordered :=
    .arr (by simpa using ordered_single "exists" (ordered_single "field" (.str "reviews")))
  exact ordered_single "bool" (.obj (List.pairwise_pair.mpr (by decide))
    (by simpa using ⟨ordered_single "range" hbounds, hclauses⟩))

/-- The bounds are those of the price and not of the boost. A nested query without a query inside is
    none. -/
theorem reads_exactly_unreviewed :
    unreviewed.Ordered ∧ unreviewed.IsQuery
      ∧ ¬ (Json.obj [("nested", .obj [("path", .str "reviews"), ("query", .null)])]).IsQuery := by
  have hnested :
      (Json.obj [("nested", .obj [("path", .str "reviews"), ("query", .null)])]).Ordered :=
    ordered_single "nested" (.obj (List.pairwise_pair.mpr (by decide))
      (by simpa using ⟨Json.Ordered.str "reviews", Json.Ordered.null⟩))
  refine ⟨ordered_unreviewed,
    (reads_exactly.1 unreviewed ordered_unreviewed).1.mp ⟨_, rfl⟩, fun hquery => ?_⟩
  obtain ⟨query, hread⟩ := (reads_exactly.1 _ hnested).1.mpr hquery
  have hrefused : ofJson (.obj [("nested", .obj [("path", .str "reviews"), ("query", .null)])])
      = .error (.queryMemberMissing "nested" "query") := rfl
  exact absurd (hrefused.symm.trans hread) (by simp)

end Query

end DocSearch
