import DocSearch.Proofs.Json.Record
import DocSearch.Proofs.Outcome
import DocSearch.Query.Codec
import DocSearch.Query.Reader
import DocSearch.Relevance.Compile

/-!
# Reading Queries Back

What comes of a query that is written out as a value and read again.

Every field is written under its name and found under it again, at every depth, and a finite boost
comes back as the double it was. Only the bounds of a range are written with less than they have. A
bound that is not set is `null`, and so is one that is set to `null`, so the reader cannot tell
them apart and takes both for one that is not set. A query comes back with such bounds dropped, and
is the same query exactly if it had none.

The reader of search bodies never sets a bound to `null`. A program may, and it makes a difference:
a range with such a bound finds nothing, since `null` is no number, while the range that is read
back may find something.

## Main definitions

* `Query.AllLeaves`: A property of all leaves of a query.
* `Query.FiniteBoost`, `Query.NullFree`: The boost of a leaf is finite, and no bound of it is set
  to `null`.
* `Query.withoutNulls`: A query with such bounds dropped.

## Theorems

* `decode?_encode`: What is read back.
* `withoutNulls_eq_self_iff`: When that is the same query.
* `nullFree_ofJson`: Queries of search bodies have no such bounds.
* `compile_range_of_null`: What a range with such a bound finds.
* `reads_back_iff`: Which queries are read back as they were.
-/

namespace DocSearch

/-! ### Values that may be missing -/

namespace Json

/-- An optional value, where `null` is as good as none. -/
def unlessNull : Option Json → Option Json
  | some .null => none
  | value => value

/-- What is not as good as none is not `null`. -/
theorem unlessNull_ne_null (value : Option Json) : unlessNull value ≠ some .null := by
  unfold unlessNull
  split
  · simp
  · assumption

/-- A value is kept unless it is `null`. -/
theorem unlessNull_eq_self_iff {value : Option Json} :
    unlessNull value = value ↔ value ≠ some .null := by
  constructor
  · intro h
    exact h ▸ unlessNull_ne_null value
  · intro h
    unfold unlessNull
    split
    · exact absurd rfl h
    · rfl

/-- A member is present unless it is missing or `null`. -/
theorem present?_eq (name : String) (value : Json) :
    value.present? name = unlessNull (value.get? name) := by
  unfold present? unlessNull
  cases value.get? name with
  | none => rfl
  | some found => cases found <;> rfl

-- What is written for an optional value is never missing, so all that can be lost is `null`.
theorem optional?_eq (place : Nat) (name : String) (record : Record) :
    record.optional? place name = unlessNull (record.field? place name) := by
  unfold Record.optional? unlessNull
  cases record.field? place name with
  | none => rfl
  | some found => cases found <;> rfl

/-- Writing a missing value as `null` and taking `null` for missing gives it back. -/
@[simp]
theorem unlessNull_ofOption (value : Option Json) :
    unlessNull (some (ofOption value)) = unlessNull value := by
  cases value <;> rfl

/-- A finite double is written and read as the same double. -/
theorem asFloat?_ofFloat {x : Float} (h : x.isFinite = true) :
    (ofFloat x).asFloat? = some x := by
  rw [ofFloat, if_pos h]
  rfl

end Json

/-! ### Bounds -/

namespace Bounds

/-- No bound is set to `null`. -/
structure NullFree (bounds : Bounds) : Prop where
  gt : bounds.gt ≠ some .null
  gte : bounds.gte ≠ some .null
  lt : bounds.lt ≠ some .null
  lte : bounds.lte ≠ some .null

/-- The bounds that are not set to `null`. -/
def withoutNulls (bounds : Bounds) : Bounds :=
  ⟨Json.unlessNull bounds.gt, Json.unlessNull bounds.gte, Json.unlessNull bounds.lt,
    Json.unlessNull bounds.lte⟩

/-- Dropping the bounds that are `null` leaves none. -/
theorem nullFree_withoutNulls (bounds : Bounds) : bounds.withoutNulls.NullFree :=
  ⟨Json.unlessNull_ne_null _, Json.unlessNull_ne_null _, Json.unlessNull_ne_null _,
    Json.unlessNull_ne_null _⟩

/-- Nor does setting a bound to another value add one. -/
theorem NullFree.set {bounds : Bounds} (h : bounds.NullFree) (kind : BoundKind) {bound : Json}
    (hbound : bound ≠ .null) : (bounds.set kind bound).NullFree := by
  have hsome : some bound ≠ some .null := fun heq => hbound (Option.some.inj heq)
  cases kind with
  | gt => exact ⟨hsome, h.gte, h.lt, h.lte⟩
  | gte => exact ⟨h.gt, hsome, h.lt, h.lte⟩
  | lt => exact ⟨h.gt, h.gte, hsome, h.lte⟩
  | lte => exact ⟨h.gt, h.gte, h.lt, hsome⟩

/-- Dropping changes nothing exactly if there is nothing to drop. -/
theorem withoutNulls_eq_self_iff {bounds : Bounds} :
    bounds.withoutNulls = bounds ↔ bounds.NullFree := by
  constructor
  · intro h
    exact h ▸ bounds.nullFree_withoutNulls
  · rintro ⟨hgt, hgte, hlt, hlte⟩
    rw [withoutNulls, Json.unlessNull_eq_self_iff.mpr hgt, Json.unlessNull_eq_self_iff.mpr hgte,
      Json.unlessNull_eq_self_iff.mpr hlt, Json.unlessNull_eq_self_iff.mpr hlte]

end Bounds

namespace Query

mutual

/-- All leaves of a query have a property. Bool queries and nested ones are no leaves. -/
def AllLeaves (P : Query → Prop) : Query → Prop
  | .boolean must mustNot should filter =>
    EachAllLeaves P must ∧ EachAllLeaves P mustNot ∧ EachAllLeaves P should
      ∧ EachAllLeaves P filter
  | .nested _ query => AllLeaves P query
  | leaf => P leaf

def EachAllLeaves (P : Query → Prop) : List Query → Prop
  | [] => True
  | query :: rest => AllLeaves P query ∧ EachAllLeaves P rest

end

/-- The boost of a leaf is finite, if it has one. -/
def FiniteBoost : Query → Prop
  | .term _ _ boost | .terms _ _ boost => boost.isFinite = true
  | _ => True

/-- No bound of a leaf is set to `null`, if it has any. -/
def NullFree : Query → Prop
  | .range _ bounds => bounds.NullFree
  | _ => True

mutual

/-- The query without the bounds that are set to `null`. -/
def withoutNulls : Query → Query
  | .range field bounds => .range field bounds.withoutNulls
  | .boolean must mustNot should filter =>
    .boolean (allWithoutNulls must) (allWithoutNulls mustNot) (allWithoutNulls should)
      (allWithoutNulls filter)
  | .nested path query => .nested path query.withoutNulls
  | query => query

def allWithoutNulls : List Query → List Query
  | [] => []
  | query :: rest => query.withoutNulls :: allWithoutNulls rest

end

mutual

/-- Nothing is dropped exactly if there is nothing to drop. -/
theorem withoutNulls_eq_self_iff : ∀ query : Query,
    query.withoutNulls = query ↔ query.AllLeaves NullFree
  | .all | .unsupported _ | .words .. | .wildcard .. | .term .. | .terms .. | .fieldExists _ => by
    simp only [withoutNulls, AllLeaves, NullFree]
  | .boolean must mustNot should filter => by
    simp only [withoutNulls, AllLeaves, boolean.injEq, allWithoutNulls_eq_self_iff]
  | .nested path query => by
    simp only [withoutNulls, AllLeaves, nested.injEq, true_and, withoutNulls_eq_self_iff]
  | .range field bounds => by
    simp only [withoutNulls, AllLeaves, NullFree, range.injEq, true_and,
      Bounds.withoutNulls_eq_self_iff]

-- For the clauses of a query, one after the other.
theorem allWithoutNulls_eq_self_iff : ∀ queries : List Query,
    allWithoutNulls queries = queries ↔ EachAllLeaves NullFree queries
  | [] => by simp only [allWithoutNulls, EachAllLeaves]
  | query :: rest => by
    simp only [allWithoutNulls, EachAllLeaves, List.cons.injEq, withoutNulls_eq_self_iff,
      allWithoutNulls_eq_self_iff]

end

/-! ### Reading back -/

/-- A kind and its body are read by the kind. -/
@[simp]
theorem decode?_variant (name : String) (body : Json) :
    decode? (variant name body) = decodeVariant? name body := by
  rw [variant, decode?]

-- The readers of clauses and of an inner query go through the members on their own.
theorem decodeClause?_eq (name : String) (members : List (String × Json)) :
    decodeClause? name members = (Keyed.get? name members).elim none decodeList? :=
  Keyed.eq_elim_get? (by rw [decodeClause?]) (fun _ _ _ => by rw [decodeClause?]) members

/-- A member that has to be there is read, if it is. -/
theorem decodeMember?_eq (name : String) (members : List (String × Json)) :
    decodeMember? name members = (Keyed.get? name members).elim none decode? :=
  Keyed.eq_elim_get? (by rw [decodeMember?]) (fun _ _ _ => by rw [decodeMember?]) members

mutual

/-- What is read back is the query without the bounds that are set to `null`. The induction is on
    the query: every field is written under its name and found under it. -/
theorem decode?_encode : ∀ {query : Query}, query.AllLeaves FiniteBoost →
    decode? query.encode = some query.withoutNulls
  | .all, _ => by simp [encode, decode?, withoutNulls]
  | .unsupported kind, _ => by simp [encode, decodeVariant?, Json.asText?, withoutNulls]
  | .boolean must mustNot should filter, h => by
    simp only [AllLeaves] at h
    rcases h with ⟨hmust, hmustNot, hshould, hfilter⟩
    simp [encode, decodeVariant?, decodeBool?, Json.object, decodeClause?_eq, Keyed.get?_ofList,
      Keyed.get?, decodeList?, decodeAll?_encodeAll hmust, decodeAll?_encodeAll hmustNot,
      decodeAll?_encodeAll hshould, decodeAll?_encodeAll hfilter, withoutNulls]
  -- A match without a text is written as `null`, which is read as no text.
  | .words field text, _ => by
    cases text <;>
      simp [encode, decodeVariant?, decodeWords?, Json.optional?_eq, Keyed.get?, Json.unlessNull,
        Json.asText?, Json.ofOption, withoutNulls]
  | .wildcard field pattern, _ => by
    simp [encode, decodeVariant?, decodeWildcard?, Keyed.get?, Json.asText?, withoutNulls]
  | .term field value boost, h => by
    simp only [AllLeaves, FiniteBoost] at h
    simp [encode, decodeVariant?, decodeTerm?, Keyed.get?, Json.asText?, Json.asFloat?_ofFloat h,
      withoutNulls]
  | .terms field values boost, h => by
    simp only [AllLeaves, FiniteBoost] at h
    simp [encode, decodeVariant?, decodeTerms?, Keyed.get?, Json.asText?, Json.asArray?,
      Json.asFloat?_ofFloat h, withoutNulls]
  | .fieldExists field, _ => by
    simp [encode, decodeVariant?, decodeExists?, Keyed.get?, Json.asText?, withoutNulls]
  | .nested path query, h => by
    simp only [AllLeaves] at h
    simp [encode, decodeVariant?, decodeNested?, Json.object, decodeMember?_eq, Keyed.get?_ofList,
      Keyed.get?, Json.asText?, decode?_encode h, withoutNulls]
  -- Only the bounds come back different.
  | .range field bounds, _ => by
    simp [encode, encodeRange, decodeVariant?, decodeRange?, Json.optional?_eq, Keyed.get?,
      Json.asText?, withoutNulls, Bounds.withoutNulls]

-- Lists of clauses come back clause by clause.
theorem decodeAll?_encodeAll : ∀ {queries : List Query}, EachAllLeaves FiniteBoost queries →
    decodeAll? (encodeAll queries) = some (allWithoutNulls queries)
  | [], _ => by simp [encodeAll, decodeAll?, allWithoutNulls]
  | query :: rest, h => by
    simp only [EachAllLeaves] at h
    simp [encodeAll, decodeAll?, decode?_encode h.1, decodeAll?_encodeAll h.2, allWithoutNulls]

end

/-! ### Queries of search bodies -/

-- What is asked about one field is read behind the field, so it is enough to look there.
theorem nullFree_of_fieldEntry {kind : String} {members : List (String × Json)}
    {read : String × Json → Except Error Query} {query : Query}
    (h : fieldEntry kind members >>= read = .ok query)
    (hread : ∀ field value, read (field, value) = .ok query → query.AllLeaves NullFree) :
    query.AllLeaves NullFree := by
  rcases Outcome.bind_eq_ok_iff.mp h with ⟨⟨field, value⟩, _, hvalue⟩
  exact hread field value hvalue

-- Only ranges have bounds, and the readers of the other kinds set none.
theorem nullFree_readWords {members : List (String × Json)} {query : Query}
    (h : readWords members = .ok query) : query.AllLeaves NullFree := by
  refine nullFree_of_fieldEntry h fun field value hvalue => ?_
  cases value <;> cases hvalue <;> trivial

theorem nullFree_readWildcard {members : List (String × Json)} {query : Query}
    (h : readWildcard members = .ok query) : query.AllLeaves NullFree := by
  refine nullFree_of_fieldEntry h fun field value hvalue => ?_
  simp only at hvalue
  split at hvalue
  · cases hvalue
    trivial
  · cases hvalue

theorem nullFree_readTerm {members : List (String × Json)} {query : Query}
    (h : readTerm members = .ok query) : query.AllLeaves NullFree := by
  refine nullFree_of_fieldEntry h fun field value hvalue => ?_
  cases value <;> cases hvalue <;> trivial

theorem nullFree_readTerms {members : List (String × Json)} {query : Query}
    (h : readTerms members = .ok query) : query.AllLeaves NullFree := by
  refine nullFree_of_fieldEntry h fun field value hvalue => ?_
  cases value <;> cases hvalue
  trivial

theorem nullFree_readExists {members : List (String × Json)} {query : Query}
    (h : readExists members = .ok query) : query.AllLeaves NullFree := by
  unfold readExists at h
  split at h
  · cases h
    trivial
  · cases h

-- The one reader that has bounds to set takes a `null` for a bound that is not set.
theorem nullFree_readRange {members : List (String × Json)} {query : Query}
    (h : readRange members = .ok query) : query.AllLeaves NullFree := by
  refine nullFree_of_fieldEntry h fun field bounds hvalue => ?_
  simp only at hvalue
  split at hvalue
  · cases hvalue
    simp only [Json.present?_eq]
    exact ⟨Json.unlessNull_ne_null _, Json.unlessNull_ne_null _, Json.unlessNull_ne_null _,
      Json.unlessNull_ne_null _⟩
  · cases hvalue

mutual

/-- A query of a search body has no bound that is set to `null`. By recursion on the value, along
    the recursion of reading. -/
theorem nullFree_ofJson : ∀ {value : Json} {query : Query}, ofJson value = .ok query →
    query.AllLeaves NullFree
  | .null, _, h => by
    rw [ofJson] at h
    cases h
    trivial
  | .obj members, _, h => by
    rw [ofJson] at h
    exact nullFree_readObject h
  | .bool _, _, h | .num _, _, h | .str _, _, h | .arr _, _, h => by
    simp [ofJson] at h

-- The reader of queries calls the readers of its parts, so the lemmas call each other in the same
-- way. The recursion is on the value that is read.
theorem nullFree_readObject : ∀ {members : List (String × Json)} {query : Query},
    readObject members = .ok query → query.AllLeaves NullFree
  | [], _, h => by
    rw [readObject] at h
    cases h
    trivial
  | [(kind, body)], _, h => by
    rw [readObject] at h
    exact nullFree_readKind kind h
  | _ :: _ :: _, _, h => by
    simp [readObject] at h

/-- The body of a query of some kind, whatever the kind is. -/
theorem nullFree_readKind (kind : String) : ∀ {body : Json} {query : Query},
    readKind kind body = .ok query → query.AllLeaves NullFree
  | .obj members, query, h => by
    rw [readKind.eq_def] at h
    simp only at h
    split at h
    · -- A query of clauses has the leaves of all its clauses.
      rcases Outcome.bind_eq_ok_iff.mp h with ⟨must, hmust, h⟩
      rcases Outcome.bind_eq_ok_iff.mp h with ⟨mustNot, hmustNot, h⟩
      rcases Outcome.bind_eq_ok_iff.mp h with ⟨should, hshould, h⟩
      rcases Outcome.bind_eq_ok_iff.mp h with ⟨filter, hfilter, h⟩
      cases h
      simp only [AllLeaves]
      exact ⟨eachNullFree_readClause _ hmust, eachNullFree_readClause _ hmustNot,
        eachNullFree_readClause _ hshould, eachNullFree_readClause _ hfilter⟩
    · exact nullFree_readWords h
    · exact nullFree_readWildcard h
    · exact nullFree_readTerm h
    · exact nullFree_readTerms h
    · exact nullFree_readExists h
    · split at h
      · cases h
      · rcases Outcome.map_eq_ok_iff.mp h with ⟨inner, hinner, rfl⟩
        simp only [AllLeaves]
        exact nullFree_readInner hinner
    · exact nullFree_readRange h
    · cases h
      trivial
    · cases h
      trivial
  | .null, _, h | .bool _, _, h | .num _, _, h | .str _, _, h | .arr _, _, h => by
    rw [readKind.eq_def] at h
    simp only at h
    split at h <;> cases h <;> trivial

-- The clauses under one name are found among the members.
theorem eachNullFree_readClause (clause : String) :
    ∀ {members : List (String × Json)} {queries : List Query},
      readClause clause members = .ok queries → EachAllLeaves NullFree queries
  | [], _, h => by
    rw [readClause] at h
    cases h
    trivial
  | (name, value) :: rest, _, h => by
    rw [readClause] at h
    split at h
    · exact eachNullFree_readClauses clause h
    · exact eachNullFree_readClause clause h

-- They are read from an array, or from a single query.
theorem eachNullFree_readClauses (clause : String) : ∀ {value : Json} {queries : List Query},
    readClauses clause value = .ok queries → EachAllLeaves NullFree queries
  | .null, _, h => by
    rw [readClauses] at h
    cases h
    trivial
  | .arr queries, _, h => by
    rw [readClauses] at h
    exact eachNullFree_readAll h
  | .obj members, _, h => by
    rw [readClauses] at h
    rcases Outcome.map_eq_ok_iff.mp h with ⟨query, hquery, rfl⟩
    simp only [EachAllLeaves, and_true]
    -- A single clause is read as a list of one.
    exact nullFree_readObject hquery
  | .bool _, _, h | .num _, _, h | .str _, _, h => by
    simp [readClauses] at h

/-- Queries in an array are read one by one. -/
theorem eachNullFree_readAll : ∀ {values : List Json} {queries : List Query},
    readAll values = .ok queries → EachAllLeaves NullFree queries
  | [], _, h => by
    rw [readAll] at h
    cases h
    trivial
  | value :: rest, _, h => by
    rw [readAll] at h
    split at h
    · cases h
    · rename_i query hquery
      rcases Outcome.map_eq_ok_iff.mp h with ⟨others, hothers, rfl⟩
      simp only [EachAllLeaves]
      exact ⟨nullFree_ofJson hquery, eachNullFree_readAll hothers⟩

-- The inner query of a nested one is found among the members, too.
theorem nullFree_readInner : ∀ {members : List (String × Json)} {query : Query},
    readInner members = .ok query → query.AllLeaves NullFree
  | [], _, h => by simp [readInner] at h
  | (name, value) :: rest, _, h => by
    rw [readInner.eq_def] at h
    simp only at h
    split at h
    · split at h
      · cases h
      · exact nullFree_ofJson h
    · exact nullFree_readInner h

end

/-! ### What is lost -/

-- All bounds that are set have to be numbers, and `null` is none.
theorem nullFree_of_limits? {bounds : Bounds} {limits : List Limit}
    (h : limits? bounds = some limits) : bounds.NullFree := by
  have hset (kind : BoundKind) : (kind, Json.null) ∉ boundsOf bounds := fun hmem => by
    rw [limits?, Outcome.mapM_eq_none_of_mem hmem rfl] at h
    exact absurd h (by simp)
  refine ⟨fun hgt => hset .gt ?_, fun hgte => hset .gte ?_, fun hlt => hset .lt ?_,
    fun hlte => hset .lte ?_⟩
  · simp [boundsOf, hgt]
  · simp [boundsOf, hgte]
  · simp [boundsOf, hlt]
  · simp [boundsOf, hlte]

/-- A range with a bound that is set to `null` finds nothing. -/
theorem compile_range_of_null (schema : Schema) (field : String) {bounds : Bounds}
    (h : ¬ bounds.NullFree) :
    compile schema (.range field bounds) = .ok (.zero (.nonNumericRange field)) := by
  rw [compile]
  cases hlimits : limits? bounds with
  | none => rfl
  | some limits => exact absurd (nullFree_of_limits? hlimits) h

/-- A query with finite boosts can be read back. What is read is the same query exactly if no bound
    in it is set to `null`, and it then compiles to the same scorer under every schema. The queries
    of search bodies have no such bounds. -/
theorem reads_back_iff (query : Query) (hfinite : query.AllLeaves FiniteBoost) :
    ∃ read, decode? query.encode = some read
      ∧ (read = query ↔ query.AllLeaves NullFree)
      ∧ (query.AllLeaves NullFree → ∀ schema, compile schema read = compile schema query)
      ∧ ∀ value, ofJson value = .ok query → read = query := by
  have hread := withoutNulls_eq_self_iff query
  refine ⟨query.withoutNulls, decode?_encode hfinite, hread, fun hfree schema => ?_,
    fun value hok => hread.mpr (nullFree_ofJson hok)⟩
  rw [hread.mpr hfree]

/-- Adults with a name. -/
def namedAdults : Query :=
  .boolean [.range "age" (({} : Bounds).set .gte (.ofNat 18))] [.termOf "name" .null] []
    [.fieldExists "name"]

/-- A query with a bound that is a number is read back. -/
theorem reads_back_adults : decode? namedAdults.encode = some namedAdults := by
  have hfinite : namedAdults.AllLeaves FiniteBoost := by
    simp only [namedAdults, AllLeaves, EachAllLeaves, FiniteBoost, termOf, and_true, true_and]
    decide
  have hfree : namedAdults.AllLeaves NullFree := by
    have hempty : ({} : Bounds).NullFree := by constructor <;> simp
    simp only [namedAdults, AllLeaves, EachAllLeaves, NullFree, termOf, and_true]
    exact hempty.set .gte (by simp [Json.ofNat])
  rcases reads_back_iff namedAdults hfinite with ⟨read, hread, hsame, _⟩
  rw [hread, hsame.mpr hfree]

/-- A range from one age on, whose other end is set to `null`. -/
def openEnded : Query :=
  .range "age" ((({} : Bounds).set .gte (.ofNat 18)).set .lt .null)

/-- It is read back without that end, and then finds what it did not find before. -/
theorem open_ended_reads_back_unset :
    let read : Query := .range "age" (({} : Bounds).set .gte (.ofNat 18))
    let schema : Schema := ⟨"people", [], []⟩
    let document : Json := .obj [("age", .ofNat 30)]
    decode? openEnded.encode = some read ∧ read ≠ openEnded
      ∧ (∃ scorer, compile schema openEnded = .ok scorer ∧ scorer.score document = 0.0)
      ∧ ∃ scorer, compile schema read = .ok scorer ∧ scorer.score document = 1.0 := by
  have hnull : ¬ ((({} : Bounds).set .gte (.ofNat 18)).set .lt .null).NullFree :=
    fun hfree => hfree.lt rfl
  refine ⟨?_, ?_, ⟨_, compile_range_of_null _ _ hnull, ?_⟩, ⟨_, rfl, ?_⟩⟩
  · rw [decode?_encode (by simp only [openEnded, AllLeaves, FiniteBoost])]
    rfl
  · simp [openEnded, Bounds.set]
  · rfl
  · decide

end Query

end DocSearch
