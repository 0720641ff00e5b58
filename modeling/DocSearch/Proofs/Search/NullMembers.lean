import DocSearch.Proofs.Keyed
import DocSearch.Proofs.Outcome
import DocSearch.Search.Request

/-!
# Null Members

What a member that is null does to the body of a search.

It should do nothing, as if it were not there. Each member has a reader of its own, and all of them
take null for nothing that is asked for. Only the aggregations go by two names. There the first name
is looked for, and the second one if the first is not found, before anybody asks whether what was
found is null. So a null under the first name hides what stands under the second, and a body with
aggregations is read as one without.

Apart from this no null makes a difference, whichever members are there besides. Where one does, the
same request is read only if nothing is lost: because the hidden object is empty, or because the
body is refused for another member in any case.

## Main definitions

* `memberOrNull`: The member of an object, or null.
* `AddsNull`: Two objects that differ in one member, which is null.
* `SearchRequest.aggregationTree`: The aggregations that a body is taken to ask for.
* `SearchRequest.ReadsOthers`: What is read from the other members.
* `SearchRequest.Hides`: A null that hides aggregations.

## Theorems

* `addsNull_insert`, `addsNull_erase`: A null that is added, and one that is taken away.
* `readMember_obj`: A reader that takes null for nothing.
* `ofJson_eq_ok_iff`: A body is read if all its members are.
* `ofJson_congr`: Bodies with the same members up to nulls.
* `aggregationTree_of_addsNull`: A null that leaves the aggregations as they are.
* `same_requests_iff_of_hides`: When it does not matter that aggregations are hidden.
* `null_hides_aggregations`: Aggregations that are lost.
* `null_member_ignored_iff`: When a null makes no difference.
-/

namespace DocSearch

/-- The member of an object, where a missing one is as good as null. -/
def memberOrNull (name : String) (members : List (String × Json)) : Json :=
  (Keyed.get? name members).getD .null

/-- The second object is the first with one more member, which is null. -/
structure AddsNull (name : String) (before after : List (String × Json)) : Prop where
  missing : Keyed.get? name before = none
  null : Keyed.get? name after = some .null
  others : ∀ other, other ≠ name → Keyed.get? other after = Keyed.get? other before

variable {name : String} {members before after : List (String × Json)}

/-- Inserting a null under a name that is missing adds a null. -/
theorem addsNull_insert (h : Keyed.get? name members = none) :
    AddsNull name members (Keyed.insert name .null members) where
  missing := h
  null := by rw [Keyed.get?_insert, if_pos rfl]
  others other hother := by rw [Keyed.get?_insert, if_neg (Ne.symm hother)]

/-- Erasing a member that is null undoes the adding of it. -/
theorem addsNull_erase (h : Keyed.get? name members = some .null) :
    AddsNull name (Keyed.erase name members) members where
  missing := by rw [Keyed.get?_erase, if_pos rfl]
  null := h
  others other hother := by rw [Keyed.get?_erase, if_neg (Ne.symm hother)]

/-- Readers that take a missing member as null do not see an added null. -/
theorem AddsNull.memberOrNull_eq (h : AddsNull name before after) (other : String) :
    memberOrNull other after = memberOrNull other before := by
  unfold memberOrNull
  by_cases hother : other = name
  · subst hother
    rw [h.null, h.missing]
    rfl
  · rw [h.others other hother]

theorem Json.get?_obj (name : String) (members : List (String × Json)) :
    (Json.obj members).get? name = Keyed.get? name members := rfl

/-- A member counts as present when it is there and not null. -/
theorem Json.present?_obj (name : String) (members : List (String × Json)) :
    (Json.obj members).present? name
      = if (memberOrNull name members).isNull then none else some (memberOrNull name members) := by
  rw [present?, get?_obj, memberOrNull]
  cases Keyed.get? name members with
  | none => rfl
  | some member => cases member <;> rfl

namespace SearchRequest

variable {config : Config} {request : SearchRequest}

/-! ### Readers -/

/-- A reader that takes null for what is read in its absence does not tell the two apart. -/
theorem readMember_obj {α : Type} {default : α} {read : Json → Except Error α}
    (h : read .null = .ok default) (name : String) (members : List (String × Json)) :
    readMember (.obj members) name default read = read (memberOrNull name members) := by
  rw [readMember, Json.get?_obj, memberOrNull]
  cases Keyed.get? name members with
  | none => exact h.symm
  | some member => rfl

theorem readCount_congr {default : Nat} (h : memberOrNull name after = memberOrNull name before) :
    readCount (.obj after) name default = readCount (.obj before) name default := by
  rw [readCount, readCount, Json.present?_obj, Json.present?_obj, h]

/-- The aggregations that a body is taken to ask for: what stands under the first name, if that is
    there, or else under the second. -/
def aggregationTree (members : List (String × Json)) : Json :=
  ((Keyed.get? "aggregations" members).or (Keyed.get? "aggs" members)).getD .null

/-- Aggregations are read from one of two members, and the one that is read is chosen by which
    members there are. -/
theorem readAggregations_obj (config : Config) (members : List (String × Json)) :
    readAggregations config (.obj members)
      = if (aggregationTree members).isNull then .ok []
        else Aggregation.namedOfJson config.defaultBucketSize (aggregationTree members) := by
  rw [readAggregations, Json.get?_obj, Json.get?_obj, aggregationTree]
  cases (Keyed.get? "aggregations" members).or (Keyed.get? "aggs" members) with
  | none => rfl
  | some tree => cases tree <;> rfl

/-- Only the empty object asks for no aggregations. -/
theorem namedOfJson_eq_nil_iff {size : Nat} {tree : Json} :
    Aggregation.namedOfJson size tree = .ok [] ↔ tree = .obj [] := by
  constructor
  · intro h
    cases tree with
    | obj members =>
      cases members with
      | nil => rfl
      | cons member rest =>
        -- Every member of the tree is read as one aggregation.
        rcases Outcome.mapM_cons_eq_ok_iff.mp h with ⟨first, others, -, -, hnil⟩
        exact absurd hnil (List.cons_ne_nil first others).symm
    | _ => exact absurd h (by simp [Aggregation.namedOfJson])
  · rintro rfl
    rfl

/-! ### Bodies -/

/-- The parts of a request that are read from the members of a body, aggregations apart. -/
structure ReadsOthers (config : Config) (members : List (String × Json))
    (request : SearchRequest) : Prop where
  query : Query.ofJson (memberOrNull "query" members) = .ok request.query
  sort : SortKey.listOfJson (memberOrNull "sort" members) = .ok request.sort
  highlight : readHighlight (memberOrNull "highlight" members) = .ok request.highlight
  source : SourceFilter.ofJson (memberOrNull "_source" members) = .ok request.source
  start : readCount (.obj members) "from" 0 = .ok request.start
  size : readCount (.obj members) "size" config.defaultPageSize = .ok request.size
  scroll : request.scroll = none

/-- A body is read if all its members are, and the request holds what each of them is read as. -/
theorem ofJson_eq_ok_iff :
    ofJson config (.obj members) = .ok request
      ↔ ReadsOthers config members request
        ∧ readAggregations config (.obj members) = .ok request.aggregations := by
  have hobject : (!(Json.obj members).isObject && !(Json.obj members).isNull) = false := rfl
  have hquery := @readMember_obj _ .all Query.ofJson rfl "query" members
  have hsort := @readMember_obj _ [] SortKey.listOfJson rfl "sort" members
  have hhighlight := @readMember_obj _ none readHighlight rfl "highlight" members
  have hsource := @readMember_obj _ .all SourceFilter.ofJson rfl "_source" members
  rw [ofJson, hquery, hsort, hhighlight, hsource, hobject, if_neg Bool.false_ne_true]
  -- The members are read one after another. That of the aggregations is the only one whose reader
  -- tells a null from no member.
  simp only [Outcome.bind_eq_ok_iff]
  constructor
  · rintro ⟨query, hquery, aggregations, haggregations, sort, hsort, highlight, hhighlight, source,
      hsource, start, hstart, size, hsize, hrequest⟩
    rw [← Except.ok.inj hrequest]
    exact ⟨⟨hquery, hsort, hhighlight, hsource, hstart, hsize, rfl⟩, haggregations⟩
  · intro ⟨hothers, haggregations⟩
    refine ⟨_, hothers.query, _, haggregations, _, hothers.sort, _, hothers.highlight, _,
      hothers.source, _, hothers.start, _, hothers.size, congrArg Except.ok ?_⟩
    have hscroll := hothers.scroll
    cases request
    rw [SearchRequest.mk.injEq]
    exact ⟨rfl, rfl, rfl, rfl, rfl, rfl, rfl, hscroll.symm⟩

/-- The other parts do not depend on the aggregations. -/
theorem ReadsOthers.withAggregations (h : ReadsOthers config members request)
    (aggregations : List (String × Aggregation)) :
    ReadsOthers config members { request with aggregations } :=
  ⟨h.query, h.sort, h.highlight, h.source, h.start, h.size, h.scroll⟩

/-- All other members are read through readers that do not see the null. -/
theorem ReadsOthers.of_addsNull (h : AddsNull name before after)
    (hothers : ReadsOthers config before request) : ReadsOthers config after request where
  query := by rw [h.memberOrNull_eq, hothers.query]
  sort := by rw [h.memberOrNull_eq, hothers.sort]
  highlight := by rw [h.memberOrNull_eq, hothers.highlight]
  source := by rw [h.memberOrNull_eq, hothers.source]
  start := by rw [readCount_congr (h.memberOrNull_eq _), hothers.start]
  size := by rw [readCount_congr (h.memberOrNull_eq _), hothers.size]
  scroll := hothers.scroll

theorem readAggregations_congr (config : Config)
    (h : aggregationTree after = aggregationTree before) :
    readAggregations config (.obj after) = readAggregations config (.obj before) := by
  rw [readAggregations_obj, readAggregations_obj, h]

/-- Bodies with the same members up to nulls are read alike, if the same aggregations are read. -/
theorem ofJson_congr
    (h : ∀ name, name ≠ "aggs" → memberOrNull name after = memberOrNull name before)
    (haggregations : readAggregations config (.obj after)
      = readAggregations config (.obj before)) :
    ofJson config (.obj after) = ofJson config (.obj before) := by
  have hmember {α : Type} (default : α) (read : Json → Except Error α)
      (hread : read .null = .ok default) (name : String) (hname : name ≠ "aggs") :
      readMember (.obj after) name default read = readMember (.obj before) name default read := by
    rw [readMember_obj hread, readMember_obj hread, h name hname]
  rw [ofJson, ofJson, haggregations, hmember _ Query.ofJson rfl "query" (by decide),
    hmember _ SortKey.listOfJson rfl "sort" (by decide),
    hmember _ readHighlight rfl "highlight" (by decide),
    hmember _ SourceFilter.ofJson rfl "_source" (by decide),
    readCount_congr (h "from" (by decide)), readCount_congr (h "size" (by decide))]
  rfl

/-! ### Nulls -/

/-- A null under the first name of the aggregations hides what a body has under the second. -/
structure Hides (name : String) (members : List (String × Json)) : Prop where
  first : name = "aggregations"
  second : memberOrNull "aggs" members ≠ .null

/-- A null that hides no aggregations leaves them as they are. -/
theorem aggregationTree_of_addsNull (h : AddsNull name before after)
    (hhides : ¬ Hides name before) : aggregationTree after = aggregationTree before := by
  have hsecond := h.memberOrNull_eq "aggs"
  unfold memberOrNull at hsecond
  unfold aggregationTree
  by_cases hname : name = "aggregations"
  · subst hname
    rw [h.null, h.missing, Option.some_or, Option.none_or, Option.getD_some]
    -- Under the first name the null takes the place of the second member, and unless that is hidden
    -- it was null as well.
    by_contra hne
    exact hhides ⟨rfl, fun hnull => hne hnull.symm⟩
  · rw [h.others "aggregations" (Ne.symm hname)]
    cases Keyed.get? "aggregations" before with
    | none => exact hsecond
    | some tree => rfl

/-- A null that hides aggregations makes the body one without them. -/
theorem ofJson_of_hides (config : Config) (h : AddsNull name before after)
    (hhides : Hides name before) :
    ofJson config (.obj after) = ofJson config (.obj (Keyed.erase "aggs" before)) := by
  rcases hhides with ⟨rfl, -⟩
  refine ofJson_congr (fun other hother => ?_) (readAggregations_congr config ?_)
  · rw [h.memberOrNull_eq other, memberOrNull, memberOrNull, Keyed.get?_erase,
      if_neg (Ne.symm hother)]
  · rw [aggregationTree, aggregationTree, h.null, Keyed.get?_erase, Keyed.get?_erase,
      if_neg (by decide), if_pos rfl, h.missing]
    rfl

/-- Where a null hides aggregations the same requests are read only if these are none, or if the
    body is refused in any case. -/
theorem same_requests_iff_of_hides (h : AddsNull name before after) (hhides : Hides name before) :
    (∀ request, ofJson config (.obj after) = .ok request
        ↔ ofJson config (.obj before) = .ok request)
      ↔ memberOrNull "aggs" before = .obj []
        ∨ ∀ request, ofJson config (.obj after) ≠ .ok request := by
  rcases hhides with ⟨rfl, hsome⟩
  have hafter : readAggregations config (.obj after) = .ok [] := by
    rw [readAggregations_obj, aggregationTree, h.null]
    rfl
  have hbefore : readAggregations config (.obj before)
      = Aggregation.namedOfJson config.defaultBucketSize (memberOrNull "aggs" before) := by
    have htree : aggregationTree before = memberOrNull "aggs" before := by
      rw [aggregationTree, h.missing]
      rfl
    rw [readAggregations_obj, htree]
    cases hmember : memberOrNull "aggs" before with
    | null => exact absurd hmember hsome
    | _ => rfl
  -- What is read from the body without the null is read from the other without aggregations.
  have hemptied : ∀ request, ofJson config (.obj before) = .ok request →
      ofJson config (.obj after) = .ok { request with aggregations := [] } := by
    intro request hrequest
    have hothers := (ofJson_eq_ok_iff.mp hrequest).1
    exact ofJson_eq_ok_iff.mpr ⟨(hothers.of_addsNull h).withAggregations [], hafter⟩
  constructor
  · -- When the requests are the same: either some request is read, and then its aggregations are
    -- empty and also those of the hidden member, or none is.
    intro hsame
    by_cases hread : ∃ request, ofJson config (.obj after) = .ok request
    · rcases hread with ⟨request, hrequest⟩
      have hnil := (ofJson_eq_ok_iff.mp hrequest).2
      have hnamed := (ofJson_eq_ok_iff.mp ((hsame request).mp hrequest)).2
      rw [hafter, Except.ok.injEq] at hnil
      rw [hbefore, ← hnil] at hnamed
      exact .inl (namedOfJson_eq_nil_iff.mp hnamed)
    · exact .inr (not_exists.mp hread)
  · rintro (hempty | hrefused) request
    · have hnone : readAggregations config (.obj before) = .ok [] := by
        rw [hbefore, namedOfJson_eq_nil_iff, hempty]
      rw [ofJson_congr (fun other _ => h.memberOrNull_eq other) (hafter.trans hnone.symm)]
    · constructor
      · intro hrequest
        exact absurd hrequest (hrefused request)
      · intro hrequest
        exact absurd (hemptied request hrequest) (hrefused _)

/-- A body that asks for aggregations. -/
def teams : List (String × Json) :=
  [("aggs", .obj [("teams", .obj [("terms", .obj [("field", .str "team")])])])]

/-- The aggregations of a body are read, and with a null under their first name they are not. -/
theorem null_hides_aggregations :
    let config : Config := {}
    let asked (members : List (String × Json)) : Except Error (List (String × Aggregation)) :=
      (ofJson config (.obj members)).map (·.aggregations)
    AddsNull "aggregations" teams (Keyed.insert "aggregations" .null teams)
      ∧ asked teams = .ok [("teams", .terms ⟨"team", 10⟩)]
      ∧ asked (Keyed.insert "aggregations" .null teams) = .ok [] :=
  ⟨addsNull_insert rfl, rfl, rfl⟩

/-- For every configuration and all bodies that differ in one member, which is null in one and
    missing in the other: both are read alike, with the same request or the same error, unless the
    null hides aggregations. In this case the aggregations are read as if they were not there, and
    the same requests are read only if they are the empty object, or if none is read from the body
    with the null. -/
theorem null_member_ignored_iff (config : Config) (h : AddsNull name before after) :
    (¬ Hides name before → ofJson config (.obj after) = ofJson config (.obj before))
      ∧ (Hides name before →
        ofJson config (.obj after) = ofJson config (.obj (Keyed.erase "aggs" before))
          ∧ ((∀ request, ofJson config (.obj after) = .ok request
                ↔ ofJson config (.obj before) = .ok request)
              ↔ memberOrNull "aggs" before = .obj []
                ∨ ∀ request, ofJson config (.obj after) ≠ .ok request)) := by
  refine ⟨fun hhides => ?_, fun hhides => ⟨ofJson_of_hides config h hhides, ?_⟩⟩
  · exact ofJson_congr (fun other _ => h.memberOrNull_eq other)
      (readAggregations_congr config (aggregationTree_of_addsNull h hhides))
  · exact same_requests_iff_of_hides h hhides

/-- From a body with aggregations under the second name a null sort can be taken away. A null under
    the first name changes what is read. -/
theorem null_member_ignored_iff_teams :
    let config : Config := {}
    let unsorted : List (String × Json) := teams ++ [("sort", .null)]
    ofJson config (.obj unsorted) = ofJson config (.obj (Keyed.erase "sort" unsorted))
      ∧ ¬ ∀ request, ofJson config (.obj (Keyed.insert "aggregations" .null teams)) = .ok request
          ↔ ofJson config (.obj teams) = .ok request := by
  intro config unsorted
  constructor
  · refine (null_member_ignored_iff config (addsNull_erase rfl)).1 fun hhides => ?_
    exact absurd hhides.first (by decide)
  · intro hsame
    have hhides : Hides "aggregations" teams := ⟨rfl, by simp [memberOrNull, teams, Keyed.get?]⟩
    have hiff := ((null_member_ignored_iff config (addsNull_insert rfl)).2 hhides).2
    rcases hiff.mp hsame with hempty | hrefused
    · exact absurd hempty (by simp [memberOrNull, teams, Keyed.get?])
    · exact hrefused _ rfl

end SearchRequest

end DocSearch
