import DocSearch.Proofs.Json.Order
import DocSearch.Proofs.Mapping.Reading
import Mathlib.Data.List.Nodup

/-!
# Fields of a Mapping Tree

Which fields a mapping tree has, and what its flat mappings say about a path.

A field has a place in the tree: its name, behind the names of the fields around it. Reading goes
through all places, a field behind the fields inside it and siblings in key order, and the path of
a place is its names with dots between them. Two places can have one path, since a name may have
dots in it and a name may be empty. The last of them counts.

Reading is told in three steps. The places are listed in the order of the visit, by a list that
knows nothing of paths and of what may go wrong. This list holds what the tree reaches and is
sorted by the order of the visit. And the entries that reading makes are those of the list, one by
one, although the definitions are checked in another order than they are entered in.

## Main definitions

* `FieldType.Named`, `Json.GivesType`: The type that a definition gives to its field.
* `Json.ListsTargets`, `Json.IsFieldDefinition`: The values that define fields.
* `MappingTree.Reaches`: The fields of a tree, with their places.
* `MappingTree.VisitedBefore`: The order of the visit.
* `MappingTree.dottedPath`: The path of a place.
* `MappingTree.LastVisited`: The field that decides about a path.
* `MappingTree.visits`: The fields of a tree, in the order of the visit.

## Theorems

* `typeOf_eq_iff`: What is read as the type is the type that is given.
* `fieldsBelow_cons`: One field, the fields inside it and the fields behind it.
* `mem_visits_iff`, `pairwise_visits`: All fields are visited, in order.
* `decides_fieldsBelow`: Reading accepts the trees in which every field is defined well.
* `entered_of_fieldsBelow`: It makes one entry for every visit.
* `get?_flatten_eq_some_iff`: The last visit to a path counts.
* `ofTree_flattens`: What is read from a tree, and what it says about every path.
-/

namespace DocSearch

/-! ### Definitions of fields -/

/-- The types that a definition can name, with their names. -/
inductive FieldType.Named : String → FieldType → Prop where
  | text : Named "text" .text
  | keyword : Named "keyword" .keyword
  | long : Named "long" .long
  | integer : Named "integer" .integer
  | short : Named "short" .short
  | byte : Named "byte" .byte
  | double : Named "double" .double
  | float : Named "float" .float
  | boolean : Named "boolean" .boolean
  | date : Named "date" .date
  | nested : Named "nested" .nested
  | object : Named "object" .object

namespace Json

/-- The type that a definition gives. A text that names no type is kept as it is. Without a text it
    is the properties that make an object, whatever they are. -/
inductive GivesType (definition : Json) : FieldType → Prop where
  | named {name : String} {fieldType : FieldType} (h : definition.get? "type" = some (.str name))
      (hnamed : FieldType.Named name fieldType) : GivesType definition fieldType
  | verbatim {name : String} (h : definition.get? "type" = some (.str name))
      (hunnamed : ∀ fieldType, ¬ FieldType.Named name fieldType) :
      GivesType definition (.other name)
  | object (h : ∀ name, definition.get? "type" ≠ some (.str name))
      (hproperties : definition.get? "properties" ≠ none) : GivesType definition .object
  | missing (h : ∀ name, definition.get? "type" ≠ some (.str name))
      (hproperties : definition.get? "properties" = none) : GivesType definition (.other "")

/-- The copy targets that a definition lists. -/
inductive ListsTargets (definition : Json) : List String → Prop where
  | absent (h : definition.get? "copy_to" = none) : ListsTargets definition []
  | null (h : definition.get? "copy_to" = some .null) : ListsTargets definition []
  | one {target : String} (h : definition.get? "copy_to" = some (.str target)) :
      ListsTargets definition [target]
  | many {targets : List String}
      (h : definition.get? "copy_to" = some (.arr (targets.map .str))) :
      ListsTargets definition targets

attribute [mk_iff] ListsTargets

/-- The values that define a field: objects with copy targets that can be read. -/
structure IsFieldDefinition (definition : Json) : Prop where
  isObject : definition.isObject = true
  listsTargets : ∃ targets, definition.ListsTargets targets

end Json

/-! ### Reading a definition -/

/-- A name is read as the type that it names. -/
theorem FieldType.ofName_of_named {name : String} {fieldType : FieldType}
    (h : Named name fieldType) : ofName name = fieldType := by
  cases h <;> rfl

/-- A name is read as the type that it names, and otherwise kept. -/
theorem FieldType.ofName_cases (name : String) :
    Named name (ofName name)
      ∨ ofName name = .other name ∧ ∀ fieldType, ¬ Named name fieldType := by
  by_cases hnamed : ∃ fieldType, Named name fieldType
  · rcases hnamed with ⟨fieldType, hnamed⟩
    rw [ofName_of_named hnamed]
    exact .inl hnamed
  · have hunnamed : ∀ fieldType, ¬ Named name fieldType := not_exists.mp hnamed
    refine .inr ⟨?_, hunnamed⟩
    -- Each name that is told apart names a type, so the last case is left.
    unfold ofName
    split
    · exact absurd .text (hunnamed _)
    · exact absurd .keyword (hunnamed _)
    · exact absurd .long (hunnamed _)
    · exact absurd .integer (hunnamed _)
    · exact absurd .short (hunnamed _)
    · exact absurd .byte (hunnamed _)
    · exact absurd .double (hunnamed _)
    · exact absurd .float (hunnamed _)
    · exact absurd .boolean (hunnamed _)
    · exact absurd .date (hunnamed _)
    · exact absurd .nested (hunnamed _)
    · exact absurd .object (hunnamed _)
    · rfl

namespace FieldMapping

-- A text under `type` decides about the type alone, and any other value there is as good as none.
theorem typeOf_cases (definition : Json) :
    (∃ name, definition.get? "type" = some (.str name) ∧ typeOf definition = .ofName name)
      ∨ (∀ name, definition.get? "type" ≠ some (.str name))
        ∧ typeOf definition
          = if (definition.get? "properties").isSome then .object else .other "" := by
  unfold typeOf
  cases definition.get? "type" with
  | none => exact .inr ⟨by simp, rfl⟩
  | some value =>
    cases value with
    | str name => exact .inl ⟨name, rfl, rfl⟩
    | _ => exact .inr ⟨by simp, rfl⟩

/-- What is read as the type of a definition is the type that it gives. -/
theorem typeOf_eq_iff {definition : Json} {fieldType : FieldType} :
    typeOf definition = fieldType ↔ definition.GivesType fieldType := by
  rcases typeOf_cases definition with ⟨name, hname, htype⟩ | ⟨hother, htype⟩
  · rw [htype]
    constructor
    · rintro rfl
      rcases FieldType.ofName_cases name with hnamed | ⟨hkept, hunnamed⟩
      · exact .named hname hnamed
      · rw [hkept]
        exact .verbatim hname hunnamed
    · -- Whatever gives the type looks at the same text.
      intro hgives
      cases hgives with
      | named h hnamed =>
        cases hname.symm.trans h
        exact FieldType.ofName_of_named hnamed
      | verbatim h hunnamed =>
        cases hname.symm.trans h
        rcases FieldType.ofName_cases name with hnamed | ⟨hkept, _⟩
        · exact absurd hnamed (hunnamed _)
        · exact hkept
      | object h _ => exact absurd hname (h name)
      | missing h _ => exact absurd hname (h name)
  · rw [htype]
    constructor
    · rintro rfl
      by_cases hproperties : definition.get? "properties" = none
      · rw [hproperties]
        exact .missing hother hproperties
      · rw [if_pos (Option.isSome_iff_ne_none.mpr hproperties)]
        exact .object hother hproperties
    · intro hgives
      cases hgives with
      | named h _ => exact absurd h (hother _)
      | verbatim h _ => exact absurd h (hother _)
      | object _ hproperties => exact if_pos (Option.isSome_iff_ne_none.mpr hproperties)
      | missing _ hproperties => simp [hproperties]

-- What can be read from a single value is a text, so an array of texts is read element by element.
theorem mapM_eq_ok_iff_of_texts {read : Json → Except Error String}
    (h : ∀ value text, read value = .ok text ↔ value = .str text) {elements : List Json}
    {texts : List String} : elements.mapM read = .ok texts ↔ elements = texts.map .str := by
  induction elements generalizing texts with
  | nil => simp [pure, Except.pure, eq_comm]
  | cons element rest ih =>
    simp only [Outcome.mapM_cons_eq_ok_iff, h, ih]
    constructor
    · rintro ⟨text, others, rfl, rfl, rfl⟩
      rfl
    · intro heq
      -- The texts have as many elements as what they were read from.
      cases texts with
      | nil => cases heq
      | cons text others =>
        rw [List.map_cons, List.cons.injEq] at heq
        exact ⟨text, others, heq.1, heq.2, rfl⟩

/-- What is read as the copy targets is what the definition lists. -/
theorem copyTargetsOf_eq_ok_iff {path : String} {definition : Json} {targets : List String} :
    copyTargetsOf path definition = .ok targets ↔ definition.ListsTargets targets := by
  rw [Json.listsTargets_iff, copyTargetsOf, Json.present?]
  cases definition.get? "copy_to" with
  | none => simp [eq_comm]
  | some value =>
    cases value with
    | arr elements =>
      refine (mapM_eq_ok_iff_of_texts fun value text => ?_).trans (by simp)
      cases value <;> simp [Json.asText?]
    | _ => simp [eq_comm]

/-- Everything else under their name is refused. -/
theorem decides_copyTargetsOf (path : String) (definition : Json) :
    Decides (copyTargetsOf path definition) (∃ targets, definition.ListsTargets targets) := by
  refine ⟨exists_congr fun _ => copyTargetsOf_eq_ok_iff, fun error h => ?_⟩
  rw [copyTargetsOf] at h
  split at h
  · cases h
  · cases h
  · rcases Outcome.error_of_mapM h with ⟨target, _, htarget⟩
    split at htarget <;> cases htarget
    rfl
  · cases h
    rfl

/-- An object is read as the type that it gives and the copy targets that it lists. -/
theorem ofDefinition_eq_ok_iff {path : String} {definition : Json} {mapping : FieldMapping} :
    ofDefinition path definition = .ok mapping
      ↔ definition.isObject = true ∧ definition.GivesType mapping.fieldType
        ∧ definition.ListsTargets mapping.copyTo := by
  rw [ofDefinition, ← typeOf_eq_iff]
  by_cases hobject : definition.isObject = true
  · rw [if_pos hobject, Outcome.map_eq_ok_iff]
    simp only [copyTargetsOf_eq_ok_iff, hobject, true_and]
    constructor
    · rintro ⟨targets, htargets, rfl⟩
      exact ⟨rfl, htargets⟩
    · rintro ⟨htype, htargets⟩
      refine ⟨mapping.copyTo, htargets, ?_⟩
      rw [htype]
  · simp [hobject]

/-- The definitions that are read are those of fields. -/
theorem decides_ofDefinition (path : String) (definition : Json) :
    Decides (ofDefinition path definition) definition.IsFieldDefinition := by
  rw [ofDefinition]
  split
  · next hobject =>
    exact ((decides_copyTargetsOf path definition).map _).congr
      ⟨fun htargets => ⟨hobject, htargets⟩, fun h => h.listsTargets⟩
  · next hobject => exact Decides.of_error rfl fun h => hobject h.isObject

end FieldMapping

namespace MappingTree

/-! ### Places in a tree -/

/-- The fields inside a field. A definition without an object of properties has none. -/
def fieldsOf (definition : Json) : List (String × Json) :=
  ((definition.get? "properties").bind Json.asObject?).getD []

/-- The fields that some properties have, at any depth, with the names that lead to them. -/
inductive Reaches : List (String × Json) → List String → Json → Prop where
  | here {properties : List (String × Json)} {name : String} {definition : Json}
      (h : (name, definition) ∈ properties) : Reaches properties [name] definition
  | inside {properties : List (String × Json)} {name : String} {definition : Json}
      {names : List String} {inner : Json} (h : (name, definition) ∈ properties)
      (hinner : Reaches (fieldsOf definition) names inner) :
      Reaches properties (name :: names) inner

/-- The place with the first names is visited before the other one: it is inside the other one, or
    where the two part, its name comes first. -/
inductive VisitedBefore : List String → List String → Prop where
  | inside (name : String) (names : List String) : VisitedBefore (name :: names) []
  | beside {name other : String} (h : String.compare name other = .lt)
      (names others : List String) : VisitedBefore (name :: names) (other :: others)
  | within (name : String) {names others : List String} (h : VisitedBefore names others) :
      VisitedBefore (name :: names) (name :: others)

/-- The path of a place: its names with dots between them. There is no dot behind a beginning that
    has no letters. -/
def dottedPath (names : List String) : String :=
  ".".intercalate (names.dropWhile (· = ""))

/-- Of all fields with a path, the one that is visited last. -/
structure LastVisited (properties : List (String × Json)) (path : String) (names : List String)
    (definition : Json) : Prop where
  reaches : Reaches properties names definition
  path_eq : dottedPath names = path
  last : ∀ others other, Reaches properties others other → dottedPath others = path →
    others = names ∨ VisitedBefore others names

-- Two places are never before each other. The induction is on the first reason, and the other one
-- begins with the same name.
theorem VisitedBefore.asymm {names others : List String} (h : VisitedBefore names others) :
    ¬ VisitedBefore others names := by
  have hself : ∀ name : String, String.compare name name ≠ .lt := by
    intro name heq
    rw [Keyed.compare_eq_iff.mpr rfl] at heq
    cases heq
  -- By induction on the first order. Where the two lists part, the second order would compare a
  -- name with itself.
  induction h with
  | inside name names =>
    intro hback
    cases hback
  | beside hlt names others =>
    intro hback
    cases hback with
    | beside hgt => exact hself _ (Std.TransCmp.lt_trans hlt hgt)
    | within => exact hself _ hlt
  | within name _ ih =>
    intro hback
    cases hback with
    | beside hlt => exact hself _ hlt
    | within _ hback => exact ih hback

/-- Below a path that has letters every name is put behind a dot. -/
theorem foldl_childPath {parent : String} (hparent : parent ≠ "") (names : List String) :
    names.foldl childPath parent = ".".intercalate (parent :: names) := by
  induction names generalizing parent with
  | nil => rfl
  | cons name rest ih =>
    -- A path that has begun never becomes empty again, so every further name gets its dot.
    have hdot : parent ++ "." ++ name ≠ "" := by
      intro hempty
      exact hparent (by simp_all)
    rw [List.foldl_cons, childPath, if_neg hparent, ih hdot, String.intercalate_cons_cons]
    cases rest with
    | nil => rfl
    | cons next rest =>
      rw [String.intercalate_cons_cons, String.intercalate_cons_cons]
      simp only [String.append_assoc]

-- As long as names have no letters, the path stays empty, and then every name gets a dot.
theorem foldl_childPath_root (names : List String) :
    names.foldl childPath "" = dottedPath names := by
  induction names with
  | nil => rfl
  | cons name rest ih =>
    rw [List.foldl_cons, childPath, if_pos rfl, dottedPath]
    by_cases hname : name = ""
    · rw [List.dropWhile_cons_of_pos (by simpa using hname), hname]
      exact ih
    · rw [List.dropWhile_cons_of_neg (by simpa using hname)]
      exact foldl_childPath hname rest

/-! ### The order of the visit -/

/-- Either a definition has no fields, or they are its properties. -/
theorem fieldsOf_cases (definition : Json) :
    fieldsOf definition = []
      ∨ definition.get? "properties" = some (.obj (fieldsOf definition)) := by
  unfold fieldsOf
  cases definition.get? "properties" with
  | none => exact .inl rfl
  | some value =>
    cases value with
    | obj inner => exact .inr rfl
    | _ => exact .inl rfl

/-- The fields of a definition are not larger than the definition, so visiting them comes to an end.
    -/
theorem sizeOf_fieldsOf_le (definition : Json) :
    sizeOf (fieldsOf definition) ≤ sizeOf definition := by
  rcases fieldsOf_cases definition with hnil | hget
  · rw [hnil]
    cases definition <;> simp
  · have hlt := Json.sizeOf_lt_of_get? hget
    simp only [Json.obj.sizeOf_spec] at hlt
    omega

/-- The fields of a definition in key order are in key order. -/
theorem ordered_fieldsOf {definition : Json} (h : definition.Ordered) :
    (Json.obj (fieldsOf definition)).Ordered := by
  rcases fieldsOf_cases definition with hnil | hget
  · rw [hnil]
    exact .obj List.Pairwise.nil (by simp)
  · exact h.member hget

/-- The fields of some properties, in the order of the visit. -/
def visits : List (String × Json) → List (List String × Json)
  | [] => []
  | (name, definition) :: rest =>
    (visits (fieldsOf definition)).map (fun visit => (name :: visit.1, visit.2))
      ++ ([name], definition) :: visits rest
termination_by properties => sizeOf properties
decreasing_by
  · have hle := sizeOf_fieldsOf_le definition
    simp only [List.cons.sizeOf_spec, Prod.mk.sizeOf_spec]
    omega
  · simp only [List.cons.sizeOf_spec]
    omega

/-- The first name of a place is that of one of the properties. -/
theorem exists_mem_of_reaches {properties : List (String × Json)} {names : List String}
    {definition : Json} (h : Reaches properties names definition) :
    ∃ field ∈ properties, ∃ rest, names = field.1 :: rest := by
  cases h with
  | here hmem => exact ⟨_, hmem, _, rfl⟩
  | inside hmem _ => exact ⟨_, hmem, _, rfl⟩

/-- What is reached is inside the first field, or that field itself, or among the others. Reading
    goes through the three in this order. -/
theorem reaches_cons_iff {name : String} {definition inner : Json} {rest : List (String × Json)}
    {names : List String} :
    Reaches ((name, definition) :: rest) names inner
      ↔ (∃ below, name :: below = names ∧ Reaches (fieldsOf definition) below inner)
        ∨ (names = [name] ∧ inner = definition) ∨ Reaches rest names inner := by
  constructor
  · -- A field is the member itself or lies inside one, and that member is the first or one of the
    -- rest.
    intro h
    cases h with
    | here hmem =>
      rcases List.mem_cons.mp hmem with heq | hmem
      · cases heq
        exact .inr (.inl ⟨rfl, rfl⟩)
      · exact .inr (.inr (.here hmem))
    | inside hmem hinner =>
      rcases List.mem_cons.mp hmem with heq | hmem
      · cases heq
        exact .inl ⟨_, rfl, hinner⟩
      · exact .inr (.inr (.inside hmem hinner))
  · rintro (⟨below, rfl, hinner⟩ | ⟨rfl, rfl⟩ | hrest)
    · exact .inside List.mem_cons_self hinner
    · exact .here List.mem_cons_self
    · cases hrest with
      | here hmem => exact .here (List.mem_cons_of_mem _ hmem)
      | inside hmem hinner => exact .inside (List.mem_cons_of_mem _ hmem) hinner

/-- All fields are visited, and nothing else is. -/
theorem mem_visits_iff {properties : List (String × Json)} {names : List String}
    {definition : Json} :
    (names, definition) ∈ visits properties ↔ Reaches properties names definition := by
  induction properties using visits.induct generalizing names with
  | case1 =>
    rw [visits]
    refine iff_of_false List.not_mem_nil fun h => ?_
    rcases exists_mem_of_reaches h with ⟨_, hmem, _⟩
    exact List.not_mem_nil hmem
  | case2 name definition rest ihinside ihrest =>
    -- The fields inside come first, then the field itself, then its siblings, on both sides.
    rw [visits, reaches_cons_iff, List.mem_append, List.mem_cons, ihrest]
    refine or_congr ?_ (or_congr_left (by rw [Prod.mk.injEq]))
    simp only [List.mem_map, Prod.exists, Prod.mk.injEq]
    constructor
    · rintro ⟨below, inner, hvisit, hnames, rfl⟩
      exact ⟨below, hnames, ihinside.mp hvisit⟩
    · rintro ⟨below, hnames, hinner⟩
      exact ⟨below, _, ihinside.mpr hinner, hnames, rfl⟩

/-- The visits come in their order. -/
theorem pairwise_visits {properties : List (String × Json)} (h : (Json.obj properties).Ordered) :
    (visits properties).Pairwise fun visit other => VisitedBefore visit.1 other.1 := by
  induction properties using visits.induct with
  | case1 =>
    rw [visits]
    exact List.Pairwise.nil
  | case2 name definition rest ihinside ihrest =>
    rcases Json.ordered_of_cons h with ⟨hdefinition, hrest⟩
    have hinside := ihinside (ordered_fieldsOf hdefinition)
    -- The names of what comes behind begin with that of a sibling.
    have hbeside : ∀ below, ∀ visit ∈ visits rest, VisitedBefore (name :: below) visit.1 := by
      intro below visit hvisit
      rcases exists_mem_of_reaches (mem_visits_iff.mp hvisit) with ⟨sibling, hmem, others, hnames⟩
      rw [hnames]
      exact .beside ((List.pairwise_cons.mp h.keyed).1 sibling hmem) below others
    -- The visits are those inside the first field, then that field, then the others.
    rw [visits, List.pairwise_append, List.pairwise_cons, List.pairwise_map]
    refine ⟨hinside.imp fun hbefore => .within name hbefore, ⟨hbeside [], ihrest hrest⟩, ?_⟩
    intro visit hvisit other hother
    rcases List.mem_map.mp hvisit with ⟨inner, hinner, rfl⟩
    rcases List.mem_cons.mp hother with rfl | hother
    · rcases exists_mem_of_reaches (mem_visits_iff.mp hinner) with ⟨_, _, others, hnames⟩
      rw [hnames]
      exact .within name (.inside _ others)
    · exact hbeside _ other hother

/-- In key order there is one field in every place, since no place is visited before itself. -/
theorem Reaches.unique {properties : List (String × Json)} (h : (Json.obj properties).Ordered)
    {names : List String} {definition other : Json} (hreaches : Reaches properties names definition)
    (hother : Reaches properties names other) : definition = other := by
  have hnodup : ((visits properties).map Prod.fst).Nodup := by
    rw [List.Nodup, List.pairwise_map]
    refine (pairwise_visits h).imp fun hbefore heq => ?_
    rw [heq] at hbefore
    exact hbefore.asymm hbefore
  have heq := List.inj_on_of_nodup_map hnodup (mem_visits_iff.mpr hreaches)
    (mem_visits_iff.mpr hother) rfl
  exact (Prod.mk.inj heq).2

/-! ### Reading -/

-- The walk over the members of a definition looks for its properties. It is said here without the
-- walk, so that no other proof has to follow it.
theorem fieldsInMembers_eq (path : String) (members : List (String × Json)) :
    fieldsInMembers path members = fieldsBelow path (fieldsOf (.obj members)) := by
  have hnone : fieldsBelow path [] = .ok [] := by rw [fieldsBelow]
  have hread : fieldsInMembers path members
      = (Keyed.get? "properties" members).elim (.ok [])
          fun value => fieldsBelow path (value.asObject?.getD []) := by
    refine Keyed.eq_elim_get? (by rw [fieldsInMembers]) (fun k value rest => ?_) members
    rw [fieldsInMembers.eq_def]
    cases value <;> simp [Json.asObject?, hnone]
  rw [hread, fieldsOf, Json.get?]
  cases Keyed.get? "properties" members with
  | none => exact hnone.symm
  | some value => rfl

/-- What is below a definition is below its fields. -/
theorem fieldsInside_eq (path : String) (definition : Json) :
    fieldsInside path definition = fieldsBelow path (fieldsOf definition) := by
  cases definition with
  | obj members =>
    rw [fieldsInside]
    exact fieldsInMembers_eq path members
  | _ => simp [fieldsInside, fieldsOf, Json.get?, fieldsBelow]

/-- A field is checked before the fields inside it, and entered behind them. -/
theorem fieldsBelow_cons (parent name : String) (definition : Json)
    (rest : List (String × Json)) :
    fieldsBelow parent ((name, definition) :: rest)
      = FieldMapping.ofDefinition (childPath parent name) definition >>= fun mapping =>
          fieldsBelow (childPath parent name) (fieldsOf definition) >>= fun inside =>
            (fieldsBelow parent rest).map fun others =>
              inside ++ (childPath parent name, mapping) :: others := by
  rw [fieldsBelow]
  simp only [fieldsInside_eq]
  cases FieldMapping.ofDefinition (childPath parent name) definition with
  | error _ => rfl
  | ok mapping =>
    simp only []
    cases fieldsBelow (childPath parent name) (fieldsOf definition) with
    | error _ => rfl
    | ok inside => cases fieldsBelow parent rest <;> rfl

/-- Reading takes the properties in which every field is defined well, and refuses all others. -/
theorem decides_fieldsBelow (properties : List (String × Json)) :
    ∀ parent, Decides (fieldsBelow parent properties)
      (∀ names definition, Reaches properties names definition →
        definition.IsFieldDefinition) := by
  induction properties using visits.induct with
  | case1 =>
    intro parent
    rw [fieldsBelow]
    refine Decides.of_ok _ fun names definition h => ?_
    rcases exists_mem_of_reaches h with ⟨_, hmem, _⟩
    exact absurd hmem List.not_mem_nil
  | case2 name definition rest ihinside ihrest =>
    intro parent
    have hdefinition := FieldMapping.decides_ofDefinition (childPath parent name) definition
    rw [fieldsBelow_cons]
    -- The field, the fields inside it and the others are decided one after another, and each place
    -- is in one of these.
    refine (hdefinition.bind fun mapping _ => (ihinside (childPath parent name)).bind
      fun inside _ => (ihrest parent).map _).congr ?_
    simp only [reaches_cons_iff]
    constructor
    · rintro ⟨hfield, hinside, hrest⟩ names inner
        (⟨below, _, hreaches⟩ | ⟨_, rfl⟩ | hreaches)
      · exact hinside below inner hreaches
      · exact hfield
      · exact hrest names inner hreaches
    · intro hall
      refine ⟨hall [name] definition (.inr (.inl ⟨rfl, rfl⟩)), ?_, ?_⟩
      · intro names inner hreaches
        exact hall (name :: names) inner (.inl ⟨names, rfl, hreaches⟩)
      · intro names inner hreaches
        exact hall names inner (.inr (.inr hreaches))

/-- An entry is made for a visit: it has the path of the place below a parent, and the mapping that
    the definition is read as. -/
structure EnteredFor (parent : String) (visit : List String × Json)
    (entry : String × FieldMapping) : Prop where
  path_eq : entry.1 = visit.1.foldl childPath parent
  mapping_eq : FieldMapping.ofDefinition entry.1 visit.2 = .ok entry.2

/-- Every visit makes one entry, and the entries have the order of the visits. -/
theorem entered_of_fieldsBelow {properties : List (String × Json)} :
    ∀ {parent : String} {entries : List (String × FieldMapping)},
      fieldsBelow parent properties = .ok entries →
        List.Forall₂ (EnteredFor parent) (visits properties) entries := by
  induction properties using visits.induct with
  | case1 =>
    intro parent entries h
    rw [fieldsBelow, Except.ok.injEq] at h
    rw [visits, ← h]
    exact .nil
  | case2 name definition rest ihinside ihrest =>
    intro parent entries h
    rw [fieldsBelow_cons, Outcome.bind_eq_ok_iff] at h
    rcases h with ⟨mapping, hmapping, h⟩
    rcases Outcome.bind_eq_ok_iff.mp h with ⟨inside, hinside, h⟩
    rcases Outcome.map_eq_ok_iff.mp h with ⟨others, hothers, rfl⟩
    rw [visits]
    -- The entries stand as the visits do: those from inside, that of the field, and those of the
    -- others.
    refine List.rel_append ?_ (.cons ⟨rfl, hmapping⟩ (ihrest hothers))
    rw [List.forall₂_map_left_iff]
    exact (ihinside hinside).imp fun visit entry hentered => ⟨hentered.path_eq, hentered.mapping_eq⟩

/-! ### What is known about a path -/

variable {properties : List (String × Json)} {mappings : List (String × FieldMapping)}

/-- The keys of the entries are the paths of the places. -/
theorem keys_of_entered {visits : List (List String × Json)}
    {entries : List (String × FieldMapping)} (h : List.Forall₂ (EnteredFor "") visits entries) :
    Keyed.keys entries = visits.map fun visit => dottedPath visit.1 := by
  induction h with
  | nil => rfl
  | cons hentered _ ih =>
    rw [List.map_cons, ← ih, ← foldl_childPath_root, ← hentered.path_eq]
    rfl

/-- A path is mapped if some field has it. -/
theorem isSome_get?_flatten_iff (h : flatten properties = .ok mappings) (path : String) :
    (Keyed.get? path mappings).isSome = true
      ↔ ∃ names definition, Reaches properties names definition ∧ dottedPath names = path := by
  rcases Outcome.map_eq_ok_iff.mp h with ⟨entries, hentries, rfl⟩
  rw [Option.isSome_iff_ne_none, Ne, Keyed.get?_ofList_eq_none_iff, not_not,
    keys_of_entered (entered_of_fieldsBelow hentries)]
  simp only [List.mem_map, Prod.exists, mem_visits_iff]

/-- Only one field decides about a path. -/
theorem LastVisited.unique (hordered : (Json.obj properties).Ordered) {path : String}
    {names others : List String} {definition other : Json}
    (h : LastVisited properties path names definition)
    (hother : LastVisited properties path others other) : definition = other := by
  rcases h.last others other hother.reaches hother.path_eq with rfl | hbefore
  · exact h.reaches.unique hordered hother.reaches
  · rcases hother.last names definition h.reaches h.path_eq with rfl | hbehind
    · exact h.reaches.unique hordered hother.reaches
    · exact absurd hbehind hbefore.asymm

-- The mapping of a path is the last entry for it, and so the visit it was made for is the last one
-- to the path.
theorem exists_lastVisited_of_get? (hordered : (Json.obj properties).Ordered)
    (h : flatten properties = .ok mappings) {path : String} {mapping : FieldMapping}
    (hget : Keyed.get? path mappings = some mapping) :
    ∃ names definition, LastVisited properties path names definition
      ∧ FieldMapping.ofDefinition path definition = .ok mapping := by
  rcases Outcome.map_eq_ok_iff.mp h with ⟨entries, hentries, rfl⟩
  have hentered := entered_of_fieldsBelow hentries
  -- The entries behind the one that counts have other paths.
  rcases Keyed.exists_append_of_get?_ofList hget with ⟨front, back, rfl, hback⟩
  rcases List.forall₂_cons_right_iff.mp (List.forall₂_drop_append _ _ _ hentered) with
    ⟨⟨names, definition⟩, behind, hvisit, hbehind, heq⟩
  have hvisits := List.take_append_drop front.length (visits properties)
  rw [heq] at hvisits
  have hpath : dottedPath names = path := by
    rw [← foldl_childPath_root]
    exact hvisit.path_eq.symm
  refine ⟨names, definition, ⟨?_, hpath, ?_⟩, hvisit.mapping_eq⟩
  · rw [← mem_visits_iff, ← hvisits]
    exact List.mem_append_right _ List.mem_cons_self
  · intro others other hreaches hsame
    -- A place with the same path is visited before the entry, or is its own place. Behind it the
    -- path does not come again.
    have hmem := mem_visits_iff.mpr hreaches
    have hpairwise := pairwise_visits hordered
    rw [← hvisits] at hmem hpairwise
    rcases List.mem_append.mp hmem with hbefore | hmem
    · exact .inr ((List.pairwise_append.mp hpairwise).2.2 _ hbefore _ List.mem_cons_self)
    · rcases List.mem_cons.mp hmem with hself | hafter
      · exact .inl (Prod.mk.inj hself).1
      · refine absurd ?_ hback
        rw [keys_of_entered hbehind, ← hsame]
        exact List.mem_map.mpr ⟨_, hafter, rfl⟩

/-- The last visit to a path decides about it. -/
theorem get?_flatten_eq_some_iff (hordered : (Json.obj properties).Ordered)
    (h : flatten properties = .ok mappings) {path : String} {mapping : FieldMapping} :
    Keyed.get? path mappings = some mapping
      ↔ ∃ names definition, LastVisited properties path names definition
        ∧ definition.GivesType mapping.fieldType
        ∧ definition.ListsTargets mapping.copyTo := by
  constructor
  · intro hget
    rcases exists_lastVisited_of_get? hordered h hget with ⟨names, definition, hlast, hread⟩
    exact ⟨names, definition, hlast, (FieldMapping.ofDefinition_eq_ok_iff.mp hread).2⟩
  · rintro ⟨names, definition, hlast, hmapping⟩
    have hsome := (isSome_get?_flatten_iff h path).mpr
      ⟨names, definition, hlast.reaches, hlast.path_eq⟩
    rcases Option.isSome_iff_exists.mp hsome with ⟨found, hget⟩
    rcases exists_lastVisited_of_get? hordered h hget with ⟨others, other, hother, hread⟩
    -- Something is kept under the path, and what decides it is visited last, so it is this
    -- definition.
    rw [hother.unique hordered hlast] at hread
    have hobject := (FieldMapping.ofDefinition_eq_ok_iff.mp hread).1
    have hsame : FieldMapping.ofDefinition path definition = .ok mapping :=
      FieldMapping.ofDefinition_eq_ok_iff.mpr ⟨hobject, hmapping⟩
    rw [hread, Except.ok.injEq] at hsame
    rw [hget, hsame]

end MappingTree

namespace Schema

open MappingTree

/-- The properties of a tree are under their name, or they are the tree itself. -/
theorem properties?_eq_some_iff {tree : Json} {properties : List (String × Json)} :
    MappingTree.properties? tree = some properties
      ↔ (tree.get? "properties").getD tree = .obj properties := by
  have hobject : ∀ value : Json, value.asObject? = some properties ↔ value = .obj properties := by
    intro value
    cases value <;> simp [Json.asObject?]
  rw [MappingTree.properties?]
  cases tree.get? "properties" with
  | none => exact hobject tree
  | some value => exact hobject value

/-- Reading a tree takes what has properties in which every field is defined well, and refuses all
    other trees. -/
theorem decides_ofTree (indexName : String) (tree : Json) :
    Decides (ofTree indexName tree) (∃ properties,
      (tree.get? "properties").getD tree = .obj properties
        ∧ ∀ names definition, Reaches properties names definition →
          definition.IsFieldDefinition) := by
  simp only [← properties?_eq_some_iff]
  rw [ofTree]
  cases MappingTree.properties? tree with
  | none => exact Decides.of_error rfl (by simp)
  | some properties =>
    exact (((decides_fieldsBelow properties "").map _).map _).congr (by simp)

/-- The properties of a tree in key order are in key order. -/
theorem ordered_properties {tree : Json} {properties : List (String × Json)} (h : tree.Ordered)
    (hproperties : (tree.get? "properties").getD tree = .obj properties) :
    (Json.obj properties).Ordered := by
  rw [← hproperties]
  cases hget : tree.get? "properties" with
  | none => exact h
  | some value => exact h.member hget

/-- A mapping tree is read if its properties are an object and all fields in it are defined by
    objects whose copy targets are texts, and what is refused is refused as a fault of the request.
    The schema that is read knows exactly the paths that some field in the tree has, and for each of
    them the type and the copy targets of the field that is visited last. -/
theorem ofTree_flattens (indexName : String) (tree : Json) :
    ((∃ schema, ofTree indexName tree = .ok schema)
        ↔ ∃ properties, (tree.get? "properties").getD tree = .obj properties
          ∧ ∀ names definition, Reaches properties names definition →
            definition.IsFieldDefinition)
      ∧ (∀ error, ofTree indexName tree = .error error → error.kind = .validation)
      ∧ ∀ schema, ofTree indexName tree = .ok schema →
        ∃ properties, (tree.get? "properties").getD tree = .obj properties
          ∧ ∀ path,
            ((schema.field? path).isSome = true
              ↔ ∃ names definition, Reaches properties names definition
                ∧ dottedPath names = path)
            ∧ (tree.Ordered → ∀ mapping, schema.field? path = some mapping
              ↔ ∃ names definition, LastVisited properties path names definition
                ∧ definition.GivesType mapping.fieldType
                ∧ definition.ListsTargets mapping.copyTo) := by
  refine ⟨(decides_ofTree indexName tree).accepts, (decides_ofTree indexName tree).blames, ?_⟩
  intro schema h
  rcases ofTree_eq_ok_iff.mp h with ⟨_, hproperties, hflatten⟩
  rw [properties?_eq_some_iff] at hproperties
  refine ⟨schema.properties, hproperties, fun path => ⟨isSome_get?_flatten_iff hflatten path, ?_⟩⟩
  intro hordered mapping
  exact get?_flatten_eq_some_iff (ordered_properties hordered hproperties) hflatten

/-- A tree with fields of many types. The title of the cover is defined twice, in the cover and
    beside it. -/
def covers : Json :=
  .obj [("age", .obj [("type", .num (.integer 3))]),
    ("comments", .obj [("properties", .obj [("author", .obj [("type", .str "keyword")])]),
      ("type", .str "nested")]),
    ("cover", .obj [("properties", .obj [("title", .obj [("type", .str "text")])])]),
    ("cover.title", .obj [("copy_to", .arr [.str "all"]), ("type", .str "keyword")]),
    ("place", .obj [("type", .str "geo_point")]),
    ("title", .obj [("type", .str "text")])]

-- Every object of the tree has its members in key order.
theorem ordered_covers : covers.Ordered := by
  have hnamed : ∀ name : String, (Json.obj [("type", .str name)]).Ordered :=
    fun name => Json.ordered_single "type" (.str name)
  have hage := Json.ordered_single "type" (.num (.integer 3))
  have hauthor := Json.ordered_single "author" (hnamed "keyword")
  have hcomments : (Json.obj [("properties", .obj [("author", .obj [("type", .str "keyword")])]),
      ("type", .str "nested")]).Ordered :=
    .obj (List.pairwise_pair.mpr (by decide)) (by simpa using ⟨hauthor, .str "nested"⟩)
  have hcover := Json.ordered_single "properties" (Json.ordered_single "title" (hnamed "text"))
  have htitle : (Json.obj [("copy_to", .arr [.str "all"]), ("type", .str "keyword")]).Ordered :=
    .obj (List.pairwise_pair.mpr (by decide))
      (by simpa using ⟨.arr (by simpa using .str "all"), .str "keyword"⟩)
  refine .obj (by unfold Keyed.Ordered; decide) ?_
  simpa using ⟨hage, hcomments, hcover, htitle, hnamed "geo_point", hnamed "text"⟩

/-- Each path of the tree is bound to the type that the definition visited last gives to it: one
    that is named, one that is kept as it is written, an object for its properties and the type
    without a name for a number in the place of one. The field beside the cover comes behind the
    cover, and so it decides about the title of the cover. -/
theorem ofTree_flattens_covers :
    covers.Ordered ∧ ∃ schema, ofTree "books" covers = .ok schema
      ∧ schema.mappings = [("age", ⟨.other "", []⟩), ("comments", ⟨.nested, []⟩),
        ("comments.author", ⟨.keyword, []⟩), ("cover", ⟨.object, []⟩),
        ("cover.title", ⟨.keyword, ["all"]⟩), ("place", ⟨.other "geo_point", []⟩),
        ("title", ⟨.text, []⟩)]
      ∧ schema.field? "author" = none
      ∧ ∀ path mapping, (path, mapping) ∈ schema.mappings →
        ∃ names definition, LastVisited schema.properties path names definition
          ∧ definition.GivesType mapping.fieldType ∧ definition.ListsTargets mapping.copyTo := by
  refine ⟨ordered_covers, _, rfl, rfl, rfl, ?_⟩
  intro path mapping hmem
  rcases (ofTree_flattens "books" covers).2.2 _ rfl with ⟨properties, hproperties, hpath⟩
  cases hproperties
  have hget : Keyed.get? path _ = some mapping := Keyed.get?_of_mem (by decide) hmem
  exact ((hpath path).2 ordered_covers mapping).mp hget

end Schema

end DocSearch
