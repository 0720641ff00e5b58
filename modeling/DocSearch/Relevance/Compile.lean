import DocSearch.Relevance.Scorer

/-!
# Compiling Queries

A query becomes a scorer under the schema of the index it is asked of. The schema says
where the values of each path are found, and it can object: a nested query needs its path
to be mapped as nested, or not mapped at all.

Inside a nested query its own path counts as being in the scope. It is no longer a nested
field there, so asking whether it exists has an answer, and a second nested query on the
same path is an error. Its copy targets stay what they were.

## Main definitions

* `Query.limits?`: The numeric bounds of a range.
* `Query.inScope`: The schema inside a nested query.
* `Query.compile`: The scorer of a query.
-/

namespace DocSearch

namespace Query

/-- The bounds that are set, with their values, in a fixed order. -/
def boundsOf (bounds : Bounds) : List (BoundKind × Json) :=
  [(.gt, bounds.gt), (.gte, bounds.gte), (.lt, bounds.lt), (.lte, bounds.lte)].filterMap
    fun (kind, bound) => bound.map fun bound => (kind, bound)

/-- The numeric bounds of a range. There are none if one of them is no number. -/
def limits? (bounds : Bounds) : Option (List Limit) :=
  (boundsOf bounds).mapM fun (kind, bound) => bound.asFloat?.map fun value => ⟨kind, value⟩

/-- The schema inside a nested query on a path. -/
def inScope (schema : Schema) (path : String) : Schema :=
  schema.override path
    ⟨.nestedScope, ((schema.field? path).map FieldMapping.copyTo).getD []⟩

/-- Whether a nested query on a path has to be refused. -/
def refusesNested (schema : Schema) (path : String) : Bool :=
  match schema.field? path with
  | some mapping => mapping.fieldType ≠ .nested
  | none => false

mutual

/-- The scorer of a query under a schema. -/
def compile (schema : Schema) : Query → Except Error Scorer
  | .all => .ok .constant
  | .unsupported kind => .ok (.zero (.unsupported kind))
  | .boolean must mustNot should filter => do
    let must ← compileAll schema must
    let mustNot ← compileAll schema mustNot
    let should ← compileAll schema should
    let filter ← compileAll schema filter
    return .boolean must mustNot should filter
  | .words field text =>
    .ok (.words ((text.map tokenize).getD []) (schema.readPaths field))
  | .wildcard field pattern =>
    .ok (.wildcard (Pattern.glob pattern true) (schema.readPaths field))
  | .term field value boost =>
    let wanted := if value.isNull then [] else [value]
    .ok (.terms wanted boost (schema.readPaths field))
  | .terms field values boost => .ok (.terms values boost (schema.readPaths field))
  | .fieldExists field =>
    if schema.isNested field then .ok (.zero (.nestedField field)) else .ok (.fieldExists field)
  | .nested path query =>
    if refusesNested schema path then .error (.notNested path)
    else compile (inScope schema path) query
  | .range field bounds =>
    match limits? bounds with
    | some limits => .ok (.range limits (schema.readPaths field))
    | none => .ok (.zero (.nonNumericRange field))

/-- The scorers of some queries, up to the first that has none. -/
def compileAll (schema : Schema) : List Query → Except Error (List Scorer)
  | [] => .ok []
  | query :: rest =>
    match compile schema query with
    | .error error => .error error
    | .ok scorer => (compileAll schema rest).map (scorer :: ·)

end

end Query

end DocSearch
