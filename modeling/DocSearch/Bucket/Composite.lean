import DocSearch.Bucket.Tally
import DocSearch.Document.Scalar
import DocSearch.Error
import DocSearch.Hit.Sorting

/-!
# Composite Aggregations

Buckets over several fields at once. A source names a field, and a bucket stands for one
value of every source; a hit is in the bucket when it has all of them. The buckets are
sorted source by source, each in its own direction, and handed out page by page.

A page that is not the last one comes with the key of its last bucket. Giving that key
back as `after` resumes behind it. A key that names no bucket, because it lacks a source
or because no hit has its values, resumes behind all buckets.

## Main definitions

* `CompositeSource`, `CompositeAggregation`, `CompositeAggregation.ofJson`: What is counted,
  and reading it.
* `CompositeAggregation.keysOf`: The buckets a hit is in.
* `CompositeAggregation.compareKeys`: The order of buckets.
* `CompositeAggregation.counts`: All buckets in their order.
* `CompositeAggregation.keyObject`, `CompositeAggregation.keyOfObject?`: A key as clients
  see it, and back.
* `CompositeAggregation.run`: One page.
-/

namespace DocSearch

/-- A field whose values take part in the keys. -/
structure CompositeSource where
  /-- The name of the value in the key. -/
  name : String
  field : String
  direction : Direction := .ascending
  deriving DecidableEq

/-- One value of every source, in the order of the sources. -/
abbrev CompositeKey := List String

/-- A bucket as it is handed out. -/
structure CompositeBucket where
  /-- The members of the key object. -/
  key : List (String × Json)
  docCount : Nat

/-- One page of buckets. -/
structure CompositeResult where
  buckets : List CompositeBucket
  /-- The key to resume after, on every page but the last. -/
  afterKey : Option (List (String × Json)) := none

/-- A count of the combinations of values of several fields. -/
structure CompositeAggregation where
  sources : List CompositeSource
  size : Nat
  /-- The members of the key to resume after. -/
  after : Option (List (String × Json)) := none

/-- Read a source. Kinds other than `terms` are left out. -/
def CompositeSource.ofJson (entry : Json) : Except Error (Option CompositeSource) :=
  match entry with
  | .obj ((name, .obj ((kind, parameters) :: _)) :: _) =>
    if kind = "terms" then
      match (parameters.get? "field").bind Json.asText? with
      | some field =>
        let descending := (parameters.get? "order").bind Json.asText? = some "desc"
        .ok (some ⟨name, field, if descending then .descending else .ascending⟩)
      | none => .error (.sourceWithoutField name)
    else .ok none
  | .obj ((name, _) :: _) => .error (.sourceWithoutKind name)
  | _ => .error .sourceWithoutName

namespace CompositeAggregation

/-- Read the parameters of an aggregation. -/
def ofJson (defaultSize : Nat) (parameters : Json) : Except Error CompositeAggregation := do
  match (parameters.get? "sources").bind Json.asArray? with
  | none => throw .compositeWithoutSources
  | some entries =>
    let sources ← entries.mapM CompositeSource.ofJson
    let size := ((parameters.get? "size").bind Json.asCount?).getD defaultSize
    match parameters.present? "after" with
    | none => return ⟨sources.filterMap id, size, none⟩
    | some (.obj after) => return ⟨sources.filterMap id, size, some after⟩
    | some _ => throw .afterNotObject

/-- Every combination of one value of each source. -/
def combinations : List (List String) → List CompositeKey
  | [] => [[]]
  | values :: rest => values.flatMap fun value => (combinations rest).map (value :: ·)

/-- The buckets a hit is in. -/
def keysOf (sources : List CompositeSource) (hit : Hit) : List CompositeKey :=
  combinations (sources.map fun source => hit.terms source.field)

/-- The order of buckets: the first source that tells them apart decides, in its
    direction. -/
def compareKeys : List CompositeSource → CompositeKey → CompositeKey → Ordering
  | source :: sources, a :: as, b :: bs =>
    (source.direction.orient (String.compare a b)).then (compareKeys sources as bs)
  | _, _, _ => .eq

/-- All buckets with the number of hits in them, in their order. -/
def counts (sources : List CompositeSource) (hits : List Hit) : List (CompositeKey × Nat) :=
  (tally (hits.flatMap (keysOf sources))).mergeSort
    fun a b => (compareKeys sources a.1 b.1).isLE

/-- The members of the object that shows a key. -/
def keyObject (sources : List CompositeSource) (key : CompositeKey) : List (String × Json) :=
  Keyed.ofList ((sources.zip key).map fun (source, value) => (source.name, .str value))

/-- The key that an object shows. There is none when the object lacks a source. -/
def keyOfObject? (sources : List CompositeSource) (members : List (String × Json)) :
    Option CompositeKey :=
  sources.mapM fun source => (Keyed.get? source.name members).map canonicalText

/-- How many buckets are left out before a page. -/
def startOf (aggregation : CompositeAggregation) (sorted : List (CompositeKey × Nat)) : Nat :=
  match aggregation.after with
  | none => 0
  | some members =>
    match keyOfObject? aggregation.sources members with
    | none => sorted.length
    | some key =>
      match sorted.findIdx? fun bucket => bucket.1 = key with
      | some position => position + 1
      | none => sorted.length

/-- One page of buckets. -/
def run (aggregation : CompositeAggregation) (hits : List Hit) : CompositeResult :=
  if aggregation.sources.isEmpty then ⟨[], none⟩
  else
    let sorted := counts aggregation.sources hits
    let start := startOf aggregation sorted
    let page := (sorted.drop start).take aggregation.size
    let buckets := page.map fun (key, count) => ⟨keyObject aggregation.sources key, count⟩
    -- A page of size zero has no last bucket, so it cannot say where to resume.
    let complete := sorted.length ≤ start + aggregation.size
    ⟨buckets, if complete then none else buckets.getLast?.map CompositeBucket.key⟩

end CompositeAggregation

end DocSearch
