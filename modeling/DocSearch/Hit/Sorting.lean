import DocSearch.Document.Path
import DocSearch.Document.Scalar
import DocSearch.Error
import DocSearch.Hit.Basic

/-!
# Sorting Hits

Hits are sorted by a list of keys, each a field and a direction. A hit has a value for a
key if the field leads to exactly one scalar; with several or none the value counts as
absent, and absent ranks above every value. So absent hits trail an ascending sort and
lead a descending one.

Without keys the score decides, the best first, but only down to hundredths. Hits that are
equally good in that sense stay in the order in which they were found, as do hits that
compare as equal under the keys.

## Main definitions

* `SortKey`, `SortKey.listOfJson`: The keys, and reading them.
* `compareHits`: The comparison by keys.
* `coarseScore`: A score down to hundredths.
* `sortHits`: The stable sort.
-/

namespace DocSearch

/-- Which way a key sorts. -/
inductive Direction where
  | ascending
  | descending
  deriving DecidableEq

/-- Turn a comparison into the given direction. -/
def Direction.orient : Direction → Ordering → Ordering
  | .ascending, ordering => ordering
  | .descending, ordering => ordering.swap

/-- A field and the direction it sorts in. -/
structure SortKey where
  field : String
  direction : Direction
  deriving DecidableEq

/-- The field that stands for the score. -/
def scoreField : String := "_score"

namespace SortKey

/-- The direction of a word, in any ASCII case. -/
def directionOf (word : String) : Except Error Direction :=
  let lower := String.ofList (word.toList.map Char.toLower)
  if lower = "asc" then .ok .ascending
  else if lower = "desc" then .ok .descending
  else .error (.unknownOrder lower)

/-- A key without a direction of its own: the best scores come first, and the least values
    of every other field. -/
def ofField (field : String) : SortKey :=
  ⟨field, if field = scoreField then .descending else .ascending⟩

/-- The word for the direction in the parameters of a key, if there is one. -/
def orderWord? : Json → Option String
  | .str word => some word
  | .obj options => (Keyed.get? "order" options).bind Json.asText?
  | _ => none

/-- Read one key: a field, or an object whose first member is the field. -/
def ofJson : Json → Except Error SortKey
  | .str field => .ok (ofField field)
  | .obj [] => .error .sortWithoutField
  | .obj ((field, parameters) :: _) =>
    match orderWord? parameters with
    | some word => (directionOf word).map fun direction => ⟨field, direction⟩
    | none => .ok (ofField field)
  | got => .error (.sortShape got)

/-- Read the sort of a body: a list of keys, a single one, or none. -/
def listOfJson : Json → Except Error (List SortKey)
  | .null => .ok []
  | .arr entries => entries.mapM ofJson
  | entry => (ofJson entry).map ([·])

/-- The value of a hit for a key. -/
def valueOf? (key : SortKey) (hit : Hit) : Option Scalar :=
  match hit.source with
  | none => none
  | some source =>
    match Path.valuesAt source key.field with
    | [value] => Scalar.ofJson? value
    | _ => none

/-- The natural order of values, with absent ones above all others. -/
def compareValues : Option Scalar → Option Scalar → Ordering
  | some a, some b => a.order b
  | some _, none => .lt
  | none, some _ => .gt
  | none, none => .eq

/-- The comparison of two hits by one key. -/
def compare (key : SortKey) (a b : Hit) : Ordering :=
  key.direction.orient <|
    if key.field = scoreField then Number.compareTotal a.score b.score
    else compareValues (key.valueOf? a) (key.valueOf? b)

end SortKey

/-- The comparison of two hits by several keys, of which the first that tells them apart
    decides. -/
def compareHits : List SortKey → Hit → Hit → Ordering
  | [], _, _ => .eq
  | key :: rest, a, b =>
    match key.compare a b with
    | .eq => compareHits rest a b
    | ordering => ordering

/-- A score in hundredths, cut to a whole number. -/
def coarseScore (score : Float) : Int := Number.wholePart (score * 100.0)

/-- The comparison by coarse score, the best first. -/
def compareCoarse (a b : Hit) : Ordering :=
  Ord.compare (coarseScore b.score) (coarseScore a.score)

/-- The comparison that a list of keys stands for. -/
def hitOrder (keys : List SortKey) : Hit → Hit → Ordering :=
  if keys.isEmpty then compareCoarse else compareHits keys

/-- Sort hits, keeping the order of those that compare as equal. -/
def sortHits (keys : List SortKey) (hits : List Hit) : List Hit :=
  -- Merging takes from the left where both sides are equal, so the sort is stable.
  hits.mergeSort fun a b => (hitOrder keys a b).isLE

end DocSearch
