import DocSearch.Document.Scalar
import DocSearch.Mapping.Schema
import DocSearch.Pattern
import DocSearch.Query.Basic
import DocSearch.Relevance.Proximity
import DocSearch.Text.Lowercase

/-!
# Scorers

A scorer gives every document a score; a document is found when its score is positive. It
is what a query becomes once a schema has said where the values of each path are, so a
scorer holds the paths it reads and nothing of the schema.

All sums are taken from left to right over the values in document order, because sums of
doubles depend on their order.

## Main definitions

* `tokenize`: The words of a text.
* `Limit`: One numeric bound.
* `Scorer`: What a query is compiled to.
* `Scorer.score`: The score of a document.
* `Scorer.name`: The name of a scorer, or the reason why it scores nothing.
-/

namespace DocSearch

/-- The words of a text: the pieces of its lower case between single blanks. Two blanks in
    a row have an empty word between them, so they still move what follows by one place. -/
def tokenize (text : String) : List String :=
  Text.split ' ' (Text.lowercase text)

/-- One numeric bound. -/
structure Limit where
  kind : BoundKind
  value : Float
  deriving DecidableEq

/-- Whether a number keeps a bound. -/
def Limit.admits (limit : Limit) (x : Float) : Bool :=
  match limit.kind with
  | .gt => x > limit.value
  | .gte => x ≥ limit.value
  | .lt => x < limit.value
  | .lte => x ≤ limit.value

/-- Why a query scores nothing. -/
inductive ZeroReason where
  /-- Its kind is not evaluated. -/
  | unsupported (kind : String)
  /-- It asks whether a nested field is there. -/
  | nestedField (field : String)
  /-- It bounds numbers by something else. -/
  | nonNumericRange (field : String)
  deriving DecidableEq

/-- The reason in words. -/
def ZeroReason.message : ZeroReason → String
  | .unsupported kind => s!"unsupported query [{kind}]"
  | .nestedField field => s!"[{field}] is a nested field"
  | .nonNumericRange field => s!"non-numeric range on [{field}]"

/-- What a query is compiled to. The paths are those at which its values are found. -/
inductive Scorer where
  | constant
  | zero (reason : ZeroReason)
  | boolean (must mustNot should filter : List Scorer)
  | words (tokens : List String) (paths : List String)
  | wildcard (pattern : Pattern) (paths : List String)
  | terms (values : List Json) (boost : Float) (paths : List String)
  | fieldExists (field : String)
  | range (limits : List Limit) (paths : List String)

namespace Scorer

/-- The score of a full match. -/
def exactMatch : Float := 1.0

/-- The score of values that are equal as texts only. -/
def looseMatch : Float := 0.8

/-- The sum of some scores, from left to right. -/
def sum (start : Float) (scores : List Float) : Float := scores.foldl (· + ·) start

/-- A number of matches as a score. -/
def ofCount (count : Nat) : Float := Float.ofNat count

/-- The text in which a value is searched for words: strings, and numbers by their
    canonical text. -/
def searchableText : Json → Option String
  | .str text => some text
  | .num number => some (Number.canonicalText number.toFloat)
  | _ => none

/-- The weights of all pairs of equal words, in the order of the first list. Empty words
    match nothing. -/
def sharedWeights (queryTokens fieldTokens : List String) : List Float :=
  queryTokens.zipIdx.flatMap fun (queryToken, i) =>
    if queryToken = "" then []
    else fieldTokens.zipIdx.filterMap fun (fieldToken, j) =>
      if fieldToken = queryToken then some (Relevance.proximity i j) else none

/-- The score of some values for words. -/
def scoreWords (tokens : List String) (values : List Json) : Float :=
  sum 0.0 ((values.filterMap searchableText).flatMap fun text =>
    sharedWeights tokens (tokenize text))

/-- The scores of one field value against all values asked for. -/
def matchScores (wanted : List Json) (found : Scalar) : List Float :=
  wanted.filterMap fun value =>
    -- What is no scalar has the empty canonical text, so it can match the empty string.
    if (Scalar.ofJson? value).any fun scalar => scalar.same found then some exactMatch
    else if found.canonicalText = canonicalText value then some looseMatch
    else none

/-- The score of some values for values asked for. Asking for none scores nothing, without
    the boost having a say. -/
def scoreTerms (wanted : List Json) (boost : Float) (values : List Json) : Float :=
  if wanted.isEmpty then 0.0
  else sum 0.0 ((values.filterMap Scalar.ofJson?).flatMap (matchScores wanted)) * boost

/-- One point for every number that keeps all bounds. -/
def scoreRange (limits : List Limit) (values : List Json) : Float :=
  ofCount (values.filterMap Json.asFloat? |>.filter fun x => limits.all (·.admits x)).length

/-- One point for every string that fits a pattern. -/
def scoreWildcard (pattern : Pattern) (values : List Json) : Float :=
  ofCount (values.filterMap Json.asText? |>.filter pattern.accepts).length

/-- One point for every enclosing object that has the leaf as a member, `null` or not. -/
def scoreExists (field : String) (document : Json) : Float :=
  let leaf := Path.leafName field
  ofCount ((Path.parentsOfLeaf document field).filter fun parent =>
    (parent.get? leaf).isSome).length

mutual

/-- The score of a document. A bool query scores nothing as soon as one of its gates is
    shut: a filter or a required clause that does not score, or a forbidden one that does.
    Behind the gates the scores of all clauses but the filters are added up, on top of one
    point where there are no optional clauses to give any. -/
def score (document : Json) : Scorer → Float
  | .constant => exactMatch
  | .zero _ => 0.0
  | .boolean must mustNot should filter =>
    let base := if should.isEmpty then 1.0 else 0.0
    if passesAll document filter then
      match addRequired document base must with
      | none => 0.0
      | some total =>
        match addForbidden document total mustNot with
        | none => 0.0
        | some total => addOptional document total should
    else 0.0
  -- There is no token only where there is no text; the empty text has one empty token.
  | .words tokens paths =>
    if tokens.isEmpty then 0.0 else scoreWords tokens (Schema.valuesOf document paths)
  | .wildcard pattern paths => scoreWildcard pattern (Schema.valuesOf document paths)
  | .terms values boost paths => scoreTerms values boost (Schema.valuesOf document paths)
  | .fieldExists field => scoreExists field document
  | .range limits paths => scoreRange limits (Schema.valuesOf document paths)

/-- Whether no clause stays at zero or below. -/
def passesAll (document : Json) : List Scorer → Bool
  | [] => true
  | scorer :: rest => if score document scorer ≤ 0.0 then false else passesAll document rest

/-- Add the scores of clauses that all have to score. -/
def addRequired (document : Json) (total : Float) : List Scorer → Option Float
  | [] => some total
  | scorer :: rest =>
    let part := score document scorer
    if part ≤ 0.0 then none else addRequired document (total + part) rest

/-- Add the scores of clauses none of which may score. They are zero or negative. -/
def addForbidden (document : Json) (total : Float) : List Scorer → Option Float
  | [] => some total
  | scorer :: rest =>
    let part := score document scorer
    if part > 0.0 then none else addForbidden document (total + part) rest

/-- Add the scores of clauses that may score or not. -/
def addOptional (document : Json) (total : Float) : List Scorer → Float
  | [] => total
  | scorer :: rest => addOptional document (total + score document scorer) rest

end

/-- The name of a scorer, or the reason why it scores nothing. -/
def name : Scorer → String
  | .constant => "match_all"
  | .zero reason => reason.message
  | .boolean .. => "bool"
  | .words .. => "match"
  | .wildcard .. => "wildcard"
  | .terms .. => "term"
  | .fieldExists _ => "exists"
  | .range .. => "range"

end Scorer

end DocSearch
