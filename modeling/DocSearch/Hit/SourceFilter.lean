import DocSearch.Error
import DocSearch.Pattern

/-!
# Source Filters

Which part of a found document is handed out: all of it, nothing, or the members whose
names fit some globs and do not fit others. Only the outermost members are looked at, and
what is no object passes unchanged.

## Main definitions

* `SourceFilter`: The choice.
* `SourceFilter.ofJson`: Reading it.
* `SourceFilter.apply`: What is left of a document.
-/

namespace DocSearch

/-- Which part of a document is handed out. -/
inductive SourceFilter where
  /-- All of it. -/
  | all
  /-- Nothing, not even an empty object. -/
  | nothing
  /-- The members that fit one of the first globs, or any member where there are none, and
      that fit none of the second. -/
  | fields (includes excludes : List String)
  deriving DecidableEq

namespace SourceFilter

/-- The globs in a value: one, or an array of them. -/
def globsOf : Json → Except Error (List String)
  | .null => .ok []
  | .str glob => .ok [glob]
  | .arr globs =>
    globs.mapM fun glob =>
      match glob.asText? with
      | some glob => .ok glob
      | none => .error .sourceFieldNotText
  | _ => .error .sourceFieldsShape

/-- The globs of a member that goes by either of two names, of which the first wins. -/
def globsNamed (name shortName : String) (members : List (String × Json)) :
    Except Error (List String) :=
  globsOf (((Keyed.get? name members).or (Keyed.get? shortName members)).getD .null)

/-- Read a filter. -/
def ofJson : Json → Except Error SourceFilter
  | .null | .bool true => .ok .all
  | .bool false => .ok .nothing
  | .str glob => .ok (.fields [glob] [])
  | .arr globs => (globsOf (.arr globs)).map fun includes => .fields includes []
  | .obj members => do
    let includes ← globsNamed "includes" "include" members
    let excludes ← globsNamed "excludes" "exclude" members
    return .fields includes excludes
  | got => .error (.sourceFilterShape got)

/-- Whether a name fits one of some globs. -/
def fits (globs : List String) (name : String) : Bool :=
  globs.any fun glob => (Pattern.glob glob false).accepts name

/-- Whether a filter by globs keeps a name. -/
def keeps (includes excludes : List String) (name : String) : Bool :=
  (includes.isEmpty || fits includes name) && !fits excludes name

/-- What a filter leaves of a document. -/
def apply : SourceFilter → Json → Option Json
  | .all, source => some source
  | .nothing, _ => none
  | .fields includes excludes, .obj members =>
    some (.obj (members.filter fun member => keeps includes excludes member.1))
  | .fields _ _, source => some source

end SourceFilter

end DocSearch
