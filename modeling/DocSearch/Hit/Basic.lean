import DocSearch.Json.Basic

/-!
# Hits

A document that was found, with its score and the index it was found in.

## Main definitions

* `Hit`: The document and what is known about it.
* `Highlights`: Marked snippets by field.
-/

namespace DocSearch

/-- Snippets by field, in key order. -/
abbrev Highlights := List (String × List String)

/-- A document that was found. -/
structure Hit where
  index : String
  id : String
  score : Float
  /-- The document, or as much of it as was asked for. -/
  source : Option Json := none
  /-- The snippets, where highlighting found any. -/
  highlight : Option Highlights := none

end DocSearch
