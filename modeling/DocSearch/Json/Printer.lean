import DocSearch.Json.Basic

/-!
# The Text of a JSON Value

The compact text of a value: no blanks, members in key order, and in strings only the
quotation mark, the backslash and the control characters escaped. Everything else stands
for itself.

## Main definitions

* `Json.quote`: A string with its quotation marks and escapes.
* `Json.render`: The compact text.
-/

namespace DocSearch

namespace Json

/-- Two hexadecimal digits of a number below 256. -/
def hexPair (n : Nat) : List Char := [Nat.digitChar (n / 16), Nat.digitChar (n % 16)]

/-- How a character stands inside a string: five control characters have a letter of their
    own, the others a number. -/
def escape (c : Char) : List Char :=
  if c = '"' then ['\\', '"']
  else if c = '\\' then ['\\', '\\']
  else if c = '\x08' then ['\\', 'b']
  else if c = '\x0c' then ['\\', 'f']
  else if c = '\n' then ['\\', 'n']
  else if c = '\r' then ['\\', 'r']
  else if c = '\t' then ['\\', 't']
  else if c.toNat < 32 then ['\\', 'u', '0', '0'] ++ hexPair c.toNat
  else [c]

/-- A string with its quotation marks and escapes. -/
def quote (text : String) : String :=
  "\"" ++ String.ofList (text.toList.flatMap escape) ++ "\""

/-- The text of a number. Doubles that are not finite have none, and `null` stands in. -/
def Numeral.render : Numeral → String
  | .integer value => toString value
  | .real value => if value.isFinite then DocSearch.Number.jsonLayout.write value else "null"

mutual

/-- The compact text of a value. -/
def render : Json → String
  | .null => "null"
  | .bool value => if value then "true" else "false"
  | .num value => value.render
  | .str value => quote value
  | .arr elements => "[" ++ renderElements elements ++ "]"
  | .obj members => "\x7b" ++ renderMembers members ++ "\x7d"

/-- Elements with commas between them. -/
def renderElements : List Json → String
  | [] => ""
  | [element] => element.render
  | element :: rest => element.render ++ "," ++ renderElements rest

/-- Members with commas between them. -/
def renderMembers : List (String × Json) → String
  | [] => ""
  | [(key, value)] => quote key ++ ":" ++ value.render
  | (key, value) :: rest => quote key ++ ":" ++ value.render ++ "," ++ renderMembers rest

end

end Json

end DocSearch
