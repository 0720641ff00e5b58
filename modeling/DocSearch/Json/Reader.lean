import DocSearch.Json.Basic

/-!
# Reading a JSON Text

A text is read as one JSON value with nothing but blanks around it, or not at all. The
members of every object are put in key order while it is read, and the last of several
members with one key stays.

Each reading function takes the characters that are left and gives back the ones it did
not use. How deep values may nest is bounded by the length of the text, which no text can
exceed, so the bound is taken from the text and never met.

## Main definitions

* `Json.Reader.number?`: A number, as an integer or as a double.
* `Json.Reader.text?`: The rest of a string behind its opening quotation mark.
* `Json.parse?`: A whole text.
-/

namespace DocSearch

namespace Json

namespace Reader

/-- Leave out the four blank characters that may stand between parts. -/
def skipBlanks (s : List Char) : List Char :=
  s.dropWhile fun c => c = ' ' || c = '\n' || c = '\r' || c = '\t'

/-- The rest behind a fixed word. -/
def expect (word : List Char) (s : List Char) : Option (List Char) :=
  if word.isPrefixOf s then some (s.drop word.length) else none

/-- The value of a run of decimal digits. -/
def digitsValue (digits : List Char) : Nat :=
  digits.foldl (fun n c => 10 * n + (c.toNat - 48)) 0

/-- A run of digits and what is behind it. -/
def digits (s : List Char) : List Char × List Char :=
  (s.takeWhile Char.isDigit, s.dropWhile Char.isDigit)

/-- A run of at least one digit. -/
def someDigits? (s : List Char) : Option (List Char × List Char) :=
  match digits s with
  | ([], _) => none
  | (run, rest) => some (run, rest)

/-- The exponent part of a number, zero where there is none. -/
def exponent? (s : List Char) : Option (Option Int × List Char) :=
  match s with
  | c :: rest =>
    if c = 'e' || c = 'E' then
      match rest with
      | '-' :: rest => (someDigits? rest).map fun (run, rest) =>
          (some (-(digitsValue run : Int)), rest)
      | '+' :: rest => (someDigits? rest).map fun (run, rest) =>
          (some (digitsValue run : Int), rest)
      | _ => (someDigits? rest).map fun (run, rest) => (some (digitsValue run : Int), rest)
    else some (none, s)
  | [] => some (none, [])

/-- The fraction part of a number. -/
def fraction? (s : List Char) : Option (Option (List Char) × List Char) :=
  match s with
  | '.' :: rest => (someDigits? rest).map fun (run, rest) => (some run, rest)
  | _ => some (none, s)

/-- The double nearest to `significand · 10 ^ exponent`. Where the value is below or above
    every double, that is seen without computing the power. -/
def toDouble (significand : Nat) (exponent : Int) : Float :=
  if significand = 0 then 0.0
  else
    match exponent with
    | .ofNat e => Float.ofScientific significand false (min e 400)
    | .negSucc e =>
      if Number.digitCount significand + 400 < e then 0.0
      else Float.ofScientific significand true (e + 1)

/-- The number with the given parts. Without fraction and exponent it is an integer, if it
    fits 64 bits; a negative zero is no integer. -/
def ofParts (negative : Bool) (whole : List Char) (fraction : Option (List Char))
    (exponent : Option Int) : Json.Numeral :=
  let magnitude := digitsValue whole
  -- The sign is put on last, so that a negative zero keeps it.
  let asReal (significand : Nat) (exponent : Int) : Json.Numeral :=
    let x := toDouble significand exponent
    .real (if negative then -x else x)
  match fraction, exponent with
  | none, none =>
    if negative then
      if 0 < magnitude ∧ magnitude ≤ Number.signLimit then .integer (-(magnitude : Int))
      else asReal magnitude 0
    else if magnitude < Number.wordLimit then .integer magnitude
    else asReal magnitude 0
  | _, _ =>
    let fraction := fraction.getD []
    asReal (digitsValue (whole ++ fraction)) (exponent.getD 0 - fraction.length)

/-- Whether a number is within the range of doubles. -/
def inRange : Json.Numeral → Bool
  | .integer _ => true
  | .real value => value.isFinite

/-- A number. A leading zero stands alone before the point, and a number beyond the range of
    doubles is refused. -/
def number? (s : List Char) : Option (Json.Numeral × List Char) := do
  let (negative, s) := match s with
    | '-' :: rest => (true, rest)
    | _ => (false, s)
  let (whole, s) ← someDigits? s
  if whole.length > 1 ∧ whole.head? = some '0' then none
  else
    let (fraction, s) ← fraction? s
    let (exponent, s) ← exponent? s
    let number := ofParts negative whole fraction exponent
    if inRange number then some (number, s) else none

/-- The value of a hexadecimal digit. -/
def hexDigit? (c : Char) : Option Nat :=
  if c.isDigit then some (c.toNat - 48)
  else if 'a' ≤ c ∧ c ≤ 'f' then some (c.toNat - 87)
  else if 'A' ≤ c ∧ c ≤ 'F' then some (c.toNat - 55)
  else none

/-- Four hexadecimal digits. -/
def unit? (s : List Char) : Option (Nat × List Char) :=
  match s with
  | a :: b :: c :: d :: rest => do
    let a ← hexDigit? a
    let b ← hexDigit? b
    let c ← hexDigit? c
    let d ← hexDigit? d
    some (((a * 16 + b) * 16 + c) * 16 + d, rest)
  | _ => none

/-- A character written by number. One above the first plane is written as a pair of
    numbers from a reserved range, and half a pair is no character. -/
def numbered? (s : List Char) : Option (Char × List Char) := do
  let (high, rest) ← unit? s
  if 0xD800 ≤ high ∧ high < 0xDC00 then
    let rest ← expect ['\\', 'u'] rest
    let (low, rest) ← unit? rest
    if 0xDC00 ≤ low ∧ low < 0xE000 then
      some (Char.ofNat (0x10000 + (high - 0xD800) * 0x400 + (low - 0xDC00)), rest)
    else none
  else if 0xDC00 ≤ high ∧ high < 0xE000 then none
  else some (Char.ofNat high, rest)

/-- The character behind a backslash. -/
def escaped? (s : List Char) : Option (Char × List Char) :=
  match s with
  | '"' :: rest => some ('"', rest)
  | '\\' :: rest => some ('\\', rest)
  | '/' :: rest => some ('/', rest)
  | 'b' :: rest => some ('\x08', rest)
  | 'f' :: rest => some ('\x0c', rest)
  | 'n' :: rest => some ('\n', rest)
  | 'r' :: rest => some ('\r', rest)
  | 't' :: rest => some ('\t', rest)
  | 'u' :: rest => numbered? rest
  | _ => none

/-- The rest of a string behind its opening quotation mark, gathered in reverse. The first
    argument bounds how many characters it can have. -/
def text? : Nat → List Char → List Char → Option (String × List Char)
  | 0, _, _ => none
  | _, _, [] => none
  | fuel + 1, gathered, c :: rest =>
    if c = '"' then some (String.ofList gathered.reverse, rest)
    else if c = '\\' then
      match escaped? rest with
      | some (c, rest) => text? fuel (c :: gathered) rest
      | none => none
    else if c.toNat < 32 then none
    else text? fuel (c :: gathered) rest

mutual

/-- A value. The first argument bounds how many steps are left. -/
def value? : Nat → List Char → Option (Json × List Char)
  | 0, _ => none
  | fuel + 1, s =>
    match skipBlanks s with
    | '[' :: rest =>
      match skipBlanks rest with
      | ']' :: rest => some (.arr [], rest)
      | rest => (elements? fuel rest).map fun (elements, rest) => (.arr elements, rest)
    | '\x7b' :: rest =>
      match skipBlanks rest with
      | '\x7d' :: rest => some (.obj [], rest)
      | rest => (members? fuel rest).map fun (members, rest) => (object members, rest)
    | '"' :: rest => (text? (rest.length + 1) [] rest).map fun (text, rest) => (.str text, rest)
    | 't' :: rest => (expect ['r', 'u', 'e'] rest).map fun rest => (.bool true, rest)
    | 'f' :: rest => (expect ['a', 'l', 's', 'e'] rest).map fun rest => (.bool false, rest)
    | 'n' :: rest => (expect ['u', 'l', 'l'] rest).map fun rest => (.null, rest)
    | s => (number? s).map fun (number, rest) => (.num number, rest)

/-- Elements up to the closing bracket. -/
def elements? : Nat → List Char → Option (List Json × List Char)
  | 0, _ => none
  | fuel + 1, s =>
    match value? fuel s with
    | none => none
    | some (element, rest) =>
      match skipBlanks rest with
      | ']' :: rest => some ([element], rest)
      | ',' :: rest => (elements? fuel rest).map fun (more, rest) => (element :: more, rest)
      | _ => none

/-- Members up to the closing brace. -/
def members? : Nat → List Char → Option (List (String × Json) × List Char)
  | 0, _ => none
  | fuel + 1, s =>
    match skipBlanks s with
    | '"' :: rest =>
      match text? (rest.length + 1) [] rest with
      | none => none
      | some (key, rest) =>
        match skipBlanks rest with
        | ':' :: rest =>
          match value? fuel rest with
          | none => none
          | some (value, rest) =>
            match skipBlanks rest with
            | '\x7d' :: rest => some ([(key, value)], rest)
            | ',' :: rest =>
              (members? fuel rest).map fun (more, rest) => ((key, value) :: more, rest)
            | _ => none
        | _ => none
    | _ => none

end

end Reader

/-- Read a whole text as one value. -/
def parse? (text : String) : Option Json :=
  let s := text.toList
  match Reader.value? (2 * s.length + 2) s with
  | some (value, rest) => if (Reader.skipBlanks rest).isEmpty then some value else none
  | none => none

end Json

end DocSearch
