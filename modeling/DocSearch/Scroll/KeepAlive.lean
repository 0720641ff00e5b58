import DocSearch.Error
import DocSearch.Text.Blank

/-!
# Keep-Alives

How long a client asks for a scroll to be kept: a number and a unit, such as `1m` or
`30s`, with blanks around it at most. The number is a run of ASCII digits and has to fit
64 bits. Multiplied by a long unit it may not fit any more, and then the longest duration
is meant.

The unit is the first of some names that the text goes on with, and nothing may follow it. No
second name is tried then, so the names have to be looked for in the right order.

Scrolls are never closed for their age. The duration is only checked and kept.

## Main definitions

* `Duration`: Whole seconds and nanoseconds.
* `TimeUnit`: The units.
* `TimeUnit.read?`: The unit that a text begins with.
* `Duration.ofText`: Reading a keep-alive.
-/

namespace DocSearch

/-- Whole seconds and the nanoseconds beyond them. -/
structure Duration where
  seconds : Nat
  nanoseconds : Nat := 0
  deriving DecidableEq

/-- A unit of time. -/
inductive TimeUnit where
  | day
  | hour
  | minute
  | second
  | millisecond
  | microsecond
  | nanosecond
  deriving DecidableEq

namespace TimeUnit

/-- The name of a unit. -/
def name : TimeUnit → List Char
  | .day => ['d']
  | .hour => ['h']
  | .minute => ['m']
  | .second => ['s']
  | .millisecond => ['m', 's']
  | .microsecond => ['m', 'i', 'c', 'r', 'o', 's']
  | .nanosecond => ['n', 'a', 'n', 'o', 's']

/-- The units in the order in which a text is searched for their names. The first name that is
    found is taken, so one that begins with another stands before it. -/
def order : List TimeUnit :=
  [.nanosecond, .microsecond, .millisecond, .day, .hour, .minute, .second]

/-- The first unit whose name a text begins with, and what stands behind the name. -/
def read? (s : List Char) : Option (TimeUnit × List Char) :=
  order.findSome? fun unit =>
    if unit.name.isPrefixOf s then some (unit, s.drop unit.name.length) else none

/-- So many seconds of a long unit, as far as they fit. -/
def longDuration (amount seconds : Nat) : Duration :=
  ⟨min (amount * seconds) Number.greatestWord, 0⟩

/-- So many parts of a second, of which a second has `perSecond`. -/
def shortDuration (amount perSecond : Nat) : Duration :=
  ⟨amount / perSecond, amount % perSecond * (1000000000 / perSecond)⟩

/-- So many units as a duration. -/
def duration (amount : Nat) : TimeUnit → Duration
  | .day => longDuration amount 86400
  | .hour => longDuration amount 3600
  | .minute => longDuration amount 60
  | .second => ⟨amount, 0⟩
  | .millisecond => shortDuration amount 1000
  | .microsecond => shortDuration amount 1000000
  | .nanosecond => shortDuration amount 1000000000

end TimeUnit

namespace Duration

/-- The value of a run of digits. -/
def amountOf (digits : List Char) : Nat :=
  digits.foldl (fun n c => 10 * n + (c.toNat - 48)) 0

/-- A number and a unit behind each other, and nothing else. -/
def ofChars? (s : List Char) : Option Duration :=
  let digits := s.takeWhile Char.isDigit
  let amount := amountOf digits
  if digits = [] ∨ Number.wordLimit ≤ amount then none
  else
    match TimeUnit.read? (s.dropWhile Char.isDigit) with
    | some (unit, []) => some (unit.duration amount)
    | _ => none

/-- Read a keep-alive. -/
def ofText (text : String) : Except Error Duration :=
  match ofChars? (Text.trim text).toList with
  | some duration => .ok duration
  | none => .error (.keepAlive text)

end Duration

end DocSearch
