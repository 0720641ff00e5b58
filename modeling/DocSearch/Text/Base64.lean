/-!
# Base64

Three bytes written as four symbols of six bits each. The last group of a text may stand
for one or two bytes; it then ends in two or one padding signs, and the bits of its last
symbol that belong to no byte are zero. A text is read strictly: padding is required, and
those unused bits have to be zero, so that no two texts stand for the same bytes.

Both directions work on the UTF-8 bytes of a text, and a refusal names a byte and its
offset. When a text has several faults, the order of the checks decides which is named:
first a stray byte that alone makes the length impossible, then foreign bytes before the
last group, then the last group itself from left to right, and only then its length, its
padding and its unused bits.

## Main definitions

* `Base64.Fault`: Why a text was refused, and its message.
* `Base64.encode`: The symbols that stand for bytes.
* `Base64.decode`: The bytes a text stands for.
-/

namespace DocSearch

namespace Base64

/-- Why a text was refused. -/
inductive Fault where
  /-- A byte that may not stand where it does. -/
  | symbol (byte : UInt8) (offset : Nat)
  /-- The last group is too short to stand for a byte. -/
  | length (symbols : Nat)
  /-- The last symbol has unused bits that are not zero. -/
  | lastSymbol (byte : UInt8) (offset : Nat)
  /-- The last group is not filled up with padding. -/
  | padding
  deriving DecidableEq

/-- The message of a refusal. -/
def Fault.message : Fault → String
  | .symbol byte offset =>
    "Invalid symbol " ++ toString byte.toNat ++ ", offset " ++ toString offset ++ "."
  | .length symbols => "Invalid input length: " ++ toString symbols
  | .lastSymbol byte offset =>
    "Invalid last symbol " ++ toString byte.toNat ++ ", offset " ++ toString offset ++ "."
  | .padding => "Invalid padding"

/-- The padding sign. -/
def pad : UInt8 := 61

/-- The symbol of six bits. -/
def symbol (sextet : Nat) : UInt8 :=
  if sextet < 26 then UInt8.ofNat (65 + sextet)
  else if sextet < 52 then UInt8.ofNat (71 + sextet)
  else if sextet < 62 then UInt8.ofNat (sextet - 4)
  else if sextet = 62 then 43
  else 47

/-- The six bits of a symbol. The padding sign is not one. -/
def sextet? (byte : UInt8) : Option Nat :=
  let n := byte.toNat
  if 65 ≤ n ∧ n ≤ 90 then some (n - 65)
  else if 97 ≤ n ∧ n ≤ 122 then some (n - 71)
  else if 48 ≤ n ∧ n ≤ 57 then some (n + 4)
  else if n = 43 then some 62
  else if n = 47 then some 63
  else none

/-- The symbols that stand for bytes, padding included. -/
def encode : List UInt8 → List UInt8
  | [] => []
  | [a] => [symbol (a.toNat / 4), symbol (a.toNat % 4 * 16), pad, pad]
  | [a, b] =>
    [symbol (a.toNat / 4), symbol (a.toNat % 4 * 16 + b.toNat / 16),
      symbol (b.toNat % 16 * 4), pad]
  | a :: b :: c :: rest =>
    symbol (a.toNat / 4) :: symbol (a.toNat % 4 * 16 + b.toNat / 16)
      :: symbol (b.toNat % 16 * 4 + c.toNat / 64) :: symbol (c.toNat % 64) :: encode rest

/-- The bytes that groups of six bits stand for, where the last group may be short. -/
def bytesOf : List Nat → List UInt8
  | a :: b :: c :: d :: rest =>
    UInt8.ofNat (a * 4 + b / 16) :: UInt8.ofNat (b % 16 * 16 + c / 4)
      :: UInt8.ofNat (c % 4 * 64 + d) :: bytesOf rest
  | [a, b, c] => [UInt8.ofNat (a * 4 + b / 16), UInt8.ofNat (b % 16 * 16 + c / 4)]
  | [a, b] => [UInt8.ofNat (a * 4 + b / 16)]
  | _ => []

/-- The six bits of every symbol, where each byte has to be one. -/
def sextets (offset : Nat) : List UInt8 → Except Fault (List Nat)
  | [] => .ok []
  | byte :: rest =>
    match sextet? byte with
    | none => .error (.symbol byte offset)
    | some sextet => (sextets (offset + 1) rest).map (sextet :: ·)

/-- The six bits of the symbols in the last group, and how many padding signs follow them.
    Padding starts at the third place at the earliest and ends the group; where it does
    not, the first padding sign is to blame. -/
def lastGroup (start : Nat) : Nat → Option Nat → List UInt8 → Except Fault (List Nat × Nat)
  | _, _, [] => .ok ([], 0)
  | place, firstPad, byte :: rest =>
    if byte = pad then
      if place < 2 then .error (.symbol byte (start + place))
      else
        (lastGroup start (place + 1) (some (firstPad.getD place)) rest).map
          fun (symbols, pads) => (symbols, pads + 1)
    else
      match firstPad, sextet? byte with
      -- Behind a padding sign even a symbol is out of place.
      | some firstPad, _ => .error (.symbol pad (start + firstPad))
      | none, none => .error (.symbol byte (start + place))
      | none, some sextet =>
        (lastGroup start (place + 1) none rest).map
          fun (symbols, pads) => (sextet :: symbols, pads)

/-- How long the last group of a text is. -/
def lastGroupLength (length : Nat) : Nat :=
  if length % 4 = 0 then min 4 length else length % 4

/-- The bits of the last symbol that belong to no byte. -/
def unusedBits : List Nat → Nat
  | [_, b] => b % 16
  | [_, _, c] => c % 4
  | _ => 0

/-- A last byte that makes the length impossible and is no symbol either. -/
def strayEnd? (bytes : List UInt8) : Option Fault :=
  if bytes.length % 4 = 1 then
    match bytes.getLast? with
    | some byte =>
      if byte ≠ pad ∧ sextet? byte = none then some (.symbol byte (bytes.length - 1)) else none
    | none => none
  else none

/-- The bytes a text stands for, given the bytes of the text. -/
def decode (bytes : List UInt8) : Except Fault (List UInt8) := do
  -- A stray line end is the usual cause of an impossible length, so it is named first.
  if let some fault := strayEnd? bytes then throw fault
  let start := bytes.length - lastGroupLength bytes.length
  let body ← sextets 0 (bytes.take start)
  let (symbols, pads) ← lastGroup start 0 none (bytes.drop start)
  -- The empty text has no last group at all, and it stands for no bytes.
  if bytes ≠ [] ∧ symbols.length < 2 then throw (.length (start + symbols.length))
  if bytes ≠ [] ∧ symbols.length + pads ≠ 4 then throw .padding
  if unusedBits symbols ≠ 0 then
    let offset := start + symbols.length - 1
    throw (.lastSymbol (bytes.getD offset 0) offset)
  return bytesOf (body ++ symbols)

end Base64

end DocSearch
