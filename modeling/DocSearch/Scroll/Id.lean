import DocSearch.Error

/-!
# Scroll Ids

What a client is given to name an open scroll: the Base64 text of a fixed frame followed
by the UTF-8 bytes of the node, under which the store keeps the scroll. The code is exact
in both directions, so a text that was not made this way is refused.

## Main definitions

* `ScrollId.frame`: The bytes before the node.
* `ScrollId.encode`: The id of a node.
* `ScrollId.decode`: The node of an id.
-/

namespace DocSearch

namespace ScrollId

/-- The UTF-8 bytes of a text. -/
def bytesOf (text : String) : List UInt8 := text.toUTF8.data.toList

/-- The text of some UTF-8 bytes, if they are UTF-8 at all. -/
def textOf? (bytes : List UInt8) : Option String := String.fromUTF8? ⟨bytes.toArray⟩

/-- The bytes before the node. -/
def frame : List UInt8 :=
  [113, 117, 101, 114, 121, 65, 110, 100, 70, 101, 116, 99, 104, 1, 0, 0, 0, 0, 0, 0, 0, 62, 22]

/-- The id of a node. -/
def encode (node : String) : String :=
  String.ofList ((Base64.encode (frame ++ bytesOf node)).map fun byte => Char.ofNat byte.toNat)

/-- The node of an id. -/
def decode (id : String) : Except Error String :=
  match Base64.decode (bytesOf id) with
  | .error fault => .error (.scrollIdNotBase64 fault)
  | .ok bytes =>
    if frame.isPrefixOf bytes then
      match textOf? (bytes.drop frame.length) with
      | some node => .ok node
      | none => .error (.scrollIdMalformed id)
    else .error (.scrollIdMalformed id)

end ScrollId

end DocSearch
