import DocSearch.Json.Record
import DocSearch.Proofs.Keyed

/-!
# Reading Records Back

What a reader finds in a record that was written out as an object.

A writer lists the fields in an order of its own, and the object has them in the order of their
names. A reader that goes by names does not see the difference: it finds under a name what was
listed under it, last if it was listed more than once. Counts are read back as long as they fit
the numbers they are written as.

## Theorems

* `Json.asCount?_ofNat`: A count that fits.
* `Json.Record.ofJson?_object`: An object as a record.
* `Json.Record.field?_object`: A field of it.
-/

namespace DocSearch

namespace Json

/-- A count that fits into 64 bits is read back. -/
theorem asCount?_ofNat {n : Nat} (h : n < Number.wordLimit) : (ofNat n).asCount? = some n :=
  if_pos h

namespace Record

/-- An object is read as a record with names, in which the last of several members with one name
    counts. -/
@[simp]
theorem ofJson?_object (required total : Nat) (members : List (String × Json)) :
    ofJson? required total (object members) = some (.named (Keyed.ofList members)) := rfl

/-- A field of such a record is found by its name. -/
@[simp]
theorem field?_object (place : Nat) (name : String) (members : List (String × Json)) :
    (named (Keyed.ofList members)).field? place name = Keyed.get? name members.reverse :=
  Keyed.get?_ofList name members

end Record

end Json

end DocSearch
