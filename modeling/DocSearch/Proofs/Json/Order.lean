import DocSearch.Json.Basic
import DocSearch.Proofs.Keyed

/-!
# Values in Key Order

What is known about the parts of a value whose objects all have their members in key order. Every
part is such a value again, so a proof that follows the members of a value takes the order along.

## Theorems

* `Json.Ordered.keyed`: The members of an object are in order.
* `Json.Ordered.member`: What is found under a key is in order.
* `Json.ordered_of_cons`: The first member of an object and the object of the others.
* `Json.ordered_single`: An object with one member.
* `Json.sizeOf_lt_of_get?`: A member is smaller than the object.
-/

namespace DocSearch

namespace Json

-- Order passes from a value to its members, and from an object to the object without its first
-- member.
theorem Ordered.keyed {members : List (String × Json)} (h : (Json.obj members).Ordered) :
    Keyed.Ordered members := by
  cases h with
  | obj hordered _ => exact hordered

theorem Ordered.member {key : String} {value member : Json} (h : value.Ordered)
    (hget : value.get? key = some member) : member.Ordered := by
  cases h with
  | obj _ hmembers => exact hmembers _ (Keyed.mem_of_get?_eq_some hget)
  | _ => cases hget

theorem ordered_of_cons {name : String} {value : Json} {rest : List (String × Json)}
    (h : (Json.obj ((name, value) :: rest)).Ordered) : value.Ordered ∧ (Json.obj rest).Ordered := by
  cases h with
  | obj hordered hmembers =>
    exact ⟨hmembers _ List.mem_cons_self, .obj (List.pairwise_cons.mp hordered).2
      fun member hmem => hmembers member (List.mem_cons_of_mem _ hmem)⟩

-- An object with one member is in order if the value of the member is.
theorem ordered_single (name : String) {value : Json} (h : value.Ordered) :
    (Json.obj [(name, value)]).Ordered :=
  .obj (List.pairwise_singleton ..) (by simpa using h)

/-- A member is smaller than the value that it belongs to, which is what recursions over values
    need. -/
theorem sizeOf_lt_of_get? {key : String} {value member : Json}
    (h : value.get? key = some member) : sizeOf member < sizeOf value := by
  cases value with
  | obj members =>
    have hlt := List.sizeOf_lt_of_mem (Keyed.mem_of_get?_eq_some h)
    simp only [Prod.mk.sizeOf_spec, Json.obj.sizeOf_spec] at hlt ⊢
    omega
  | _ => cases h

end Json

end DocSearch
