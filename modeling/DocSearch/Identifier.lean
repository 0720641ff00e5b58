/-!
# Identifiers

Names the store makes up itself: ids of documents that were added without one, and the
nodes of scrolls. They are drawn at random, letters, digits and the hyphen. Randomness is
not computed here; whoever runs the store brings the choices, and the store has to be
right whatever they are.

## Main definitions

* `Identifier.alphabet`: The characters.
* `Identifier.ofChoices`: The identifier some choices make.

## Theorems

* `length_ofChoices`: It has the length that was asked for.
* `mem_alphabet_of_mem_ofChoices`: It holds characters of the alphabet only.
-/

namespace DocSearch

namespace Identifier

/-- The characters of identifiers. -/
def alphabet : List Char :=
  "abcdefghijklmnopqrstuvwxyzABCDEFGHIJKLMNOPQRSTUVWXYZ0123456789-".toList

/-- The identifier of a length that some choices make, one for every place. -/
def ofChoices (choose : Nat → Nat) (length : Nat) : String :=
  String.ofList <| (List.range length).map fun place =>
    alphabet.getD (choose place % alphabet.length) '-'

/-- An identifier has the length that was asked for. -/
theorem length_ofChoices (choose : Nat → Nat) (length : Nat) :
    (ofChoices choose length).toList.length = length := by
  simp [ofChoices]

/-- An identifier holds characters of the alphabet only. -/
theorem mem_alphabet_of_mem_ofChoices {choose : Nat → Nat} {length : Nat} {c : Char}
    (h : c ∈ (ofChoices choose length).toList) : c ∈ alphabet := by
  simp only [ofChoices, String.toList_ofList, List.mem_map] at h
  obtain ⟨place, -, rfl⟩ := h
  rw [List.getD_eq_getElem?_getD]
  have hlt : choose place % alphabet.length < alphabet.length :=
    Nat.mod_lt _ (by decide)
  rw [List.getElem?_eq_getElem hlt]
  exact List.getElem_mem hlt

end Identifier

end DocSearch
