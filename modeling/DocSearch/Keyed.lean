/-!
# Maps in Key Order

Finite maps from texts to values, kept as association lists in ascending code point
order of their keys.

Everything the store shows to a client is ordered by key: the members of a JSON object,
the mapped fields of an index, the snippets of a hit, the buckets of a search. Keeping
that order in the data, rather than sorting when something is shown, means that "the
first member" has one meaning everywhere, and that two maps with the same entries are
equal as lists.

The order is not carried inside the type, because a JSON object contains JSON values and
the recursion has to stay plain. `Ordered` states it beside the type, and the lemmas say
which operations establish it and which keep it. Reading and erasing look at every entry
and do not rely on the order, so they also serve lists that are kept by age.

## Main definitions

* `Keyed`: An association list from texts to values.
* `Keyed.get?`: The value of a key.
* `Keyed.insert`: Add an entry at its place, replacing one with the same key.
* `Keyed.ofList`: Insert entries one after another, so the last of equal keys wins.
* `Keyed.distinct`: The distinct texts of a list, in order.
* `Keyed.Ordered`: The keys ascend strictly.

## Theorems

* `get?_insert`: Reading after an insertion.
* `ordered_insert`, `ordered_ofList`: Insertion keeps the order, and so a map built by
  insertions has it.
* `get?_erase`: Reading after an erasure.
-/

namespace DocSearch

/-- An association list from texts to values. -/
abbrev Keyed (α : Type) := List (String × α)

namespace Keyed

variable {α β : Type}

/-- The value under a key. -/
def get? (key : String) : List (String × α) → Option α
  | [] => none
  | (k, value) :: rest => if k = key then some value else get? key rest

/-- Whether a key has a value. -/
def contains (key : String) (entries : List (String × α)) : Bool :=
  (get? key entries).isSome

/-- The keys, in order. -/
def keys (entries : List (String × α)) : List String :=
  entries.map Prod.fst

/-- Put a value under a key: before the first greater key, or in place of the value that
    was there. -/
def insert (key : String) (value : α) : List (String × α) → List (String × α)
  | [] => [(key, value)]
  | (k, v) :: rest =>
    match String.compare key k with
    | .lt => (key, value) :: (k, v) :: rest
    | .eq => (key, value) :: rest
    | .gt => (k, v) :: insert key value rest

/-- Change the value under a key, starting from a default where there is none. -/
def upsert (key : String) (default : α) (change : α → α) (entries : List (String × α)) :
    List (String × α) :=
  insert key (change ((get? key entries).getD default)) entries

/-- Take a key out. -/
def erase (key : String) (entries : List (String × α)) : List (String × α) :=
  entries.filter fun entry => entry.1 ≠ key

/-- Insert entries one after another. The last of several entries with one key stays. -/
def ofList (entries : List (String × α)) : List (String × α) :=
  entries.foldl (fun built entry => insert entry.1 entry.2 built) []

/-- Distinct texts, in order. -/
def distinct (texts : List String) : List String :=
  keys (ofList (texts.map fun text => (text, ())))

/-- The keys ascend strictly, so each occurs once. -/
def Ordered (entries : List (String × α)) : Prop :=
  entries.Pairwise fun a b => String.compare a.1 b.1 = .lt

/-- The order of keys is a linear order. -/
instance : Std.TransCmp String.compare := String.instTransOrd

/-- Only a text itself compares as equal to it. -/
instance : Std.LawfulEqCmp String.compare := String.instLawfulEqOrd

/-- Two keys compare as equal only when they are the same text. -/
theorem compare_eq_iff {a b : String} : String.compare a b = .eq ↔ a = b :=
  Std.LawfulEqCmp.compare_eq_iff_eq

@[simp]
theorem get?_nil (key : String) : get? key ([] : List (String × α)) = none := rfl

/-- Reading after an insertion: the new value under its key, and what was there under
    every other. -/
theorem get?_insert (key other : String) (value : α) (entries : List (String × α)) :
    get? other (insert key value entries)
      = if key = other then some value else get? other entries := by
  induction entries with
  | nil => simp [insert, get?]
  | cons entry rest ih =>
    obtain ⟨k, v⟩ := entry
    rw [insert]
    rcases hc : String.compare key k with _ | _ | _
    · simp [get?]
    · have hk : key = k := compare_eq_iff.mp hc
      subst hk
      by_cases h : key = other <;> simp [get?, h]
    · have hk : key ≠ k := fun h => by simp [compare_eq_iff.mpr h] at hc
      by_cases h : k = other
      · have : key ≠ other := fun he => hk (he.trans h.symm)
        simp [get?, h, this]
      · simp [get?, h, ih]

/-- Reading after an erasure: nothing under its key, and what was there under every
    other. -/
theorem get?_erase (key other : String) (entries : List (String × α)) :
    get? other (erase key entries) = if key = other then none else get? other entries := by
  induction entries with
  | nil => simp [erase]
  | cons entry rest ih =>
    obtain ⟨k, v⟩ := entry
    by_cases hk : k = key
    · have : erase key ((k, v) :: rest) = erase key rest := by simp [erase, hk]
      rw [this, ih]
      by_cases h : key = other <;> simp [get?, hk, h]
    · have : erase key ((k, v) :: rest) = (k, v) :: erase key rest := by simp [erase, hk]
      rw [this, get?, ih]
      by_cases h : k = other
      · simp [h, get?, show ¬ key = other from fun he => hk (h.trans he.symm)]
      · simp [h, get?]

/-- Insertion keeps the order. -/
theorem ordered_insert (key : String) (value : α) {entries : List (String × α)}
    (h : Ordered entries) : Ordered (insert key value entries) := by
  induction entries with
  | nil => simp [insert, Ordered]
  | cons entry rest ih =>
    obtain ⟨k, v⟩ := entry
    obtain ⟨hhead, hrest⟩ := List.pairwise_cons.mp h
    rw [insert]
    rcases hc : String.compare key k with _ | _ | _
    · refine List.pairwise_cons.mpr ⟨fun entry hmem => ?_, h⟩
      rcases List.mem_cons.mp hmem with rfl | hmem
      · exact hc
      · exact Std.TransCmp.lt_trans hc (hhead entry hmem)
    · have hk : key = k := compare_eq_iff.mp hc
      subst hk
      exact List.pairwise_cons.mpr ⟨hhead, hrest⟩
    · refine List.pairwise_cons.mpr ⟨fun entry hmem => ?_, ih hrest⟩
      have hgt : String.compare k key = .lt :=
        Std.OrientedCmp.lt_of_gt hc
      rcases mem_of_mem_insert hmem with rfl | hmem
      · exact hgt
      · exact hhead entry hmem
where
  /-- An entry of the result is the new one or an old one. -/
  mem_of_mem_insert {key : String} {value : α} {entries : List (String × α)}
      {entry : String × α} (hmem : entry ∈ insert key value entries) :
      entry = (key, value) ∨ entry ∈ entries := by
    induction entries with
    | nil => simpa [insert] using hmem
    | cons head rest ih =>
      obtain ⟨k, v⟩ := head
      rw [insert] at hmem
      rcases hc : String.compare key k with _ | _ | _ <;> simp only [hc] at hmem
      · simpa using hmem
      · rcases List.mem_cons.mp hmem with rfl | h
        · exact Or.inl rfl
        · exact Or.inr (List.mem_cons_of_mem _ h)
      · rcases List.mem_cons.mp hmem with rfl | h
        · exact Or.inr List.mem_cons_self
        · exact (ih h).imp id (List.mem_cons_of_mem _)

/-- A map built by insertions is in order. -/
theorem ordered_ofList (entries : List (String × α)) : Ordered (ofList entries) := by
  suffices h : ∀ built : List (String × α), Ordered built →
      Ordered (entries.foldl (fun built entry => insert entry.1 entry.2 built) built) from
    h [] List.Pairwise.nil
  induction entries with
  | nil => exact fun _ h => h
  | cons entry rest ih => exact fun built h => ih _ (ordered_insert entry.1 entry.2 h)

/-- Taking entries out keeps the order. -/
theorem ordered_erase (key : String) {entries : List (String × α)} (h : Ordered entries) :
    Ordered (erase key entries) :=
  h.sublist List.filter_sublist

end Keyed

end DocSearch
