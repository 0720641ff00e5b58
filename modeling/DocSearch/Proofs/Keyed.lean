import DocSearch.Keyed

/-!
# Laws of Keyed Maps

What the maps in key order promise beyond reading after one operation.

Two questions come up again and again. Which entry of a list is the one that reading finds?
The first with the key, so reading a list in two parts looks at the front part first, and a
map built from entries with distinct keys holds all of them. And does an operation that
changes one entry leave a list that is computed from all entries as it was? It does when the
changed entry contributes what the old one did, and in an ordered map insertion finds the
old one. Putting back what is there then changes nothing at all.

## Theorems

* `get?_eq_none_iff`, `contains_iff`: Reading finds nothing exactly where the key is not there.
* `mem_of_get?_eq_some`: What reading finds is an entry.
* `get?_of_mem`: Where keys are distinct, every entry is found.
* `eq_elim_get?`: A search of its own for a key comes to reading.
* `get?_append`: Reading looks at the front of a list first.
* `get?_reverse`: Where keys are distinct, a list may be read from either end.
* `get?_filter_keys`: Reading from the entries of some keys.
* `get?_ofList`: Of several entries with one key the last is found.
* `exists_append_of_get?_ofList`: That entry, with those before and behind it.
* `get?_ofList_of_mem`: A map built from entries with distinct keys holds all of them.
* `get?_ofList_map`: A map that gives every key of a list its value.
* `mem_distinct_iff`, `nodup_distinct`: The distinct texts of a list.
* `get?_upsert`: Reading after a change to the value under one key.
* `flatMap_insert`: An insertion that changes no contribution changes no computed list.
* `insert_of_get?_eq_some`: Putting back what is there changes nothing.
-/

namespace DocSearch

namespace Keyed

variable {α β : Type}

theorem keys_cons (key : String) (value : α) (rest : List (String × α)) :
    keys ((key, value) :: rest) = key :: keys rest := rfl

theorem keys_append (front back : List (String × α)) :
    keys (front ++ back) = keys front ++ keys back := List.map_append

/-- Nothing is found under exactly those keys that are not there. -/
theorem get?_eq_none_iff (key : String) (entries : List (String × α)) :
    get? key entries = none ↔ key ∉ keys entries := by
  induction entries with
  | nil => simp [keys]
  | cons entry rest ih =>
    rcases entry with ⟨k, v⟩
    rw [keys_cons, List.mem_cons, get?]
    by_cases h : k = key
    · simp [h]
    · rw [if_neg h, ih]
      have hne : key ≠ k := fun he => h he.symm
      simp only [hne, false_or]

theorem contains_iff {key : String} {entries : List (String × α)} :
    contains key entries = true ↔ key ∈ keys entries := by
  rw [contains, Option.isSome_iff_ne_none, ne_eq, get?_eq_none_iff, Decidable.not_not]

/-- What is found is an entry. -/
theorem mem_of_get?_eq_some {key : String} {value : α} {entries : List (String × α)}
    (h : get? key entries = some value) : (key, value) ∈ entries := by
  induction entries with
  | nil => exact absurd h (by simp)
  | cons entry rest ih =>
    rcases entry with ⟨k, v⟩
    rw [get?] at h
    by_cases hk : k = key
    · rw [if_pos hk, Option.some.injEq] at h
      rw [hk, h]
      exact List.mem_cons_self
    · rw [if_neg hk] at h
      exact List.mem_cons_of_mem _ (ih h)

/-- Every entry is found, as long as no key comes twice. -/
theorem get?_of_mem {key : String} {value : α} {entries : List (String × α)}
    (hnodup : (keys entries).Nodup) (hmem : (key, value) ∈ entries) :
    get? key entries = some value := by
  induction entries with
  | nil => exact absurd hmem List.not_mem_nil
  | cons entry rest ih =>
    rcases entry with ⟨k, v⟩
    rw [keys_cons, List.nodup_cons] at hnodup
    rw [get?]
    rcases List.mem_cons.mp hmem with heq | hmem
    · rw [Prod.mk.injEq] at heq
      rw [if_pos heq.1.symm, heq.2]
    · have hne : k ≠ key := fun heq =>
        hnodup.1 (by rw [heq]; exact List.mem_map.mpr ⟨_, hmem, rfl⟩)
      rw [if_neg hne, ih hnodup.2 hmem]

/-- In key order no key comes twice. -/
theorem nodup_keys_of_ordered {entries : List (String × α)} (h : Ordered entries) :
    (keys entries).Nodup := by
  rw [keys, List.Nodup, List.pairwise_map]
  refine h.imp fun {a b} hlt heq => ?_
  rw [compare_eq_iff.mpr heq] at hlt
  exact Ordering.noConfusion hlt

-- A search of its own that does something with the first value under a key does it with the one
-- that reading finds.
theorem eq_elim_get? {key : String} {search : List (String × α) → β} {missing : β}
    {found : α → β} (hnil : search [] = missing)
    (hcons : ∀ k value rest,
      search ((k, value) :: rest) = if k = key then found value else search rest)
    (entries : List (String × α)) : search entries = (get? key entries).elim missing found := by
  induction entries with
  | nil => exact hnil
  | cons entry rest ih =>
    rcases entry with ⟨k, value⟩
    rw [hcons, get?, ih]
    by_cases h : k = key
    · rw [if_pos h, if_pos h, Option.elim_some]
    · rw [if_neg h, if_neg h]

/-- Reading a list from its front: what is behind counts only where the front has
    nothing. -/
theorem get?_append (key : String) (front back : List (String × α)) :
    get? key (front ++ back) = (get? key front).or (get? key back) := by
  induction front with
  | nil => rfl
  | cons entry rest ih =>
    rcases entry with ⟨k, v⟩
    rw [List.cons_append, get?, get?]
    by_cases h : k = key
    · rw [if_pos h, if_pos h, Option.some_or]
    · rw [if_neg h, if_neg h, ih]

-- Where keys are distinct it does not matter from which end a list is read.
theorem get?_reverse {entries : List (String × α)} (hnodup : (keys entries).Nodup)
    (key : String) : get? key entries.reverse = get? key entries := by
  have hreverse : keys entries.reverse = (keys entries).reverse := List.map_reverse
  cases hget : get? key entries with
  | none =>
    rw [get?_eq_none_iff, hreverse, List.mem_reverse]
    exact (get?_eq_none_iff key entries).mp hget
  | some value =>
    refine get?_of_mem ?_ (List.mem_reverse.mpr (mem_of_get?_eq_some hget))
    rw [hreverse]
    exact List.pairwise_reverse.mpr (hnodup.imp Ne.symm)

/-- The entries of some keys read as before under these keys, and as nothing under others. -/
theorem get?_filter_keys (keep : String → Bool) (entries : List (String × α)) (key : String) :
    get? key (entries.filter fun entry => keep entry.1)
      = if keep key = true then get? key entries else none := by
  induction entries with
  | nil => simp
  | cons entry rest ih =>
    rcases entry with ⟨k, value⟩
    rw [List.filter_cons, get?]
    by_cases hk : k = key
    · subst hk
      by_cases hkeep : keep k = true
      · simp [hkeep, get?]
      · simp [hkeep, ih]
    · by_cases hkeep : keep k = true
      · simp [hkeep, get?, hk, ih]
      · simp [hkeep, hk, ih]

theorem erase_append (key : String) (front back : List (String × α)) :
    erase key (front ++ back) = erase key front ++ erase key back := List.filter_append ..

/-- Taking out a key that is not there changes nothing. -/
theorem erase_of_notMem {key : String} {entries : List (String × α)} (h : key ∉ keys entries) :
    erase key entries = entries := by
  refine List.filter_eq_self.mpr fun entry hmem => decide_eq_true fun heq => ?_
  exact h (heq ▸ List.mem_map_of_mem hmem)

-- A key that is taken out is gone, and no other key is added.
theorem notMem_keys_erase (key : String) (entries : List (String × α)) :
    key ∉ keys (erase key entries) := by
  rw [← get?_eq_none_iff, get?_erase, if_pos rfl]

theorem keys_erase_sublist (key : String) (entries : List (String × α)) :
    (keys (erase key entries)).Sublist (keys entries) :=
  List.filter_sublist.map Prod.fst

-- The entries of a map that is built from others are among them.
theorem mem_of_mem_ofList {entries : List (String × α)} {entry : String × α}
    (hmem : entry ∈ ofList entries) : entry ∈ entries := by
  have hbuilt : ∀ rest built : List (String × α),
      entry ∈ rest.foldl (fun built entry => insert entry.1 entry.2 built) built →
        entry ∈ rest ∨ entry ∈ built := by
    intro rest
    induction rest with
    | nil => exact fun _ h => Or.inr h
    | cons first rest ih =>
      intro built h
      rcases ih _ h with hrest | hinserted
      · exact Or.inl (List.mem_cons_of_mem _ hrest)
      · rcases ordered_insert.mem_of_mem_insert hinserted with rfl | hold
        · exact Or.inl List.mem_cons_self
        · exact Or.inr hold
  exact (hbuilt entries [] hmem).resolve_right List.not_mem_nil

-- Of several entries with one key the last is inserted last, so it is the one that is found.
theorem get?_ofList (key : String) (entries : List (String × α)) :
    get? key (ofList entries) = get? key entries.reverse := by
  have hbuilt : ∀ rest built : List (String × α),
      get? key (rest.foldl (fun built entry => insert entry.1 entry.2 built) built)
        = (get? key rest.reverse).or (get? key built) := by
    intro rest
    induction rest with
    | nil => exact fun _ => rfl
    | cons first rest ih =>
      intro built
      rcases first with ⟨k, v⟩
      rw [List.foldl_cons, ih, get?_insert, List.reverse_cons, get?_append, Option.or_assoc]
      by_cases h : k = key
      · rw [if_pos h, get?, if_pos h, Option.some_or]
      · rw [if_neg h, get?, if_neg h, get?_nil, Option.none_or]
  rw [ofList, hbuilt, get?_nil, Option.or_none]

/-- A map that is made of entries has their keys. -/
theorem get?_ofList_eq_none_iff (key : String) (entries : List (String × α)) :
    get? key (ofList entries) = none ↔ key ∉ keys entries := by
  rw [get?_ofList, get?_eq_none_iff, keys, List.map_reverse, List.mem_reverse, keys]

-- The entry that is found in a list with several entries under one key.
theorem exists_append_of_get? {key : String} {value : α} {entries : List (String × α)}
    (h : get? key entries = some value) :
    ∃ front back, entries = front ++ (key, value) :: back ∧ key ∉ keys front := by
  induction entries with
  | nil => exact absurd h (by simp)
  | cons entry rest ih =>
    rcases entry with ⟨k, v⟩
    rw [get?] at h
    by_cases hk : k = key
    · rw [if_pos hk, Option.some.injEq] at h
      exact ⟨[], rest, by rw [hk, h, List.nil_append], List.not_mem_nil⟩
    · rw [if_neg hk] at h
      rcases ih h with ⟨front, back, rfl, hfront⟩
      refine ⟨(k, v) :: front, back, rfl, ?_⟩
      rw [keys_cons, List.mem_cons, not_or]
      exact ⟨fun heq => hk heq.symm, hfront⟩

/-- What a map holds under a key comes from the last entry with the key. -/
theorem exists_append_of_get?_ofList {key : String} {value : α} {entries : List (String × α)}
    (h : get? key (ofList entries) = some value) :
    ∃ front back, entries = front ++ (key, value) :: back ∧ key ∉ keys back := by
  rw [get?_ofList] at h
  rcases exists_append_of_get? h with ⟨back, front, hentries, hback⟩
  refine ⟨front.reverse, back.reverse, ?_, ?_⟩
  · rw [← List.reverse_reverse entries, hentries, List.reverse_append, List.reverse_cons,
      List.append_assoc, List.singleton_append]
  · rw [keys, List.map_reverse, List.mem_reverse]
    exact hback

-- A map that gives every key of a list its value, however often the key is listed.
theorem get?_ofList_map {keys : List String} {key : String} (value : String → α)
    (hmem : key ∈ keys) :
    get? key (ofList (keys.map fun other => (other, value other))) = some (value key) := by
  rw [get?_ofList, ← List.map_reverse]
  cases hget : get? key (keys.reverse.map fun other => (other, value other)) with
  | none =>
    refine absurd ?_ ((get?_eq_none_iff key _).mp hget)
    rw [Keyed.keys, List.map_map]
    exact List.mem_map.mpr ⟨key, List.mem_reverse.mpr hmem, rfl⟩
  | some found =>
    rcases List.mem_map.mp (mem_of_get?_eq_some hget) with ⟨other, _, heq⟩
    rw [Prod.mk.injEq] at heq
    rw [← heq.2, heq.1]

/-- A map built from entries with distinct keys holds all of them. -/
theorem get?_ofList_of_mem {key : String} {value : α} {entries : List (String × α)}
    (hnodup : (keys entries).Nodup) (hmem : (key, value) ∈ entries) :
    get? key (ofList entries) = some value := by
  rw [get?_ofList, get?_reverse hnodup, get?_of_mem hnodup hmem]

/-- Leaving out repetitions leaves nothing else out. -/
theorem mem_distinct_iff {text : String} {texts : List String} :
    text ∈ distinct texts ↔ text ∈ texts := by
  have hkeys : keys (texts.map fun text => (text, ())).reverse = texts.reverse := by
    rw [keys, List.map_reverse, List.map_map]
    exact congrArg List.reverse (List.map_id texts)
  rw [distinct, ← Decidable.not_iff_not, ← get?_eq_none_iff, get?_ofList, get?_eq_none_iff, hkeys,
    List.mem_reverse]

theorem nodup_distinct (texts : List String) : (distinct texts).Nodup :=
  nodup_keys_of_ordered (ordered_ofList _)

/-- A changed entry is found in its new form, and all others as they were. -/
theorem get?_upsert (key other : String) (default : α) (change : α → α)
    (entries : List (String × α)) :
    get? other (upsert key default change entries)
      = if key = other then some (change ((get? key entries).getD default))
        else get? other entries :=
  get?_insert key other _ entries

/-- A list computed entry by entry stays as it was when a value is put under a key and
    contributes what was contributed there before, which is nothing where the key is new. -/
theorem flatMap_insert (f : String × α → List β) (key : String) (value : α)
    {entries : List (String × α)} (hordered : Ordered entries)
    (hsame : f (key, value) = ((get? key entries).map fun old => f (key, old)).getD []) :
    (insert key value entries).flatMap f = entries.flatMap f := by
  induction entries with
  | nil => simpa [insert] using hsame
  | cons entry rest ih =>
    rcases entry with ⟨k, v⟩
    rcases List.pairwise_cons.mp hordered with ⟨hhead, hrest⟩
    rw [insert]
    cases hc : String.compare key k with
    | lt =>
      -- The key is below the head, so it is not in the map at all.
      have hnone : get? key ((k, v) :: rest) = none := by
        rw [get?_eq_none_iff, keys_cons, List.mem_cons, not_or]
        refine ⟨fun he => ?_, fun hmem => ?_⟩
        · rw [compare_eq_iff.mpr he] at hc
          exact Ordering.noConfusion hc
        · rcases List.mem_map.mp hmem with ⟨other, hother, rfl⟩
          have hlt := Std.TransCmp.lt_trans hc (hhead other hother)
          rw [compare_eq_iff.mpr rfl] at hlt
          exact Ordering.noConfusion hlt
      rw [hnone] at hsame
      simp only [List.flatMap_cons, hsame, Option.map_none, Option.getD_none, List.nil_append]
    | eq =>
      -- The old value is replaced by one that counts for the same.
      have hk : key = k := compare_eq_iff.mp hc
      subst hk
      rw [get?, if_pos rfl] at hsame
      simp only [List.flatMap_cons, hsame, Option.map_some, Option.getD_some]
    | gt =>
      -- The key belongs behind the head, and the head is what it was.
      have hne : k ≠ key := fun he => by
        rw [compare_eq_iff.mpr he.symm] at hc
        exact Ordering.noConfusion hc
      rw [get?, if_neg hne] at hsame
      simp only [List.flatMap_cons, ih hrest hsame]

/-- Putting back under a key what is there changes nothing. -/
theorem insert_of_get?_eq_some {key : String} {value : α} {entries : List (String × α)}
    (hordered : Ordered entries) (hget : get? key entries = some value) :
    insert key value entries = entries := by
  -- A map is the list of its entries, and the entry contributes itself.
  have hsame := flatMap_insert (fun entry => [entry]) key value hordered (by rw [hget]; rfl)
  rwa [List.flatMap_singleton', List.flatMap_singleton'] at hsame

end Keyed

end DocSearch
