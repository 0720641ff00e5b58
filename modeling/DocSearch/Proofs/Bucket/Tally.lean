import DocSearch.Bucket.Tally
import Mathlib.Algebra.GroupWithZero.Nat
import Mathlib.Data.List.Dedup

/-!
# Laws of Counting

A tally has one entry for every distinct item, and the entry says how often the item occurs.

Both halves are read off one invariant of counting item by item. The keys of the tally are
the items seen so far, each once, and looking an item up gives the number of times it was
seen. Nothing here depends on the order of the entries, so a tally collected in any other
order has the same laws.

## Main definitions

* `countIn`: The count of an item in a tally, zero where it has no entry.

## Theorems

* `countIn_bump`: One more occurrence raises one count by one.
* `mem_keys_tally`, `nodup_keys_tally`: The keys are the items, each once.
* `mem_tally_iff`: The entries are the items with their multiplicities.
* `length_tally`: There are as many entries as distinct items.
* `sum_counts_tally`: The multiplicities add up to the number of items.
-/

namespace DocSearch

variable {α : Type} [DecidableEq α]

/-- The count of an item in a tally, zero where it has no entry. -/
def countIn (item : α) : List (α × Nat) → Nat
  | [] => 0
  | (other, count) :: rest => if other = item then count else countIn item rest

/-- One more occurrence of an item raises its count by one, and no other. -/
theorem countIn_bump (item other : α) (counts : List (α × Nat)) :
    countIn other (bump item counts)
      = countIn other counts + if item = other then 1 else 0 := by
  induction counts with
  | nil => by_cases h : item = other <;> simp [bump, countIn, h]
  | cons entry rest ih =>
    rcases entry with ⟨head, count⟩
    rw [bump]
    -- The entry of the item goes up by one, and no other entry is touched.
    by_cases hhead : head = item
    · rw [if_pos hhead, countIn, countIn, hhead]
      by_cases h : item = other
      · rw [if_pos h, if_pos h, if_pos h]
      · rw [if_neg h, if_neg h, if_neg h, Nat.add_zero]
    · rw [if_neg hhead, countIn, countIn, ih]
      by_cases h : head = other
      · have hne : item ≠ other := fun he => hhead (h.trans he.symm)
        rw [if_pos h, if_pos h, if_neg hne, Nat.add_zero]
      · rw [if_neg h, if_neg h]

/-- A new item gets its entry behind the others, and an old one keeps its place. -/
theorem keys_bump (item : α) (counts : List (α × Nat)) :
    (bump item counts).map Prod.fst
      = if item ∈ counts.map Prod.fst then counts.map Prod.fst
        else counts.map Prod.fst ++ [item] := by
  induction counts with
  | nil => rfl
  | cons entry rest ih =>
    rcases entry with ⟨head, count⟩
    rw [bump]
    by_cases hhead : head = item
    · simp [hhead]
    · have hne : item ≠ head := fun he => hhead he.symm
      simp only [if_neg hhead, List.map_cons, ih, List.mem_cons, hne, false_or]
      by_cases hmem : item ∈ rest.map Prod.fst
      · rw [if_pos hmem, if_pos hmem]
      · rw [if_neg hmem, if_neg hmem, List.cons_append]

/-- Counting an item once more adds no other item to the table. -/
theorem mem_keys_bump (item other : α) (counts : List (α × Nat)) :
    other ∈ (bump item counts).map Prod.fst
      ↔ other ∈ counts.map Prod.fst ∨ other = item := by
  rw [keys_bump]
  by_cases hmem : item ∈ counts.map Prod.fst
  · rw [if_pos hmem]
    refine ⟨Or.inl, fun h => ?_⟩
    rcases h with h | h
    · exact h
    · exact h ▸ hmem
  · rw [if_neg hmem, List.mem_append, List.mem_singleton]

/-- It adds no second entry for the item either. -/
theorem nodup_keys_bump (item : α) {counts : List (α × Nat)}
    (h : (counts.map Prod.fst).Nodup) : ((bump item counts).map Prod.fst).Nodup := by
  rw [keys_bump]
  by_cases hmem : item ∈ counts.map Prod.fst
  · rw [if_pos hmem]
    exact h
  · rw [if_neg hmem, List.nodup_append]
    refine ⟨h, List.nodup_singleton item, fun a ha b hb heq => ?_⟩
    rw [List.mem_singleton.mp hb] at heq
    exact hmem (heq ▸ ha)

/-- Counting on from a tally adds the multiplicity of every item. -/
theorem countIn_foldl_bump (item : α) (items : List α) :
    ∀ counts : List (α × Nat),
      countIn item (items.foldl (fun counts item => bump item counts) counts)
        = countIn item counts + items.count item := by
  induction items with
  | nil => intro counts; rfl
  | cons head rest ih =>
    intro counts
    rw [List.foldl_cons, ih, countIn_bump, List.count_cons]
    by_cases h : head = item
    · simp [h, Nat.add_comm, Nat.add_left_comm]
    · simp [h]

-- The table that the count starts from is kept general, so that the induction goes through.
theorem mem_keys_foldl_bump (item : α) (items : List α) :
    ∀ counts : List (α × Nat),
      item ∈ (items.foldl (fun counts item => bump item counts) counts).map Prod.fst
        ↔ item ∈ counts.map Prod.fst ∨ item ∈ items := by
  induction items with
  | nil => intro counts; simp
  | cons head rest ih =>
    intro counts
    rw [List.foldl_cons, ih, mem_keys_bump, List.mem_cons, or_assoc]

-- Items that are counted in a row have one entry each, as long as that was so before.
theorem nodup_keys_foldl_bump (items : List α) :
    ∀ counts : List (α × Nat), (counts.map Prod.fst).Nodup →
      ((items.foldl (fun counts item => bump item counts) counts).map Prod.fst).Nodup := by
  induction items with
  | nil => exact fun _ h => h
  | cons head rest ih => exact fun counts h => ih _ (nodup_keys_bump head h)

theorem mem_keys_tally (item : α) (items : List α) :
    item ∈ (tally items).map Prod.fst ↔ item ∈ items := by
  rw [tally, mem_keys_foldl_bump, List.map_nil]
  simp only [List.not_mem_nil, false_or]

theorem nodup_keys_tally (items : List α) : ((tally items).map Prod.fst).Nodup :=
  nodup_keys_foldl_bump items [] List.nodup_nil

theorem countIn_tally (item : α) (items : List α) :
    countIn item (tally items) = items.count item := by
  rw [tally, countIn_foldl_bump, countIn, Nat.zero_add]

/-- With one entry for each item, the entry of an item has its count. -/
theorem countIn_eq_of_mem {item : α} {count : Nat} {counts : List (α × Nat)}
    (hnodup : (counts.map Prod.fst).Nodup) (hmem : (item, count) ∈ counts) :
    countIn item counts = count := by
  induction counts with
  | nil => exact absurd hmem List.not_mem_nil
  | cons entry rest ih =>
    rcases entry with ⟨head, first⟩
    rw [List.map_cons, List.nodup_cons] at hnodup
    rw [countIn]
    rcases List.mem_cons.mp hmem with heq | hrest
    · rw [Prod.mk.injEq] at heq
      rw [if_pos heq.1.symm, heq.2]
    · -- The item is not the head, whose key does not occur again.
      have hkey : item ∈ rest.map Prod.fst := List.mem_map_of_mem hrest
      have hne : head ≠ item := fun he => hnodup.1 (he ▸ hkey)
      rw [if_neg hne]
      exact ih hnodup.2 hrest

/-- The entries of a tally are the items of the list with their multiplicities. -/
theorem mem_tally_iff (item : α) (count : Nat) (items : List α) :
    (item, count) ∈ tally items ↔ item ∈ items ∧ count = items.count item := by
  constructor
  · intro hmem
    have hkey : item ∈ (tally items).map Prod.fst := List.mem_map_of_mem hmem
    have hcount := countIn_eq_of_mem (nodup_keys_tally items) hmem
    rw [countIn_tally] at hcount
    exact ⟨(mem_keys_tally item items).mp hkey, hcount.symm⟩
  · rintro ⟨hitem, rfl⟩
    rcases List.mem_map.mp ((mem_keys_tally item items).mpr hitem) with ⟨⟨_, count⟩, hmem, rfl⟩
    have hcount := countIn_eq_of_mem (nodup_keys_tally items) hmem
    rw [countIn_tally] at hcount
    rw [hcount]
    exact hmem

/-- A tally has as many entries as there are distinct items. -/
theorem length_tally (items : List α) : (tally items).length = items.dedup.length := by
  have hperm : ((tally items).map Prod.fst).Perm items.dedup := by
    rw [List.perm_ext_iff_of_nodup (nodup_keys_tally items) items.nodup_dedup]
    intro item
    rw [mem_keys_tally, List.mem_dedup]
  rw [← hperm.length_eq, List.length_map]

/-- Counting an item once more raises the sum of all counts by one. -/
theorem sum_counts_bump (item : α) (counts : List (α × Nat)) :
    ((bump item counts).map Prod.snd).sum = (counts.map Prod.snd).sum + 1 := by
  induction counts with
  | nil => rfl
  | cons entry rest ih =>
    rcases entry with ⟨head, count⟩
    rw [bump]
    by_cases hhead : head = item
    · rw [if_pos hhead, List.map_cons, List.map_cons, List.sum_cons, List.sum_cons]
      omega
    · rw [if_neg hhead, List.map_cons, List.map_cons, List.sum_cons, List.sum_cons, ih]
      omega

-- Each item that is counted adds one, whatever the table was before.
theorem sum_counts_foldl_bump (items : List α) :
    ∀ counts : List (α × Nat),
      ((items.foldl (fun counts item => bump item counts) counts).map Prod.snd).sum
        = (counts.map Prod.snd).sum + items.length := by
  induction items with
  | nil => intro counts; rfl
  | cons head rest ih =>
    intro counts
    rw [List.foldl_cons, ih, sum_counts_bump, List.length_cons]
    omega

/-- The multiplicities of all items add up to the number of items. -/
theorem sum_counts_tally (items : List α) :
    ((tally items).map Prod.snd).sum = items.length := by
  rw [tally, sum_counts_foldl_bump, List.map_nil, List.sum_nil, Nat.zero_add]

end DocSearch
