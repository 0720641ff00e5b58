import DocSearch.Hit.Sorting

/-!
# The Order of Hits

Every comparison that sorting uses is a total preorder, and the sort by it is stable.

The comparisons are put together from a few parts: the natural order of numbers, of texts
and of kinds of scalars, an extra place above all values for absent ones, a direction that
may turn an order around, and keys that decide one after another. Each part is shown to be
oriented and transitive on its own, so a whole list of keys is, whatever fields and
directions it names.

What a stable sort is gets said without naming an algorithm. The output has the hits of the
input, it is in order, and hits that compare as equal stand in it as they stood in the
input.

## Main definitions

* `StablySorted`: One list is the other one sorted stably.

## Theorems

* `transCmp_orient`: A direction keeps an order a preorder.
* `transCmp_scalar`: The natural order of scalars.
* `transCmp_hitOrder`: The order that a list of sort keys stands for.
* `stablySorted_mergeSort`: Merging sorts stably by a preorder.
* `stablySorted_sortHits`: So hits are sorted stably.
-/

namespace DocSearch

open Std

/-- Turning a preorder around gives a preorder. -/
instance transCmp_orient {α : Type} (direction : Direction) (cmp : α → α → Ordering)
    [TransCmp cmp] : TransCmp fun a b => direction.orient (cmp a b) := by
  cases direction with
  | ascending => exact (inferInstance : TransCmp cmp)
  | descending =>
    have hswap : (fun a b => Direction.descending.orient (cmp a b)) = fun a b => cmp b a := by
      funext a b
      exact (@OrientedCmp.eq_swap _ cmp _ b a).symm
    rw [hswap]
    exact @TransCmp.opposite _ cmp _

/-- Turning an order around keeps equality what it was. -/
instance lawfulEqCmp_orient {α : Type} (direction : Direction) (cmp : α → α → Ordering)
    [TransCmp cmp] [LawfulEqCmp cmp] :
    LawfulEqCmp fun a b => direction.orient (cmp a b) where
  eq_of_compare {a b} h := by
    cases direction with
    | ascending => exact @LawfulEqCmp.eq_of_compare _ cmp _ a b h
    | descending =>
      have heq : cmp a b = .eq := Ordering.swap_eq_eq.mp h
      exact LawfulEqCmp.eq_of_compare heq

/-- A preorder of values gives one of whatever has a value. -/
theorem transCmp_comap {α β : Type} (f : α → β) (cmp : β → β → Ordering) [TransCmp cmp] :
    TransCmp fun a b => cmp (f a) (f b) where
  eq_swap {a b} := @OrientedCmp.eq_swap _ cmp _ (f a) (f b)
  isLE_trans {a b c} := @TransCmp.isLE_trans _ cmp _ (f a) (f b) (f c)

instance transCmp_compareTotal : TransCmp Number.compareTotal :=
  transCmp_comap Number.totalRank compare

namespace Scalar

/-- The place of a boolean among the booleans. Other scalars have all one place, as in the
    next two. -/
def boolPlace : Scalar → Nat
  | .bool value => value.toNat
  | _ => 0

/-- The place of a number among the numbers. -/
def numberPlace : Scalar → Int
  | .number value => Number.totalRank value
  | _ => 0

/-- The place of a text among the texts. -/
def textPlace : Scalar → String
  | .text value => value
  | _ => ""

/-- The natural order asks for the kind first and then for the place within each kind. Only
    one of these places can tell two scalars of one kind apart. -/
theorem order_eq_compareLex :
    order = compareLex (compareOn rank) (compareLex (compareOn boolPlace)
      (compareLex (compareOn numberPlace) (compareOn textPlace))) := by
  funext a b
  have hempty : compare "" "" = .eq := ReflCmp.compare_self
  cases a <;> cases b <;> unfold compareLex compareOn
  case bool.bool x y =>
    change compare x.toNat y.toNat = (compare x.toNat y.toNat).then (compare "" "")
    rw [hempty, Ordering.then_eq]
  case number.number x y =>
    change Number.compareTotal x y = (Number.compareTotal x y).then (compare "" "")
    rw [hempty, Ordering.then_eq]
  all_goals rfl

end Scalar

/-- The natural order of scalars is transitive across kinds, too. -/
instance transCmp_scalar : TransCmp Scalar.order := by
  rw [Scalar.order_eq_compareLex]
  infer_instance

/-- Absent values stand above all others. -/
instance transCmp_compareValues : TransCmp SortKey.compareValues where
  eq_swap {a b} := by
    cases a <;> cases b
    · rfl
    · rfl
    · rfl
    · exact @OrientedCmp.eq_swap _ Scalar.order _ _ _
  isLE_trans {a b c} hab hbc := by
    match a, b, c with
    | some a, some b, some c => exact @TransCmp.isLE_trans _ Scalar.order _ a b c hab hbc
    | some _, _, none => rfl
    | none, _, none => rfl
    | none, some _, _ => exact Bool.noConfusion hab
    | _, none, some _ => exact Bool.noConfusion hbc

instance transCmp_sortKey (key : SortKey) : TransCmp key.compare := by
  unfold SortKey.compare
  by_cases h : key.field = scoreField
  · simp only [if_pos h]
    have := transCmp_comap Hit.score Number.compareTotal
    exact transCmp_orient key.direction fun a b : Hit => Number.compareTotal a.score b.score
  · simp only [if_neg h]
    have := transCmp_comap key.valueOf? SortKey.compareValues
    exact transCmp_orient key.direction fun a b : Hit =>
      SortKey.compareValues (key.valueOf? a) (key.valueOf? b)

/-- The first key decides, and the others where it does not tell the hits apart. -/
theorem compareHits_cons (key : SortKey) (rest : List SortKey) :
    compareHits (key :: rest) = compareLex key.compare (compareHits rest) := by
  funext a b
  rw [compareHits, compareLex]
  cases key.compare a b <;> rfl

/-- Keys that decide one after another. The induction is on the keys, and each one stands in
    front of a preorder. -/
instance transCmp_compareHits (keys : List SortKey) : TransCmp (compareHits keys) := by
  induction keys with
  | nil => exact { eq_swap := rfl, isLE_trans := fun _ _ => rfl }
  | cons key rest ih =>
    rw [compareHits_cons]
    infer_instance

instance transCmp_compareCoarse : TransCmp compareCoarse := by
  have := transCmp_comap (fun hit : Hit => coarseScore hit.score) (compare : Int → Int → Ordering)
  exact @TransCmp.opposite Hit (fun a b => compare (coarseScore a.score) (coarseScore b.score)) _

instance transCmp_hitOrder (keys : List SortKey) : TransCmp (hitOrder keys) := by
  unfold hitOrder
  by_cases h : keys.isEmpty = true
  · rw [if_pos h]
    infer_instance
  · rw [if_neg h]
    infer_instance

/-- One list is the other one sorted stably: the same items, in order, and items that compare
    as equal to one another as they stood before. -/
structure StablySorted {α : Type} (order : α → α → Ordering) (input output : List α) :
    Prop where
  perm : output.Perm input
  ordered : output.Pairwise fun a b => (order a b).isLE
  stable : ∀ a, output.filter (fun b => order a b = .eq) = input.filter (fun b => order a b = .eq)

/-- Merging sorts stably by a preorder. The items that compare as equal to a given one are in
    order among themselves, so sorting leaves them a sublist, and there are no others. -/
theorem stablySorted_mergeSort {α : Type} (order : α → α → Ordering) [TransCmp order]
    (input : List α) :
    StablySorted order input (input.mergeSort fun a b => (order a b).isLE) := by
  have htrans : ∀ a b c : α, (order a b).isLE → (order b c).isLE → (order a c).isLE :=
    fun _ _ _ => TransCmp.isLE_trans
  have htotal : ∀ a b : α, (order a b).isLE || (order b a).isLE := by
    intro a b
    rw [@OrientedCmp.eq_swap _ order _ b a]
    cases order a b <;> rfl
  have hperm := List.mergeSort_perm input fun a b => (order a b).isLE
  refine ⟨hperm, List.pairwise_mergeSort htrans htotal input, fun a => ?_⟩
  -- The class of `a` is in order, so it survives the sort as a sublist.
  have hclass : (input.filter fun b => order a b = .eq).Pairwise fun b c => (order b c).isLE := by
    refine List.pairwise_of_forall_mem_list fun b hb c hc => ?_
    have hab : order a b = .eq := by simpa using (List.mem_filter.mp hb).2
    have hac : order a c = .eq := by simpa using (List.mem_filter.mp hc).2
    have hbc : order b c = .eq := TransCmp.eq_trans (OrientedCmp.eq_symm hab) hac
    rw [hbc]
    rfl
  -- It is all of its class in the output, as there are as many of the class in both lists.
  have hsub := (List.sublist_mergeSort htrans htotal hclass List.filter_sublist).filter
    fun b => decide (order a b = .eq)
  simp only [List.filter_filter, Bool.and_self] at hsub
  exact (hsub.eq_of_length (hperm.filter _).length_eq.symm).symm

/-- Hits are sorted stably by the order that the keys stand for. -/
theorem stablySorted_sortHits (keys : List SortKey) (hits : List Hit) :
    StablySorted (hitOrder keys) hits (sortHits keys hits) :=
  stablySorted_mergeSort (hitOrder keys) hits

end DocSearch
