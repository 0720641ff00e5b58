import DocSearch.Proofs.Hit.Order
import Mathlib.Data.List.Forall2
import Mathlib.Tactic.ByContra

/-!
# The Only Stable Sort

Sorting stably leaves no choice, whatever the keys are.

Two sorted lists of the same items agree place by place up to items that compare as equal. If both
were sorted stably from one list they agree there as well, since each class of equal items stands in
both of them as it stood in that list. So the sort of hits is determined by the order that its keys
stand for, and everything that is said of that order is said of the result.

The order is a total preorder for every list of keys. Turning the direction of every key around
turns the order itself around, the place of absent values included: they have the place above all
others, and the direction of their key puts it at one end or the other. So hits without a value for
the first key stand together, at the end under an ascending key and at the front under a descending
one.

## Main definitions

* `TiesReordered`: Two lists that differ by the order of ties.
* `SortKey.reversed`: A key in the other direction.
* `Json.IsScalar`, `Hit.HasSingle`: The one value that a hit has in a field.
* `SortKey.AbsentInPlace`: Two hits in a row, as far as values are absent.
* `TotalPreorder`: A comparison that sorting can use.

## Theorems

* `tied_of_classes`: Sorted lists with equally large classes agree up to ties.
* `StablySorted.tiesReordered`: So sorting the same items differs by the order of ties.
* `StablySorted.unique`: Sorting the same list stably does not differ.
* `stablySorted_of_classes`: It is enough to look at the classes of the items.
* `compareHits_reversed`: All keys turned around.
* `SortKey.valueOf?_eq_some_iff`: Which value a key compares.
* `SortKey.compare_absent`, `pairwise_absentInPlace`: The place of absent values.
* `sorted_uniquely`: The sort of hits, for every list of keys.
-/

namespace DocSearch

open Std

/-! ### Ties -/

/-- Two lists have the same items, and differ only by the order of items that compare as equal:
    in every place stand two that do. -/
structure TiesReordered {α : Type} (order : α → α → Ordering) (items others : List α) :
    Prop where
  perm : others.Perm items
  tied : List.Forall₂ (fun a b => order a b = .eq) items others

section Classes

variable {α : Type} {order : α → α → Ordering} [TransCmp order]

-- An item is in its own class.
theorem countP_class_pos (a : α) (rest : List α) :
    0 < (a :: rest).countP fun b => order a b = .eq := by
  have hself : order a a = .eq := ReflCmp.compare_self
  exact List.countP_pos_iff.mpr ⟨a, List.mem_cons_self, decide_eq_true hself⟩

-- The head of a sorted list does not stand above an item that has an equal in the list.
theorem isLE_head_of_countP_class_pos {a b : α} {rest : List α}
    (hsorted : (a :: rest).Pairwise fun a b => (order a b).isLE)
    (hequal : 0 < (a :: rest).countP fun c => order b c = .eq) : (order a b).isLE := by
  rcases List.countP_pos_iff.mp hequal with ⟨c, hc, hbc⟩
  have hcb : (order c b).isLE := by
    rw [OrientedCmp.eq_symm (of_decide_eq_true hbc)]
    rfl
  rcases List.mem_cons.mp hc with rfl | hc
  · exact hcb
  · exact TransCmp.isLE_trans (List.rel_of_pairwise_cons hsorted hc) hcb

-- The items that compare as equal to a given one are all that is asked of the lists here, so that
-- two heads that are tied can be dropped. The induction is on the two lists at once: each head has
-- an equal in the other list, so neither of them stands above the other.
theorem tied_of_classes {items others : List α}
    (hitems : items.Pairwise fun a b => (order a b).isLE)
    (hothers : others.Pairwise fun a b => (order a b).isLE)
    (hclasses : ∀ a, others.countP (fun b => order a b = .eq)
      = items.countP fun b => order a b = .eq) :
    List.Forall₂ (fun a b => order a b = .eq) items others := by
  induction items generalizing others with
  | nil =>
    cases others with
    | nil => exact .nil
    | cons b others =>
      have hpos := @countP_class_pos _ order _ b others
      rw [hclasses b, List.countP_nil] at hpos
      exact absurd hpos (Nat.lt_irrefl 0)
  | cons a items ih =>
    cases others with
    | nil =>
      have hpos := @countP_class_pos _ order _ a items
      rw [← hclasses a, List.countP_nil] at hpos
      exact absurd hpos (Nat.lt_irrefl 0)
    | cons b others =>
      have hab : (order a b).isLE :=
        isLE_head_of_countP_class_pos hitems (hclasses b ▸ countP_class_pos b others)
      have hba : (order b a).isLE :=
        isLE_head_of_countP_class_pos hothers ((hclasses a).symm ▸ countP_class_pos a items)
      have htied : order a b = .eq := OrientedCmp.isLE_antisymm hab hba
      refine .cons htied (ih hitems.of_cons hothers.of_cons fun c => ?_)
      -- The heads belong to the same classes.
      have hclass : (order c a = .eq) ↔ order c b = .eq :=
        ⟨fun h => TransCmp.eq_trans h htied,
          fun h => TransCmp.eq_trans h (OrientedCmp.eq_symm htied)⟩
      have hcount := hclasses c
      simp only [List.countP_cons, hclass] at hcount
      exact Nat.add_right_cancel hcount

end Classes

/-- Sorting the same items stably differs by the order of ties. -/
theorem StablySorted.tiesReordered {α : Type} {order : α → α → Ordering} [TransCmp order]
    {input output input' output' : List α} (h : StablySorted order input output)
    (h' : StablySorted order input' output') (hperm : input'.Perm input) :
    TiesReordered order output output' := by
  have hsame := (h'.perm.trans hperm).trans h.perm.symm
  exact ⟨hsame, tied_of_classes h.ordered h'.ordered fun a => hsame.countP_eq _⟩

-- Lists that agree up to ties and have the same classes, in the order of the lists, are the same.
-- The induction is on the two lists at once. The class of one head begins with that head in the one
-- list and with the other head in the other list, so the heads are the same.
theorem eq_of_tied {α : Type} {order : α → α → Ordering} [TransCmp order] {items others : List α}
    (htied : List.Forall₂ (fun a b => order a b = .eq) items others)
    (hclasses : ∀ a, items.filter (fun b => order a b = .eq)
      = others.filter fun b => order a b = .eq) : items = others := by
  induction htied with
  | nil => rfl
  | @cons a b items others hab _ ih =>
    have hself : order a a = .eq := ReflCmp.compare_self
    have hheads := hclasses a
    simp only [List.filter_cons, hself, hab, decide_true, if_true, List.cons.injEq] at hheads
    -- The heads are the first of one class in the two lists.
    rcases hheads with ⟨rfl, _⟩
    rw [ih]
    intro c
    have hclass := hclasses c
    by_cases h : order c a = .eq
    · simp only [List.filter_cons, h, decide_true, if_true, List.cons.injEq] at hclass
      exact hclass.2
    · simp only [List.filter_cons, h, decide_false, Bool.false_eq_true, if_false] at hclass
      exact hclass

/-- Sorting one list stably gives one result. -/
theorem StablySorted.unique {α : Type} {order : α → α → Ordering} [TransCmp order]
    {input output other : List α} (h : StablySorted order input output)
    (hother : StablySorted order input other) : output = other :=
  eq_of_tied (h.tiesReordered hother (List.Perm.refl input)).tied fun a =>
    (h.stable a).trans (hother.stable a).symm

-- A class that no item belongs to is empty in both lists.
theorem stablySorted_of_classes {α : Type} {order : α → α → Ordering} [TransCmp order]
    {input output : List α} (hperm : output.Perm input)
    (hordered : output.Pairwise fun a b => (order a b).isLE)
    (hclasses : ∀ a ∈ input, output.filter (fun b => order a b = .eq)
      = input.filter fun b => order a b = .eq) :
    StablySorted order input output := by
  refine ⟨hperm, hordered, fun a => ?_⟩
  by_cases hmember : ∃ b ∈ input, order a b = .eq
  · rcases hmember with ⟨b, hb, hab⟩
    -- Whatever is tied with `a` is tied with `b`, and the other way round.
    have hclass : ∀ c, order a c = .eq ↔ order b c = .eq := fun c =>
      ⟨fun h => TransCmp.eq_trans (OrientedCmp.eq_symm hab) h, fun h => TransCmp.eq_trans hab h⟩
    simp only [hclass]
    exact hclasses b hb
  · have hnone : ∀ b ∈ input, ¬ decide (order a b = .eq) = true := fun b hb h =>
      hmember ⟨b, hb, of_decide_eq_true h⟩
    rw [List.filter_eq_nil_iff.mpr hnone,
      List.filter_eq_nil_iff.mpr fun b hb => hnone b (hperm.subset hb)]

/-! ### Values -/

/-- The scalar that a value is. Numbers of both kinds are compared as doubles. -/
inductive Json.IsScalar : Json → Scalar → Prop where
  | bool (value : Bool) : IsScalar (.bool value) (.bool value)
  | number (value : Json.Numeral) : IsScalar (.num value) (.number value.toFloat)
  | text (value : String) : IsScalar (.str value) (.text value)

/-- A hit has just one value in a field. It has a document, and the field leads to one scalar
    there and to nothing else. -/
def Hit.HasSingle (hit : Hit) (field : String) (scalar : Scalar) : Prop :=
  ∃ document value, hit.source = some document ∧ Path.valuesAt document field = [value]
    ∧ value.IsScalar scalar

/-- What is read as a scalar is the scalar that the value is. -/
theorem Scalar.ofJson?_eq_some_iff {value : Json} {scalar : Scalar} :
    ofJson? value = some scalar ↔ value.IsScalar scalar := by
  constructor
  · intro h
    cases value with
    | bool value =>
      cases h
      exact .bool value
    | num value =>
      cases h
      exact .number value
    | str value =>
      cases h
      exact .text value
    | _ => cases h
  · intro h
    cases h <;> rfl

/-- A key compares the one value that a hit has in its field. -/
theorem SortKey.valueOf?_eq_some_iff (key : SortKey) (hit : Hit) (scalar : Scalar) :
    key.valueOf? hit = some scalar ↔ hit.HasSingle key.field scalar := by
  unfold valueOf? Hit.HasSingle
  cases hit.source with
  | none => simp
  | some document =>
    rcases hvalues : Path.valuesAt document key.field with _ | ⟨value, _ | ⟨other, rest⟩⟩
    · simp [hvalues]
    · simp [hvalues, Scalar.ofJson?_eq_some_iff]
    · simp [hvalues]

/-! ### Directions -/

/-- The other direction. -/
def Direction.reversed : Direction → Direction
  | .ascending => .descending
  | .descending => .ascending

/-- A key in the other direction. -/
def SortKey.reversed (key : SortKey) : SortKey := { key with direction := key.direction.reversed }

/-- In the other direction a comparison comes out the other way round. -/
theorem Direction.orient_reversed (direction : Direction) (ordering : Ordering) :
    direction.reversed.orient ordering = (direction.orient ordering).swap := by
  cases direction with
  | ascending => rfl
  | descending => exact (Ordering.swap_swap).symm

/-- The values that a key compares do not depend on its direction. -/
theorem SortKey.compare_reversed (key : SortKey) (a b : Hit) :
    key.reversed.compare a b = (key.compare a b).swap := by
  have hfield : key.reversed.field = key.field := rfl
  have hvalue : key.reversed.valueOf? = key.valueOf? := by
    funext hit
    rw [SortKey.valueOf?, SortKey.valueOf?, hfield]
  have hdirection : key.reversed.direction = key.direction.reversed := rfl
  rw [SortKey.compare, SortKey.compare, hdirection, hfield, hvalue, Direction.orient_reversed]

/-- Keys that are all turned around compare the other way round. -/
theorem compareHits_reversed (keys : List SortKey) (a b : Hit) :
    compareHits (keys.map SortKey.reversed) a b = (compareHits keys a b).swap := by
  induction keys with
  | nil => rfl
  | cons key rest ih =>
    rw [List.map_cons, compareHits, compareHits, SortKey.compare_reversed]
    cases key.compare a b with
    | eq => exact ih
    | lt => rfl
    | gt => rfl

/-! ### Absent values -/

namespace SortKey

variable {key : SortKey}

/-- A hit without a value comes after a hit with one, in the direction of the key. -/
theorem compare_absent (hfield : key.field ≠ scoreField) {present absent : Hit}
    (hpresent : key.valueOf? present ≠ none) (habsent : key.valueOf? absent = none) :
    key.compare present absent = key.direction.orient .lt := by
  rcases Option.ne_none_iff_exists'.mp hpresent with ⟨value, hvalue⟩
  rw [compare, if_neg hfield, hvalue, habsent]
  rfl

/-- Of two hits in a row, the later one has no value if the earlier one has none. Under a
    descending key it is the other way round. -/
def AbsentInPlace (key : SortKey) (earlier later : Hit) : Prop :=
  match key.direction with
  | .ascending => key.valueOf? earlier = none → key.valueOf? later = none
  | .descending => key.valueOf? later = none → key.valueOf? earlier = none

/-- Two hits that are not in the wrong order have absent values in their place. -/
theorem absentInPlace_of_compare_ne_gt (hfield : key.field ≠ scoreField) {earlier later : Hit}
    (h : key.compare earlier later ≠ .gt) : key.AbsentInPlace earlier later := by
  unfold AbsentInPlace
  cases hdirection : key.direction with
  | ascending =>
    intro habsent
    by_contra hpresent
    have hgt := compare_absent hfield hpresent habsent
    rw [hdirection] at hgt
    exact h (OrientedCmp.gt_of_lt hgt)
  | descending =>
    intro habsent
    by_contra hpresent
    have hgt := compare_absent hfield hpresent habsent
    rw [hdirection] at hgt
    exact h hgt

end SortKey

-- Hits in the order of some keys are not in the wrong order of the first one.
theorem compare_ne_gt_of_compareHits {key : SortKey} {rest : List SortKey} {a b : Hit}
    (h : (compareHits (key :: rest) a b).isLE) : key.compare a b ≠ .gt := by
  intro hgt
  rw [compareHits, hgt] at h
  exact Bool.noConfusion h

/-- Hits without a value for the first key stand together at one end. -/
theorem pairwise_absentInPlace {key : SortKey} (hfield : key.field ≠ scoreField)
    (rest : List SortKey) (hits : List Hit) :
    (sortHits (key :: rest) hits).Pairwise key.AbsentInPlace :=
  (stablySorted_sortHits (key :: rest) hits).ordered.imp fun h =>
    SortKey.absentInPlace_of_compare_ne_gt hfield (compare_ne_gt_of_compareHits h)

/-! ### The sort -/

/-- A comparison that is a total preorder: comparing the other way round gives the reverse, and
    both being equal and being in order are transitive. -/
structure TotalPreorder {α : Type} (order : α → α → Ordering) : Prop where
  swap : ∀ a b, order b a = (order a b).swap
  eq_trans : ∀ a b c, order a b = .eq → order b c = .eq → order a c = .eq
  isLE_trans : ∀ a b c, (order a b).isLE → (order b c).isLE → (order a c).isLE

/-- The comparisons that are known to be oriented and transitive are total preorders. -/
theorem totalPreorder_of_transCmp {α : Type} (order : α → α → Ordering) [TransCmp order] :
    TotalPreorder order where
  swap _ _ := OrientedCmp.eq_swap
  eq_trans _ _ _ := TransCmp.eq_trans
  isLE_trans _ _ _ := TransCmp.isLE_trans

/-- The sort of hits, for every list of keys. The keys compare as a total preorder. Turning all of
    them around turns the comparison around. A hit has a value for a key if it has just one value in
    the field of the key. Under every key a hit without a value comes after one with a value, as its
    direction has it, and those without a value for the first key stand behind all others if it is
    ascending and before all others if it is descending. And of all lists the
    sorted one alone has the hits of the input, is in order, by the score in hundredths if there
    are no keys, and has hits that compare as equal as they stood in the input. -/
theorem sorted_uniquely (keys : List SortKey) :
    TotalPreorder (compareHits keys)
    ∧ (∀ a b, compareHits (keys.map SortKey.reversed) a b = (compareHits keys a b).swap)
    ∧ (∀ (key : SortKey) (hit : Hit) (scalar : Scalar),
        key.valueOf? hit = some scalar ↔ hit.HasSingle key.field scalar)
    ∧ (∀ key ∈ keys, key.field ≠ scoreField → ∀ present absent : Hit,
        key.valueOf? present ≠ none → key.valueOf? absent = none →
          key.compare present absent = key.direction.orient .lt)
    ∧ (∀ key rest, keys = key :: rest → key.field ≠ scoreField → ∀ hits,
        (sortHits keys hits).Pairwise key.AbsentInPlace)
    ∧ TotalPreorder (hitOrder keys)
    ∧ ∀ hits output, output = sortHits keys hits ↔ StablySorted (hitOrder keys) hits output := by
  refine ⟨totalPreorder_of_transCmp _, compareHits_reversed keys, SortKey.valueOf?_eq_some_iff,
    fun key _ hfield _ _ => SortKey.compare_absent hfield, ?_, totalPreorder_of_transCmp _,
    fun hits output => ?_⟩
  · rintro key rest rfl hfield hits
    exact pairwise_absentInPlace hfield rest hits
  · constructor
    · rintro rfl
      exact stablySorted_sortHits keys hits
    · exact fun h => h.unique (stablySorted_sortHits keys hits)

/-- Four hits, of which one has no age and one has two. -/
def agedHits : List Hit :=
  [{ index := "crews", id := "1", score := 1.0, source := some (.obj [("age", .ofNat 30)]) },
    { index := "crews", id := "2", score := 1.0, source := some (.obj []) },
    { index := "crews", id := "3", score := 1.0, source := some (.obj [("age", .ofNat 20)]) },
    { index := "crews", id := "4", score := 1.0,
      source := some (.obj [("age", .arr [.ofNat 1, .ofNat 2])]) }]

/-- Under a descending age the two without a single age come first, as they stood, and of the others
    the older one. -/
theorem sorted_uniquely_ages :
    (sortHits [⟨"age", .descending⟩, ⟨"name", .ascending⟩] agedHits).Pairwise
        (SortKey.AbsentInPlace ⟨"age", .descending⟩)
      ∧ sortHits [⟨"age", .descending⟩, ⟨"name", .ascending⟩] agedHits
        = [agedHits[1], agedHits[3], agedHits[0], agedHits[2]] := by
  rcases sorted_uniquely [⟨"age", .descending⟩, ⟨"name", .ascending⟩] with
    ⟨_, _, _, _, habsent, _, hunique⟩
  refine ⟨habsent ⟨"age", .descending⟩ [⟨"name", .ascending⟩] rfl (by decide) agedHits, ?_⟩
  refine ((hunique agedHits _).mpr (stablySorted_of_classes ?_ ?_ ?_)).symm
  · have hfirst : [agedHits[1], agedHits[3], agedHits[0], agedHits[2]].Perm
        [agedHits[0], agedHits[1], agedHits[3], agedHits[2]] :=
      @List.perm_middle _ agedHits[0] [agedHits[1], agedHits[3]] [agedHits[2]]
    exact hfirst.trans (((List.Perm.swap _ _ []).cons _).cons _)
  · decide
  · intro hit hmem
    simp only [agedHits, List.mem_cons, List.not_mem_nil, or_false] at hmem
    rcases hmem with rfl | rfl | rfl | rfl <;> rfl

end DocSearch
