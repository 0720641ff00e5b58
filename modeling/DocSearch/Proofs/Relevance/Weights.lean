import DocSearch.Proofs.Number.Signs
import DocSearch.Relevance.Scorer

/-!
# Weights

Which pairs of places weigh anything.

A weight is a product of powers of nine tenths, so as a real number it is never zero. As a double it
is. The powers get smaller than the least double long before the places of words run out: at place
8192 nothing is left. Places that do not fit into 32 bits are counted as negative ones, and then the
powers grow beyond the greatest double instead; the product of such a power with one that has
vanished is no number.

So a weight is never negative, it is positive as long as the two places are early, and it is zero
once one of them is late. How early is early is not made sharp here, because a product that was
rounded at every step does not depend on the places in a simple way. In steps of 32 places the
powers lose no more than five powers of one half each, which leaves enough for 6815 places.

## Main definitions

* `squared`: A base after some squarings.

## Theorems

* `powerFrom_add`, `powerFrom_mod`: The digits of an exponent in two parts.
* `proximity_not_negative`: No weight is negative.
* `proximity_pos`: Early places weigh something.
* `proximity_eq_zero`: Late places weigh nothing.
* `proximity_isNaN`: Where a weight is a number.
-/

namespace DocSearch

namespace Relevance

open Number

/-! ### Repeated squaring -/

/-- A base after some squarings. -/
def squared : Nat → Float → Float
  | 0, base => base
  | digits + 1, base => squared digits (base * base)

-- The loop takes one binary digit of the exponent at a time, and ends when there is no exponent
-- left.
theorem powerFrom_zero (digits : Nat) (result base : Float) :
    powerFrom digits result base 0 = result := by
  cases digits <;> rfl

theorem powerFrom_succ (digits : Nat) (result base : Float) (exponent : Nat) :
    powerFrom (digits + 1) result base exponent
      = powerFrom digits (if exponent % 2 = 1 then result * base else result) (base * base)
        (exponent / 2) := by
  rw [powerFrom]
  by_cases hlast : exponent / 2 = 0
  · simp only [hlast, powerFrom_zero, if_true]
  · simp only [hlast, if_false]

/-- The last digits of an exponent come first, and the others go on from there. -/
theorem powerFrom_add (low digits : Nat) (result base : Float) (exponent : Nat) :
    powerFrom (low + digits) result base exponent
      = powerFrom digits (powerFrom low result base exponent) (squared low base)
        (exponent / 2 ^ low) := by
  induction low generalizing result base exponent with
  | zero => simp [powerFrom, squared]
  | succ low ih =>
    rw [Nat.add_right_comm, powerFrom_succ, powerFrom_succ, ih, squared, Nat.div_div_eq_div_mul,
      Nat.pow_succ']

/-- With so many digits the loop sees no more of the exponent than these. -/
theorem powerFrom_mod (digits : Nat) (result base : Float) (exponent : Nat) :
    powerFrom digits result base exponent
      = powerFrom digits result base (exponent % 2 ^ digits) := by
  induction digits generalizing result base exponent with
  | zero => rfl
  | succ digits ih =>
    have hlast : exponent % 2 ^ (digits + 1) % 2 = exponent % 2 := by
      rw [Nat.pow_succ', Nat.mod_mul_right_mod]
    have hrest : exponent % 2 ^ (digits + 1) / 2 = exponent / 2 % 2 ^ digits := by
      rw [Nat.pow_succ', Nat.mod_mul_right_div_self]
    rw [powerFrom_succ, powerFrom_succ, hlast, hrest, ← ih]

/-- What is kept by products is kept by powers. -/
theorem powerFrom_closed {P : Float → Prop} (hmul : ∀ x y, P x → P y → P (x * y))
    {result base : Float} (hresult : P result) (hbase : P base) (digits exponent : Nat) :
    P (powerFrom digits result base exponent) := by
  induction digits generalizing result base exponent with
  | zero => exact hresult
  | succ digits ih =>
    rw [powerFrom_succ]
    refine ih ?_ (hmul _ _ hbase hbase) _
    split
    · exact hmul _ _ hresult hbase
    · exact hresult

-- The base is only squared while there is a digit left to use it for.
theorem atLeast_powerFrom {a b : Nat} {result base : Float} (hresult : AtLeast a result)
    (hbase : AtLeast b base) (digits exponent : Nat) (hle : a + b * exponent ≤ 1074) :
    AtLeast (a + b * exponent) (powerFrom digits result base exponent) := by
  induction digits generalizing a b result base exponent with
  | zero => exact hresult.mono (Nat.le_add_right _ _)
  | succ digits ih =>
    -- The exponent is its last digit and twice the rest. The last digit goes to the result, and the
    -- rest to the square of the base.
    have hexponent : b * exponent = b * (exponent % 2) + (b + b) * (exponent / 2) := by
      conv_lhs => rw [← Nat.div_add_mod exponent 2]
      ring
    rw [hexponent, ← Nat.add_assoc] at hle ⊢
    have hfirst : AtLeast (a + b * (exponent % 2))
        (if exponent % 2 = 1 then result * base else result) := by
      by_cases hodd : exponent % 2 = 1
      · rw [hodd, Nat.mul_one] at hle ⊢
        exact hresult.mul hbase ((Nat.le_add_right _ _).trans hle)
      · rw [if_neg hodd]
        exact hresult.mono (Nat.le_add_right _ _)
    rw [powerFrom_succ]
    -- When no digit is left the base is squared for nothing, and it may be too small by then to be
    -- bounded.
    by_cases hlast : exponent / 2 = 0
    · rwa [hlast, powerFrom_zero, Nat.mul_zero, Nat.add_zero]
    · have hdouble : b + b ≤ (b + b) * (exponent / 2) :=
        Nat.le_mul_of_pos_right _ (Nat.pos_of_ne_zero hlast)
      exact ih hfirst (hbase.mul hbase (hdouble.trans ((Nat.le_add_left _ _).trans hle))) _ hle

/-- A base of zero makes the result zero as soon as it is used, which it is for the last digit that
    is not zero. -/
theorem powerFrom_of_base_zero {result base : Float} (hresult : Fraction result)
    (hbase : reading base = .finite 0) {digits exponent : Nat} (hpos : 0 < exponent)
    (hlt : exponent < 2 ^ digits) :
    reading (powerFrom digits result base exponent) = .finite 0 := by
  have hfraction : Fraction base := ⟨0, hbase, le_rfl, by positivity⟩
  induction digits generalizing result base exponent with
  | zero => omega
  | succ digits ih =>
    rw [powerFrom_succ]
    by_cases hlast : exponent / 2 = 0
    · have hodd : exponent % 2 = 1 := by omega
      rw [hlast, powerFrom_zero, if_pos hodd]
      exact hresult.mul_eq_zero hfraction (.inr hbase)
    · have hsquare := hfraction.mul_eq_zero hfraction (.inr hbase)
      refine ih ?_ hsquare (Nat.pos_of_ne_zero hlast) (by omega) (hfraction.mul hfraction)
      split
      · exact hresult.mul hfraction
      · exact hresult

/-! ### Powers of nine tenths -/

/-- A place that fits into an exponent is taken as it is. -/
theorem power_of_lt {place : Nat} (h : place < 2 ^ 31) (base : Float) :
    power base (exponentOf place) = powerFrom 32 1.0 base place := by
  have hplace : (exponentOf place).toInt = place := Int32.toInt_ofNat_of_lt h
  have hnonneg : ¬ exponentOf place < 0 := by
    rw [Int32.lt_iff_toInt_lt, hplace]
    exact Int.not_lt.mpr (Int.natCast_nonneg place)
  simp only [power, hplace, Int.natAbs_natCast, if_neg hnonneg]

/-- Whether a double is between two numbers of least units. -/
def between (low high : Int) (x : Float) : Bool :=
  match reading x with
  | .finite u => low ≤ u ∧ u ≤ high
  | _ => false

/-- What is found to be between two numbers of units is such a number of units. -/
theorem exists_of_between {low high : Int} {x : Float} (h : between low high x = true) :
    ∃ u, reading x = .finite u ∧ low ≤ u ∧ u ≤ high := by
  rw [between] at h
  split at h
  · exact ⟨_, ‹_›, of_decide_eq_true h⟩
  · exact absurd h (by simp)

-- The last five digits of the exponent are decided case by case. They leave at least the fifth
-- power of one half, and so does the base that the loop goes on with, squared five times.
theorem atLeast_low (place : Nat) : AtLeast 5 (powerFrom 5 1.0 decay place) := by
  have hall : ∀ low < 32, between (2 ^ 1069) (2 ^ 1074) (powerFrom 5 1.0 decay low) = true := by
    decide +kernel
  rw [powerFrom_mod]
  exact exists_of_between (hall _ (Nat.mod_lt _ (by decide)))

theorem atLeast_squared : AtLeast 5 (squared 5 decay) := by
  have hsquared : between (2 ^ 1069) (2 ^ 1074) (squared 5 decay) = true := by decide +kernel
  exact exists_of_between hsquared

/-- Squared thirteen times, the decay is zero. -/
theorem reading_squared : reading (squared 13 decay) = .finite 0 := by
  have hsquared : between 0 0 (squared 13 decay) = true := by decide +kernel
  obtain ⟨u, hu, hlow, hhigh⟩ := exists_of_between hsquared
  rw [hu, Int.le_antisymm hhigh hlow]

/-- The decay is a fraction, and so is everything that is made of it. -/
theorem fraction_decay : Fraction decay := by
  have hdecay : between 0 (2 ^ 1074) decay = true := by decide +kernel
  exact exists_of_between hdecay

theorem fraction_one : Fraction 1.0 :=
  ⟨_, reading_one, by positivity, le_rfl⟩

theorem fraction_powerFrom (digits place : Nat) : Fraction (powerFrom digits 1.0 decay place) :=
  powerFrom_closed (P := Fraction) (fun _ _ => Fraction.mul) fraction_one fraction_decay _ _

/-- The power at a place is bounded from below as long as the bound is a double. -/
theorem atLeast_power {place : Nat} (h : 5 + 5 * (place / 32) ≤ 1074) :
    AtLeast (5 + 5 * (place / 32)) (power decay (exponentOf place)) := by
  rw [power_of_lt (by omega), powerFrom_add 5 27]
  exact atLeast_powerFrom (atLeast_low place) atLeast_squared 27 (place / 2 ^ 5) h

/-- From place 8192 on one of the squares that are used is zero. -/
theorem power_eq_zero {place : Nat} (hlate : 8192 ≤ place) (h : place < 2 ^ 31) :
    reading (power decay (exponentOf place)) = .finite 0 := by
  rw [power_of_lt h, powerFrom_add 13 19]
  exact powerFrom_of_base_zero (fraction_powerFrom 13 place) reading_squared (by omega)
    (by omega)

/-- At every place the power is a fraction. -/
theorem fraction_power {place : Nat} (h : place < 2 ^ 31) :
    Fraction (power decay (exponentOf place)) := by
  rw [power_of_lt h]
  exact fraction_powerFrom 32 place

-- A place that counts as negative has the reciprocal of a power, which may be an infinity.
theorem unsigned_power (place : Nat) : Unsigned (power decay (exponentOf place)) := by
  have hone : Unsigned 1.0 := rfl
  have hdecay : Unsigned decay := rfl
  have hpower : Unsigned (powerFrom 32 1.0 decay (exponentOf place).toInt.natAbs) :=
    powerFrom_closed (P := Unsigned) (fun _ _ => Unsigned.mul) hone hdecay _ _
  rw [power]
  by_cases hneg : exponentOf place < 0
  · rw [if_pos hneg]
    exact hone.div hpower
  · rw [if_neg hneg]
    exact hpower

/-! ### Pairs of places -/

/-- No weight is negative, wherever the words stand. -/
theorem proximity_not_negative (queryPlace fieldPlace : Nat) :
    ¬ proximity queryPlace fieldPlace < 0.0 :=
  ((unsigned_power queryPlace).mul (unsigned_power fieldPlace)).not_negative

/-- Early places weigh something. -/
theorem proximity_pos {queryPlace fieldPlace : Nat} (h : queryPlace + fieldPlace ≤ 6815) :
    0.0 < proximity queryPlace fieldPlace :=
  ((atLeast_power (by omega)).mul (atLeast_power (by omega)) (by omega)).pos

/-- Late places weigh nothing. -/
theorem proximity_eq_zero {queryPlace fieldPlace : Nat}
    (hlate : 8192 ≤ queryPlace ∨ 8192 ≤ fieldPlace) (hquery : queryPlace < 2 ^ 31)
    (hfield : fieldPlace < 2 ^ 31) : ¬ 0.0 < proximity queryPlace fieldPlace := by
  have hzero : reading (proximity queryPlace fieldPlace) = .finite 0 :=
    (fraction_power hquery).mul_eq_zero (fraction_power hfield)
      (hlate.imp (power_eq_zero · hquery) (power_eq_zero · hfield))
  rw [zero_lt_iff, hzero]
  exact Int.lt_irrefl 0

/-- Places that fit into 32 bits have a weight. -/
theorem proximity_isNaN {queryPlace fieldPlace : Nat} (hquery : queryPlace < 2 ^ 31)
    (hfield : fieldPlace < 2 ^ 31) : (proximity queryPlace fieldPlace).isNaN = false :=
  ((fraction_power hquery).mul (fraction_power hfield)).isNaN

end Relevance

/-! ### Shared words -/

namespace Scorer

/-- The weights of two lists of words are those of the pairs of places at which the same word
    stands, empty words apart. -/
theorem mem_sharedWeights_iff {queryTokens fieldTokens : List String} {weight : Float} :
    weight ∈ sharedWeights queryTokens fieldTokens
      ↔ ∃ i j word, word ≠ "" ∧ queryTokens[i]? = some word ∧ fieldTokens[j]? = some word
        ∧ weight = Relevance.proximity i j := by
  simp only [sharedWeights, List.mem_flatMap, Prod.exists, List.mem_zipIdx_iff_getElem?]
  constructor
  · rintro ⟨word, i, hquery, hmem⟩
    -- The empty word is left out.
    by_cases hempty : word = ""
    · simp [hempty] at hmem
    · rw [if_neg hempty, List.mem_filterMap] at hmem
      obtain ⟨⟨word', j⟩, hfield, hweight⟩ := hmem
      split at hweight
      · next heq =>
        subst heq
        exact ⟨i, j, word', hempty, hquery, List.mem_zipIdx_iff_getElem?.mp hfield,
          (Option.some.inj hweight).symm⟩
      · exact absurd hweight (by simp)
  · rintro ⟨i, j, word, hempty, hquery, hfield, rfl⟩
    refine ⟨word, i, hquery, ?_⟩
    rw [if_neg hempty, List.mem_filterMap]
    exact ⟨(word, j), List.mem_zipIdx_iff_getElem?.mpr hfield, if_pos rfl⟩

theorem not_negative_of_mem_sharedWeights {queryTokens fieldTokens : List String} {weight : Float}
    (h : weight ∈ sharedWeights queryTokens fieldTokens) : ¬ weight < 0.0 := by
  obtain ⟨i, j, _, _, _, _, rfl⟩ := mem_sharedWeights_iff.mp h
  exact Relevance.proximity_not_negative i j

end Scorer

end DocSearch
