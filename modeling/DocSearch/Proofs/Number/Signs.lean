import DocSearch.Proofs.Number.Units

/-!
# Signs

When sums and products of doubles are positive.

What is no number is neither positive nor negative, and it stays no number through every sum. So a
sum of doubles that are not negative can fail to be positive in two ways: because all of them are
zero, or because one of them is no number. There is no third way, because a sum is never rounded to
zero.

A product is zero more often than that. Between zero and one it is bounded from below by the
products of the powers of two that bound its factors, as long as there is such a power.

## Main definitions

* `Unsigned`: No number, or a double without a minus sign.
* `Fraction`: A double from zero to one.
* `AtLeast`: A double from a power of one half to one.

## Theorems

* `not_negative_add`, `not_negative_mul`: What is not negative stays so.
* `zero_lt_add_iff`: The sign of such a sum.
* `zero_lt_one_add_iff`: The sign of one more than a double.
* `Unsigned.mul`, `Unsigned.div`, `unsigned_ofNat`: Where no minus sign comes from.
* `zero_lt_ofNat`: A positive number stays positive as a double.
* `AtLeast.mul`: Products between zero and one.
-/

namespace DocSearch

namespace Number

open Float.Model Float.Model.UnpackedFloat

-- The three doubles whose readings are needed, in units of the least positive double.
theorem reading_zero : reading 0.0 = .finite 0 := rfl

theorem unitCount_one : unitCount (2 ^ 52) (-52) = 2 ^ 1074 := by
  rw [unitCount, ← Nat.pow_add]
  congr 1

theorem reading_one : reading 1.0 = .finite (2 ^ 1074) := by
  have hparts : (1.0 : Float).toModel.unpack = .finite .positive (2 ^ 52) (-52) (by decide) := rfl
  rw [reading, hparts, readingOf, unitCount_one, Sign.apply, Nat.cast_pow, Nat.cast_ofNat]

theorem reading_neg_one : reading (-1.0) = .finite (-2 ^ 1074) := by
  have hparts : (-1.0 : Float).toModel.unpack = .finite .negative (2 ^ 52) (-52) (by decide) := rfl
  rw [reading, hparts, readingOf, unitCount_one, Sign.apply, Nat.cast_pow, Nat.cast_ofNat]

theorem isNaN_iff (x : Float) : x.isNaN = true ↔ reading x = .undefined := by
  change x.toModel.unpack.isNaN = true ↔ readingOf x.toModel.unpack = .undefined
  cases x.toModel.unpack <;> simp [UnpackedFloat.isNaN, readingOf]

/-! ### What is not negative -/

/-- Being positive, as a comparison of readings. -/
theorem zero_lt_iff (x : Float) : 0.0 < x ↔ Below (.finite 0) (reading x) := by
  rw [lt_iff_below, reading_zero]

/-- Being negative, in the same way. -/
theorem lt_zero_iff (x : Float) : x < 0.0 ↔ Below (reading x) (.finite 0) := by
  rw [lt_iff_below, reading_zero]

/-- What is not negative is no number, or the positive infinity, or a number of units that is not
    negative. -/
theorem not_negative_cases {x : Float} (h : ¬ x < 0.0) :
    reading x = .undefined ∨ reading x = .infinite .positive
      ∨ ∃ u : Int, 0 ≤ u ∧ reading x = .finite u := by
  rw [lt_zero_iff] at h
  cases hx : reading x with
  | undefined => exact .inl rfl
  | infinite s =>
    cases s with
    | negative => exact absurd trivial (by rwa [hx] at h)
    | positive => exact .inr (.inl rfl)
  | finite u =>
    rw [hx] at h
    exact .inr (.inr ⟨u, Int.not_lt.mp h, rfl⟩)

theorem isNaN_eq_false_iff (x : Float) : x.isNaN = false ↔ reading x ≠ .undefined := by
  rw [Ne, ← isNaN_iff, Bool.not_eq_true]

/-- A positive double is a number. -/
theorem isNaN_of_zero_lt {x : Float} (h : 0.0 < x) : x.isNaN = false := by
  rw [isNaN_eq_false_iff]
  intro hx
  rw [zero_lt_iff, hx] at h
  exact h

-- Only two finite doubles have a sum that has to be looked at.
theorem not_negative_add {x y : Float} (hx : ¬ x < 0.0) (hy : ¬ y < 0.0) : ¬ x + y < 0.0 := by
  have hsum := sumOf_add x y
  rw [lt_zero_iff]
  rcases not_negative_cases hx with hx | hx | ⟨u, hu, hx⟩ <;>
    rcases not_negative_cases hy with hy | hy | ⟨v, hv, hy⟩ <;> rw [hx, hy] at hsum
  case inr.inr.inr.inr => exact hsum.not_negative (Int.add_nonneg hu hv)
  all_goals
    rw [hsum]
    exact id

/-- Products of what is not negative are not negative. -/
theorem not_negative_mul {x y : Float} (hx : ¬ x < 0.0) (hy : ¬ y < 0.0) : ¬ x * y < 0.0 := by
  have hproduct := productOf_mul x y
  rw [lt_zero_iff]
  rcases not_negative_cases hx with hx | hx | ⟨u, hu, hx⟩ <;>
    rcases not_negative_cases hy with hy | hy | ⟨v, hv, hy⟩ <;> rw [hx, hy] at hproduct
  -- Two finite factors: the exact product is not negative, and rounding does not change the side.
  case inr.inr.inr.inr => exact hproduct.not_negative (Int.mul_nonneg hu hv)
  case inr.inl.inr.inr =>
    rw [hproduct]
    split_ifs with hpos hneg <;> first | exact id | omega
  case inr.inr.inr.inl =>
    rw [hproduct]
    split_ifs with hpos hneg <;> first | exact id | omega
  all_goals
    rw [hproduct]
    exact id

/-- A sum of what is not negative is a number if both terms are, since there are no opposite
    infinities among them. -/
theorem isNaN_add {x y : Float} (hx : ¬ x < 0.0) (hy : ¬ y < 0.0) :
    (x + y).isNaN = false ↔ x.isNaN = false ∧ y.isNaN = false := by
  have hsum := sumOf_add x y
  rw [isNaN_eq_false_iff, isNaN_eq_false_iff, isNaN_eq_false_iff]
  rcases not_negative_cases hx with hx | hx | ⟨u, hu, hx⟩ <;>
    rcases not_negative_cases hy with hy | hy | ⟨v, hv, hy⟩ <;> rw [hx, hy] at hsum
  case inr.inr.inr.inr => simpa [hx, hy] using hsum.defined
  case inr.inl.inr.inl =>
    change reading (x + y) = .infinite .positive at hsum
    simp [hx, hy, hsum]
  all_goals
    rw [hsum, hx, hy]
    simp

/-- The sign of a sum is that of the exact one. -/
theorem Rounds.below_zero_iff {w : Int} {r : Reading} (h : Rounds w 0 r) :
    Below (.finite 0) r ↔ 0 < w := by
  refine ⟨fun hbelow => Int.not_le.mp fun hle => h.not_positive hle hbelow, fun hpos => ?_⟩
  have hone := h.at_least 0 hpos
  cases r with
  | undefined => exact absurd rfl h.defined
  | infinite s =>
    cases s with
    | negative => exact absurd trivial hone
    | positive => exact trivial
  | finite u => exact Int.not_lt.mp hone

/-- A sum of two doubles that are not negative is positive if one of them is, unless one of them is
    no number. -/
theorem zero_lt_add_iff {x y : Float} (hx : ¬ x < 0.0) (hy : ¬ y < 0.0) :
    0.0 < x + y ↔ (x.isNaN = false ∧ y.isNaN = false) ∧ (0.0 < x ∨ 0.0 < y) := by
  have hsum := sumOf_add x y
  rw [isNaN_eq_false_iff, isNaN_eq_false_iff, zero_lt_iff, zero_lt_iff, zero_lt_iff]
  rcases not_negative_cases hx with hx | hx | ⟨u, hu, hx⟩ <;>
    rcases not_negative_cases hy with hy | hy | ⟨v, hv, hy⟩ <;> rw [hx, hy] at hsum
  -- Two finite summands: a sum that is not negative is rounded to zero only if it is zero.
  case inr.inr.inr.inr =>
    rw [hsum.below_zero_iff, hx, hy]
    simp only [Below, ne_eq, reduceCtorEq, not_false_eq_true, true_and]
    omega
  case inr.inl.inr.inl =>
    change reading (x + y) = .infinite .positive at hsum
    simp [hx, hy, hsum, Below]
  all_goals
    rw [hsum, hx, hy]
    simp [Below]

/-- One more than a double is positive exactly if the double is more than minus one. -/
theorem zero_lt_one_add_iff (x : Float) : 0.0 < 1.0 + x ↔ -1.0 < x := by
  obtain ⟨one, hone, hneg⟩ : ∃ one, reading 1.0 = .finite one ∧ reading (-1.0) = .finite (-one) :=
    ⟨_, reading_one, reading_neg_one⟩
  have hsum := sumOf_add 1.0 x
  rw [zero_lt_iff, lt_iff_below, hneg]
  rw [hone] at hsum
  -- Infinities and what is no number decide the sum by themselves. A finite sum is rounded, and
  -- rounding does not move it across zero.
  cases hx : reading x with
  | undefined =>
    rw [hx] at hsum
    rw [hsum]
    exact Iff.rfl
  | infinite s =>
    rw [hx] at hsum
    rw [hsum]
    cases s <;> exact Iff.rfl
  | finite u =>
    rw [hx] at hsum
    rw [hsum.below_zero_iff, Below]
    omega

/-- A positive double is not negative. -/
theorem not_negative_of_zero_lt {x : Float} (h : 0.0 < x) : ¬ x < 0.0 := by
  rw [zero_lt_iff] at h
  rw [lt_zero_iff]
  -- What lies above zero is defined, and it is on the positive side.
  cases hx : reading x with
  | undefined => exact id
  | infinite s =>
    rw [hx] at h
    cases s with
    | negative => exact h.elim
    | positive => exact id
  | finite u =>
    rw [hx] at h
    exact Int.not_lt.mpr (Int.le_of_lt h)

/-- A number that is not negative is more than minus one. -/
theorem neg_one_lt_of_not_negative {x : Float} (h : ¬ x < 0.0) (hnumber : x.isNaN = false) :
    -1.0 < x := by
  rw [isNaN_eq_false_iff] at hnumber
  rw [lt_iff_below, reading_neg_one]
  rcases not_negative_cases h with hx | hx | ⟨u, hu, hx⟩
  · exact absurd hx hnumber
  · rw [hx]
    exact trivial
  · rw [hx]
    exact lt_of_lt_of_le (neg_neg_of_pos (by positivity)) hu

/-! ### What has no minus sign -/

/-- No number, or a double without a minus sign. Zero has a sign too, so this is more than not being
    negative. -/
def Unsigned (x : Float) : Prop := HasSign .positive x.toModel.unpack

/-- Nor is one that has no minus sign. -/
theorem Unsigned.not_negative {x : Float} (h : Unsigned x) : ¬ x < 0.0 := by
  rw [lt_zero_iff, reading]
  rw [Unsigned] at h
  cases hx : x.toModel.unpack with
  | notANumber => exact id
  | infinity s =>
    obtain rfl : s = .positive := by rwa [hx] at h
    exact id
  | zero s => exact Int.lt_irrefl 0
  | finite s m e hpos =>
    obtain rfl : s = .positive := by rwa [hx] at h
    exact Int.not_lt.mpr (Int.natCast_nonneg _)

/-- Rounding keeps the sign that it is given, also where it rounds to zero. -/
theorem hasSign_roundWithAccuracy (s : Sign) (m : Nat) (e : Int) (accuracy : Accuracy) :
    HasSign s (roundWithAccuracy .binary64 s m e accuracy) := by
  rw [roundWithAccuracy]
  simp only
  split <;> exact rfl

-- Products and quotients of numbers without a minus sign have none, before they are packed and
-- after it.
theorem hasSign_mul {u v : UnpackedFloat} (hu : HasSign .positive u) (hv : HasSign .positive v) :
    HasSign .positive (UnpackedFloat.mul .binary64 u v) := by
  cases u <;> cases v <;> cases hu <;> cases hv
  case finite.finite.refl.refl => exact hasSign_roundWithAccuracy _ _ _ _
  all_goals first | exact rfl | exact trivial

theorem hasSign_div {u v : UnpackedFloat} (hu : HasSign .positive u) (hv : HasSign .positive v) :
    HasSign .positive (UnpackedFloat.div .binary64 u v) := by
  cases u <;> cases v <;> cases hu <;> cases hv
  case finite.finite.refl.refl => exact hasSign_roundWithAccuracy _ _ _ _
  all_goals first | exact rfl | exact trivial

theorem Unsigned.mul {x y : Float} (hx : Unsigned x) (hy : Unsigned y) : Unsigned (x * y) :=
  hasSign_unpack_pack (hasSign_mul hx hy)

theorem Unsigned.div {x y : Float} (hx : Unsigned x) (hy : Unsigned y) : Unsigned (x / y) :=
  hasSign_unpack_pack (hasSign_div hx hy)

/-- A decimal numeral without a minus sign gives a double without one. -/
theorem hasSign_ofScientific (m : Nat) (e : Int) :
    HasSign .positive (UnpackedFloat.ofScientific .binary64 m e) := by
  rw [UnpackedFloat.ofScientific]
  split_ifs
  · exact rfl
  · exact rfl
  · exact rfl
  · exact hasSign_mul rfl rfl
  · exact hasSign_div rfl rfl

/-- So does a natural number. -/
theorem hasSign_ofNat (n : Nat) :
    HasSign .positive (UnpackedFloat.ofInt .binary64 n) := by
  rcases Nat.eq_zero_or_pos n with rfl | hpos
  · exact rfl
  · rw [UnpackedFloat.ofInt, UnpackedFloat.normalize,
      compare_gt_iff_gt.mpr (Int.natCast_pos.mpr hpos)]
    exact hasSign_roundWithAccuracy _ _ _ _

/-- A natural number is converted by way of a word if it is small and as a numeral otherwise.
    Neither way adds a minus sign. -/
theorem unsigned_ofNat (n : Nat) : Unsigned (Float.ofNat n) := by
  rw [Float.ofNat]
  change Unsigned (Float.ofScientific n false 0)
  rw [Float.ofScientific]
  -- The conversion takes a short way for numbers that fit the mantissa and the general one for the
  -- others.
  by_cases h : n < 2 ^ 53 ∧ 0 ≤ 22
  · rw [dif_pos h]
    have hpower : Unsigned Float.exactlyRepresentablePowersOfTen[0] := by
      have hone : Float.exactlyRepresentablePowersOfTen[0] = 1.0 := by decide
      rw [hone]
      exact rfl
    exact Unsigned.mul (hasSign_unpack_pack (hasSign_ofNat _)) hpower
  · rw [dif_neg h]
    exact hasSign_unpack_pack (hasSign_ofScientific n 0)

/-! ### Positive numbers -/

/-- What is at least one unit before rounding is positive behind it. -/
theorem Rounds.zero_below {w : Int} {d : Nat} {r : Reading} (h : Rounds w d r) (hw : 2 ^ d ≤ w) :
    Below (.finite 0) r := by
  have hlow := h.at_least 0 (by rwa [Nat.zero_add])
  cases r with
  | undefined => exact absurd rfl h.defined
  | infinite s =>
    cases s with
    | negative => exact absurd trivial hlow
    | positive => exact trivial
  | finite u => exact Int.lt_of_lt_of_le Int.zero_lt_one (Int.not_lt.mp hlow)

/-- Multiplying by one keeps a double positive. -/
theorem zero_lt_mul_one {x : Float} (h : 0.0 < x) : 0.0 < x * 1.0 := by
  have hproduct := productOf_mul x 1.0
  rw [zero_lt_iff] at h ⊢
  rw [reading_one] at hproduct
  cases hx : reading x with
  | undefined => exact absurd h (by rw [hx]; exact id)
  | infinite s =>
    obtain rfl : s = .positive := by
      cases s with
      | negative => exact absurd h (by rw [hx]; exact id)
      | positive => rfl
    rw [hx] at hproduct
    change reading (x * 1.0) = _ at hproduct
    rw [hproduct, if_pos (by positivity)]
    exact trivial
  | finite u =>
    rw [hx] at h hproduct
    -- There is at least one unit, and no rounding takes it away.
    have hu : 1 ≤ u := h
    exact hproduct.zero_below (le_mul_of_one_le_left (by positivity) hu)

/-- A numeral without an exponent is rounded once, shifted by a mantissa. -/
theorem ofScientific_zero {n : Nat} (h : 0 < n) :
    UnpackedFloat.ofScientific .binary64 n 0
      = roundWithAccuracy .binary64 .positive (n <<< 53) (-53) .exact := by
  have hsign : Sign.positive * Sign.positive = Sign.positive := rfl
  rw [UnpackedFloat.ofScientific, dif_neg h.ne', if_neg (by decide), if_neg (by simp),
    if_pos (by decide), UnpackedFloat.mul, hsign]
  simp [Format.mantissaBits]

/-- A positive number is a positive double, however large it is. -/
theorem zero_lt_ofNat {n : Nat} (h : 0 < n) : 0.0 < Float.ofNat n := by
  rw [Float.ofNat]
  change 0.0 < Float.ofScientific n false 0
  rw [Float.ofScientific]
  by_cases hsmall : n < 2 ^ 53 ∧ 0 ≤ 22
  · rw [dif_pos hsmall]
    -- A small number is an exact word, and is multiplied by the first power of ten.
    have hone : Float.exactlyRepresentablePowersOfTen[0] = 1.0 := by decide
    have hword : n.toUInt64.toNat = n := by
      rw [UInt64.toNat_ofNat']
      omega
    have hrounds := rounds_normalize n.toUInt64.toNat (e := 0) (by decide)
    have hpos : 0.0 < n.toUInt64.toFloat := by
      refine (zero_lt_iff _).mpr (hrounds.below_zero_iff.mpr ?_)
      rw [hword]
      exact Int.mul_pos (Int.natCast_pos.mpr h) (by positivity)
    rw [hone]
    exact zero_lt_mul_one hpos
  · -- A large number is shifted by a whole mantissa first, so it is not too short to be rounded.
    rw [dif_neg hsmall]
    have hpower : (-53 : Int) ≤ target (n <<< 53) (-53) := by
      have hlog : 53 ≤ (n <<< 53).log2 := by
        rw [Nat.shiftLeft_eq, Nat.le_log2 (by positivity)]
        exact Nat.le_mul_of_pos_left _ h
      rw [target]
      omega
    have hrounds := rounds_roundWithAccuracy .positive (d := 0) hpower (by decide)
    rw [← ofScientific_zero h] at hrounds
    refine (zero_lt_iff _).mpr (hrounds.below_zero_iff.mpr (Int.natCast_pos.mpr ?_))
    rw [Nat.shiftLeft_eq]
    exact Nat.mul_pos (Nat.mul_pos h (Nat.two_pow_pos _)) (Nat.two_pow_pos _)

/-! ### Between zero and one -/

/-- A double from zero to one. -/
def Fraction (x : Float) : Prop := ∃ u : Int, reading x = .finite u ∧ 0 ≤ u ∧ u ≤ 2 ^ 1074

/-- A double from a power of one half to one. -/
def AtLeast (k : Nat) (x : Float) : Prop :=
  ∃ u : Int, reading x = .finite u ∧ 2 ^ (1074 - k) ≤ u ∧ u ≤ 2 ^ 1074

/-- What is bounded from below by a power of one half is a fraction. -/
theorem AtLeast.fraction {k : Nat} {x : Float} (h : AtLeast k x) : Fraction x := by
  obtain ⟨u, hx, hlow, hhigh⟩ := h
  exact ⟨u, hx, le_trans (by positivity) hlow, hhigh⟩

/-- It is positive. -/
theorem AtLeast.pos {k : Nat} {x : Float} (h : AtLeast k x) : 0.0 < x := by
  obtain ⟨u, hx, hlow, -⟩ := h
  rw [zero_lt_iff, hx]
  exact lt_of_lt_of_le (by positivity) hlow

theorem AtLeast.mono {k k' : Nat} {x : Float} (h : AtLeast k x) (hle : k ≤ k') : AtLeast k' x := by
  obtain ⟨u, hx, hlow, hhigh⟩ := h
  exact ⟨u, hx, (pow_le_pow_right₀ (by decide) (by omega)).trans hlow, hhigh⟩

/-- A fraction is a number. -/
theorem Fraction.isNaN {x : Float} (h : Fraction x) : x.isNaN = false := by
  obtain ⟨u, hx, -⟩ := h
  rw [isNaN_eq_false_iff, hx]
  simp

/-- What is neither below one number nor above another is a number between them. -/
theorem exists_finite_of_not_below {r : Reading} {low high : Int} (hdefined : r ≠ .undefined)
    (hlow : ¬ Below r (.finite low)) (hhigh : ¬ Below (.finite high) r) :
    ∃ w, r = .finite w ∧ low ≤ w ∧ w ≤ high := by
  cases r with
  | undefined => exact absurd rfl hdefined
  | infinite s =>
    cases s with
    | negative => exact absurd trivial hlow
    | positive => exact absurd trivial hhigh
  | finite w => exact ⟨w, rfl, Int.not_lt.mp hlow, Int.not_lt.mp hhigh⟩

/-- Products of fractions are fractions, since rounding does not cross one. -/
theorem Fraction.mul {x y : Float} (hx : Fraction x) (hy : Fraction y) : Fraction (x * y) := by
  obtain ⟨u, hx, hu, hu'⟩ := hx
  obtain ⟨v, hy, hv, hv'⟩ := hy
  have hproduct := productOf_mul x y
  rw [hx, hy] at hproduct
  have hbound : u * v ≤ 2 ^ (1074 + 1074) := by
    rw [pow_add]
    exact mul_le_mul hu' hv' hv (by positivity)
  exact exists_finite_of_not_below hproduct.defined
    (hproduct.not_negative (Int.mul_nonneg hu hv)) (hproduct.at_most 1074 (by decide) hbound)

/-- A product of fractions is zero if one of them is. -/
theorem Fraction.mul_eq_zero {x y : Float} (hx : Fraction x) (hy : Fraction y)
    (hzero : reading x = .finite 0 ∨ reading y = .finite 0) : reading (x * y) = .finite 0 := by
  obtain ⟨u, hx, -⟩ := hx
  obtain ⟨v, hy, -⟩ := hy
  rw [hx, hy, Reading.finite.injEq, Reading.finite.injEq] at hzero
  have hproduct := productOf_mul x y
  rw [hx, hy, ProductOf, Int.mul_eq_zero.mpr hzero] at hproduct
  obtain ⟨w, hw, hlow, hhigh⟩ := exists_finite_of_not_below hproduct.defined
    (hproduct.not_negative le_rfl) (hproduct.not_positive le_rfl)
  rw [hw, Int.le_antisymm hhigh hlow]

/-- A product is bounded by the product of the bounds, as long as that is a double at all. -/
theorem AtLeast.mul {j k : Nat} {x y : Float} (hx : AtLeast j x) (hy : AtLeast k y)
    (hle : j + k ≤ 1074) : AtLeast (j + k) (x * y) := by
  obtain ⟨w, hw, -, hhigh⟩ := hx.fraction.mul hy.fraction
  refine ⟨w, hw, ?_, hhigh⟩
  obtain ⟨u, hx, hu, -⟩ := hx
  obtain ⟨v, hy, hv, -⟩ := hy
  have hproduct := productOf_mul x y
  rw [hx, hy, hw] at hproduct
  refine Int.not_lt.mp (hproduct.at_least _ ?_)
  calc (2 : Int) ^ (1074 - (j + k) + 1074)
      = 2 ^ (1074 - j) * 2 ^ (1074 - k) := by rw [← pow_add]; congr 1; omega
    _ ≤ u * v := mul_le_mul hu hv (by positivity) (le_trans (by positivity) hu)

end Number

end DocSearch
