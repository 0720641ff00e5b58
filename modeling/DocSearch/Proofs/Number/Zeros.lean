import DocSearch.Proofs.Number.Signs

/-!
# Zeros

When sums and products of doubles are zero.

What comes to at least one least unit before it is rounded is not rounded to zero, above zero or
below. A sum is a whole number of least units, so it is zero only if the two doubles cancel, that is
if one is the other with the sign turned. Where both are on one side of zero nothing cancels, and a
sum is zero only if all of it is.

A product can be smaller than a least unit and be rounded to zero without a factor that is zero. It
cannot if one of the factors is at least one. Below one it depends on the factor what becomes of the
double next to zero: one half rounds it away, and a little more than that does not.

## Main definitions

* `OnSide`: No number, or a double on one side of zero.
* `OneOrMore`: A number that is at least one.

## Theorems

* `beq_zero_iff`: Equality with zero, whatever its sign.
* `reading_roundWithAccuracy_ne_zero`: What is not rounded to zero.
* `reading_add_eq_zero_iff`: Which sums are zero.
* `OnSide.add`, `OnSide.add_eq_zero_iff`: Sums on one side.
* `reading_zero_mul`: Zero times a finite double.
* `reading_mul_ne_zero_of_units`: A product that is not rounded to zero.
* `OneOrMore.add`, `OneOrMore.mul_ne_zero`: Sums and products with a number that is at least one.
* `unpack_of_one_unit`: The double next to zero.
-/

namespace DocSearch

namespace Number

open Float.Model Float.Model.UnpackedFloat

/-- Two zeros are equal whatever their signs. -/
theorem beq_zero_iff (x : Float) : (x == 0.0) = true ↔ reading x = .finite 0 := by
  have hzero : (0.0 : Float).toModel.unpack = .zero .positive := rfl
  -- Equality compares the parts, in which both zeros are the same.
  have hbeq : (x == 0.0) = true ↔ x.toModel.unpack.compare (.zero .positive) = some .eq := by
    rw [← hzero]
    change Float.beq x 0.0 = true ↔ _
    rw [Float.beq]
    change UnpackedFloat.beq _ _ = true ↔ _
    rw [UnpackedFloat.beq, beq_iff_eq]
  rw [hbeq, reading]
  cases hx : x.toModel.unpack with
  | notANumber => simp [UnpackedFloat.compare, readingOf]
  | infinity s => cases s <;> simp [UnpackedFloat.compare, readingOf]
  | zero s => simp [UnpackedFloat.compare, readingOf]
  | finite s m e hpos =>
    have hunits := unitCount_pos hpos e
    cases s <;> simp only [UnpackedFloat.compare, readingOf, Sign.apply, Reading.finite.injEq,
      Option.some.injEq, reduceCtorEq, false_iff] <;> omega

/-! ### Sums -/

theorem apply_eq_zero_iff (s : Sign) (u : Int) : s.apply u = 0 ↔ u = 0 := by
  cases s <;> simp [Sign.apply]

theorem natAbs_apply (s : Sign) (u : Int) : (s.apply u).natAbs = u.natAbs := by
  cases s <;> simp [Sign.apply]

-- What is at least one least unit before rounding is not rounded to zero, whatever its sign.
theorem reading_roundWithAccuracy_ne_zero (s : Sign) {m : Nat} {e : Int} {d : Nat}
    (h : e ≤ target m e) (hd : 0 ≤ e + 1074 + d) (hunit : 2 ^ d ≤ m * 2 ^ (e + 1074 + d).toNat) :
    readingOf (UnpackedFloat.unpack .binary64 (UnpackedFloat.pack .binary64
      (roundWithAccuracy .binary64 s m e .exact))) ≠ .finite 0 := by
  rcases roundWithAccuracy_cases h s with ⟨hzero, -⟩ | ⟨m', e', hpos, hresult, hcanonical, -⟩
  · have hlost := le_unitCount_rounded (k := 0) h hd (by rwa [Nat.zero_add])
    rw [hzero, unitCount, Nat.zero_mul] at hlost
    exact absurd hlost (by decide)
  · rw [hresult, unpack_pack_finite s hpos hcanonical]
    split
    · simp [readingOf]
    · rw [readingOf, Ne, Reading.finite.injEq, apply_eq_zero_iff]
      exact_mod_cast (unitCount_pos hpos e').ne'

/-- Rounding to a mantissa does not give zero where there is at least one unit. -/
theorem reading_round_ne_zero (s : Sign) {m : Nat} {e : Int} (he : -1074 ≤ e) (hm : m ≠ 0) :
    readingOf (UnpackedFloat.unpack .binary64 (UnpackedFloat.pack .binary64
      (UnpackedFloat.round .binary64 s m e))) ≠ .finite 0 := by
  obtain ⟨k, hlow, htarget, hround⟩ := round_eq hm he s
  have hunit : 1 ≤ m * 2 ^ k * 2 ^ (e - k + 1074 + (0 : Nat)).toNat :=
    Nat.mul_pos (Nat.mul_pos (Nat.pos_of_ne_zero hm) (Nat.two_pow_pos _)) (Nat.two_pow_pos _)
  rw [hround]
  exact reading_roundWithAccuracy_ne_zero s (d := 0) htarget (by omega) hunit

/-- The same for a signed mantissa. -/
theorem reading_normalize_ne_zero {w e : Int} (he : -1074 ≤ e) (hw : w ≠ 0) :
    readingOf (UnpackedFloat.unpack .binary64 (UnpackedFloat.pack .binary64
      (UnpackedFloat.normalize .binary64 w e .positive))) ≠ .finite 0 := by
  rw [UnpackedFloat.normalize]
  rcases lt_or_gt_of_ne hw with hneg | hpos
  · rw [compare_lt_iff_lt.mpr hneg]
    exact reading_round_ne_zero .negative he (by omega)
  · rw [compare_gt_iff_gt.mpr hpos]
    exact reading_round_ne_zero .positive he (by omega)

/-- A sum is zero only if the terms cancel exactly. Both terms are whole numbers of units, and so is
    their sum, which is why rounding cannot take it to zero. -/
theorem reading_add_ne_zero {x y : Float} {u v : Int} (hx : reading x = .finite u)
    (hy : reading y = .finite v) (hne : u + v ≠ 0) : reading (x + y) ≠ .finite 0 := by
  have hadd : (x + y).toModel.unpack
      = UnpackedFloat.unpack .binary64 (UnpackedFloat.pack .binary64
        (UnpackedFloat.add .binary64 x.toModel.unpack y.toModel.unpack)) := rfl
  have hself := unpack_pack_unpack x
  have hself' := unpack_pack_unpack y
  rw [reading] at hx hy
  rw [reading, hadd]
  rcases hxparts : x.toModel.unpack with s | _ | s | ⟨s, m, e, hm⟩ <;>
    rcases hyparts : y.toModel.unpack with s' | _ | s' | ⟨s', m', e', hm'⟩ <;>
    rw [hxparts] at hself hx <;> rw [hyparts] at hself' hy
  case finite.finite =>
    -- Both mantissas are shifted to the smaller exponent before they are added, which loses
    -- nothing.
    have hlow : -1074 ≤ min e e' :=
      le_min (canonical_unpack hxparts).1.least (canonical_unpack hyparts).1.least
    rw [readingOf, Reading.finite.injEq] at hx hy
    refine reading_normalize_ne_zero hlow fun hzero => hne ?_
    rw [← hx, ← hy, ← apply_shift s m (min_le_left e e') hlow,
      ← apply_shift s' m' (min_le_right e e') hlow, ← Int.add_mul, hzero, Int.zero_mul]
  case zero.finite =>
    rw [readingOf, Reading.finite.injEq] at hx
    simp only [UnpackedFloat.add, hself', hy, ne_eq, Reading.finite.injEq]
    omega
  case finite.zero =>
    rw [readingOf, Reading.finite.injEq] at hy
    simp only [UnpackedFloat.add, hself, hx, ne_eq, Reading.finite.injEq]
    omega
  case zero.zero =>
    rw [readingOf, Reading.finite.injEq] at hx hy
    omega
  -- What is left is not finite on some side.
  all_goals simp [readingOf] at hx hy

/-- A sum is zero exactly if it is one of a finite double and of the same one with the sign
    turned. -/
theorem reading_add_eq_zero_iff (x y : Float) :
    reading (x + y) = .finite 0 ↔ ∃ u, reading x = .finite u ∧ reading y = .finite (-u) := by
  have hsum := sumOf_add x y
  constructor
  · intro hzero
    rw [hzero] at hsum
    -- No infinity is left over in a sum that is zero, and what is no number spoils every sum.
    cases hx : reading x with
    | undefined =>
      rw [hx] at hsum
      exact absurd hsum (by simp [SumOf])
    | infinite s =>
      rw [hx] at hsum
      cases hy : reading y with
      | infinite s' =>
        rw [hy, SumOf] at hsum
        split at hsum <;> exact absurd hsum (by simp)
      | _ =>
        rw [hy] at hsum
        exact absurd hsum (by simp [SumOf])
    | finite u =>
      cases hy : reading y with
      | finite v =>
        have hcancels : u + v = 0 := by
          by_contra hne
          exact reading_add_ne_zero hx hy hne hzero
        exact ⟨u, rfl, by rw [Reading.finite.injEq]; omega⟩
      | _ =>
        rw [hx, hy] at hsum
        exact absurd hsum (by simp [SumOf])
  · rintro ⟨u, hx, hy⟩
    rw [hx, hy, SumOf, Int.add_right_neg] at hsum
    -- The exact sum is zero, and rounding keeps it on both sides of zero.
    obtain ⟨w, hw, hlow, hhigh⟩ := exists_finite_of_not_below hsum.defined
      (hsum.not_negative le_rfl) (hsum.not_positive le_rfl)
    rw [hw, Int.le_antisymm hhigh hlow]

/-- No number, or a double on one side of zero. Zero is on both sides. -/
def OnSide (s : Sign) (x : Float) : Prop :=
  match s with
  | .positive => ¬ x < 0.0
  | .negative => ¬ 0.0 < x

/-- To be on one side of zero, in terms of the reading. -/
theorem onSide_iff {s : Sign} {x : Float} :
    OnSide s x ↔ reading x = .undefined ∨ reading x = .infinite s
      ∨ ∃ u : Int, 0 ≤ s.apply u ∧ reading x = .finite u := by
  cases s <;> rw [OnSide] <;> simp only [lt_zero_iff, zero_lt_iff] <;>
    rcases reading x with _ | s' | u
  case positive.infinite | negative.infinite => cases s' <;> simp [Below]
  all_goals simp [Below, Sign.apply]

/-- Two doubles on one side of zero have their sum on that side. -/
theorem OnSide.add {s : Sign} {x y : Float} (hx : OnSide s x) (hy : OnSide s y) :
    OnSide s (x + y) := by
  have hsum := sumOf_add x y
  rw [onSide_iff] at hx hy
  rcases hx with hx | hx | ⟨u, hu, hx⟩ <;> rcases hy with hy | hy | ⟨v, hv, hy⟩ <;>
    rw [hx, hy] at hsum
  -- Two finite terms: the exact sum is on the side, and rounding does not leave it.
  case inr.inr.inr.inr =>
    cases s with
    | positive =>
      rw [OnSide, lt_zero_iff]
      exact hsum.not_negative (Int.add_nonneg hu hv)
    | negative =>
      rw [OnSide, zero_lt_iff]
      refine hsum.not_positive ?_
      simp only [Sign.apply] at hu hv
      omega
  -- Two infinities have the same sign here, so they do not cancel.
  case inr.inl.inr.inl =>
    simp only [SumOf, beq_self_eq_true, if_true] at hsum
    exact onSide_iff.mpr (.inr (.inl hsum))
  all_goals
    simp only [SumOf] at hsum
    exact onSide_iff.mpr (by simp [hsum])

/-- On one side of zero nothing cancels. -/
theorem OnSide.add_eq_zero_iff {s : Sign} {x y : Float} (hx : OnSide s x) (hy : OnSide s y) :
    reading (x + y) = .finite 0 ↔ reading x = .finite 0 ∧ reading y = .finite 0 := by
  rw [reading_add_eq_zero_iff]
  constructor
  · rintro ⟨u, hu, hu'⟩
    rw [onSide_iff, hu] at hx
    rw [onSide_iff, hu'] at hy
    have hzero : u = 0 := by
      cases s <;> simp [Sign.apply] at hx hy <;> omega
    rw [hu, hu', hzero]
    exact ⟨rfl, rfl⟩
  · rintro ⟨hx, hy⟩
    exact ⟨0, hx, hy⟩

/-! ### Products -/

/-- A finite double is a number of units. -/
theorem reading_of_isFinite {x : Float} (h : x.isFinite = true) : ∃ u, reading x = .finite u := by
  change x.toModel.unpack.isFinite = true at h
  rw [reading]
  cases hx : x.toModel.unpack with
  | notANumber => simp [hx, UnpackedFloat.isFinite] at h
  | infinity s => simp [hx, UnpackedFloat.isFinite] at h
  | zero s => exact ⟨0, rfl⟩
  | finite s m e hpos => exact ⟨_, rfl⟩

/-- Zero times a finite double is zero. -/
theorem reading_zero_mul {x : Float} (h : x.isFinite = true) : reading (0.0 * x) = .finite 0 := by
  obtain ⟨u, hx⟩ := reading_of_isFinite h
  have hproduct := productOf_mul 0.0 x
  rw [reading_zero, hx, ProductOf, Int.zero_mul] at hproduct
  obtain ⟨w, hw, hlow, hhigh⟩ := exists_finite_of_not_below hproduct.defined
    (hproduct.not_negative le_rfl) (hproduct.not_positive le_rfl)
  rw [hw, Int.le_antisymm hhigh hlow]

/-- A product of at least one least unit is not rounded to zero. -/
theorem reading_mul_ne_zero_of_units {x y : Float} {u v : Int} (hx : reading x = .finite u)
    (hy : reading y = .finite v) (h : 2 ^ 1074 ≤ (u * v).natAbs) : reading (x * y) ≠ .finite 0 := by
  have hmul : (x * y).toModel.unpack
      = UnpackedFloat.unpack .binary64 (UnpackedFloat.pack .binary64
        (UnpackedFloat.mul .binary64 x.toModel.unpack y.toModel.unpack)) := rfl
  -- As many units as the claim asks for are not none.
  have hunits : u * v ≠ 0 := by
    intro hzero
    rw [hzero, Int.natAbs_zero] at h
    exact (Nat.two_pow_pos _).not_ge h
  rw [reading] at hx hy
  rw [reading, hmul]
  rcases hxparts : x.toModel.unpack with s | _ | s | ⟨s, m, e, hm⟩ <;>
    rcases hyparts : y.toModel.unpack with s' | _ | s' | ⟨s', m', e', hm'⟩ <;>
    rw [hxparts] at hx <;> rw [hyparts] at hy
  case finite.finite =>
    obtain ⟨hcanonical, -⟩ := canonical_unpack hxparts
    obtain ⟨hcanonical', -⟩ := canonical_unpack hyparts
    have hlow := hcanonical.least
    have hlow' := hcanonical'.least
    refine reading_roundWithAccuracy_ne_zero (s * s') (d := 1074)
      (le_target_mul hm hm' hcanonical hcanonical') (by omega) (h.trans_eq ?_)
    rw [readingOf, Reading.finite.injEq] at hx hy
    have hpower : (e + e' + 1074 + (1074 : Nat)).toNat
        = (e + 1074).toNat + (e' + 1074).toNat := by
      omega
    rw [← hx, ← hy, Int.natAbs_mul, natAbs_apply, natAbs_apply, hpower, Int.natAbs_natCast,
      Int.natAbs_natCast, unitCount, unitCount]
    ring
  case zero.finite | finite.zero | zero.zero =>
    simp only [readingOf, Reading.finite.injEq] at hx hy
    simp [← hx, ← hy] at hunits
  -- What is left is not finite on some side.
  all_goals simp [readingOf] at hx hy

/-- A positive double is the positive infinity or some units. -/
theorem zero_lt_cases {x : Float} (h : 0.0 < x) :
    reading x = .infinite .positive ∨ ∃ u : Int, 0 < u ∧ reading x = .finite u := by
  rw [zero_lt_iff] at h
  cases hx : reading x with
  | undefined =>
    rw [hx] at h
    exact h.elim
  | infinite s =>
    rw [hx] at h
    cases s with
    | negative => exact h.elim
    | positive => exact .inl rfl
  | finite u => exact .inr ⟨u, by rwa [hx] at h, rfl⟩

-- A product of positive doubles is a number that is not negative.
theorem zero_lt_mul_of_ne_zero {x y : Float} (hx : 0.0 < x) (hy : 0.0 < y)
    (hne : reading (x * y) ≠ .finite 0) : 0.0 < x * y := by
  have hproduct := productOf_mul x y
  have hsign := not_negative_mul (not_negative_of_zero_lt hx) (not_negative_of_zero_lt hy)
  rw [zero_lt_iff]
  rcases not_negative_cases hsign with hundefined | hinf | ⟨w, hw, hfinite⟩
  · -- Undefined is only the product of an infinity and zero, and neither factor is zero.
    rw [hundefined] at hproduct
    rcases zero_lt_cases hx with hx | ⟨u, hu, hx⟩ <;>
      rcases zero_lt_cases hy with hy | ⟨v, hv, hy⟩ <;> rw [hx, hy] at hproduct
    case inr.inr => exact absurd rfl hproduct.defined
    all_goals simp [ProductOf, *] at hproduct
  · rw [hinf]
    exact trivial
  · -- A finite product is not negative, so it is positive once it is not zero.
    rw [hfinite] at hne ⊢
    exact lt_of_le_of_ne hw fun hzero => hne (by rw [← hzero])

/-- What is not negative times what is not positive is not positive. -/
theorem not_positive_mul {x y : Float} (hx : ¬ x < 0.0) (hy : ¬ 0.0 < y) : ¬ 0.0 < x * y := by
  have hproduct := productOf_mul x y
  have hside : OnSide .negative y := hy
  rw [zero_lt_iff]
  rcases not_negative_cases hx with hx | hx | ⟨u, hu, hx⟩ <;>
    rcases onSide_iff.mp hside with hy | hy | ⟨v, hv, hy⟩ <;> rw [hx, hy] at hproduct
  -- Both are finite, and the exact product is not above zero.
  case inr.inr.inr.inr =>
    refine hproduct.not_positive (Int.mul_nonpos_of_nonneg_of_nonpos hu ?_)
    simp only [Sign.apply] at hv
    omega
  -- One is infinite. The product is then infinite with the sign of the other, or undefined when the
  -- other is zero.
  case inr.inl.inr.inr =>
    simp only [Sign.apply] at hv
    rw [hproduct, if_neg (by omega)]
    split_ifs <;> exact id
  case inr.inr.inr.inl =>
    rw [hproduct]
    split_ifs with hpos hneg <;> first | exact id | omega
  all_goals
    rw [hproduct]
    exact id

/-- A number that is at least one. -/
def OneOrMore (x : Float) : Prop :=
  reading x = .infinite .positive ∨ ∃ u : Int, 2 ^ 1074 ≤ u ∧ reading x = .finite u

/-- What is one or more is positive. -/
theorem OneOrMore.pos {x : Float} (h : OneOrMore x) : 0.0 < x := by
  rw [zero_lt_iff]
  rcases h with hx | ⟨u, hu, hx⟩
  · rw [hx]
    exact trivial
  · rw [hx]
    exact lt_of_lt_of_le (by positivity) hu

/-- Adding what is positive keeps a number from falling below one. -/
theorem OneOrMore.add {x y : Float} (hx : OneOrMore x) (hy : 0.0 < y) : OneOrMore (x + y) := by
  have hsum := sumOf_add x y
  rcases hx with hx | ⟨u, hu, hx⟩ <;> rcases zero_lt_cases hy with hy | ⟨v, hv, hy⟩ <;>
    rw [hx, hy] at hsum
  case inr.inr =>
    -- One is a power of two, so rounding does not cross it.
    have hlow := hsum.at_least 1074 (by rw [Nat.add_zero]; omega)
    cases hreading : reading (x + y) with
    | undefined => exact absurd hreading hsum.defined
    | infinite s =>
      rw [hreading] at hlow
      cases s with
      | negative => exact absurd trivial hlow
      | positive => exact .inl hreading
    | finite w =>
      rw [hreading] at hlow
      exact .inr ⟨w, Int.not_lt.mp hlow, hreading⟩
  all_goals
    simp only [SumOf, beq_self_eq_true, if_true] at hsum
    exact .inl hsum

-- A product with an infinity or with no number is never zero, so two finite factors remain.
theorem reading_mul_ne_zero {x y : Float} (hx : 0.0 < x) (hy : reading y ≠ .finite 0)
    (h : ∀ u v : Int, 0 < u → v ≠ 0 → reading x = .finite u → reading y = .finite v →
      reading (x * y) ≠ .finite 0) : reading (x * y) ≠ .finite 0 := by
  have hproduct := productOf_mul x y
  rcases zero_lt_cases hx with hx | ⟨u, hu, hx⟩ <;> cases hy' : reading y with
  | undefined =>
    rw [hx, hy'] at hproduct
    simp only [ProductOf] at hproduct
    rw [hproduct]
    simp
  | infinite s =>
    rw [hx, hy'] at hproduct
    simp only [ProductOf, *] at hproduct
    rw [hproduct]
    simp
  | finite v =>
    have hv : v ≠ 0 := fun hzero => hy (by rw [hy', hzero])
    -- Only two finite factors are rounded. With an infinity the product is infinite, as none of the
    -- factors is zero.
    first
      | exact h u v hu hv hx hy'
      | rw [hx, hy'] at hproduct
        simp only [ProductOf] at hproduct
        rw [hproduct]
        split_ifs <;> simp

/-- A product with such a factor is not rounded to zero. -/
theorem OneOrMore.mul_ne_zero {x y : Float} (hx : OneOrMore x) (hy : reading y ≠ .finite 0) :
    reading (x * y) ≠ .finite 0 := by
  refine reading_mul_ne_zero hx.pos hy fun u v hu hv hreading hreading' => ?_
  have hlow : 2 ^ 1074 ≤ u := by
    rcases hx with hinf | ⟨w, hw, hfinite⟩
    · rw [hinf] at hreading
      cases hreading
    · rw [hfinite, Reading.finite.injEq] at hreading
      rwa [← hreading]
  -- A product keeps a unit when the factors have as many units between them as there are in one.
  refine reading_mul_ne_zero_of_units hreading hreading' ?_
  rw [Int.natAbs_mul]
  have hv' : 1 ≤ v.natAbs := by omega
  have hu' : 2 ^ 1074 ≤ u.natAbs := by omega
  exact hu'.trans (Nat.le_mul_of_pos_right _ hv')

/-- The double next to zero, on either side. -/
theorem unpack_of_one_unit {x : Float} {v : Int} (h : reading x = .finite v) (hv : v.natAbs = 1) :
    ∃ s, x.toModel.unpack = .finite s 1 (-1074) (by decide) := by
  rw [reading] at h
  rcases hx : x.toModel.unpack with s | _ | s | ⟨s, m, e, hpos⟩ <;>
    rw [hx] at h <;> simp only [readingOf, reduceCtorEq, Reading.finite.injEq] at h
  · omega
  · -- A single unit leaves no room for a larger mantissa or exponent.
    obtain ⟨hcanonical, -⟩ := canonical_unpack hx
    rw [← h, natAbs_apply, Int.natAbs_natCast, unitCount, mul_eq_one] at hv
    obtain ⟨rfl, hpower⟩ := hv
    have hleast : (e + 1074).toNat = 0 := by
      by_contra hne
      exact absurd hpower (Nat.one_lt_two_pow hne).ne'
    obtain rfl : e = -1074 := by
      have := hcanonical.least
      omega
    exact ⟨s, rfl⟩

end Number

end DocSearch
