import DocSearch.Proofs.Number.Packing

/-!
# Doubles as Whole Numbers

Every finite double is a whole number of least units, and the order of doubles is the order of these
numbers. So what an operation does to doubles can be said of whole numbers: it gives the number it
should, up to a rounding that crosses no power of two.

Sums are exact whole numbers of least units before they are rounded, so the sign of a sum is that of
the exact one. Products need not be. They are counted in units that are smaller by as much as one
least unit is smaller than one, and a product that is small enough in these can be rounded to zero.

## Main definitions

* `Reading`: What a double stands for.
* `Below`: The order of readings.
* `Rounds`: How far rounding can go.

## Theorems

* `lt_iff_below`: The order of doubles.
* `rounds_roundWithAccuracy`: Every result of rounding.
* `sumOf_add`, `productOf_mul`: Sums and products.
-/

namespace DocSearch

namespace Number

open Float.Model Float.Model.UnpackedFloat

/-- What a double stands for: no number, an infinity, or so many least units. -/
inductive Reading where
  | undefined
  | infinite (s : Sign)
  | finite (units : Int)

/-- The least units in a mantissa with a power. -/
def unitCount (m : Nat) (e : Int) : Nat := m * 2 ^ (e + 1074).toNat

/-- What the parts of a double stand for. -/
def readingOf : UnpackedFloat → Reading
  | .notANumber => .undefined
  | .infinity s => .infinite s
  | .zero _ => .finite 0
  | .finite s m e _ => .finite (s.apply (unitCount m e))

/-- What a double stands for. -/
def reading (x : Float) : Reading := readingOf x.toModel.unpack

/-- The order of readings. What is no number is below nothing and above nothing. -/
def Below : Reading → Reading → Prop
  | .finite u, .finite v => u < v
  | .infinite .negative, .finite _ => True
  | .finite _, .infinite .positive => True
  | .infinite .negative, .infinite .positive => True
  | _, _ => False

/-! ### The order -/

theorem unitCount_pos {m : Nat} (h : 0 < m) (e : Int) : 0 < unitCount m e :=
  Nat.mul_pos h (Nat.two_pow_pos _)

/-- A mantissa of full length bounds the units from below. -/
theorem two_pow_le_unitCount {m : Nat} (h : 2 ^ 52 ≤ m) (e : Int) :
    2 ^ (52 + (e + 1074).toNat) ≤ unitCount m e := by
  rw [Nat.pow_add]
  exact Nat.mul_le_mul_right _ h

-- A full mantissa with a higher power is greater than any mantissa with a lower power.
theorem unitCount_lt_of_lt {m m' : Nat} {e e' : Int} (h : Canonical m e) (h' : Canonical m' e')
    (hlt : e < e') : unitCount m e < unitCount m' e' := by
  have hlow := h.least
  have hfull : 2 ^ 52 ≤ m' := h'.full.resolve_right (by omega)
  calc m * 2 ^ (e + 1074).toNat
      < 2 ^ 53 * 2 ^ (e + 1074).toNat := Nat.mul_lt_mul_of_pos_right h.lt (Nat.two_pow_pos _)
    _ = 2 ^ (52 + ((e + 1074).toNat + 1)) := by rw [← Nat.pow_add]; congr 1; omega
    _ ≤ 2 ^ (52 + (e' + 1074).toNat) := Nat.pow_le_pow_right (by decide) (by omega)
    _ ≤ unitCount m' e' := two_pow_le_unitCount hfull e'

/-- Of two doubles in canonical form the exponents are compared first and then the mantissas. This
    compares the units. -/
theorem compare_unitCount {m m' : Nat} {e e' : Int} (h : Canonical m e) (h' : Canonical m' e') :
    (compare e e').then (compare m m') = compare (unitCount m e) (unitCount m' e') := by
  -- Only at equal exponents do the mantissas decide. A larger exponent wins against any mantissa,
  -- since the mantissa is full unless the exponent is the least.
  rcases lt_trichotomy e e' with hlt | rfl | hgt
  · rw [compare_lt_iff_lt.mpr hlt, compare_lt_iff_lt.mpr (unitCount_lt_of_lt h h' hlt)]
    rfl
  · have hpos : 0 < 2 ^ (e + 1074).toNat := Nat.two_pow_pos _
    rw [compare_eq_iff_eq.mpr rfl, Ordering.then, unitCount, unitCount]
    rcases lt_trichotomy m m' with hlt | rfl | hgt
    · rw [compare_lt_iff_lt.mpr hlt,
        compare_lt_iff_lt.mpr (Nat.mul_lt_mul_of_pos_right hlt hpos)]
    · rw [compare_eq_iff_eq.mpr rfl, compare_eq_iff_eq.mpr rfl]
    · rw [compare_gt_iff_gt.mpr hgt,
        compare_gt_iff_gt.mpr (Nat.mul_lt_mul_of_pos_right hgt hpos)]
  · rw [compare_gt_iff_gt.mpr hgt, compare_gt_iff_gt.mpr (unitCount_lt_of_lt h' h hgt)]
    rfl

/-- The parts of a double go together. -/
theorem canonical_unpack {x : Float} {s : Sign} {m : Nat} {e : Int} {hpos : 0 < m}
    (h : x.toModel.unpack = .finite s m e hpos) : Canonical m e ∧ e ≤ 971 :=
  canonical_of_ofParts ((unpack_eq_ofParts _).symm.trans h)

/-- One double is less than another one if its reading is below the other reading. -/
theorem lt_iff_below (x y : Float) : x < y ↔ Below (reading x) (reading y) := by
  have hlt : x < y ↔ x.toModel.unpack.compare y.toModel.unpack = some .lt := by
    change Float.lt x y = true ↔ _
    rw [Float.lt, decide_eq_true_iff]
    change UnpackedFloat.lt _ _ = true ↔ _
    rw [UnpackedFloat.lt, beq_iff_eq]
  rw [hlt, reading, reading]
  rcases hx : x.toModel.unpack with s | _ | s | ⟨s, m, e, hm⟩ <;>
    rcases hy : y.toModel.unpack with s' | _ | s' | ⟨s', m', e', hm'⟩
  -- Two finite doubles are compared by sign and then by units, backwards if both are negative.
  case finite.finite =>
    have hpos := unitCount_pos hm e
    have hpos' := unitCount_pos hm' e'
    have hcompare := compare_unitCount (canonical_unpack hx).1 (canonical_unpack hy).1
    cases s <;> cases s' <;>
      simp only [UnpackedFloat.compare, readingOf, Below, Sign.apply, hcompare, Ordering.swap_eq_lt,
        Option.some.injEq, compare_lt_iff_lt, compare_gt_iff_gt, reduceCtorEq, true_iff, false_iff]
      <;> omega
  case zero.finite =>
    have hpos' := unitCount_pos hm' e'
    cases s' <;> simp [UnpackedFloat.compare, readingOf, Below, Sign.apply, hpos']
  case finite.zero =>
    have hpos := unitCount_pos hm e
    cases s <;> simp [UnpackedFloat.compare, readingOf, Below, Sign.apply, hpos]
  case infinity.infinity =>
    cases s <;> cases s' <;> simp only [UnpackedFloat.compare, readingOf, Below] <;> decide
  -- What is left has an infinity or no number on one side, or two zeros.
  all_goals
    try cases s
    all_goals try cases s'
    all_goals simp [UnpackedFloat.compare, readingOf, Below]

/-! ### Rounding -/

/-- How far rounding can go: from a whole number `w` of parts, of which `2 ^ d` make one least unit,
    to a reading on the same side of zero and of every power of two. -/
structure Rounds (w : Int) (d : Nat) (r : Reading) : Prop where
  defined : r ≠ .undefined
  at_least : ∀ k : Nat, 2 ^ (k + d) ≤ w → ¬ Below r (.finite (2 ^ k))
  at_most : ∀ k : Nat, k < 2098 → w ≤ 2 ^ (k + d) → ¬ Below (.finite (2 ^ k)) r
  not_negative : 0 ≤ w → ¬ Below r (.finite 0)
  not_positive : w ≤ 0 → ¬ Below (.finite 0) r

/-- Rounding does not fall below a power of two. The mantissa has as many digits as the power asks
    for, and rounding does not take digits off in front. -/
theorem le_unitCount_rounded {m : Nat} {e : Int} {d k : Nat} (h : e ≤ target m e)
    (hd : 0 ≤ e + 1074 + d) (hk : 2 ^ (k + d) ≤ m * 2 ^ (e + 1074 + d).toNat) :
    2 ^ k ≤ unitCount (rounded m (target m e - e).toNat) (target m e) := by
  have hm : m ≠ 0 := fun hzero => by simp [hzero] at hk
  have hlog : k + d < m.log2 + 1 + (e + 1074 + d).toNat := by
    rw [← Nat.pow_lt_pow_iff_right (a := 2) (by decide), Nat.pow_add 2 (m.log2 + 1)]
    exact hk.trans_lt (Nat.mul_lt_mul_of_pos_right Nat.lt_log2_self (Nat.two_pow_pos _))
  have htarget : target m e ≤ m.log2 + e := by
    rw [target]
    omega
  -- Cutting off the low digits leaves the leading one in place.
  have hquotient : 2 ^ (m.log2 - (target m e - e).toNat) ≤ rounded m (target m e - e).toNat := by
    refine le_rounded ?_
    rw [← Nat.pow_add, Nat.sub_add_cancel (by omega)]
    exact Nat.log2_self_le hm
  -- What the mantissa loses in digits it gains in the exponent.
  calc 2 ^ k
      ≤ 2 ^ (m.log2 - (target m e - e).toNat + (target m e + 1074).toNat) :=
        Nat.pow_le_pow_right (by decide) (by omega)
    _ ≤ unitCount (rounded m (target m e - e).toNat) (target m e) := by
        rw [Nat.pow_add, unitCount]
        exact Nat.mul_le_mul_right _ hquotient

/-- Nor does it rise above one. -/
theorem unitCount_rounded_le {m : Nat} {e : Int} {d k : Nat} (h : e ≤ target m e)
    (hd : 0 ≤ e + 1074 + d) (hk : m * 2 ^ (e + 1074 + d).toNat ≤ 2 ^ (k + d)) :
    unitCount (rounded m (target m e - e).toNat) (target m e) ≤ 2 ^ k := by
  by_cases hm : m = 0
  · have hzero : rounded m (target m e - e).toNat ≤ 0 := rounded_le (by simp [hm])
    simp [unitCount, Nat.le_zero.mp hzero]
  have hlog : m.log2 + (e + 1074 + d).toNat ≤ k + d := by
    rw [← Nat.pow_le_pow_iff_right (a := 2) (by decide), Nat.pow_add]
    exact (Nat.mul_le_mul_right _ (Nat.log2_self_le hm)).trans hk
  -- The power is not smaller than the exponent that is rounded to.
  have htarget : target m e + 1074 ≤ k ∧ -1074 ≤ target m e := by
    rw [target]
    omega
  have hquotient : rounded m (target m e - e).toNat ≤ 2 ^ (k - (target m e + 1074).toNat) := by
    refine rounded_le ?_
    rw [← Nat.pow_add]
    refine Nat.le_of_mul_le_mul_right (hk.trans_eq ?_) (Nat.two_pow_pos (e + 1074 + d).toNat)
    rw [← Nat.pow_add]
    congr 1
    omega
  calc unitCount (rounded m (target m e - e).toNat) (target m e)
      ≤ 2 ^ (k - (target m e + 1074).toNat) * 2 ^ (target m e + 1074).toNat :=
        Nat.mul_le_mul_right _ hquotient
    _ = 2 ^ k := by
        rw [← Nat.pow_add]
        congr 1
        omega

-- A sign does not matter to how far rounding goes, since powers of two are positive.
theorem rounds_finite (s : Sign) {w u d : Nat} (hlow : ∀ k, 2 ^ (k + d) ≤ w → 2 ^ k ≤ u)
    (hhigh : ∀ k, w ≤ 2 ^ (k + d) → u ≤ 2 ^ k) (hzero : w = 0 → u = 0) :
    Rounds (s.apply w) d (.finite (s.apply u)) where
  defined := by simp
  -- A power of two is positive, so it says nothing about a negative number.
  at_least k hk := by
    have hpos : (0 : Int) < 2 ^ (k + d) := by positivity
    cases s with
    | negative => exact absurd hk (by simp only [Sign.apply]; omega)
    | positive =>
      simp only [Sign.apply, Below, not_lt] at hk ⊢
      exact_mod_cast hlow k (by exact_mod_cast hk)
  -- A negative number is below every power of two.
  at_most k _ hk := by
    have hpos : (0 : Int) < 2 ^ k := by positivity
    cases s with
    | negative => simp only [Below, Sign.apply]; omega
    | positive =>
      simp only [Sign.apply, Below, not_lt] at hk ⊢
      exact_mod_cast hhigh k (by exact_mod_cast hk)
  not_negative hw := by
    cases s <;> simp only [Below, Sign.apply] at hw ⊢ <;> omega
  not_positive hw := by
    cases s <;> simp only [Below, Sign.apply] at hw ⊢ <;> omega

-- The powers of two below the greatest double are all passed, so what is too large rounds to an
-- infinity of its sign.
theorem rounds_infinite (s : Sign) {w d : Nat} (hpos : 0 < w)
    (hhigh : ∀ k, k < 2098 → ¬ w ≤ 2 ^ (k + d)) : Rounds (s.apply w) d (.infinite s) where
  defined := by simp
  -- An infinity lies above every bound on its own side and below every bound on the other, so each
  -- field comes down to the sign.
  at_least k hk := by
    have hpos : (0 : Int) < 2 ^ (k + d) := by positivity
    cases s with
    | negative => exact absurd hk (by simp only [Sign.apply]; omega)
    | positive => exact id
  at_most k hlt hk := by
    cases s with
    | negative => exact id
    | positive =>
      simp only [Sign.apply] at hk
      exact absurd (by exact_mod_cast hk) (hhigh k hlt)
  not_negative hw := by
    cases s with
    | negative => exact absurd hw (by simp only [Sign.apply]; omega)
    | positive => exact id
  not_positive hw := by
    cases s with
    | negative => exact id
    | positive => exact absurd hw (by simp only [Sign.apply]; omega)

/-- Rounding a mantissa and an exponent to a double rounds the number that they stand for. -/
theorem rounds_roundWithAccuracy (s : Sign) {m : Nat} {e : Int} {d : Nat} (h : e ≤ target m e)
    (hd : 0 ≤ e + 1074 + d) :
    Rounds (s.apply (m * 2 ^ (e + 1074 + d).toNat : Nat)) d
      (readingOf (UnpackedFloat.unpack .binary64 (UnpackedFloat.pack .binary64
        (roundWithAccuracy .binary64 s m e .exact)))) := by
  have hleast : -1074 ≤ target m e := by rw [target]; omega
  have hlow := fun k => le_unitCount_rounded (k := k) h hd
  have hhigh := fun k => unitCount_rounded_le (k := k) h hd
  rcases roundWithAccuracy_cases h s with
    ⟨hzero, hresult⟩ | ⟨m', e', hpos, hresult, hcanonical, hle, hq⟩
  · rw [hzero] at hlow hhigh
    have hunits : unitCount 0 (target m e) = 0 := by simp [unitCount]
    rw [hunits] at hlow hhigh
    rw [hresult, UnpackedFloat.pack, unpack_packedZero, readingOf]
    have := rounds_finite s hlow hhigh (fun _ => rfl)
    cases s <;> exact this
  · -- A mantissa that was rounded up to one bit too many is halved with a greater exponent, and
    -- stands for the same units.
    have hunits : unitCount m' e' = unitCount (rounded m (target m e - e).toNat) (target m e) := by
      rw [unitCount, unitCount, ← hq, Nat.mul_assoc, ← Nat.pow_add]
      congr 2
      omega
    rw [← hunits] at hlow hhigh
    rw [hresult, unpack_pack_finite s hpos hcanonical]
    have hw : 0 < m * 2 ^ (e + 1074 + d).toNat := by
      refine Nat.pos_of_ne_zero fun hzero => ?_
      have hm : m = 0 := by simpa using hzero
      have : m' * 2 ^ (e' - target m e).toNat ≤ 0 := hq ▸ rounded_le (by simp [hm])
      simp [hpos.ne'] at this
    -- Beyond the greatest exponent the mantissa is full, so the number was above every power that
    -- is left.
    by_cases hinf : 972 ≤ e'
    · rw [if_pos hinf]
      refine rounds_infinite s hw fun k hk hle => ?_
      have hfull : 2 ^ 52 ≤ m' := hcanonical.full.resolve_right (by omega)
      have hbig := (two_pow_le_unitCount hfull e').trans (hhigh k hle)
      have := (Nat.pow_le_pow_iff_right (a := 2) (by decide)).mp hbig
      omega
    · rw [if_neg hinf]
      exact rounds_finite s hlow hhigh fun hzero => absurd hzero hw.ne'

/-! ### Sums and products -/

/-- The third reading is what the first two add up to. -/
def SumOf : Reading → Reading → Reading → Prop
  | .finite u, .finite v, r => Rounds (u + v) 0 r
  | .infinite s, .infinite s', r => r = if s == s' then .infinite s else .undefined
  | .infinite s, .finite _, r => r = .infinite s
  | .finite _, .infinite s, r => r = .infinite s
  | _, _, r => r = .undefined

/-- The third reading is the product of the first two. -/
def ProductOf : Reading → Reading → Reading → Prop
  | .finite u, .finite v, r => Rounds (u * v) 1074 r
  | .infinite s, .infinite s', r => r = .infinite (s * s')
  | .infinite s, .finite u, r =>
    r = if 0 < u then .infinite s else if u < 0 then .infinite (-s) else .undefined
  | .finite u, .infinite s, r =>
    r = if 0 < u then .infinite s else if u < 0 then .infinite (-s) else .undefined
  | _, _, r => r = .undefined

/-- What a double is unpacked to is packed to the same double again. -/
theorem unpack_pack_unpack (x : Float) :
    UnpackedFloat.unpack .binary64 (UnpackedFloat.pack .binary64 x.toModel.unpack)
      = x.toModel.unpack := by
  cases hx : x.toModel.unpack with
  | infinity s => rw [UnpackedFloat.pack, unpack_packedInfinity]
  | notANumber => rw [UnpackedFloat.pack, unpack_packedNaN]
  | zero s => rw [UnpackedFloat.pack, unpack_packedZero]
  | finite s m e hpos =>
    obtain ⟨hcanonical, hhigh⟩ := canonical_unpack hx
    rw [unpack_pack_finite s hpos hcanonical, if_neg (by omega)]

/-- A whole number of units is rounded to itself. -/
theorem rounds_self (w : Int) : Rounds w 0 (.finite w) where
  defined := by simp
  at_least _ hk := Int.not_lt.mpr hk
  at_most _ _ hk := Int.not_lt.mpr hk
  not_negative hw := Int.not_lt.mpr hw
  not_positive hw := Int.not_lt.mpr hw

-- Whatever the power of a mantissa, it can be made the one that rounding wants.
theorem rounds_round (s : Sign) {m : Nat} {e : Int} (he : -1074 ≤ e) (hm : m ≠ 0) :
    Rounds (s.apply (unitCount m e)) 0
      (readingOf (UnpackedFloat.unpack .binary64 (UnpackedFloat.pack .binary64
        (UnpackedFloat.round .binary64 s m e)))) := by
  obtain ⟨k, hlow, htarget, hround⟩ := round_eq hm he s
  have hunits : m * 2 ^ k * 2 ^ (e - k + 1074 + (0 : Nat)).toNat = unitCount m e := by
    rw [unitCount, Nat.mul_assoc, ← Nat.pow_add]
    congr 2
    omega
  have hrounds := rounds_roundWithAccuracy s (d := 0) htarget (by omega)
  rwa [hunits, ← hround] at hrounds

/-- A signed mantissa is rounded by its size, with its sign put in front. -/
theorem rounds_normalize (w : Int) {e : Int} (he : -1074 ≤ e) :
    Rounds (w * 2 ^ (e + 1074).toNat) 0
      (readingOf (UnpackedFloat.unpack .binary64 (UnpackedFloat.pack .binary64
        (UnpackedFloat.normalize .binary64 w e .positive)))) := by
  -- The sign is that of the mantissa, which is why there are three cases. Zero is not rounded at
  -- all.
  rcases lt_trichotomy w 0 with hneg | rfl | hpos
  · have hresult : UnpackedFloat.normalize .binary64 w e .positive
        = UnpackedFloat.round .binary64 .negative (-w).toNat e := by
      rw [UnpackedFloat.normalize, compare_lt_iff_lt.mpr hneg]
    have hrounds := rounds_round .negative (m := (-w).toNat) he (by omega)
    have hunits : Sign.negative.apply (unitCount (-w).toNat e) = w * 2 ^ (e + 1074).toNat := by
      simp only [Sign.apply, unitCount]
      push_cast [Int.toNat_of_nonneg (by omega : 0 ≤ -w)]
      ring
    rwa [hunits, ← hresult] at hrounds
  · rw [UnpackedFloat.normalize, compare_eq_iff_eq.mpr rfl]
    simp only [UnpackedFloat.pack, unpack_packedZero, readingOf, Int.zero_mul]
    exact rounds_self 0
  · have hresult : UnpackedFloat.normalize .binary64 w e .positive
        = UnpackedFloat.round .binary64 .positive w.toNat e := by
      rw [UnpackedFloat.normalize, compare_gt_iff_gt.mpr hpos]
    have hrounds := rounds_round .positive (m := w.toNat) he (by omega)
    have hunits : Sign.positive.apply (unitCount w.toNat e) = w * 2 ^ (e + 1074).toNat := by
      simp only [Sign.apply, unitCount]
      push_cast [Int.toNat_of_nonneg hpos.le]
      ring
    rwa [hunits, ← hresult] at hrounds

/-- Shifting a mantissa to a smaller exponent keeps the units. -/
theorem apply_shift (s : Sign) (m : Nat) {e e' : Int} (hle : e' ≤ e) (he' : -1074 ≤ e') :
    s.apply (m <<< (e - e').toNat : Nat) * 2 ^ (e' + 1074).toNat = s.apply (unitCount m e) := by
  have hpower : (e + 1074).toNat = (e - e').toNat + (e' + 1074).toNat := by omega
  cases s <;> simp only [Sign.apply, unitCount, Nat.shiftLeft_eq, hpower] <;> push_cast <;> ring

/-- Adding doubles adds their readings and rounds the sum. -/
theorem sumOf_add (x y : Float) : SumOf (reading x) (reading y) (reading (x + y)) := by
  have hadd : (x + y).toModel.unpack
      = UnpackedFloat.unpack .binary64 (UnpackedFloat.pack .binary64
        (UnpackedFloat.add .binary64 x.toModel.unpack y.toModel.unpack)) := rfl
  have hself := unpack_pack_unpack x
  have hself' := unpack_pack_unpack y
  rw [reading, reading, reading, hadd]
  rcases hx : x.toModel.unpack with s | _ | s | ⟨s, m, e, hm⟩ <;>
    rcases hy : y.toModel.unpack with s' | _ | s' | ⟨s', m', e', hm'⟩ <;>
    rw [hx] at hself <;> rw [hy] at hself'
  -- The two mantissas are shifted to the smaller exponent, so the sum is exact before it is
  -- rounded.
  case finite.finite =>
    obtain ⟨hx, -⟩ := canonical_unpack hx
    obtain ⟨hy, -⟩ := canonical_unpack hy
    have hlow : -1074 ≤ min e e' := le_min hx.least hy.least
    have hrounds := rounds_normalize
      (s.apply (m <<< (e - min e e').toNat : Nat) + s'.apply (m' <<< (e' - min e e').toNat : Nat))
      hlow
    rwa [Int.add_mul, apply_shift s m (min_le_left e e') hlow,
      apply_shift s' m' (min_le_right e e') hlow] at hrounds
  -- A zero adds nothing, and the other term is there as it was.
  case zero.finite =>
    simp only [UnpackedFloat.add, hself', readingOf, SumOf, Int.zero_add]
    exact rounds_self _
  case finite.zero =>
    simp only [UnpackedFloat.add, hself, readingOf, SumOf, Int.add_zero]
    exact rounds_self _
  case zero.zero =>
    by_cases hsame : (s == s') = true <;>
      simp only [UnpackedFloat.add, hsame, Bool.false_eq_true, if_true, if_false,
        UnpackedFloat.pack, unpack_packedZero, readingOf, SumOf]
      <;> exact rounds_self 0
  -- Opposite infinities do not add up to a number.
  case infinity.infinity =>
    by_cases hsame : (s == s') = true <;>
      simp only [UnpackedFloat.add, hsame, Bool.false_eq_true, if_true, if_false,
        UnpackedFloat.pack, unpack_packedInfinity, unpack_packedNaN, readingOf, SumOf]
  -- What is left has an infinity on one side only, or no number.
  all_goals
    simp only [UnpackedFloat.add, UnpackedFloat.pack, unpack_packedInfinity, unpack_packedNaN,
      readingOf, SumOf]

theorem rounds_zero (d : Nat) : Rounds 0 d (.finite 0) :=
  rounds_finite .positive (w := 0) (u := 0) (fun k hk => absurd hk (by simp)) (by simp) (by simp)

-- Of two mantissas at least one is full, or both have the least power.
theorem le_target_mul {m m' : Nat} {e e' : Int} (hm : 0 < m) (hm' : 0 < m') (h : Canonical m e)
    (h' : Canonical m' e') : e + e' ≤ target (m * m') (e + e') := by
  by_cases hfull : 2 ^ 52 ≤ m * m'
  · have hlog : 52 ≤ (m * m').log2 := (Nat.le_log2 (Nat.mul_pos hm hm').ne').mpr hfull
    rw [target]
    omega
  · have hleast : e = -1074 := h.full.resolve_left fun hle =>
      hfull (hle.trans (Nat.le_mul_of_pos_right m hm'))
    have hleast' : e' = -1074 := h'.full.resolve_left fun hle =>
      hfull (hle.trans (Nat.le_mul_of_pos_left m' hm))
    rw [target]
    omega

/-- Signs multiply as the numbers do. -/
theorem apply_mul (s s' : Sign) (a b : Int) : (s * s').apply (a * b) = s.apply a * s'.apply b :=
  match s, s' with
  | .negative, .negative => (Int.neg_mul_neg a b).symm
  | .negative, .positive => (Int.neg_mul a b).symm
  | .positive, .negative => (Int.mul_neg a b).symm
  | .positive, .positive => rfl

/-- The sign of an infinite product, asked of the finite factor. -/
theorem infinite_mul (s s' : Sign) {n : Nat} (h : 0 < n) :
    Reading.infinite (s * s')
      = if 0 < s.apply n then .infinite s' else if s.apply n < 0 then .infinite (-s')
        else .undefined := by
  cases s with
  | negative =>
    rw [if_neg (by simp only [Sign.apply]; omega), if_pos (by simp only [Sign.apply]; omega)]
    cases s' <;> rfl
  | positive =>
    rw [if_pos (by simp only [Sign.apply]; omega)]
    cases s' <;> rfl

/-- Multiplying doubles multiplies their readings and rounds the product. -/
theorem productOf_mul (x y : Float) : ProductOf (reading x) (reading y) (reading (x * y)) := by
  have hmul : (x * y).toModel.unpack
      = UnpackedFloat.unpack .binary64 (UnpackedFloat.pack .binary64
        (UnpackedFloat.mul .binary64 x.toModel.unpack y.toModel.unpack)) := rfl
  rw [reading, reading, reading, hmul]
  rcases hx : x.toModel.unpack with s | _ | s | ⟨s, m, e, hm⟩ <;>
    rcases hy : y.toModel.unpack with s' | _ | s' | ⟨s', m', e', hm'⟩
  -- The product of the mantissas is exact. It counts units of units, which are rounded to units.
  case finite.finite =>
    obtain ⟨hx, -⟩ := canonical_unpack hx
    obtain ⟨hy, -⟩ := canonical_unpack hy
    have hlow := hx.least
    have hlow' := hy.least
    have hrounds := rounds_roundWithAccuracy (s * s') (d := 1074)
      (le_target_mul hm hm' hx hy) (by omega)
    have hunits : (m * m' * 2 ^ (e + e' + 1074 + (1074 : Nat)).toNat : Nat)
        = (unitCount m e : Int) * unitCount m' e' := by
      have hpower : (e + e' + 1074 + (1074 : Nat)).toNat
          = (e + 1074).toNat + (e' + 1074).toNat := by
        omega
      rw [hpower, unitCount, unitCount]
      push_cast
      ring
    rwa [hunits, apply_mul] at hrounds
  case zero.finite | finite.zero | zero.zero =>
    simp only [UnpackedFloat.mul, UnpackedFloat.pack, unpack_packedZero, readingOf, ProductOf,
      Int.zero_mul, Int.mul_zero]
    exact rounds_zero 1074
  case finite.infinity =>
    simp only [UnpackedFloat.mul, UnpackedFloat.pack, unpack_packedInfinity, readingOf, ProductOf]
    exact infinite_mul s s' (unitCount_pos hm e)
  -- The factors are swapped, to have the finite one in front.
  case infinity.finite =>
    have hswap : s * s' = s' * s := by cases s <;> cases s' <;> rfl
    simp only [UnpackedFloat.mul, UnpackedFloat.pack, unpack_packedInfinity, readingOf, ProductOf,
      hswap]
    exact infinite_mul s' s (unitCount_pos hm' e')
  -- What is left has two infinities, an infinity and a zero, or no number.
  all_goals
    simp only [UnpackedFloat.mul, UnpackedFloat.pack, unpack_packedInfinity, unpack_packedNaN,
      readingOf, ProductOf, lt_irrefl, if_false]

end Number

end DocSearch
