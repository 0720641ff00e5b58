import Mathlib

/-!
# Rounding

What is left of a whole number of steps when a double has no room for it.

Every operation on doubles computes its result exactly, as a mantissa and a power of two, and then
shifts the mantissa until it fits 53 bits or until the power cannot rise further. What is shifted
out decides whether the rest is rounded up. All that is needed of this further on is that rounding
never crosses a whole number: whatever bound the quotient keeps, the rounded quotient keeps too.
From this follow both that no sum of doubles is rounded to zero and that a product loses at most
what the powers of two around its factors say.

A mantissa can be rounded up to 53 bits and one more, which is then shifted once again. That shift
loses nothing, because what was rounded up to is a power of two.

## Main definitions

* `Shifted`: A mantissa with its two bits behind the point, after some shifts.
* `rounded`: The quotient by a power of two, rounded.
* `target`: The least power a result is rounded to.
* `Canonical`: The mantissas and powers that doubles have.

## Theorems

* `le_rounded`, `rounded_le`: Rounding crosses no whole number.
* `roundWithAccuracy_cases`: What a rounded result is.
* `round_eq`: A mantissa that has to grow first.
-/

namespace DocSearch

namespace Number

open Float.Model Float.Model.UnpackedFloat

/-! ### Quotients -/

/-- A mantissa that was shifted by some bits, and whose bits behind the point say whether anything
    was lost. -/
structure Shifted (m n : Nat) (em : ExtendedMantissa) : Prop where
  mantissa : em.mantissa = m / 2 ^ n
  exact_iff : em.roundBit = false ∧ em.stickyBit = false ↔ m % 2 ^ n = 0

-- The bits that are shifted out are remembered in the accuracy, and one more shift adds one more of
-- them to it.
theorem shifted_zero (m : Nat) : Shifted m 0 (.ofMantissaAndAccuracy m .exact) where
  mantissa := by simp [ExtendedMantissa.ofMantissaAndAccuracy]
  exact_iff := by simp [ExtendedMantissa.ofMantissaAndAccuracy, Nat.mod_one]

theorem Shifted.succ {m n : Nat} {em : ExtendedMantissa} (h : Shifted m n em) :
    Shifted m (n + 1) em.shiftRightOne where
  mantissa := by
    rw [ExtendedMantissa.shiftRightOne, h.mantissa, Nat.div_div_eq_div_mul, ← Nat.pow_succ]
  exact_iff := by
    have hlost := h.exact_iff
    have hpos : 0 < 2 ^ n := Nat.two_pow_pos n
    rw [Nat.mod_pow_succ, Nat.add_eq_zero_iff, ← hlost, Nat.mul_eq_zero]
    simp [ExtendedMantissa.shiftRightOne, h.mantissa]
    tauto

/-- Shifting is shifting by one bit after another. -/
theorem shifted_shiftRight (m n : Nat) :
    Shifted m n (ExtendedMantissa.ofMantissaAndAccuracy m .exact >>> n) := by
  induction n with
  | zero => exact shifted_zero m
  | succ n ih => exact ih.succ

/-- The quotient of a whole number by a power of two, rounded. -/
def rounded (m n : Nat) : Nat :=
  (ExtendedMantissa.ofMantissaAndAccuracy m .exact >>> n).roundedMantissa

/-- The rounded mantissa is the quotient or more. -/
theorem Shifted.quotient_le {m n : Nat} {em : ExtendedMantissa} (h : Shifted m n em) :
    m / 2 ^ n ≤ em.roundedMantissa := by
  rw [← h.mantissa]
  obtain ⟨mantissa, roundBit, stickyBit⟩ := em
  cases roundBit <;> cases stickyBit <;>
    simp [ExtendedMantissa.roundedMantissa, ExtendedMantissa.accuracy, Accuracy.roundToNearestEven]

/-- It is one more at most, and the quotient itself where nothing is left over. -/
theorem Shifted.le_quotient {m n : Nat} {em : ExtendedMantissa} (h : Shifted m n em) :
    em.roundedMantissa ≤ m / 2 ^ n + if m % 2 ^ n = 0 then 0 else 1 := by
  rw [← h.mantissa]
  have hlost := h.exact_iff
  obtain ⟨mantissa, roundBit, stickyBit⟩ := em
  cases roundBit <;> cases stickyBit <;>
    simp_all [ExtendedMantissa.roundedMantissa, ExtendedMantissa.accuracy,
      Accuracy.roundToNearestEven]
  omega

/-- Rounding does not fall below a whole number that the exact quotient reaches. -/
theorem le_rounded {m n bound : Nat} (h : bound * 2 ^ n ≤ m) : bound ≤ rounded m n :=
  ((Nat.le_div_iff_mul_le (Nat.two_pow_pos n)).mpr h).trans (shifted_shiftRight m n).quotient_le

/-- Nor does it rise above one that the exact quotient does not pass. -/
theorem rounded_le {m n bound : Nat} (h : m ≤ bound * 2 ^ n) : rounded m n ≤ bound := by
  refine (shifted_shiftRight m n).le_quotient.trans ?_
  have hpos : 0 < 2 ^ n := Nat.two_pow_pos n
  by_cases hexact : m % 2 ^ n = 0
  · rw [if_pos hexact, Nat.add_zero]
    exact Nat.div_le_of_le_mul (by rwa [Nat.mul_comm])
  · rw [if_neg hexact, Nat.succ_le_iff, Nat.div_lt_iff_lt_mul hpos]
    refine lt_of_le_of_ne h fun heq => hexact ?_
    rw [heq, Nat.mul_mod_left]

/-! ### Results -/

/-- The power a result is rounded to: the one that leaves 53 bits, unless that would be below the
    least power. -/
def target (m : Nat) (e : Int) : Int := max (m.log2 + e - 52) (-1074)

/-- The exponent that is rounded to, in numbers. -/
theorem targetExponent_eq (m : Nat) (e : Int) :
    Format.binary64.targetExponent (totalExponent m e) = target m e := by
  simp [Format.targetExponent, totalExponent, Format.minExponent, Format.mantissaBits, target]
  ring_nf

/-- The mantissas and powers of doubles: 53 bits, of which the first is set unless the power is the
    least one. -/
structure Canonical (m : Nat) (e : Int) : Prop where
  lt : m < 2 ^ 53
  least : -1074 ≤ e
  full : 2 ^ 52 ≤ m ∨ e = -1074

/-- A rounded mantissa has 53 bits, or it is the least one of 54 bits. -/
theorem rounded_target_le (m : Nat) (e : Int) :
    rounded m (target m e - e).toNat ≤ 2 ^ 53 := by
  refine rounded_le ?_
  rw [← Nat.pow_add]
  refine Nat.lt_log2_self.le.trans (Nat.pow_le_pow_right (by decide) ?_)
  rw [target]
  omega

/-- It has all its bits unless the exponent is the least one. -/
theorem full_or_least {m : Nat} {e : Int} (h : e ≤ target m e) (hm : m ≠ 0) :
    2 ^ 52 ≤ rounded m (target m e - e).toNat ∨ target m e = -1074 := by
  by_cases hleast : target m e = -1074
  · exact .inr hleast
  · refine .inl (le_rounded ?_)
    rw [← Nat.pow_add]
    refine le_trans (Nat.pow_le_pow_right (by decide) ?_) (Nat.log2_self_le hm)
    rw [target] at h hleast ⊢
    omega

/-- The mantissa is shifted by the distance to the exponent that is rounded to. -/
theorem shiftToTargetExponent_eq (m : Nat) (e : Int) :
    shiftToTargetExponent .binary64 m e .exact
      = (ExtendedMantissa.ofMantissaAndAccuracy m .exact >>> (target m e - e).toNat,
        e + (target m e - e).toNat) := by
  simp only [shiftToTargetExponent, shiftToExponent, targetExponent_eq]

-- What is left after rounding and the second shift.
theorem roundWithAccuracy_eq {m : Nat} {e : Int} (h : e ≤ target m e) (s : Sign) {q k : Nat}
    (hq : rounded m (target m e - e).toNat = q)
    (hk : (target q (target m e) - target m e).toNat = k) :
    (q / 2 ^ k = 0 ∧ roundWithAccuracy .binary64 s m e .exact = .zero s)
      ∨ ∃ hpos, roundWithAccuracy .binary64 s m e .exact
        = .finite s (q / 2 ^ k) (target m e + k) hpos := by
  have hpower : e + ((target m e - e).toNat : Int) = target m e := by omega
  have hmantissa := (shifted_shiftRight q k).mantissa
  rw [rounded] at hq
  simp only [roundWithAccuracy, shiftToTargetExponent_eq, hpower, hq, hk, hmantissa]
  by_cases hzero : q / 2 ^ k = 0
  · exact .inl ⟨hzero, dif_pos hzero⟩
  · exact .inr ⟨Nat.pos_of_ne_zero hzero, dif_neg hzero⟩

/-- A result is zero only if the quotient was rounded to zero. Otherwise it has a mantissa and a
    power that doubles have, and is what the quotient was rounded to. -/
theorem roundWithAccuracy_cases {m : Nat} {e : Int} (h : e ≤ target m e) (s : Sign) :
    rounded m (target m e - e).toNat = 0
        ∧ roundWithAccuracy .binary64 s m e .exact = .zero s
      ∨ ∃ m' e' hpos, roundWithAccuracy .binary64 s m e .exact = .finite s m' e' hpos
        ∧ Canonical m' e' ∧ target m e ≤ e'
        ∧ m' * 2 ^ (e' - target m e).toNat = rounded m (target m e - e).toNat := by
  have hleast : -1074 ≤ target m e := by rw [target]; omega
  generalize hq : rounded m (target m e - e).toNat = q
  -- As long as the quotient has 53 bits it is the mantissa of the result.
  rcases (hq ▸ rounded_target_le m e : q ≤ 2 ^ 53).lt_or_eq with hlt | rfl
  · have hlog : q.log2 < 53 := by
      by_cases hzero : q = 0
      · simp [hzero, Nat.log2_zero]
      · exact (Nat.log2_lt hzero).mpr hlt
    have hk : (target q (target m e) - target m e).toNat = 0 := by
      rw [target]
      omega
    rcases roundWithAccuracy_eq h s hq hk with ⟨hzero, hresult⟩ | ⟨hpos, hresult⟩
    · exact .inl ⟨by simpa using hzero, hresult⟩
    · have hm : m ≠ 0 := by
        rintro rfl
        have : q ≤ 0 := hq ▸ rounded_le (by simp)
        simp [Nat.le_zero.mp this] at hpos
      refine .inr ⟨_, _, hpos, hresult, ⟨by simpa using hlt, by omega, ?_⟩, by omega, by simp⟩
      simpa [hq] using full_or_least h hm
  · -- The quotient was rounded up to one bit more than there is room for.
    have hk : (target (2 ^ 53) (target m e) - target m e).toNat = 1 := by
      rw [target, Nat.log2_two_pow]
      omega
    rcases roundWithAccuracy_eq h s hq hk with ⟨hzero, -⟩ | ⟨hpos, hresult⟩
    · exact absurd hzero (by decide)
    · refine .inr ⟨_, _, hpos, hresult, ⟨by decide, by omega, .inl (by decide)⟩, by omega, ?_⟩
      have hpower : (target m e + (1 : Nat) - target m e).toNat = 1 := by omega
      rw [hpower]
      exact Nat.div_mul_cancel (by decide)

/-- A factor of two is one more bit. -/
theorem log2_mul_two_pow {m : Nat} (hm : m ≠ 0) (k : Nat) : (m * 2 ^ k).log2 = m.log2 + k := by
  refine (Nat.log2_eq_iff (by positivity)).mpr ⟨?_, ?_⟩
  · rw [Nat.pow_add]
    exact Nat.mul_le_mul_right _ (Nat.log2_self_le hm)
  · rw [Nat.add_right_comm, Nat.pow_add]
    exact Nat.mul_lt_mul_of_pos_right Nat.lt_log2_self (Nat.two_pow_pos _)

/-- A mantissa that is too short grows before it is rounded. -/
theorem round_eq {m : Nat} (hm : m ≠ 0) {e : Int} (he : -1074 ≤ e) (s : Sign) :
    ∃ k : Nat, -1074 ≤ e - k ∧ e - k ≤ target (m * 2 ^ k) (e - k)
      ∧ UnpackedFloat.round .binary64 s m e
        = roundWithAccuracy .binary64 s (m * 2 ^ k) (e - k) .exact := by
  refine ⟨(e - target m e).toNat, ?_, ?_, ?_⟩
  · rw [target]
    omega
  · generalize hk : (e - target m e).toNat = k
    rw [target, log2_mul_two_pow hm]
    rw [target] at hk
    omega
  · simp only [UnpackedFloat.round, decreaseExponent, targetExponent_eq, Nat.shiftLeft_eq]

end Number

end DocSearch
