import DocSearch.Proofs.Number.Rounding

/-!
# Packing

That a result is still what it was after it has been put into 64 bits.

A result leaves an operation in parts, and the next operation takes it apart again. In between it
is a pattern of bits, and a pattern has no room for a mantissa with a power that does not go with
it. What rounding leaves always goes with its power, so it comes back as it was, unless the power is
too high. Then an infinity comes back.

Whatever is packed, nothing of another sign can come back. This is all that is needed where only the
sign of a result matters.

## Main definitions

* `ofParts`: What the three parts of a pattern stand for.
* `HasSign`: No other sign than a given one.

## Theorems

* `unpack_packComponents`: What comes back from the three parts of a pattern.
* `canonical_of_ofParts`: What a pattern stands for could be a result of rounding.
* `unpack_pack_finite`: A result of rounding comes back, or an infinity.
* `hasSign_unpack_pack`: The sign comes back in any case.
-/

namespace DocSearch

namespace Number

open Float.Model Float.Model.UnpackedFloat

/-! ### Parts of a pattern -/

-- The three parts of a double do not overlap, so each is read back.
theorem ofBitVec_unpackSign_packComponents (s : Sign) (biased : BitVec 11)
    (fraction : BitVec 52) :
    Sign.ofBitVec (unpackSign (packComponents .binary64 s biased fraction)) = s := by
  have hbit : unpackSign (packComponents .binary64 s biased fraction) = s.toBitVec := by
    refine BitVec.eq_of_getLsbD_eq fun i hi => ?_
    obtain rfl : i = 0 := by omega
    simp only [unpackSign, packComponents, BitVec.getLsbD_cast, BitVec.getLsbD_extractLsb]
    rw [BitVec.getLsbD_append, BitVec.getLsbD_append]
    rfl
  rw [hbit]
  cases s <;> rfl

/-- What a pattern of bits stands for, by its sign, the eleven bits for the power and the 52 bits
    for the mantissa. -/
def ofParts (s : Sign) (biased : BitVec 11) (fraction : BitVec 52) : UnpackedFloat :=
  if biased = -1#11 then (if fraction = 0#52 then .infinity s else .notANumber)
  else if biased = 0#11 then
    if h : fraction = 0#52 then .zero s
    else .finite s fraction.toNat (-1074)
      (Nat.pos_of_ne_zero fun hzero => h (BitVec.eq_of_toNat_eq hzero))
  else .finite s (2 ^ 52 + fraction.toNat) (biased.toNat - 1075)
    (Nat.add_pos_left (by decide) _)

/-- The bit in front of the fraction counts for a whole mantissa. -/
theorem toNat_one_append (fraction : BitVec 52) :
    (1#1 ++ fraction).toNat = 2 ^ 52 + fraction.toNat := by
  rw [BitVec.toNat_append, ← Nat.shiftLeft_add_eq_or_of_lt fraction.isLt]
  rfl

/-- A double is unpacked to what its three parts stand for. -/
theorem unpack_eq_ofParts (bits : BitVec Format.binary64.numBits) :
    UnpackedFloat.unpack .binary64 bits
      = ofParts (.ofBitVec (unpackSign bits)) (unpackExponent bits) (unpackMantissa bits) := by
  rw [UnpackedFloat.unpack, ofParts]
  -- The cases are those of the encoding: the largest exponent, the least, and those in between.
  by_cases hones : unpackExponent bits = -1#11
  · rw [if_pos hones, if_pos hones]
  rw [if_neg hones, if_neg hones]
  by_cases hleast : unpackExponent bits = 0#11
  · rw [if_pos hleast, if_pos hleast]
    by_cases hzero : unpackMantissa bits = 0#52
    · rw [dif_pos hzero, dif_pos hzero]
    · rw [dif_neg hzero, dif_neg hzero]
      simp [hleast, Format.exponentBias]
  · rw [if_neg hleast, if_neg hleast]
    simp [toNat_one_append, Format.exponentBias]

/-- So parts that are packed are unpacked to what they stand for. -/
theorem unpack_packComponents (s : Sign) (biased : BitVec 11) (fraction : BitVec 52) :
    UnpackedFloat.unpack .binary64 (packComponents .binary64 s biased fraction)
      = ofParts s biased fraction := by
  rw [unpack_eq_ofParts, ofBitVec_unpackSign_packComponents, unpackExponent_packComponents,
    unpackMantissa_packComponents]

-- The three kinds of doubles that are not made of a mantissa are read back as they were.
theorem unpack_packedInfinity (s : Sign) :
    UnpackedFloat.unpack .binary64 (packedInfinity .binary64 s) = .infinity s := by
  rw [packedInfinity, unpack_packComponents]
  rfl

theorem unpack_packedZero (s : Sign) :
    UnpackedFloat.unpack .binary64 (packedZero .binary64 s) = .zero s := by
  rw [packedZero, unpack_packComponents]
  rfl

theorem unpack_packedNaN :
    UnpackedFloat.unpack .binary64 (packedNaN .binary64) = .notANumber := by
  rw [packedNaN, unpack_packComponents]
  rfl

/-- What a pattern stands for has a mantissa and a power that go together, and the power is not too
    high. -/
theorem canonical_of_ofParts {s s' : Sign} {biased : BitVec 11} {fraction : BitVec 52} {m : Nat}
    {e : Int} {hpos : 0 < m} (h : ofParts s biased fraction = .finite s' m e hpos) :
    Canonical m e ∧ e ≤ 971 := by
  have hfraction := fraction.isLt
  rw [ofParts] at h
  -- An exponent of all ones stands for no finite double.
  by_cases hones : biased = -1#11
  · rw [if_pos hones] at h
    split at h <;> cases h
  rw [if_neg hones] at h
  -- The least exponent comes without the bit in front of the fraction, all others with it.
  by_cases hleast : biased = 0#11
  · rw [if_pos hleast] at h
    split at h
    · cases h
    · cases h
      exact ⟨⟨by omega, by omega, .inr rfl⟩, by omega⟩
  · rw [if_neg hleast] at h
    cases h
    have hbiased := biased.isLt
    have hne : biased.toNat ≠ 2047 := fun heq => hones (BitVec.eq_of_toNat_eq (by simpa using heq))
    have hpos : biased.toNat ≠ 0 := fun heq => hleast (BitVec.eq_of_toNat_eq (by simpa using heq))
    exact ⟨⟨by omega, by omega, .inl (by omega)⟩, by omega⟩

/-! ### Results -/

/-- How a finite double in canonical form is packed: with the bit in front left out, with the least
    exponent, or as an infinity. -/
theorem pack_finite (s : Sign) {m : Nat} {e : Int} (hpos : 0 < m) (h : Canonical m e) :
    UnpackedFloat.pack .binary64 (.finite s m e hpos)
      = if 972 ≤ e then packedInfinity .binary64 s
        else if 2 ^ 52 ≤ m then
          packComponents .binary64 s (.ofNat 11 (e + 1075).toNat) (.ofNat 52 m)
        else packComponents .binary64 s 0#11 (.ofNat 52 m) := by
  have hlow := h.least
  have hlog : m.log2 < 53 := (Nat.log2_lt hpos.ne').mpr h.lt
  have hfull : 52 ≤ m.log2 ↔ 2 ^ 52 ≤ m := Nat.le_log2 hpos.ne'
  have hbiased : (e + Format.binary64.exponentBias + (52 : Nat)).toNat = (e + 1075).toNat := by
    simp only [Format.exponentBias]
    omega
  rw [UnpackedFloat.pack]
  simp only [hbiased]
  -- Too large an exponent packs to an infinity. Otherwise a leading one in the mantissa decides
  -- whether the number is normal.
  by_cases hhigh : 972 ≤ e
  · rw [if_pos hhigh, if_pos (by omega)]
  · rw [if_neg hhigh, if_neg (by omega)]
    by_cases hm : 2 ^ 52 ≤ m
    · rw [if_pos hm, if_pos (by simp only [Format.mantissaBits]; omega)]
    · rw [if_neg hm, if_neg (by simp only [Format.mantissaBits]; omega)]

/-- It is read back as it was, unless its exponent is too large. -/
theorem unpack_pack_finite (s : Sign) {m : Nat} {e : Int} (hpos : 0 < m) (h : Canonical m e) :
    UnpackedFloat.unpack .binary64 (UnpackedFloat.pack .binary64 (.finite s m e hpos))
      = if 972 ≤ e then .infinity s else .finite s m e hpos := by
  have hlt := h.lt
  have hlow := h.least
  rw [pack_finite s hpos h]
  by_cases hhigh : 972 ≤ e
  · rw [if_pos hhigh, if_pos hhigh, unpack_packedInfinity]
  rw [if_neg hhigh, if_neg hhigh]
  by_cases hm : 2 ^ 52 ≤ m
  · -- The exponent fits into its eleven bits.
    have hbiased : (BitVec.ofNat 11 (e + 1075).toNat).toNat = (e + 1075).toNat := by
      rw [BitVec.toNat_ofNat, Nat.mod_eq_of_lt (by omega)]
    rw [if_pos hm, unpack_packComponents, ofParts, if_neg, if_neg]
    · simp only [hbiased, BitVec.toNat_ofNat, finite.injEq, true_and]
      omega
    · refine fun heq => ?_
      rw [heq] at hbiased
      simp at hbiased
      omega
    · refine fun heq => ?_
      rw [heq] at hbiased
      simp at hbiased
      omega
  · -- Without the bit in front the fraction is the mantissa, and it is not zero.
    have hmantissa : (BitVec.ofNat 52 m).toNat = m := by
      rw [BitVec.toNat_ofNat, Nat.mod_eq_of_lt (by omega)]
    have hleast : e = -1074 := h.full.resolve_left hm
    rw [if_neg hm, unpack_packComponents, ofParts, if_neg (by decide), if_pos rfl, dif_neg]
    · simp only [hmantissa, hleast]
    · refine fun heq => hpos.ne' ?_
      rw [← hmantissa, heq]
      rfl

/-- An infinity, a zero or a mantissa with a sign, or no number. -/
def HasSign (s : Sign) : UnpackedFloat → Prop
  | .notANumber => True
  | .infinity s' => s' = s
  | .zero s' => s' = s
  | .finite s' _ _ _ => s' = s

/-- The sign that is packed is the sign of what is unpacked, unless that is no number. -/
theorem hasSign_ofParts (s : Sign) {biased : BitVec 11} (h : biased ≠ -1#11)
    (fraction : BitVec 52) : HasSign s (ofParts s biased fraction) := by
  rw [ofParts, if_neg h]
  split
  · split <;> exact rfl
  · exact rfl

-- The mantissa need not go with its power here, so what comes back may be something else.
theorem hasSign_unpack_pack {s : Sign} {u : UnpackedFloat} (h : HasSign s u) :
    HasSign s (UnpackedFloat.unpack .binary64 (UnpackedFloat.pack .binary64 u)) := by
  cases u with
  | notANumber =>
    rw [UnpackedFloat.pack, unpack_packedNaN]
    exact trivial
  | infinity s' =>
    obtain rfl : s' = s := h
    rw [UnpackedFloat.pack, unpack_packedInfinity]
    exact rfl
  | zero s' =>
    obtain rfl : s' = s := h
    rw [UnpackedFloat.pack, unpack_packedZero]
    exact rfl
  | finite s' m e hpos =>
    obtain rfl : s' = s := h
    rw [UnpackedFloat.pack]
    simp only
    generalize hbiased : (e + Format.binary64.exponentBias + (52 : Nat)).toNat = biased
    by_cases hhigh : 2 ^ 11 ≤ biased + 1
    · rw [if_pos hhigh, unpack_packedInfinity]
      exact rfl
    rw [if_neg hhigh]
    -- The exponent is below the one of all ones.
    have hones : BitVec.ofNat 11 biased ≠ -1#11 := fun heq => by
      have := congrArg BitVec.toNat heq
      rw [BitVec.toNat_ofNat, Nat.mod_eq_of_lt (by omega)] at this
      simp at this
      omega
    split
    · rw [unpack_packComponents]
      exact hasSign_ofParts s' hones _
    · rw [unpack_packComponents]
      exact hasSign_ofParts s' (by decide) _

end Number

end DocSearch
