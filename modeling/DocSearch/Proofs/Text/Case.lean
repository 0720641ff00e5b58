import DocSearch.Text.Folding
import DocSearch.Text.Lowercase

/-!
# Case

What folding and lower case do to the characters of ASCII.

Folding has two halves, one for ASCII and a table for the rest, and the table leads back into ASCII:
the Kelvin sign folds to a `k`. So it is not clear that a character that has no case, such as the
blank, is alone with its folding. It is, since no range of the table leads further down than to
letters.

The lower case of a text looks at the neighbours of a sigma, but there is none in ASCII, where it
goes character by character and comes to the same as folding.

## Theorems

* `fold_eq_fold_iff`: A character before the letters folds like no other.
* `lowercase_of_ascii`: The lower case of a text in ASCII.
* `fold_toLower`: A character in ASCII folds like its lower case.
-/

namespace DocSearch

namespace Text

-- The code points that are no characters all go to the first one.
theorem toNat_eq_of_ofNat_eq {code : Nat} {c : Char} (hpos : 0 < c.toNat)
    (h : Char.ofNat code = c) : code = c.toNat := by
  unfold Char.ofNat at h
  by_cases hvalid : code.isValidChar
  · rw [dif_pos hvalid] at h
    rw [← h]
    rfl
  · rw [dif_neg hvalid] at h
    rw [← h] at hpos
    exact absurd hpos (by decide)

-- No range of the table leads down to the characters before the letters.
theorem shift_foldingRanges_ne {c x : Char} (hpos : 0 < c.toNat) (hc : c.toNat < 65)
    (h : x ≠ c) : shift foldingRanges x ≠ c := by
  have htable : (foldingRanges.all fun range => 65 ≤ (range.first : Int) + range.distance)
      = true := by
    decide +kernel
  rw [shift]
  cases hfound : foldingRanges.find? fun range => range.covers x.toNat with
  | none => exact h
  | some range =>
    have hrange := List.all_eq_true.mp htable range (List.mem_of_find?_eq_some hfound)
    have hcovers := List.find?_some hfound
    simp only [ShiftRange.covers, Bool.and_eq_true, decide_eq_true_eq] at hrange hcovers
    intro hmoved
    have hcode := toNat_eq_of_ofNat_eq hpos hmoved
    omega

-- What holds of all code points of ASCII holds of the characters.
theorem of_codes {P : Char → Prop} (h : ∀ code < 128, P (Char.ofNat code)) {c : Char}
    (hc : c.toNat < 128) : P c := by
  have hcode := h c.toNat hc
  rwa [Char.ofNat_toNat] at hcode

-- Lower case only leads to letters, and lower case letters are not the first of them.
theorem toLower_eq_self_of_lt {c : Char} (hascii : c.toNat < 128) (h : c.toLower.toNat < 65) :
    c.toLower = c := by
  exact of_codes (P := fun c => c.toLower.toNat < 65 → c.toLower = c) (by decide) hascii h

/-- A character before the letters folds like no other. -/
theorem fold_eq_fold_iff {c x : Char} (hpos : 0 < c.toNat) (hc : c.toNat < 65) :
    fold x = fold c ↔ x = c := by
  have hself : fold c = c := by
    have hascii : c.toNat < 128 := by omega
    rw [fold_of_ascii hascii]
    exact of_codes (P := fun c => c.toNat < 65 → c.toLower = c) (by decide) hascii hc
  refine ⟨fun h => ?_, fun h => h ▸ rfl⟩
  rw [hself] at h
  -- Beyond ASCII no range is folded to a place before the letters.
  by_cases hascii : x.toNat < 128
  · rw [fold_of_ascii hascii] at h
    rw [← h]
    exact (toLower_eq_self_of_lt hascii (h ▸ hc)).symm
  · rw [fold, if_neg hascii] at h
    by_cases hne : x = c
    · exact hne
    · exact absurd h (shift_foldingRanges_ne hpos hc hne)

/-- A character in ASCII folds like its lower case. -/
theorem fold_toLower {c : Char} (h : c.toNat < 128) : fold c.toLower = fold c := by
  have hlower : c.toLower.toNat < 128 ∧ c.toLower.toLower = c.toLower :=
    of_codes (P := fun c => c.toLower.toNat < 128 ∧ c.toLower.toLower = c.toLower) (by decide) h
  rw [fold_of_ascii hlower.1, fold_of_ascii h, hlower.2]

/-- The lower case of a text in ASCII goes character by character. -/
theorem lowerFrom_of_ascii {s : List Char} (h : ∀ c ∈ s, c.toNat < 128) (before : List Char) :
    lowerFrom before s = s.map Char.toLower := by
  induction s generalizing before with
  | nil => rfl
  | cons c s ih =>
    have hc := h c List.mem_cons_self
    have hsigma : c ≠ 'Σ' := by
      intro heq
      subst heq
      exact absurd hc (by decide)
    rw [lowerFrom, if_neg hsigma, lowerChar_of_ascii hc,
      ih fun x hx => h x (List.mem_cons_of_mem _ hx), List.map_cons, List.singleton_append]

/-- A text of ASCII characters is lowered character by character. -/
theorem lowercase_of_ascii {s : List Char} (h : ∀ c ∈ s, c.toNat < 128) :
    lowercase (String.ofList s) = String.ofList (s.map Char.toLower) := by
  rw [lowercase, String.toList_ofList, lowerFrom_of_ascii h]

/-- The blank is alone with its lower case. -/
theorem toLower_eq_blank_iff {c : Char} (h : c.toNat < 128) : c.toLower = ' ' ↔ c = ' ' := by
  have hblank (x : Char) : fold x = fold ' ' ↔ x = ' ' :=
    fold_eq_fold_iff (by decide) (by decide)
  rw [← hblank, ← hblank, fold_toLower h]

end Text

end DocSearch
