import DocSearch.Proofs.Number.Zeros
import DocSearch.Proofs.Relevance.Sums
import DocSearch.Query.Reader

/-!
# Asking for One Value

A value can be asked for alone or as the only one of a list, and both should score the same.

The two kinds of query become one kind of scorer. They differ in what is put into it: asking for
`null` alone puts nothing in, so that it finds nothing, and a list is put in as it is. For every
other value the scorers are the same.

What is no scalar should find nothing in a document, since only scalars are read from one. But the
comparison falls back on canonical texts, and what is no scalar has the empty one. So `null` in a
list, an array and an object find the empty string, as if it were equal to them loosely. Nothing
else has the empty text, a number least of all, so that is the only way in which they are found.

A boost that is zero hides the difference and a negative one hides what is found, because only a
score above zero finds a document. For every other boost the two ways of asking agree exactly on the
documents that do not have the empty string at the field.

## Main definitions

* `Query.AskedAlike`: Both ways of asking score the same, and what is no scalar is not found.
* `Query.ToldApart`: Nothing at the field can be taken for the value.

## Theorems

* `Number.canonicalText_ne_empty`: The text of a number is not empty.
* `Scalar.canonicalText_eq_empty_iff`: Only the empty text is.
* `scoreTerms_of_not_scalar`: What a value that is no scalar scores.
* `reading_emptyTexts_mul_ne_zero`: That is not zero.
* `null_found_in_list`: The empty string is taken for `null`.
* `asked_alike_iff`: When both ways of asking agree.
-/

namespace DocSearch

/-! ### Texts of numbers -/

namespace Number

-- A number is never written as the empty text, in whichever of its forms.
theorem Layout.writePositional_ne_empty (layout : Layout) (d : Decimal) :
    layout.writePositional d ≠ "" := by
  have hdigits : toString d.digits ≠ "" := by
    rw [Nat.toString_eq_repr]
    exact Nat.repr_ne_empty
  rw [writePositional]
  split
  · simp only [ne_eq, String.append_eq_empty_iff, hdigits, false_and, not_false_eq_true]
  · have hpoint : ("." : String) ≠ "" := by decide
    simp only [ne_eq, String.append_eq_empty_iff, hpoint, and_false, false_and,
      not_false_eq_true]

theorem write_plainLayout_ne_empty (x : Float) : plainLayout.write x ≠ "" := by
  have hzero : ("0" : String) ≠ "" := by decide
  rw [Layout.write]
  split
  · simp only [ne_eq, String.append_eq_empty_iff, hzero, and_false, false_and, not_false_eq_true]
  · -- Plain numbers are never written with an exponent.
    have hpositional := Layout.writePositional_ne_empty plainLayout
    simp only [plainLayout, if_true, ne_eq, String.append_eq_empty_iff, not_and]
    exact fun _ => hpositional _

/-- The canonical text of a number is what is written, and so it is not empty. -/
theorem canonicalText_ne_empty (x : Float) : canonicalText x ≠ "" := by
  -- The printed cases are fixed words, whole numbers, and digits with an exponent.
  have hint : ∀ n : Int, toString n ≠ "" := by
    intro n
    have hminus : ("-" : String) ≠ "" := by decide
    rw [Int.toString_eq_repr, Int.repr_eq_if]
    split
    · exact Nat.repr_ne_empty
    · simp only [ne_eq, String.append_eq_empty_iff, hminus, false_and, not_false_eq_true]
  simp only [canonicalText]
  split_ifs
  · decide
  · decide
  · decide
  · exact hint _
  · exact write_plainLayout_ne_empty x

end Number

/-- Of all scalars only the empty text has the empty canonical text. -/
theorem Scalar.canonicalText_eq_empty_iff (found : Scalar) :
    found.canonicalText = "" ↔ found = .text "" := by
  cases found with
  | bool value => cases value <;> simp [Scalar.canonicalText]
  | number value => simp [Scalar.canonicalText, Number.canonicalText_ne_empty]
  | text value => simp [Scalar.canonicalText]

open Number

namespace Scorer

/-! ### Values that are no scalars -/

/-- How often the empty string stands among some values. -/
def emptyTexts (values : List Json) : Nat := (values.filterMap Json.asText?).count ""

variable {value : Json}

-- A value that is no scalar has the empty text, and so it is compared with the empty string only.
theorem matchScores_of_not_scalar (h : Scalar.ofJson? value = none) (found : Scalar) :
    matchScores [value] found = if found = .text "" then [looseMatch] else [] := by
  have htext : canonicalText value = "" := by rw [canonicalText, h]
  simp only [matchScores, List.filterMap_cons, List.filterMap_nil, h, Option.any_none,
    Bool.false_eq_true, if_false, htext, Scalar.canonicalText_eq_empty_iff]
  split_ifs <;> rfl

/-- A value that is no scalar matches the empty texts of a field, each as loosely as any other, and
    nothing else. -/
theorem flatMap_matchScores_of_not_scalar (h : Scalar.ofJson? value = none) (values : List Json) :
    (values.filterMap Scalar.ofJson?).flatMap (matchScores [value])
      = List.replicate (emptyTexts values) looseMatch := by
  induction values with
  | nil => rfl
  | cons found rest ih =>
    cases found with
    -- Only a string can match, and only the empty one: the canonical text of a value that is no
    -- scalar is empty.
    | str text =>
      have hscores : matchScores [value] (.text text)
          = if text = "" then [looseMatch] else [] := by
        simp only [matchScores_of_not_scalar h, Scalar.text.injEq]
      simp only [List.filterMap_cons, Scalar.ofJson?, List.flatMap_cons, ih, hscores, emptyTexts,
        Json.asText?, List.count_cons, beq_iff_eq]
      split_ifs
      · rw [List.singleton_append, List.replicate_succ]
      · rw [List.nil_append, Nat.add_zero]
    | _ =>
      simpa only [List.filterMap_cons, Scalar.ofJson?, List.flatMap_cons,
        matchScores_of_not_scalar h, emptyTexts, Json.asText?, reduceCtorEq, if_false,
        List.nil_append] using ih

/-- A value that is no scalar scores loosely once for every empty string. -/
theorem scoreTerms_of_not_scalar (h : Scalar.ofJson? value = none) (boost : Float)
    (values : List Json) :
    scoreTerms [value] boost values
      = sum 0.0 (List.replicate (emptyTexts values) looseMatch) * boost := by
  rw [scoreTerms, flatMap_matchScores_of_not_scalar h]
  rfl

/-! ### Sums of loose matches -/

open Float.Model Float.Model.UnpackedFloat

-- The score of a loose match in its parts.
theorem unpack_looseMatch :
    looseMatch.toModel.unpack = .finite .positive 7205759403792794 (-53) (by decide) := rfl

theorem zero_lt_looseMatch : 0.0 < looseMatch := by decide

-- The score is more than one half, so not even the double next to zero is rounded away.
theorem reading_looseMatch_mul_ne_zero {boost : Float} (h : reading boost ≠ .finite 0) :
    reading (looseMatch * boost) ≠ .finite 0 := by
  refine reading_mul_ne_zero zero_lt_looseMatch h fun u v hu hv hloose hboost => ?_
  -- One unit is too small for the general bound. Its product with the score lies above half a unit,
  -- and is rounded up.
  by_cases hone : v.natAbs = 1
  · obtain ⟨s, hs⟩ := unpack_of_one_unit hboost hone
    have hmul : (looseMatch * boost).toModel.unpack
        = UnpackedFloat.unpack .binary64 (UnpackedFloat.pack .binary64
          (UnpackedFloat.mul .binary64 looseMatch.toModel.unpack boost.toModel.unpack)) := rfl
    have hproduct : (looseMatch * boost).toModel.unpack
        = .finite s 1 (-1074) (by decide) := by
      rw [hmul, hs, unpack_looseMatch]
      cases s <;> rfl
    rw [reading, hproduct, readingOf, Ne, Reading.finite.injEq, apply_eq_zero_iff]
    exact_mod_cast (unitCount_pos Nat.one_pos (-1074)).ne'
  · rw [reading, unpack_looseMatch, readingOf, Reading.finite.injEq, Sign.apply] at hloose
    have hpower : 52 + ((-53 : Int) + 1074).toNat = 1073 := by decide
    have hu' : 2 ^ 1073 ≤ u.natAbs := by
      rw [← hloose, Int.natAbs_natCast, ← hpower]
      exact two_pow_le_unitCount (by decide) _
    have hv' : 2 ≤ v.natAbs := by omega
    refine reading_mul_ne_zero_of_units (u := u) ?_ hboost ?_
    · rw [reading, unpack_looseMatch, readingOf, Sign.apply, hloose]
    · rw [Int.natAbs_mul, show 1074 = 1073 + 1 from rfl, pow_succ]
      exact Nat.mul_le_mul hu' hv'

/-- Adding loose matches to one or more leaves one or more. -/
theorem oneOrMore_sum {start : Float} (h : OneOrMore start) (count : Nat) :
    OneOrMore (sum start (List.replicate count looseMatch)) := by
  induction count generalizing start with
  | zero => exact h
  | succ count ih => exact ih (h.add zero_lt_looseMatch)

-- One loose match is less than one, and two of them are already more.
theorem oneOrMore_two : OneOrMore (0.0 + looseMatch + looseMatch) := by
  have htwo : (0.0 + looseMatch + looseMatch).toModel.unpack
      = .finite .positive 7205759403792794 (-52) (by decide) := rfl
  have hpower : 52 + ((-52 : Int) + 1074).toNat = 1074 := by decide
  have hunits : 2 ^ 1074 ≤ unitCount 7205759403792794 (-52) := by
    rw [← hpower]
    exact two_pow_le_unitCount (by decide) _
  refine .inr ⟨unitCount 7205759403792794 (-52), by exact_mod_cast hunits, ?_⟩
  rw [reading, htwo]
  rfl

/-- However many empty strings there are, what they score is not rounded to zero by the boost. -/
theorem reading_sum_mul_ne_zero {count : Nat} (hcount : 0 < count) {boost : Float}
    (h : reading boost ≠ .finite 0) :
    reading (sum 0.0 (List.replicate count looseMatch) * boost) ≠ .finite 0 := by
  obtain _ | _ | count := count
  · exact absurd hcount (by decide)
  · have hone : sum 0.0 (List.replicate 1 looseMatch) = looseMatch := by decide
    rw [hone]
    exact reading_looseMatch_mul_ne_zero h
  · exact (oneOrMore_sum oneOrMore_two count).mul_ne_zero h

/-- A sum of loose matches is not negative. -/
theorem not_negative_sum_looseMatch (count : Nat) :
    ¬ sum 0.0 (List.replicate count looseMatch) < 0.0 := by
  refine not_negative_sum (fun score hmem => ?_) not_negative_zero
  rw [List.eq_of_mem_replicate hmem]
  exact not_negative_of_zero_lt zero_lt_looseMatch

/-- It is positive if there is one. -/
theorem zero_lt_sum_looseMatch {count : Nat} (hcount : 0 < count) :
    0.0 < sum 0.0 (List.replicate count looseMatch) := by
  have hnumber : looseMatch.isNaN = false := rfl
  refine (zero_lt_sum_iff fun score hmem => ?_).mpr ⟨⟨looseMatch, ?_, zero_lt_looseMatch⟩, ?_⟩
  · rw [List.eq_of_mem_replicate hmem]
    exact not_negative_of_zero_lt zero_lt_looseMatch
  · exact List.mem_replicate.mpr ⟨hcount.ne', rfl⟩
  · intro score hmem
    rw [List.eq_of_mem_replicate hmem]
    exact hnumber

end Scorer

namespace Query

/-! ### Both ways of asking -/

/-- Both ways of asking for a value score a document the same, and a value that is no scalar does
    not find it. Two zeros are the same score whatever their signs. -/
structure AskedAlike (value : Json) (one several : Scorer) (document : Json) : Prop where
  same : several.score document = one.score document
    ∨ several.score document == one.score document
  unfound : Scalar.ofJson? value = none →
    ¬ 0.0 < one.score document ∧ ¬ 0.0 < several.score document

/-- Nothing at a field can be taken for a value: the value is a scalar, or there is no empty string
    at the field. A value that is no scalar and not `null` may be taken for one as long as the boost
    is not positive, because nothing is found then. -/
def ToldApart (schema : Schema) (field : String) (value : Json) (boost : Float)
    (document : Json) : Prop :=
  (Scalar.ofJson? value).isSome = true
    ∨ "" ∉ (schema.resolve document field).filterMap Json.asText?
    ∨ value.isNull = false ∧ ¬ 0.0 < boost

/-- Both ways of asking give one scorer, except that `null` alone is asked for by none. -/
theorem exists_scorers_of_value (schema : Schema) (field : String) (value : Json)
    (boost : Float) :
    ∃ one several, compile schema (.term field value boost) = .ok one
      ∧ compile schema (.terms field [value] boost) = .ok several
      ∧ (value.isNull = false → one = several)
      ∧ ∀ document,
          several.score document
            = Scorer.scoreTerms [value] boost (schema.resolve document field)
          ∧ (value.isNull = true → one.score document = 0.0) := by
  rw [compile, compile]
  refine ⟨_, _, rfl, rfl, fun hvalue => ?_, fun document => ⟨?_, fun hnull => ?_⟩⟩
  · rw [hvalue]
    rfl
  · rw [Scorer.score]
    rfl
  · rw [Scorer.score, hnull]
    rfl

variable {schema : Schema} {field : String} {value : Json} {boost : Float} {document : Json}
  {one several : Scorer}

-- Without an empty string nothing is added up, and a finite boost leaves the zero a zero.
theorem askedAlike_of_toldApart (hboost : boost.isFinite = true)
    (hsame : value.isNull = false → one = several)
    (hseveral : several.score document
      = Scorer.scoreTerms [value] boost (schema.resolve document field))
    (hnull : value.isNull = true → one.score document = 0.0)
    (h : ToldApart schema field value boost document) : AskedAlike value one several document := by
  cases hscalar : Scalar.ofJson? value with
  | some scalar =>
    have hvalue : value.isNull = false := by
      cases value with
      | null => cases hscalar
      | _ => rfl
    rw [hsame hvalue]
    exact ⟨.inl rfl, fun hnone => by rw [hscalar] at hnone; cases hnone⟩
  | none =>
    rw [Scorer.scoreTerms_of_not_scalar hscalar] at hseveral
    rw [ToldApart, hscalar] at h
    -- Either the field has no empty text, or the value is not `null` and the boost is not positive.
    rcases h with habsurd | hempty | ⟨hvalue, hnotPositive⟩
    · cases habsurd
    · have hcount : Scorer.emptyTexts (schema.resolve document field) = 0 :=
        List.count_eq_zero.mpr hempty
      have hzero : reading (several.score document) = .finite 0 := by
        rw [hseveral, hcount]
        exact reading_zero_mul hboost
      have hunfound : ¬ 0.0 < several.score document := by
        rw [zero_lt_iff, hzero]
        exact Int.lt_irrefl 0
      by_cases hvalue : value.isNull = true
      · refine ⟨.inr ?_, fun _ => ⟨?_, hunfound⟩⟩
        · rw [hnull hvalue]
          exact (beq_zero_iff _).mpr hzero
        · rw [hnull hvalue]
          exact Scorer.not_negative_zero
      · rw [hsame (by simpa using hvalue)]
        exact ⟨.inl rfl, fun _ => ⟨hunfound, hunfound⟩⟩
    · have hunfound : ¬ 0.0 < several.score document := by
        rw [hseveral]
        exact not_positive_mul (Scorer.not_negative_sum_looseMatch _) hnotPositive
      rw [hsame hvalue]
      exact ⟨.inl rfl, fun _ => ⟨hunfound, hunfound⟩⟩

/-- The converse. If the two queries could not be told apart, the one for several values would match
    an empty text. -/
theorem toldApart_of_askedAlike (hboost : ¬ boost == 0.0)
    (hseveral : several.score document
      = Scorer.scoreTerms [value] boost (schema.resolve document field))
    (hnull : value.isNull = true → one.score document = 0.0)
    (h : AskedAlike value one several document) : ToldApart schema field value boost document := by
  rw [beq_zero_iff] at hboost
  by_contra happart
  simp only [ToldApart, not_or, not_and, not_not] at happart
  obtain ⟨hscalar, hempty, hpositive⟩ := happart
  rw [Option.not_isSome_iff_eq_none] at hscalar
  rw [Scorer.scoreTerms_of_not_scalar hscalar] at hseveral
  have hcount : 0 < Scorer.emptyTexts (schema.resolve document field) :=
    List.count_pos_iff.mpr hempty
  have hne : reading (several.score document) ≠ .finite 0 := by
    rw [hseveral]
    exact Scorer.reading_sum_mul_ne_zero hcount hboost
  by_cases hvalue : value.isNull = true
  · -- Asked for alone, `null` scores zero.
    have hzero : several.score document == 0.0 := by
      rcases h.same with hsame | hsame
      · rw [hsame, hnull hvalue]
        rfl
      · rwa [hnull hvalue] at hsame
    exact hne ((beq_zero_iff _).mp hzero)
  · have hfound : 0.0 < several.score document := by
      rw [hseveral] at hne ⊢
      exact zero_lt_mul_of_ne_zero (Scorer.zero_lt_sum_looseMatch hcount)
        (hpositive (by simpa using hvalue)) hne
    exact (h.unfound hscalar).2 hfound

/-- A document whose tag is empty. It is not found by `null`, and it is found by a list with `null`
    in it and by an array. -/
theorem null_found_in_list :
    let asked (kind : String) (parameters : Json) : Json :=
      .obj [(kind, .obj [("tag", parameters)])]
    let schema : Schema := ⟨"books", [], []⟩
    let document : Json := .obj [("tag", .str "")]
    let score (query : Query) : Option Float :=
      (query.compile schema).toOption.map (·.score document)
    ∃ one several listed, ofJson (asked "term" .null) = .ok one
      ∧ ofJson (asked "terms" (.arr [.null])) = .ok several
      ∧ ofJson (asked "term" (.arr [])) = .ok listed
      ∧ one = .term "tag" .null 1.0 ∧ several = .terms "tag" [.null] 1.0
      ∧ listed = .term "tag" (.arr []) 1.0
      ∧ score one = some 0.0 ∧ score several = some 0.8 ∧ score listed = some 0.8
      ∧ (0.0 : Float) < 0.8 := by
  refine ⟨_, _, _, rfl, rfl, rfl, rfl, rfl, rfl, ?_⟩
  decide

/-- A value can be asked for alone and in a list, under every schema and with every boost. If it is
    a scalar, both ways give the same scorer. Whatever the value, they score a document the same and
    a value that is no scalar does not find it as long as nothing at the field can be taken for the
    value, and for every boost that is not zero only then. -/
theorem asked_alike_iff (schema : Schema) (field : String) (value : Json) (boost : Float) :
    ∃ one several, compile schema (.term field value boost) = .ok one
      ∧ compile schema (.terms field [value] boost) = .ok several
      ∧ ((Scalar.ofJson? value).isSome = true → one = several)
      ∧ (boost.isFinite = true → ∀ document, ToldApart schema field value boost document →
          AskedAlike value one several document)
      ∧ (¬ boost == 0.0 → ∀ document, AskedAlike value one several document →
          ToldApart schema field value boost document) := by
  rcases exists_scorers_of_value schema field value boost with
    ⟨one, several, hone, hseveral, hsame, hscores⟩
  refine ⟨one, several, hone, hseveral, fun hscalar => hsame ?_, fun hboost document h => ?_,
    fun hboost document h => ?_⟩
  · cases value with
    | null => cases hscalar
    | _ => rfl
  · exact askedAlike_of_toldApart hboost hsame (hscores document).1 (hscores document).2 h
  · exact toldApart_of_askedAlike hboost (hscores document).1 (hscores document).2 h

/-- Both ways of asking for `null` agree on a document that has a tag, and not on one whose tag is
    empty. -/
theorem asked_alike_iff_tags :
    ∃ one several, compile ⟨"books", [], []⟩ (.term "tag" .null 1.0) = .ok one
      ∧ compile ⟨"books", [], []⟩ (.terms "tag" [.null] 1.0) = .ok several
      ∧ AskedAlike .null one several (.obj [("tag", .str "sea")])
      ∧ ¬ AskedAlike .null one several (.obj [("tag", .str "")]) := by
  rcases asked_alike_iff ⟨"books", [], []⟩ "tag" .null 1.0 with
    ⟨one, several, hone, hseveral, -, halike, happart⟩
  refine ⟨one, several, hone, hseveral, halike rfl _ (.inr (.inl (by decide))), ?_⟩
  intro hempty
  rcases happart (by decide) _ hempty with hscalar | habsent | ⟨hnull, -⟩
  · cases hscalar
  · exact habsent (by decide)
  · cases hnull

end Query

end DocSearch
