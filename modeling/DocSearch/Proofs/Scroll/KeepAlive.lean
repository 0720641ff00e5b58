import DocSearch.Scroll.KeepAlive
import Mathlib.Data.List.Induction
import Mathlib.Data.List.TakeWhile
import Mathlib.Data.Nat.Digits.Defs

/-!
# Keep-Alives Exactly

Which texts are keep-alives, and how long each of them lasts.

A keep-alive is read from the left, and no step is taken back. Blanks are taken off, then as many
digits as there are, then the first unit whose name comes next, and nothing may be left over. So
every step might take too much or too little and refuse a text that another division would have
made sense of. The names are where that could happen, because one of them begins two others.

What a keep-alive is supposed to be is said without steps: blanks, digits, the name of a unit,
blanks. There is at most one way to divide a text like that, since neither digits nor names hold
a blank and no name begins with a digit, and it is the division that reading finds.

How long it lasts is an exact number of nanoseconds as long as the unit is a second or shorter.
The longer units give whole seconds, and as many as fit a word.

## Main definitions

* `Duration.Spells`: A text is digits and the name of a unit, with blanks around them.
* `Duration.valueOf`: The number that digits stand for.
* `Duration.Lasts`: A duration is so many units long.

## Theorems

* `trim_eq_iff`: What is left when the blanks at the ends are taken off.
* `read?_eq_some_nil_iff`: A unit is read and nothing is left exactly if its name is all there is.
* `spells_iff`: The one way to divide a text.
* `lasts_duration`: A unit taken so many times.
* `keep_alives_exact`: What is read, and how long it lasts.
-/

namespace DocSearch

/-! ### Blanks -/

namespace Text

variable {front middle back : List Char}

/-- Blanks are dropped up to the first character that is none. -/
theorem dropWhile_isBlank (hfront : ∀ c ∈ front, isBlank c = true) (hne : middle ≠ [])
    (hmiddle : ∀ c ∈ middle, isBlank c = false) :
    (front ++ (middle ++ back)).dropWhile isBlank = middle ++ back := by
  rw [List.dropWhile_append_of_pos hfront]
  cases middle with
  | nil => exact absurd rfl hne
  | cons c rest =>
    have hc : ¬ isBlank c = true := by simp [hmiddle c List.mem_cons_self]
    rw [List.cons_append, List.dropWhile_cons_of_neg hc]

/-- Only blanks are taken off. -/
theorem exists_eq_append_trim (text : String) :
    ∃ front back, text.toList = front ++ (trim text).toList ++ back
      ∧ (∀ c ∈ front, isBlank c = true) ∧ ∀ c ∈ back, isBlank c = true := by
  let rest := text.toList.dropWhile isBlank
  have hrest : (rest.reverse.dropWhile isBlank).reverse
      ++ (rest.reverse.takeWhile isBlank).reverse = rest := by
    rw [← List.reverse_append, List.takeWhile_append_dropWhile, List.reverse_reverse]
  refine ⟨text.toList.takeWhile isBlank, (rest.reverse.takeWhile isBlank).reverse, ?_,
    fun c hc => List.mem_takeWhile_imp hc,
    fun c hc => List.mem_takeWhile_imp (List.mem_reverse.mp hc)⟩
  rw [trim, String.toList_ofList, List.append_assoc, hrest, List.takeWhile_append_dropWhile]

/-- All blanks are taken off, so what holds none and is not empty is left as it is. -/
theorem toList_trim_of_append {text : String} (htext : text.toList = front ++ middle ++ back)
    (hfront : ∀ c ∈ front, isBlank c = true) (hback : ∀ c ∈ back, isBlank c = true)
    (hne : middle ≠ []) (hmiddle : ∀ c ∈ middle, isBlank c = false) :
    (trim text).toList = middle := by
  have hreversed := @dropWhile_isBlank back.reverse middle.reverse []
    (fun c hc => hback c (List.mem_reverse.mp hc)) (by simpa using hne)
    (fun c hc => hmiddle c (List.mem_reverse.mp hc))
  rw [List.append_nil] at hreversed
  rw [trim, String.toList_ofList, htext, List.append_assoc, dropWhile_isBlank hfront hne hmiddle,
    List.reverse_append, hreversed, List.reverse_reverse]

/-- What holds no blank and is not empty is left exactly where blanks are all that surrounds it. -/
theorem trim_eq_iff {text : String} (hne : middle ≠ [])
    (hmiddle : ∀ c ∈ middle, isBlank c = false) :
    (trim text).toList = middle
      ↔ ∃ front back, text.toList = front ++ middle ++ back
        ∧ (∀ c ∈ front, isBlank c = true) ∧ ∀ c ∈ back, isBlank c = true := by
  constructor
  · rintro rfl
    exact exists_eq_append_trim text
  · rintro ⟨front, back, htext, hfront, hback⟩
    exact toList_trim_of_append htext hfront hback hne hmiddle

end Text

/-! ### Units -/

namespace TimeUnit

/-- How many nanoseconds a unit has. -/
def nanoseconds : TimeUnit → Nat
  | .day => 86400 * 10 ^ 9
  | .hour => 3600 * 10 ^ 9
  | .minute => 60 * 10 ^ 9
  | .second => 10 ^ 9
  | .millisecond => 10 ^ 6
  | .microsecond => 10 ^ 3
  | .nanosecond => 1

/-- Whether a unit is longer than a second. -/
def IsLong (unit : TimeUnit) : Prop := 10 ^ 9 < unit.nanoseconds

instance (unit : TimeUnit) : Decidable unit.IsLong := inferInstanceAs (Decidable (_ < _))

theorem name_injective : Function.Injective name := by
  intro unit other h
  cases unit <;> cases other <;> first | rfl | exact absurd h (by decide)

-- Whichever unit is found, its name stands in front.
theorem eq_append_of_read? {s rest : List Char} {unit : TimeUnit}
    (h : read? s = some (unit, rest)) : s = unit.name ++ rest := by
  rcases List.exists_of_findSome?_eq_some h with ⟨found, _, hfound⟩
  by_cases hbegins : found.name.isPrefixOf s = true
  · rw [if_pos hbegins, Option.some.injEq, Prod.mk.injEq] at hfound
    rcases hfound with ⟨rfl, rfl⟩
    rcases List.isPrefixOf_iff_prefix.mp hbegins with ⟨behind, rfl⟩
    rw [List.drop_left]
  · rw [if_neg hbegins] at hfound
    exact absurd hfound (by simp)

/-- A unit is read and nothing is left exactly if its name is all there is. In the other order of
    the names `ms` would be read as minutes with something left. -/
theorem read?_eq_some_nil_iff {s : List Char} {unit : TimeUnit} :
    read? s = some (unit, []) ↔ s = unit.name := by
  constructor
  · intro h
    rw [eq_append_of_read? h, List.append_nil]
  · rintro rfl
    cases unit <;> decide

end TimeUnit

namespace Duration

/-! ### Digits -/

/-- The number that decimal digits stand for. -/
def valueOf (digits : List Char) : Nat :=
  Nat.ofDigits 10 (digits.reverse.map fun c => c.toNat - '0'.toNat)

/-- A text is digits and the name of a unit behind each other, with blanks around them at most. -/
def Spells (text : String) (digits : List Char) (unit : TimeUnit) : Prop :=
  digits ≠ [] ∧ (∀ c ∈ digits, '0' ≤ c ∧ c ≤ '9')
    ∧ ∃ front back, text.toList = front ++ (digits ++ unit.name) ++ back
      ∧ (∀ c ∈ front, Text.isBlank c = true) ∧ ∀ c ∈ back, Text.isBlank c = true

/-- Reading digits from the left gives their value. -/
theorem amountOf_eq_valueOf (digits : List Char) : amountOf digits = valueOf digits := by
  induction digits using List.reverseRecOn with
  | nil => rfl
  | append_singleton front c ih =>
    rw [amountOf] at ih
    rw [amountOf, List.foldl_append, ih, valueOf, valueOf, List.reverse_append,
      List.reverse_singleton, List.singleton_append, List.map_cons, Nat.ofDigits_cons, Nat.add_comm]
    rfl

-- Digits and the letters of units are no blanks, and no unit begins with a digit, so the three
-- parts of a text are told apart.
theorem isDigit_iff (c : Char) : c.isDigit = true ↔ '0' ≤ c ∧ c ≤ '9' := by
  rw [Char.isDigit, Bool.and_eq_true, decide_eq_true_eq, decide_eq_true_eq]
  rfl

theorem isBlank_of_isDigit {c : Char} (h : c.isDigit = true) : Text.isBlank c = false := by
  have hrange : 48 ≤ c.toNat ∧ c.toNat ≤ 57 := (isDigit_iff c).mp h
  simp [Text.isBlank, Text.inRanges, Text.blankRanges]
  omega

theorem isBlank_of_mem_name {c : Char} {unit : TimeUnit} (h : c ∈ unit.name) :
    Text.isBlank c = false := by
  have hall : ∀ unit : TimeUnit, unit.name.all (fun c => !Text.isBlank c) = true := by
    intro unit
    cases unit <;> decide
  simpa using List.all_eq_true.mp (hall unit) c h

theorem head_name (unit : TimeUnit) : ∃ c rest, unit.name = c :: rest ∧ c.isDigit = false := by
  cases unit <;> exact ⟨_, _, rfl, by decide⟩

/-! ### Dividing a text -/

/-- There is one way at most to divide a text, and it is the one in which all digits that come
    first are taken. -/
theorem spells_iff {text : String} {digits : List Char} {unit : TimeUnit} :
    Spells text digits unit
      ↔ digits ≠ [] ∧ (Text.trim text).toList.takeWhile Char.isDigit = digits
        ∧ (Text.trim text).toList.dropWhile Char.isDigit = unit.name := by
  rcases head_name unit with ⟨c, rest, hname, hc⟩
  constructor
  · rintro ⟨hne, hdigits, hcut⟩
    have hisDigit : ∀ d ∈ digits, d.isDigit = true := fun d hd => (isDigit_iff d).mpr (hdigits d hd)
    -- Trimming takes away the blanks and nothing of the number and the unit.
    have htrim : (Text.trim text).toList = digits ++ unit.name := by
      refine (Text.trim_eq_iff (by simp [hne]) fun d hd => ?_).mpr hcut
      rcases List.mem_append.mp hd with hd | hd
      · exact isBlank_of_isDigit (hisDigit d hd)
      · exact isBlank_of_mem_name hd
    rw [htrim, List.takeWhile_append_of_pos hisDigit, List.dropWhile_append_of_pos hisDigit, hname,
      List.takeWhile_cons_of_neg (by simp [hc]), List.dropWhile_cons_of_neg (by simp [hc]),
      List.append_nil]
    exact ⟨hne, rfl, rfl⟩
  · rintro ⟨hne, htake, hdrop⟩
    refine ⟨hne, fun d hd => ?_, ?_⟩
    · rw [← htake] at hd
      exact (isDigit_iff d).mp (List.mem_takeWhile_imp hd)
    · rw [← htake, ← hdrop, List.takeWhile_append_dropWhile]
      exact Text.exists_eq_append_trim text

/-- What is read, in terms of what each step takes. -/
theorem ofChars?_eq_some_iff {s : List Char} {duration : Duration} :
    ofChars? s = some duration
      ↔ s.takeWhile Char.isDigit ≠ [] ∧ valueOf (s.takeWhile Char.isDigit) < 2 ^ 64
        ∧ ∃ unit, s.dropWhile Char.isDigit = TimeUnit.name unit
          ∧ duration = unit.duration (valueOf (s.takeWhile Char.isDigit)) := by
  have hlimit : (2 : Nat) ^ 64 = Number.wordLimit := rfl
  unfold ofChars?
  simp only [amountOf_eq_valueOf, hlimit]
  by_cases hrefused : s.takeWhile Char.isDigit = []
      ∨ Number.wordLimit ≤ valueOf (s.takeWhile Char.isDigit)
  · rw [if_pos hrefused]
    refine iff_of_false (by simp) fun ⟨hne, hlt, _⟩ => ?_
    rcases hrefused with hempty | hle
    · exact hne hempty
    · omega
  · rw [if_neg hrefused]
    rw [not_or, not_le] at hrefused
    rw [and_iff_right hrefused.1, and_iff_right hrefused.2]
    cases hread : TimeUnit.read? (s.dropWhile Char.isDigit) with
    | none =>
      refine iff_of_false (by simp) fun ⟨unit, hname, _⟩ => ?_
      rw [TimeUnit.read?_eq_some_nil_iff.mpr hname] at hread
      exact absurd hread (by simp)
    | some found =>
      rcases found with ⟨unit, rest⟩
      cases rest with
      | nil =>
        have hname := TimeUnit.read?_eq_some_nil_iff.mp hread
        simp only [hname, TimeUnit.name_injective.eq_iff, Option.some.injEq]
        exact ⟨fun h => ⟨unit, rfl, h.symm⟩, fun ⟨_, hsame, h⟩ => by rw [h, hsame]⟩
      | cons c rest =>
        -- Something is left, so the whole is no name, of whichever unit.
        refine iff_of_false (by simp) fun ⟨other, hname, _⟩ => ?_
        rw [TimeUnit.read?_eq_some_nil_iff.mpr hname] at hread
        exact absurd hread (by simp)

/-- What is read is what the text spells, if the number fits a word. -/
theorem ofText_eq_ok_iff {text : String} {duration : Duration} :
    ofText text = .ok duration
      ↔ ∃ digits unit, Spells text digits unit ∧ valueOf digits < 2 ^ 64
        ∧ duration = unit.duration (valueOf digits) := by
  have hread : ofText text = .ok duration ↔ ofChars? (Text.trim text).toList = some duration := by
    unfold ofText
    cases ofChars? (Text.trim text).toList with
    | none => simp
    | some found => simp
  rw [hread, ofChars?_eq_some_iff]
  simp only [spells_iff]
  constructor
  · rintro ⟨hne, hlt, unit, hname, hduration⟩
    exact ⟨_, unit, ⟨hne, rfl, hname⟩, hlt, hduration⟩
  · rintro ⟨_, unit, ⟨hne, rfl, hname⟩, hlt, hduration⟩
    exact ⟨hne, hlt, unit, hname, hduration⟩

/-- The only error is that the text cannot be read. -/
theorem error_of_ofText {text : String} {error : Error} (h : ofText text = .error error) :
    error = .keepAlive text := by
  unfold ofText at h
  cases hread : ofChars? (Text.trim text).toList with
  | none =>
    rw [hread] at h
    exact (Except.error.inj h).symm
  | some found =>
    rw [hread] at h
    exact absurd h (by simp)

/-! ### Lengths of time -/

/-- A duration in nanoseconds. -/
def inNanoseconds (duration : Duration) : Nat := duration.seconds * 10 ^ 9 + duration.nanoseconds

/-- A duration is so many units long: exactly, if the unit is a second or shorter, and otherwise
    as many whole seconds as that is, or the most that fit a word. -/
structure Lasts (duration : Duration) (amount : Nat) (unit : TimeUnit) : Prop where
  seconds_lt : duration.seconds < 2 ^ 64
  nanoseconds_lt : duration.nanoseconds < 10 ^ 9
  exact : ¬ unit.IsLong → duration.inNanoseconds = amount * unit.nanoseconds
  saturated : unit.IsLong → duration.nanoseconds = 0
    ∧ duration.seconds = min (amount * (unit.nanoseconds / 10 ^ 9)) (2 ^ 64 - 1)

/-- A long unit lasts whole seconds. -/
theorem lasts_longDuration {amount perUnit : Nat} {unit : TimeUnit} (hlong : unit.IsLong)
    (hperUnit : perUnit = unit.nanoseconds / 10 ^ 9) :
    (TimeUnit.longDuration amount perUnit).Lasts amount unit where
  seconds_lt := Nat.lt_of_le_of_lt (Nat.min_le_right _ _) (by decide)
  nanoseconds_lt := Nat.pow_pos (by decide)
  exact hshort := absurd hlong hshort
  saturated _ := ⟨rfl, by rw [← hperUnit]; rfl⟩

-- A second has a whole number of the units, so what is beyond the seconds is cut nowhere.
theorem lasts_shortDuration {amount perSecond : Nat} {unit : TimeUnit} (h : amount < 2 ^ 64)
    (hparts : perSecond * unit.nanoseconds = 10 ^ 9) :
    (TimeUnit.shortDuration amount perSecond).Lasts amount unit := by
  have hpos : 0 < perSecond := Nat.pos_of_mul_pos_right (hparts ▸ Nat.pow_pos (by decide))
  have hpart : 1000000000 / perSecond = unit.nanoseconds :=
    Nat.div_eq_of_eq_mul_right hpos hparts.symm
  have hshort : ¬ unit.IsLong := by
    rw [TimeUnit.IsLong, not_lt, ← hparts]
    exact Nat.le_mul_of_pos_left _ hpos
  refine ⟨Nat.lt_of_le_of_lt (Nat.div_le_self _ _) h, ?_, fun _ => ?_,
    fun hlong => absurd hlong hshort⟩
  · rw [TimeUnit.shortDuration, hpart, ← hparts]
    exact Nat.mul_lt_mul_of_pos_right (Nat.mod_lt _ hpos)
      (Nat.pos_of_mul_pos_left (hparts ▸ Nat.pow_pos (by decide)))
  · rw [inNanoseconds, TimeUnit.shortDuration, hpart, ← hparts, ← Nat.mul_assoc, ← Nat.add_mul,
      Nat.mul_comm _ perSecond, Nat.div_add_mod]

/-- A unit taken so many times lasts as long as that, if the number fits a word. -/
theorem lasts_duration {amount : Nat} (h : amount < 2 ^ 64) (unit : TimeUnit) :
    (unit.duration amount).Lasts amount unit := by
  cases unit with
  | day | hour | minute => exact lasts_longDuration (by decide) (by decide)
  | second =>
    have hwhole : TimeUnit.duration amount .second = TimeUnit.shortDuration amount 1 := by
      rw [TimeUnit.shortDuration, Nat.div_one, Nat.mod_one, Nat.zero_mul, TimeUnit.duration]
    rw [hwhole]
    exact lasts_shortDuration h (by decide)
  | millisecond | microsecond | nanosecond => exact lasts_shortDuration h (by decide)

/-- A text is read as a keep-alive exactly if it spells digits and the name of a unit, with blanks
    around them at most, and the number that the digits stand for fits a word, whatever zeros it
    begins with. What is read lasts so many of that unit. Every other text is refused, and the
    refusal names it. -/
theorem keep_alives_exact (text : String) :
    ((∃ duration, ofText text = .ok duration)
        ↔ ∃ digits unit, Spells text digits unit ∧ valueOf digits < 2 ^ 64)
      ∧ (∀ duration digits unit, ofText text = .ok duration → Spells text digits unit →
          duration.Lasts (valueOf digits) unit)
      ∧ (∀ error, ofText text = .error error → error.kind = .validation
          ∧ error.message = "Validation: failed to parse keep-alive [" ++ text ++ "]") := by
  refine ⟨⟨?_, ?_⟩, ?_, ?_⟩
  · rintro ⟨duration, hread⟩
    rcases ofText_eq_ok_iff.mp hread with ⟨digits, unit, hspells, hlt, _⟩
    exact ⟨digits, unit, hspells, hlt⟩
  · rintro ⟨digits, unit, hspells, hlt⟩
    exact ⟨_, ofText_eq_ok_iff.mpr ⟨digits, unit, hspells, hlt, rfl⟩⟩
  · intro duration digits unit hread hspells
    rcases ofText_eq_ok_iff.mp hread with ⟨others, other, hothers, hlt, rfl⟩
    -- The text spells one number and one unit.
    rcases spells_iff.mp hspells with ⟨_, hdigits, hname⟩
    rcases spells_iff.mp hothers with ⟨_, hdigits', hname'⟩
    have hunit : unit = other := TimeUnit.name_injective (hname.symm.trans hname')
    rw [hunit, ← hdigits, hdigits']
    exact lasts_duration hlt other
  · intro error hrefused
    rw [error_of_ofText hrefused]
    exact ⟨rfl, rfl⟩

/-- Milliseconds are not taken for minutes, and a blank in the middle is one too many. -/
theorem keep_alives_exact_milliseconds :
    (∃ duration, ofText "\u00a0007ms " = .ok duration ∧ duration.Lasts 7 .millisecond)
      ∧ ∃ error, ofText "7 ms" = .error error ∧ error.kind = .validation := by
  have hdigits : ∀ c ∈ ['0', '0', '7'], '0' ≤ c ∧ c ≤ '9' := by
    simp only [List.forall_mem_cons, List.not_mem_nil, false_implies, implies_true]
    decide
  have hspells : Spells "\u00a0007ms " ['0', '0', '7'] .millisecond :=
    ⟨by decide, hdigits, ['\u00a0'], [' '], by decide, List.forall_mem_singleton.mpr (by decide),
      List.forall_mem_singleton.mpr (by decide)⟩
  rcases keep_alives_exact "\u00a0007ms " with ⟨hiff, hlasts, _⟩
  rcases hiff.mpr ⟨_, _, hspells, by decide⟩ with ⟨duration, hread⟩
  have hvalue : valueOf ['0', '0', '7'] = 7 := by decide
  have hrefused : ofText "7 ms" = .error (.keepAlive "7 ms") := by
    rw [ofText, (by decide +kernel : ofChars? (Text.trim "7 ms").toList = none)]
  refine ⟨⟨duration, hread, ?_⟩, _, hrefused, ((keep_alives_exact "7 ms").2.2 _ hrefused).1⟩
  rw [← hvalue]
  exact hlasts duration _ _ hread hspells

/-- Too many days last as long as anything can. -/
example : (ofText "18446744073709551615d").toOption = some ⟨18446744073709551615, 0⟩ := by
  decide +kernel

end Duration

end DocSearch
