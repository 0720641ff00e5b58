import DocSearch.Proofs.Pattern.Preference
import DocSearch.Proofs.Text.Case
import DocSearch.Text.Split
import Mathlib.Data.List.Find

/-!
# Patterns of Words

What a pattern of several words takes where more than one of them begins.

It takes the first. This is not the longest one, and so the order of the words decides how far a
match goes: with `dun` before `dune` no match ever covers all of `dune`. Nor is it certain that the
rest is lost, because the scan goes on behind the match and may take another word there. All of a
text is matched exactly if the words that are taken in this way use it up.

What follows a blank does not come into it. A pattern whose words have no blanks looks at a text up
to the next blank and no further, since no other character folds to the blank. So the words of a
text are scanned one by one, as if they stood alone.

## Main definitions

* `firstBeginning?`: The first of some words that a text begins with.
* `UsedUp`: The words that are taken one after the other come to the whole text.
* `Text.before`, `Text.behind`: What stands before a piece of a text, and behind it.

## Theorems

* `choices_literals`: Characters that stand for themselves match in one way or not at all.
* `preferred?_words`: A pattern of words prefers the first word.
* `all_isHit_scan_words_iff`: When matches cover a text.
* `scan_words_append_blank`: A scan is cut at every blank.
* `scan_words_piece`: What stands between two blanks is scanned as if it stood alone.
-/

namespace DocSearch

/-- The first of some words that a text begins with, in any case. -/
def firstBeginning? (words : List String) (s : List Char) : Option String :=
  words.find? fun word => (word.toList.map Text.fold).isPrefixOf (s.map Text.fold)

/-- A text is used up by words if the first of them that it begins with leaves a rest that is used
    up in the same way. -/
inductive UsedUp (words : List String) : List Char → Prop
  | done : UsedUp words []
  | take {s : List Char} {word : String} (first : firstBeginning? words s = some word)
      (rest : UsedUp words (s.drop word.toList.length)) : UsedUp words s

/-! ### The first word -/

/-- A word taken as literals can take itself, in any case, at the beginning of a text. -/
theorem Piece.choices_literals (word : List Char) (s : List Char) :
    Piece.choices true (word.map .literal) s
      = if (word.map Text.fold).isPrefixOf (s.map Text.fold) then [word.length] else [] := by
  induction word generalizing s with
  | nil => rfl
  | cons c word ih =>
    cases s with
    | nil =>
      rw [List.map_cons, Piece.choices_nil_of_ne_run (by simp)]
      rfl
    | cons x s =>
      rw [List.map_cons, Piece.choices_literal_cons, ih, Pattern.sameChar, if_pos rfl,
        List.map_cons, List.map_cons, List.isPrefixOf_cons_cons, List.length_cons]
      -- The first characters decide, and then the others do.
      by_cases hx : Text.fold c = Text.fold x
      · rw [hx, beq_self_eq_true, Bool.true_and, if_pos rfl]
        split
        · rw [List.map_singleton, Nat.add_comm]
        · rfl
      · rw [beq_false_of_ne hx, Bool.false_and]
        rfl

/-- A pattern of words prefers the first word that the text begins with. -/
theorem Pattern.preferred?_words (words : List String) (s : List Char) :
    (Pattern.words words).preferred? s
      = (firstBeginning? words s).map fun word => word.toList.length := by
  rw [preferred?, choices, Pattern.words, firstBeginning?, List.flatMap_map]
  induction words with
  | nil => rfl
  | cons word words ih =>
    rw [List.flatMap_cons, List.head?_append, ih, Piece.choices_literals, List.find?_cons]
    by_cases hword : (word.toList.map Text.fold).isPrefixOf (s.map Text.fold) = true
    · rw [if_pos hword, hword]
      rfl
    · rw [if_neg hword, Bool.eq_false_iff.mpr hword]
      rfl

variable {words : List String} {word : String} {s : List Char} {c : Char}

/-- The word that is found is one of the words. -/
theorem firstBeginning?_mem (h : firstBeginning? words s = some word) : word ∈ words :=
  List.mem_of_find?_eq_some h

/-! ### Using up a text -/

/-- It has letters, as all of them have. -/
theorem length_pos_of_firstBeginning? (hwords : ∀ word ∈ words, word ≠ "")
    (h : firstBeginning? words s = some word) : 0 < word.toList.length := by
  have hne := hwords word (firstBeginning?_mem h)
  rw [String.length_toList]
  exact Nat.pos_of_ne_zero fun hzero => hne (String.length_eq_zero_iff.mp hzero)

/-- A text that is used up is empty or begins with a word. -/
theorem usedUp_cons_iff :
    UsedUp words (c :: s) ↔ ∃ word, firstBeginning? words (c :: s) = some word
      ∧ UsedUp words ((c :: s).drop word.toList.length) := by
  constructor
  · intro h
    cases h with
    | take first rest => exact ⟨_, first, rest⟩
  · rintro ⟨word, hfirst, hrest⟩
    exact .take hfirst hrest

/-- Matches cover a text exactly if the words use it up. By strong induction on its length, since
    a scan goes on behind the word that it has taken. -/
theorem all_isHit_scan_words_iff (hwords : ∀ word ∈ words, word ≠ "") (s : List Char) :
    ((Pattern.words words).scan s).all Pattern.Part.isHit = true ↔ UsedUp words s := by
  induction hlength : s.length using Nat.strongRecOn generalizing s with
  | ind length ih =>
    cases s with
    | nil =>
      rw [Pattern.scan_nil]
      exact ⟨fun _ => .done, fun _ => rfl⟩
    | cons c s =>
      rw [usedUp_cons_iff]
      cases hfirst : firstBeginning? words (c :: s) with
      | none =>
        have hnone : ((Pattern.words words).preferred? (c :: s)).getD 0 = 0 := by
          rw [Pattern.preferred?_words, hfirst]
          rfl
        rw [Pattern.scan_cons_of_zero hnone]
        simp [Pattern.Part.isHit]
      | some word =>
        have hpos := length_pos_of_firstBeginning? hwords hfirst
        rcases Nat.exists_eq_add_of_lt hpos with ⟨n, hn⟩
        have hsome : (Pattern.words words).preferred? (c :: s) = some (n + 1) := by
          rw [Pattern.preferred?_words, hfirst, Option.map_some, hn, Nat.zero_add]
        -- A hit takes the whole word, so what is left is what is left behind the word.
        have hrest : (c :: s).drop word.toList.length = s.drop n := by
          rw [hn, Nat.zero_add, List.drop_succ_cons]
        have hshorter : (s.drop n).length < length := by
          rw [List.length_cons] at hlength
          rw [List.length_drop]
          omega
        rw [Pattern.scan_cons_of_succ hsome, List.all_cons, Pattern.Part.isHit, Bool.true_and,
          ih _ hshorter _ rfl]
        constructor
        · intro h
          exact ⟨word, rfl, hrest ▸ h⟩
        · rintro ⟨other, hother, h⟩
          rw [← Option.some.inj hother, hrest] at h
          exact h

/-! ### Blanks -/

/-- A beginning of a text that does not hold a character ends before it. -/
theorem isPrefixOf_append_cons_of_notMem {α : Type} [BEq α] [LawfulBEq α] {x : α}
    {beginning : List α} (h : x ∉ beginning) (front back : List α) :
    beginning.isPrefixOf (front ++ x :: back) = beginning.isPrefixOf front := by
  induction beginning generalizing front with
  | nil => rw [List.isPrefixOf_nil_left, List.isPrefixOf_nil_left]
  | cons y beginning ih =>
    rw [List.mem_cons, not_or] at h
    cases front with
    | nil =>
      rw [List.nil_append, List.isPrefixOf_cons_cons, beq_false_of_ne (Ne.symm h.1), Bool.false_and]
      rfl
    | cons z front =>
      rw [List.cons_append, List.isPrefixOf_cons_cons, List.isPrefixOf_cons_cons, ih h.2]

/-- Words without blanks look at a text up to the next blank. -/
theorem firstBeginning?_append_blank (hwords : ∀ word ∈ words, ' ' ∉ word.toList)
    (front back : List Char) :
    firstBeginning? words (front ++ ' ' :: back) = firstBeginning? words front := by
  refine List.find?_congr fun word hword => ?_
  rw [List.map_append, List.map_cons]
  refine isPrefixOf_append_cons_of_notMem (fun hmem => ?_) _ _
  rcases List.mem_map.mp hmem with ⟨x, hx, hfold⟩
  rw [Text.fold_eq_fold_iff (by decide) (by decide)] at hfold
  exact hwords word hword (hfold ▸ hx)

/-- Where no match depends on a character and what is behind it, a scan is cut there. -/
theorem Pattern.scan_append_cons {pattern : Pattern} {back : List Char}
    (h : ∀ front, pattern.preferred? (front ++ c :: back) = pattern.preferred? front)
    (front : List Char) :
    pattern.scan (front ++ c :: back) = pattern.scan front ++ .gap c :: pattern.scan back := by
  induction hlength : front.length using Nat.strongRecOn generalizing front with
  | ind length ih =>
    cases front with
    | nil =>
      -- At the end of the front nothing matches but the empty text.
      have hzero : (pattern.preferred? (c :: back)).getD 0 = 0 := by
        have hnil := h []
        rw [List.nil_append] at hnil
        rw [hnil]
        cases hpreferred : pattern.preferred? [] with
        | none => rfl
        | some n => exact Nat.le_zero.mp (le_length_of_preferred? hpreferred)
      rw [List.nil_append, scan_cons_of_zero hzero, scan_nil, List.nil_append]
    | cons x front =>
      rw [List.length_cons] at hlength
      have hhere := h (x :: front)
      rw [List.cons_append] at hhere ⊢
      -- A match that begins in the front also ends there, so the front is scanned as it is by
      -- itself.
      cases hlong : (pattern.preferred? (x :: front)).getD 0 with
      | zero =>
        rw [scan_cons_of_zero (hhere ▸ hlong), scan_cons_of_zero hlong,
          ih front.length (by omega) front rfl, List.cons_append]
      | succ n =>
        have hsome := preferred?_of_getD_succ hlong
        have hn : n ≤ front.length := by
          have hle := le_length_of_preferred? hsome
          rw [List.length_cons] at hle
          omega
        have hshorter : (front.drop n).length < length := by
          rw [List.length_drop]
          omega
        rw [scan_cons_of_succ (hhere.trans hsome), scan_cons_of_succ hsome,
          List.take_append_of_le_length hn, List.drop_append_of_le_length hn,
          ih _ hshorter _ rfl, List.cons_append]

/-- A scan for words is cut at every blank. -/
theorem scan_words_append_blank (hwords : ∀ word ∈ words, ' ' ∉ word.toList)
    (front back : List Char) :
    (Pattern.words words).scan (front ++ ' ' :: back)
      = (Pattern.words words).scan front ++ .gap ' ' :: (Pattern.words words).scan back := by
  refine Pattern.scan_append_cons (fun front => ?_) front
  rw [Pattern.preferred?_words, Pattern.preferred?_words, firstBeginning?_append_blank hwords]

/-! ### Pieces -/

namespace Text

/-- What stands before a piece of a text, up to the separator. -/
def before (separator : Char) (s : List Char) (place : Nat) : List Char :=
  ((pieces separator s).take place).flatMap (· ++ [separator])

/-- What stands behind a piece of a text, from the separator on. -/
def behind (separator : Char) (s : List Char) (place : Nat) : List Char :=
  ((pieces separator s).drop (place + 1)).flatMap (separator :: ·)

/-- Every piece but the first one has the separator before it. -/
theorem join_cons (separator : Char) (piece : List Char) (back : List (List Char)) :
    join separator (piece :: back) = piece ++ back.flatMap (separator :: ·) := by
  induction back generalizing piece with
  | nil => rw [join, List.flatMap_nil, List.append_nil]
  | cons next back ih =>
    rw [join, ih, List.flatMap_cons, List.cons_append]
    exact List.cons_ne_nil next back

/-- Around a piece, those before it have the separator behind them and the others before them. -/
theorem join_append_cons (separator : Char) (front : List (List Char)) (piece : List Char)
    (back : List (List Char)) :
    join separator (front ++ piece :: back)
      = front.flatMap (· ++ [separator]) ++ (piece ++ back.flatMap (separator :: ·)) := by
  induction front with
  | nil => rw [List.nil_append, List.flatMap_nil, List.nil_append, join_cons]
  | cons first front ih =>
    rw [List.cons_append, join, ih, List.flatMap_cons, List.append_assoc, List.append_assoc,
      List.singleton_append]
    simp

/-- A text is a piece of it with what stands before it and behind it. -/
theorem before_append_piece {separator : Char} {piece : List Char} {place : Nat}
    (h : (pieces separator s)[place]? = some piece) :
    before separator s place ++ (piece ++ behind separator s place) = s := by
  rcases List.getElem?_eq_some_iff.mp h with ⟨hlt, rfl⟩
  rw [before, behind, ← join_append_cons, List.getElem_cons_drop, List.take_append_drop,
    join_pieces]

end Text

-- No word has a blank in it, so each blank ends a scan of its own. The two lemmas go through the
-- pieces from the front and from the back.
theorem scan_words_before (hwords : ∀ word ∈ words, ' ' ∉ word.toList)
    (front : List (List Char)) (rest : List Char) :
    (Pattern.words words).scan (front.flatMap (· ++ [' ']) ++ rest)
      = front.flatMap (fun piece => (Pattern.words words).scan piece ++ [.gap ' '])
        ++ (Pattern.words words).scan rest := by
  induction front with
  | nil => rfl
  | cons piece front ih =>
    rw [List.flatMap_cons, List.append_assoc, List.append_assoc, List.singleton_append,
      scan_words_append_blank hwords, ih, List.flatMap_cons]
    simp

theorem scan_words_behind (hwords : ∀ word ∈ words, ' ' ∉ word.toList) (piece : List Char)
    (back : List (List Char)) :
    (Pattern.words words).scan (piece ++ back.flatMap (' ' :: ·))
      = (Pattern.words words).scan piece
        ++ back.flatMap (fun next => .gap ' ' :: (Pattern.words words).scan next) := by
  induction back generalizing piece with
  | nil => rw [List.flatMap_nil, List.append_nil, List.flatMap_nil, List.append_nil]
  | cons next back ih =>
    rw [List.flatMap_cons, List.cons_append, scan_words_append_blank hwords, ih, List.flatMap_cons,
      List.cons_append]

/-- What stands between two blanks is scanned as if it stood alone. -/
theorem scan_words_piece (hwords : ∀ word ∈ words, ' ' ∉ word.toList) {piece : List Char}
    {place : Nat} (h : (Text.pieces ' ' s)[place]? = some piece) :
    ∃ front back, (Pattern.words words).scan s
        = front ++ ((Pattern.words words).scan piece ++ back)
      ∧ front.flatMap Pattern.Part.text = Text.before ' ' s place := by
  have hscan := scan_words_before hwords ((Text.pieces ' ' s).take place)
    (piece ++ Text.behind ' ' s place)
  rw [← Text.before, Text.before_append_piece h, Text.behind, scan_words_behind hwords] at hscan
  refine ⟨_, _, hscan, ?_⟩
  rw [Text.before, List.flatMap_assoc]
  refine List.flatMap_congr fun part _ => ?_
  rw [List.flatMap_append, Pattern.scan_text]
  rfl

end DocSearch
