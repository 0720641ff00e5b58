import DocSearch.Proofs.Pattern.Globs
import DocSearch.Proofs.Relevance.Sums
import DocSearch.Proofs.Text.Case

/-!
# Widening a Glob

What a glob matches once a part of it has been replaced by a question mark or by an asterisk.

It should match at least what it matched before, since the part of a text that the old characters
stood for is one that the new character stands for. That fails in two places. An asterisk stands for
more than one character, so a question mark in its place is narrower. And neither of the two stands
for a line feed.

Line feeds can be counted. No other character folds to the line feed, so a text has just the line
feeds that a glob it fits has. A glob that has lost one no longer matches anything that it matched
before, and a glob that has lost none still matches all of it. Which of the two it is does not
depend on the text.

## Main definitions

* `Replacement`: A part of a glob, between what is before it and behind it, and what replaces it.
* `Replacement.Widens`: No asterisk is replaced by a question mark.

## Theorems

* `Text.fold_eq_line_feed_iff`: The line feed folds to itself, and nothing else does.
* `Piece.cover_append_iff`: Pieces behind other pieces.
* `Piece.Cover.count_line_feed`: A text has as many line feeds as a glob that it fits.
* `Query.exists_scorer_wildcard`: What a wildcard query finds.
* `narrower_globs_lose_texts`: Replacements that lose a text.
* `widened_glob_matches_iff`: When a replacement keeps the texts that the glob matched.
-/

namespace DocSearch

/-! ### Line feeds -/

namespace Text

/-- Folding the case makes no other character a line feed. -/
theorem fold_eq_line_feed_iff {c : Char} : fold c = fold '\n' ↔ c = '\n' :=
  fold_eq_fold_iff (by decide) (by decide)

end Text

namespace Piece

variable {foldCase : Bool} {c : Char} {part s : List Char} {pieces front behind : List Piece}

/-- A part that fits a character of a glob has the line feeds of that character: none for a
    wildcard, and itself for a line feed. -/
theorem Fits.count_line_feed (h : (ofGlobChar c).Fits foldCase part) :
    part.count '\n' = [c].count '\n' := by
  rw [fits_ofGlobChar, StandsFor] at h
  split_ifs at h with hrun hany
  · rw [List.count_eq_zero_of_not_mem h, hrun]
    decide
  · rcases h with ⟨x, hx, rfl⟩
    rw [hany, List.count_eq_zero_of_not_mem (by simpa using hx.symm)]
    decide
  · rcases h with ⟨x, hx, rfl⟩
    -- A character of the same case is the line feed if the one of the glob is.
    have hsame : x = '\n' ↔ c = '\n' := by
      rcases hx with rfl | ⟨-, hfold⟩
      · exact Iff.rfl
      · rw [← Text.fold_eq_line_feed_iff, hfold, Text.fold_eq_line_feed_iff]
    rw [List.count_singleton, List.count_singleton]
    simp only [beq_iff_eq, hsame]

-- Only an asterisk stands for other parts than single characters.
theorem Fits.exists_eq_singleton (hc : c ≠ '*') (h : (ofGlobChar c).Fits foldCase part) :
    ∃ x, part = [x] := by
  rw [fits_ofGlobChar, StandsFor, if_neg hc] at h
  split_ifs at h
  · rcases h with ⟨x, -, hpart⟩
    exact ⟨x, hpart⟩
  · rcases h with ⟨x, -, hpart⟩
    exact ⟨x, hpart⟩

/-- A text has as many line feeds as a glob that it fits. -/
theorem Cover.count_line_feed (chars : List Char) :
    ∀ s, Cover foldCase (chars.map ofGlobChar) s → s.count '\n' = chars.count '\n' := by
  induction chars with
  | nil =>
    rintro s rfl
    rfl
  | cons c chars ih =>
    rintro s ⟨part, rest, rfl, hpart, hrest⟩
    rw [List.count_append, hpart.count_line_feed, ih rest hrest, ← List.count_append,
      List.singleton_append]

/-! ### Pieces behind other pieces -/

/-- Pieces in a row cover what can be cut at the seam between them. -/
theorem cover_append_iff :
    ∀ s, Cover foldCase (front ++ behind) s
      ↔ ∃ first rest, s = first ++ rest ∧ Cover foldCase front first
        ∧ Cover foldCase behind rest := by
  induction front with
  | nil =>
    intro s
    constructor
    · intro h
      exact ⟨[], s, rfl, rfl, h⟩
    · rintro ⟨_, rest, rfl, rfl, h⟩
      exact h
  | cons piece front ih =>
    intro s
    constructor
    · rintro ⟨part, rest, rfl, hpart, hrest⟩
      -- The stretch of the first piece joins what the other front pieces cover.
      rcases (ih rest).mp hrest with ⟨first, last, rfl, hfirst, hlast⟩
      exact ⟨part ++ first, last, (List.append_assoc ..).symm, ⟨part, first, rfl, hpart, hfirst⟩,
        hlast⟩
    · rintro ⟨_, last, rfl, ⟨part, first, rfl, hpart, hfirst⟩, hlast⟩
      exact ⟨part, first ++ last, List.append_assoc .., hpart,
        (ih _).mpr ⟨first, last, rfl, hfirst, hlast⟩⟩

/-- In between, some pieces can be replaced by others that cover what these do. -/
theorem Cover.replace {replacing : List Piece}
    (hwider : ∀ part, Cover foldCase pieces part → Cover foldCase replacing part)
    (h : Cover foldCase (front ++ pieces ++ behind) s) :
    Cover foldCase (front ++ replacing ++ behind) s := by
  rw [cover_append_iff] at h ⊢
  rcases h with ⟨_, rest, rfl, hfirst, hrest⟩
  rcases (cover_append_iff _).mp hfirst with ⟨first, part, rfl, hfront, hpart⟩
  exact ⟨_, rest, rfl, (cover_append_iff _).mpr ⟨first, part, rfl, hfront, hwider part hpart⟩,
    hrest⟩

/-- The two wildcards by themselves: one character, or any number of them, without a line feed. -/
theorem cover_any_iff : Cover foldCase [.any] s ↔ ∃ x, s = [x] ∧ x ≠ '\n' := by
  simp [Cover, Fits]

theorem cover_run_iff_notMem : Cover foldCase [.run] s ↔ '\n' ∉ s := by
  simp [Cover, Fits]

theorem ofGlob_append (first second : String) :
    ofGlob (first ++ second) = ofGlob first ++ ofGlob second := by
  rw [ofGlob, String.toList_append, List.map_append]
  rfl

end Piece

/-! ### Replacing a part -/

/-- A part of a glob, between what is before it and behind it, that is to be replaced. -/
inductive Replacement where
  /-- One character, by a question mark. -/
  | character (front : String) (c : Char) (behind : String)
  /-- Some characters in a row, by an asterisk. -/
  | stretch (front part behind : String)

namespace Replacement

/-- The glob before the replacement. -/
def glob : Replacement → String
  | character front c behind => front ++ String.singleton c ++ behind
  | stretch front part behind => front ++ part ++ behind

/-- The glob behind it. -/
def wider : Replacement → String
  | character front _ behind => front ++ "?" ++ behind
  | stretch front _ behind => front ++ "*" ++ behind

/-- The characters that are replaced. -/
def replaced : Replacement → List Char
  | character _ c _ => [c]
  | stretch _ part _ => part.toList

/-- Whether what is put in stands for as much as what is taken out. It does not if a question mark
    is put in for an asterisk. -/
def Widens : Replacement → Prop
  | character _ c _ => c ≠ '*'
  | stretch .. => True

/-- A replacement takes out just the line feeds of what it replaces. -/
theorem count_glob (replacement : Replacement) :
    replacement.glob.toList.count '\n'
      = replacement.wider.toList.count '\n' + replacement.replaced.count '\n' := by
  have hany : "?".toList.count '\n' = 0 := by decide
  have hrun : "*".toList.count '\n' = 0 := by decide
  cases replacement with
  | character front c behind =>
    simp only [glob, wider, replaced, String.toList_append, String.toList_singleton,
      List.count_append]
    omega
  | stretch front part behind =>
    simp only [glob, wider, replaced, String.toList_append, List.count_append]
    omega

/-- A text that fits the glob before a replacement fits the one behind it, unless a line feed is
    taken out. -/
theorem cover_wider {replacement : Replacement} (h : replacement.Widens)
    (hreplaced : '\n' ∉ replacement.replaced) {foldCase : Bool} {s : List Char}
    (hs : Piece.Cover foldCase (Piece.ofGlob replacement.glob) s) :
    Piece.Cover foldCase (Piece.ofGlob replacement.wider) s := by
  -- What the replaced characters cover has no line feed either.
  have hcount (part : List Char)
      (hpart : Piece.Cover foldCase (replacement.replaced.map Piece.ofGlobChar) part) :
      '\n' ∉ part := by
    rw [← List.count_eq_zero, Piece.Cover.count_line_feed _ _ hpart, List.count_eq_zero]
    exact hreplaced
  -- A character is widened to one character, so the part is a single one. A stretch is widened to a
  -- run, which takes a part of any length.
  cases replacement with
  | character front c behind =>
    have hsingle : Piece.ofGlob (String.singleton c) = [c].map Piece.ofGlobChar := by
      rw [Piece.ofGlob, String.toList_singleton]
    rw [glob, Piece.ofGlob_append, Piece.ofGlob_append, hsingle] at hs
    rw [wider, Piece.ofGlob_append, Piece.ofGlob_append]
    refine hs.replace fun part hpart => Piece.cover_any_iff.mpr ?_
    have hlineFeed := hcount part hpart
    rcases hpart with ⟨_, _, rfl, hfits, rfl⟩
    rcases hfits.exists_eq_singleton h with ⟨x, rfl⟩
    exact ⟨x, rfl, by simpa [eq_comm] using hlineFeed⟩
  | stretch front part behind =>
    rw [glob, Piece.ofGlob_append, Piece.ofGlob_append] at hs
    rw [wider, Piece.ofGlob_append, Piece.ofGlob_append]
    exact hs.replace fun part hpart => Piece.cover_run_iff_notMem.mpr (hcount part hpart)

end Replacement

/-- A glob accepts the texts that its pieces cover. -/
theorem Pattern.accepts_glob_iff_cover {foldCase : Bool} {glob text : String} :
    (Pattern.glob glob foldCase).accepts text = true
      ↔ Piece.Cover foldCase (Piece.ofGlob glob) text.toList :=
  accepts_glob_iff.trans Piece.cover_ofGlob.symm

/-- A wildcard query compiles to a scorer that scores the documents with a string in the field that
    the glob matches, whatever its case. -/
theorem Query.exists_scorer_wildcard (schema : Schema) (field glob : String) :
    ∃ scorer, compile schema (.wildcard field glob) = .ok scorer
      ∧ ∀ document, 0.0 < scorer.score document
        ↔ ∃ text, .str text ∈ schema.resolve document field
          ∧ (Pattern.glob glob true).accepts text = true := by
  refine ⟨_, rfl, fun document => ?_⟩
  rw [Scorer.score, Scorer.scoreWildcard, Scorer.zero_lt_ofCount_iff,
    List.length_pos_iff_exists_mem]
  simp only [List.mem_filter, List.mem_filterMap, Json.asText?_eq_some_iff, exists_eq_right]
  rfl

/-- A question mark loses texts in place of an asterisk, and both lose texts in place of a line
    feed. -/
theorem narrower_globs_lose_texts :
    ((Pattern.glob (Replacement.character "" '*' "").glob true).accepts "ab" = true
        ∧ (Pattern.glob (Replacement.character "" '*' "").wider true).accepts "ab" = false)
      ∧ ((Pattern.glob (Replacement.character "a" '\n' "b").glob true).accepts "a\nb" = true
        ∧ (Pattern.glob (Replacement.character "a" '\n' "b").wider true).accepts "a\nb" = false)
      ∧ (Pattern.glob "*" true).accepts "a\nb" = false := by
  decide

/-- If a glob matches a text and a question mark replaces one of its characters other than an
    asterisk, or an asterisk any of them in a row, then the new glob matches the text exactly if no
    line feed is replaced. An asterisk alone matches the texts without a line feed. So a wildcard
    query finds what it found before, as long as no line feed is replaced in its glob. -/
theorem widened_glob_matches_iff {replacement : Replacement} (h : replacement.Widens) :
    (∀ foldCase text, (Pattern.glob replacement.glob foldCase).accepts text = true →
        ((Pattern.glob replacement.wider foldCase).accepts text = true
          ↔ '\n' ∉ replacement.replaced))
      ∧ (∀ foldCase text, (Pattern.glob "*" foldCase).accepts text = true ↔ '\n' ∉ text.toList)
      ∧ ∀ schema field, ∃ scorer wider,
        Query.compile schema (.wildcard field replacement.glob) = .ok scorer
          ∧ Query.compile schema (.wildcard field replacement.wider) = .ok wider
          ∧ ('\n' ∉ replacement.replaced → ∀ document,
            0.0 < scorer.score document → 0.0 < wider.score document) := by
  -- What the glob accepts is still accepted, if no line feed was replaced.
  have hkeeps (hreplaced : '\n' ∉ replacement.replaced) (foldCase : Bool) (text : String)
      (htext : (Pattern.glob replacement.glob foldCase).accepts text = true) :
      (Pattern.glob replacement.wider foldCase).accepts text = true := by
    rw [Pattern.accepts_glob_iff_cover] at htext ⊢
    exact Replacement.cover_wider h hreplaced htext
  refine ⟨fun foldCase text htext => ⟨fun hwider => ?_, fun hreplaced => ?_⟩,
    fun foldCase text => ?_, fun schema field => ?_⟩
  · -- The text has the line feeds of both globs, so none was replaced.
    have hglob := Piece.Cover.count_line_feed _ _ (Pattern.accepts_glob_iff_cover.mp htext)
    rw [Piece.Cover.count_line_feed _ _ (Pattern.accepts_glob_iff_cover.mp hwider),
      replacement.count_glob] at hglob
    exact List.count_eq_zero.mp (by omega)
  · exact hkeeps hreplaced foldCase text htext
  · exact Pattern.accepts_glob_iff_cover.trans Piece.cover_run_iff_notMem
  · rcases Query.exists_scorer_wildcard schema field replacement.glob with
      ⟨scorer, hscorer, hscore⟩
    rcases Query.exists_scorer_wildcard schema field replacement.wider with ⟨wider, hwider, hfinds⟩
    refine ⟨scorer, wider, hscorer, hwider, fun hreplaced document hpos => ?_⟩
    rcases (hscore document).mp hpos with ⟨text, hmem, htext⟩
    exact (hfinds document).mpr ⟨text, hmem, hkeeps hreplaced true text htext⟩

/-- An asterisk for the end of a title keeps it. -/
theorem widened_glob_matches_iff_dune :
    (Replacement.stretch "du" "ne mess?ah" "").Widens
      ∧ (Pattern.glob "dune mess?ah" true).accepts "Dune Messiah" = true
      ∧ (Pattern.glob "du*" true).accepts "Dune Messiah" = true := by
  have hwidens : (Replacement.stretch "du" "ne mess?ah" "").Widens := trivial
  have hglob : (Pattern.glob "dune mess?ah" true).accepts "Dune Messiah" = true := by decide
  exact ⟨hwidens, hglob, ((widened_glob_matches_iff hwidens).1 true "Dune Messiah" hglob).mpr
    (by decide)⟩

end DocSearch
