import DocSearch.Hit.Highlight
import DocSearch.Hit.SourceFilter
import DocSearch.Proofs.Pattern.Expression
import Mathlib.Data.List.Forall2

/-!
# What Globs Stand For

A glob says what a text is made of, character by character. So a text fits a glob if it can be cut
into as many parts as the glob has characters, and each part is one that its character stands for.
There may be many ways to cut a text and none of them is preferred, since only the whole text
counts.

Globs are used in two forms, as a regular expression with anchors around it and as pieces that are
matched place by place. Both are compared with the same middle ground: the pieces of the glob cover
the text. For the regular expression that is what it means to be one expression behind the other.
The rows of the matching hold, for each tail of the pieces, whether that tail covers the rest of the
text, and they keep doing so from one place to the one before it.

## Main definitions

* `StandsFor`, `CutsInto`: What a glob says about a text.
* `Piece.Fits`, `Piece.Cover`: The same for pieces.
* `Pattern.Tells`: What a row says about the rest of a text.

## Theorems

* `matches_inRow`: The regular expressions of some pieces match what the pieces cover.
* `Tells.step`: A row tells about one character more.
* `accepts_glob_iff`: Matching accepts what the pieces of the glob cover.
* `glob_matches_iff_cutsInto`: Both forms of a glob match just the texts that can be cut into it.
-/

namespace DocSearch

/-! ### Cutting a text -/

/-- Whether a character of a glob stands for a part of a text. -/
def StandsFor (foldCase : Bool) (c : Char) (part : List Char) : Prop :=
  if c = '*' then '\n' ∉ part
  else if c = '?' then ∃ x, x ≠ '\n' ∧ part = [x]
  else ∃ x, (x = c ∨ foldCase = true ∧ Text.fold x = Text.fold c) ∧ part = [x]

/-- Whether a text can be cut into one part for each character of a glob. -/
def CutsInto (foldCase : Bool) (glob text : String) : Prop :=
  ∃ parts, List.Forall₂ (StandsFor foldCase) glob.toList parts ∧ parts.flatten = text.toList

namespace Piece

variable {foldCase : Bool} {c x : Char} {pieces : List Piece} {s : List Char}

/-- Whether a part of a text fits a piece. -/
def Fits (foldCase : Bool) : Piece → List Char → Prop
  | .literal c, part => ∃ x, part = [x] ∧ Pattern.sameChar foldCase c x = true
  | .any, part => ∃ x, part = [x] ∧ x ≠ '\n'
  | .run, part => '\n' ∉ part

/-- Whether pieces fit the parts of a text, from its beginning to its end. -/
def Cover (foldCase : Bool) : List Piece → List Char → Prop
  | [], s => s = []
  | piece :: rest, s =>
    ∃ part behind, s = part ++ behind ∧ piece.Fits foldCase part ∧ Cover foldCase rest behind

/-- Nothing is covered by runs alone. -/
theorem cover_nil_iff {piece : Piece} :
    Cover foldCase (piece :: pieces) [] ↔ piece = .run ∧ Cover foldCase pieces [] := by
  constructor
  · rintro ⟨part, behind, hs, hpart, hbehind⟩
    rcases List.nil_eq_append_iff.mp hs with ⟨rfl, rfl⟩
    -- Only a run takes nothing; the other pieces take exactly one character.
    cases piece with
    | literal c =>
      rcases hpart with ⟨x, hx, -⟩
      cases hx
    | any =>
      rcases hpart with ⟨x, hx, -⟩
      cases hx
    | run => exact ⟨rfl, hbehind⟩
  · rintro ⟨rfl, h⟩
    exact ⟨[], [], rfl, List.not_mem_nil, h⟩

/-- Pieces that take one character cover it and what the rest of them covers. -/
theorem cover_single_iff {piece : Piece} {takes : Char → Prop}
    (hfits : ∀ part, piece.Fits foldCase part ↔ ∃ x, part = [x] ∧ takes x) :
    Cover foldCase (piece :: pieces) (x :: s) ↔ takes x ∧ Cover foldCase pieces s := by
  constructor
  · rintro ⟨part, behind, hs, hpart, hbehind⟩
    rcases (hfits part).mp hpart with ⟨y, rfl, hy⟩
    rcases List.cons.inj hs with ⟨rfl, rfl⟩
    exact ⟨hy, hbehind⟩
  · rintro ⟨hx, h⟩
    exact ⟨[x], s, rfl, (hfits [x]).mpr ⟨x, rfl, hx⟩, h⟩

/-- A run takes the character and goes on, or it ends before it. -/
theorem cover_run_iff :
    Cover foldCase (.run :: pieces) (x :: s)
      ↔ x ≠ '\n' ∧ Cover foldCase (.run :: pieces) s
        ∨ Cover foldCase pieces (x :: s) := by
  constructor
  · rintro ⟨part, behind, hs, hpart, hbehind⟩
    cases part with
    | nil => exact .inr (hs ▸ hbehind)
    | cons y part =>
      rcases List.cons.inj hs with ⟨rfl, rfl⟩
      have hx : x ≠ '\n' := (List.ne_of_not_mem_cons hpart).symm
      exact .inl ⟨hx, part, behind, rfl, List.not_mem_of_not_mem_cons hpart, hbehind⟩
  · rintro (⟨hx, part, behind, rfl, hpart, hbehind⟩ | h)
    · exact ⟨x :: part, behind, rfl, List.not_mem_cons_of_ne_of_not_mem hx.symm hpart, hbehind⟩
    · exact ⟨[], x :: s, rfl, List.not_mem_nil, h⟩

/-- Two characters are the same to a pattern if they are the same, or in one case if case is folded.
    -/
theorem sameChar_iff :
    Pattern.sameChar foldCase c x = true
      ↔ x = c ∨ foldCase = true ∧ Text.fold x = Text.fold c := by
  cases foldCase with
  | false =>
    rw [Pattern.sameChar, if_neg Bool.false_ne_true, beq_iff_eq, eq_comm]
    simp
  | true =>
    have hcase : x = c → Text.fold x = Text.fold c := fun h => h ▸ rfl
    rw [Pattern.sameChar, if_pos rfl, beq_iff_eq, eq_comm]
    simpa using hcase

/-- A character of a glob stands for the parts that its piece fits. -/
theorem fits_ofGlobChar {part : List Char} :
    (ofGlobChar c).Fits foldCase part ↔ StandsFor foldCase c part := by
  rw [ofGlobChar, StandsFor]
  by_cases hrun : c = '*'
  · rw [if_pos hrun, if_pos hrun, Fits]
  · rw [if_neg hrun, if_neg hrun]
    by_cases hany : c = '?'
    · rw [if_pos hany, if_pos hany]
      exact exists_congr fun x => and_comm
    · rw [if_neg hany, if_neg hany]
      exact exists_congr fun x => and_comm.trans (and_congr_left' sameChar_iff)

/-- The pieces of a glob cover the texts that can be cut into its characters. -/
theorem cover_map_ofGlobChar (chars : List Char) :
    ∀ s, Cover foldCase (chars.map ofGlobChar) s
      ↔ ∃ parts, List.Forall₂ (StandsFor foldCase) chars parts ∧ parts.flatten = s := by
  -- Each character of the glob becomes one piece, so the parts are found one by one.
  induction chars with
  | nil =>
    intro s
    simp only [List.map_nil, Cover, List.forall₂_nil_left_iff, exists_eq_left, List.flatten_nil,
      eq_comm]
  | cons c chars ih =>
    intro s
    constructor
    · rintro ⟨part, behind, rfl, hpart, hbehind⟩
      rcases (ih behind).mp hbehind with ⟨parts, hparts, rfl⟩
      exact ⟨part :: parts, .cons (fits_ofGlobChar.mp hpart) hparts, rfl⟩
    · rintro ⟨_, hall, rfl⟩
      rcases List.forall₂_cons_left_iff.mp hall with ⟨part, parts, hpart, hparts, rfl⟩
      exact ⟨part, parts.flatten, rfl, fits_ofGlobChar.mpr hpart, (ih _).mpr ⟨parts, hparts, rfl⟩⟩

/-- So the pieces of a glob cover the texts that can be cut into parts for its characters. -/
theorem cover_ofGlob {glob text : String} :
    Cover foldCase (ofGlob glob) text.toList ↔ CutsInto foldCase glob text :=
  cover_map_ofGlobChar glob.toList text.toList

/-- Characters that stand for themselves cover only their own text. -/
theorem cover_literals (chars : List Char) :
    ∀ s, Cover false (chars.map literal) s ↔ s = chars := by
  induction chars with
  | nil => exact fun s => Iff.rfl
  | cons c chars ih =>
    intro s
    constructor
    · rintro ⟨part, behind, rfl, ⟨x, rfl, hx⟩, hbehind⟩
      rcases sameChar_iff.mp hx with rfl | ⟨hfold, -⟩
      · rw [(ih behind).mp hbehind, List.singleton_append]
      · cases hfold
    · rintro rfl
      exact ⟨[c], chars, rfl, ⟨c, rfl, sameChar_iff.mpr (.inl rfl)⟩, (ih chars).mpr rfl⟩

/-- A glob without wildcards is a row of literals. -/
theorem ofGlob_of_not_isGlob {glob : String} (h : isGlob glob = false) :
    ofGlob glob = glob.toList.map literal := by
  refine List.map_congr_left fun c hc => ?_
  have hplain := List.any_eq_false.mp h c hc
  simp only [Bool.or_eq_true, decide_eq_true_eq, not_or] at hplain
  rw [ofGlobChar, if_neg hplain.1, if_neg hplain.2]

end Piece

/-! ### As a regular expression -/

namespace Expression

variable {foldCase : Bool} {before after part : List Char}

/-- Any character, as often as it takes: every part without a line feed. -/
theorem repeated_any_iff :
    Repeated (fun before part after => any.Matches foldCase before part after) before part after
      ↔ '\n' ∉ part := by
  constructor
  · intro h
    -- Each step takes one character, and not a line feed.
    induction h with
    | none => exact List.not_mem_nil
    | more hfirst _ ih =>
      rcases hfirst with ⟨x, rfl, hx⟩
      exact List.not_mem_cons_of_ne_of_not_mem hx.symm ih
  · intro h
    induction part generalizing before with
    | nil => exact .none before after
    | cons x part ih =>
      have hx : x ≠ '\n' := (List.ne_of_not_mem_cons h).symm
      exact .more ⟨x, rfl, hx⟩ (ih (List.not_mem_of_not_mem_cons h))

/-- The expression of a piece matches what the piece fits, wherever that stands. -/
theorem matches_expression (piece : Piece) :
    piece.expression.Matches foldCase before part after ↔ piece.Fits foldCase part := by
  cases piece with
  | literal c => exact Iff.rfl
  | any => exact Iff.rfl
  | run => exact repeated_any_iff

/-- The regular expressions of some pieces match what the pieces cover, wherever that stands. -/
theorem matches_inRow (pieces : List Piece) :
    ∀ before part after,
      (inRow (pieces.map Piece.expression).reverse).Matches foldCase before part after
        ↔ Piece.Cover foldCase pieces part := by
  rw [inRow, List.reverse_reverse]
  induction pieces with
  | nil => exact fun _ _ _ => Iff.rfl
  | cons piece pieces ih =>
    intro before part after
    exact exists₂_congr fun front back =>
      and_congr_right' (and_congr (matches_expression piece) (ih _ _ _))

/-- Between the anchors there is the whole text. -/
theorem foundIn_anchored_iff {inner : Expression} {text : String} :
    (followed .start (.followed inner (.followed .finish .blank))).FoundIn foldCase text
      ↔ inner.Matches foldCase [] text.toList [] := by
  constructor
  · rintro ⟨_, _, after, htext, _, _, rfl, ⟨rfl, rfl⟩, front, _, rfl, hinner, _, _, rfl,
      ⟨rfl, hend⟩, rfl⟩
    have hlast : after = [] := hend
    subst hlast
    rw [htext]
    simpa using hinner
  · intro h
    exact ⟨[], text.toList, [], by simp, [], text.toList, rfl, ⟨rfl, rfl⟩, text.toList, [], by simp,
      h, [], [], rfl, ⟨rfl, rfl⟩, rfl⟩

end Expression

/-! ### As pieces -/

namespace Pattern

variable {foldCase : Bool} {x : Char} {pieces : List Piece} {s : List Char}

/-- A row says of each tail of some pieces whether it covers the rest of a text. -/
def Tells (foldCase : Bool) (s : List Char) : List Piece → Row → Prop
  | [], row => (row.whole.isSome ↔ Piece.Cover foldCase [] s)
  | piece :: rest, row =>
    (row.whole.isSome ↔ Piece.Cover foldCase (piece :: rest) s) ∧ Tells foldCase s rest row.tail

/-- The first entry of a row is about all of its pieces. -/
theorem Tells.whole {row : Row} (h : Tells foldCase s pieces row) :
    row.whole.isSome ↔ Piece.Cover foldCase pieces s := by
  cases pieces with
  | nil => exact h
  | cons piece pieces => exact h.1

/-- At the end of a text only runs are left to cover nothing. -/
theorem tells_endRow (pieces : List Piece) : Tells foldCase [] pieces (endRow pieces) := by
  induction pieces with
  | nil => simp [Tells, endRow, Row.whole, Piece.Cover]
  | cons piece pieces ih =>
    refine ⟨?_, ih⟩
    rw [Piece.cover_nil_iff, ← ih.whole, endRow]
    by_cases hrun : piece = .run <;> simp [hrun, Row.whole]

/-- A row tells about one character more. A match may not end before it. -/
theorem Tells.step (pieces : List Piece) :
    ∀ next, Tells foldCase s pieces next →
      Tells foldCase (x :: s) pieces (stepRow foldCase none x pieces next) := by
  induction pieces with
  | nil =>
    intro next _
    simp [Tells, stepRow, Row.whole, Piece.Cover]
  | cons piece pieces ih =>
    intro next hnext
    have hbelow := ih next.tail hnext.2
    refine ⟨?_, hbelow⟩
    -- A single character needs the rest of the pieces to cover the rest of the text. A run may also
    -- stay for one character more.
    cases piece with
    | literal c =>
      rw [Piece.cover_single_iff fun part => Iff.rfl, ← hnext.2.whole]
      by_cases hx : sameChar foldCase c x = true <;> simp [stepRow, Row.whole, hx]
    | any =>
      rw [Piece.cover_single_iff fun part => Iff.rfl, ← hnext.2.whole]
      by_cases hx : x = '\n' <;> simp [stepRow, Row.whole, hx]
    | run =>
      rw [Piece.cover_run_iff, ← hnext.1, ← hbelow.whole]
      by_cases hx : x = '\n' <;> simp [stepRow, Row.whole, hx]

/-- The row that is reached from the end of a text is about the text. -/
theorem tells_firstRow (pieces : List Piece) (s : List Char) :
    Tells foldCase s pieces (firstRow foldCase none pieces s) := by
  induction s with
  | nil => exact tells_endRow pieces
  | cons x s ih => exact Tells.step pieces _ ih

/-- Matching accepts the texts that can be cut into the characters of a glob. -/
theorem accepts_glob_iff {glob text : String} :
    (Pattern.glob glob foldCase).accepts text = true ↔ CutsInto foldCase glob text := by
  rw [accepts, Pattern.glob, List.any_cons, List.any_nil, Bool.or_false,
    (tells_firstRow (Piece.ofGlob glob) text.toList).whole, Piece.cover_ofGlob]

end Pattern

/-- A name fits some globs if it can be cut as one of them. -/
theorem SourceFilter.fits_iff {globs : List String} {name : String} :
    fits globs name = true ↔ ∃ glob ∈ globs, CutsInto false glob name := by
  simp only [fits, List.any_eq_true, Pattern.accepts_glob_iff]

/-- Both forms of a glob match just the texts that can be cut into it. A name that is no glob
    matches only itself where case counts, and it is the only field that it asks to mark. -/
theorem glob_matches_iff_cutsInto (glob : String) :
    (∃ expression, Expression.ofSource? (anchoredSource glob) = some expression
      ∧ ∀ foldCase text, expression.FoundIn foldCase text ↔ CutsInto foldCase glob text)
    ∧ (∀ foldCase text,
      (Pattern.glob glob foldCase).accepts text = true ↔ CutsInto foldCase glob text)
    ∧ (isGlob glob = false →
      (∀ text, CutsInto false glob text ↔ text = glob)
      ∧ (∀ text, SourceFilter.fits [glob] text = true ↔ text = glob)
      ∧ ∀ (request : HighlightRequest) schema,
        { request with fields := [glob] }.eligible schema = [glob]) := by
  refine ⟨⟨_, Expression.ofSource?_anchoredSource glob, fun foldCase text => ?_⟩,
    fun _ _ => Pattern.accepts_glob_iff, fun hplain => ?_⟩
  · rw [Expression.foundIn_anchored_iff, Expression.matches_inRow, Piece.cover_ofGlob]
  · have hself (text : String) : CutsInto false glob text ↔ text = glob := by
      rw [← Piece.cover_ofGlob, Piece.ofGlob_of_not_isGlob hplain, Piece.cover_literals,
        String.toList_inj]
    refine ⟨hself, fun text => ?_, fun request schema => ?_⟩
    · simp only [SourceFilter.fits_iff, List.mem_singleton, exists_eq_left, hself]
    · rw [HighlightRequest.eligible, List.flatMap_singleton, if_neg (by simp [hplain])]
      rfl

/-- The dot of a version is not the dot of regular expressions. -/
theorem glob_matches_iff_cutsInto_version :
    anchoredSource "v1.0" = "^(?:v1\\.0)$"
      ∧ ∀ text, SourceFilter.fits ["v1.0"] text = true ↔ text = "v1.0" :=
  ⟨by decide, ((glob_matches_iff_cutsInto "v1.0").2.2 (by decide)).2.1⟩

example : (Pattern.glob "foo(bar)*" false).accepts "foo(bar)baz" = true := by decide

end DocSearch
