import DocSearch.Proofs.Pattern.Globs

/-!
# The Preferred Match

Which of several matches at one place of a text is taken.

Matching keeps a row of lengths for every place and never goes back. What it should come to is said
by going back: follow up the first choice of the first piece, and all that the other pieces make of
it, before the next choice. This lists all matches at a place, the preferred one first. A run
chooses as much as it can get, and of several alternatives the first comes before the others.

The rows hold the heads of these lists. Taking a run as one choice after the other, each with a
length of its own, does not fit the rows, which take one character at a time. But a run that takes a
character is followed by the same run on the rest, and that the lists can be cut in the same way is
the one fact that has to be seen.

## Main definitions

* `Piece.takes`, `Piece.choices`, `Pattern.choices`: All matches at the beginning of a text, by
  their lengths.
* `Pattern.preferred?`: The first of them.

## Theorems

* `mem_choices_iff`: They are all the beginnings of the text that the pieces cover.
* `choices_run_cons`: A run takes a character or ends before it.
* `stepRow_tailRow`: A row holds the preferred lengths of all tails.
* `marks_eq`: Scanning goes by the preferred lengths.
* `scan_cons_of_zero`, `scan_cons_of_succ`: One step of a scan.
-/

namespace DocSearch

namespace Piece

/-- How many characters a piece may take from the beginning of a text, what it prefers first. A run
    takes as many as it can. -/
def takes (foldCase : Bool) : Piece → List Char → List Nat
  | .literal c, x :: _ => if Pattern.sameChar foldCase c x then [1] else []
  | .any, x :: _ => if x ≠ '\n' then [1] else []
  | .literal _, [] | .any, [] => []
  | .run, s => (List.range ((s.takeWhile fun x => x ≠ '\n').length + 1)).reverse

/-- The lengths of all matches of some pieces at the beginning of a text, in the order of
    preference: what can become of the first choice comes before the second choice. -/
def choices (foldCase : Bool) : List Piece → List Char → List Nat
  | [], _ => [0]
  | piece :: rest, s =>
    (piece.takes foldCase s).flatMap fun n => (choices foldCase rest (s.drop n)).map (n + ·)

variable {foldCase : Bool} {piece : Piece} {pieces rest : List Piece} {s : List Char} {n : Nat}

/-! ### What is listed -/

-- The characters that a run can take are those before the first line feed.
theorem le_length_takeWhile_iff (p : Char → Bool) :
    n ≤ (s.takeWhile p).length ↔ n ≤ s.length ∧ ∀ x ∈ s.take n, p x = true := by
  induction s generalizing n with
  | nil => simp
  | cons x s ih =>
    cases n with
    | zero => simp
    | succ n =>
      rw [List.takeWhile_cons, List.take_succ_cons, List.length_cons, List.forall_mem_cons]
      by_cases hx : p x = true
      · rw [if_pos hx, List.length_cons, Nat.add_le_add_iff_right, ih, Nat.add_le_add_iff_right]
        simp [hx]
      · simp [hx]

-- A piece for one character takes just that.
theorem mem_takes_single_iff {admits : Char → Prop} [DecidablePred admits]
    (hnil : piece.takes foldCase [] = [])
    (hcons : ∀ x s, piece.takes foldCase (x :: s) = if admits x then [1] else [])
    (hfits : ∀ part, piece.Fits foldCase part ↔ ∃ x, part = [x] ∧ admits x) :
    n ∈ piece.takes foldCase s ↔ n ≤ s.length ∧ piece.Fits foldCase (s.take n) := by
  rw [hfits]
  cases s with
  | nil => simp [hnil]
  | cons x s =>
    rw [hcons]
    constructor
    · intro h
      by_cases hx : admits x
      · rw [if_pos hx, List.mem_singleton] at h
        subst h
        exact ⟨by simp, x, by simp, hx⟩
      · simp [hx] at h
    · rintro ⟨hlength, y, hy, hadmits⟩
      -- The part that was cut off has one character, and so it is the first one.
      have hn : n = 1 := by
        have := congrArg List.length hy
        rw [List.length_take, List.length_singleton] at this
        omega
      subst hn
      obtain rfl : x = y := by simpa using hy
      simp [hadmits]

/-- The numbers of characters that a piece can take are the lengths of the beginnings that it fits.
    -/
theorem mem_takes_iff :
    n ∈ piece.takes foldCase s ↔ n ≤ s.length ∧ piece.Fits foldCase (s.take n) := by
  cases piece with
  | literal c => exact mem_takes_single_iff rfl (fun _ _ => rfl) fun _ => Iff.rfl
  | any => exact mem_takes_single_iff rfl (fun _ _ => rfl) fun _ => Iff.rfl
  | run =>
    rw [takes, List.mem_reverse, List.mem_range, Nat.lt_succ_iff, le_length_takeWhile_iff, Fits]
    refine and_congr_right fun _ => ⟨fun h hmem => ?_, fun h x hx => ?_⟩
    · exact absurd (h _ hmem) (by simp)
    · exact decide_eq_true fun heq => h (heq ▸ hx)

/-- The lengths that are listed are those of the beginnings that the pieces cover. -/
theorem mem_choices_iff (pieces : List Piece) :
    ∀ s n, n ∈ choices foldCase pieces s ↔ n ≤ s.length ∧ Cover foldCase pieces (s.take n) := by
  induction pieces with
  | nil =>
    intro s n
    rw [choices, List.mem_singleton, Cover, List.take_eq_nil_iff]
    constructor
    · rintro rfl
      exact ⟨Nat.zero_le _, .inl rfl⟩
    · rintro ⟨hlength, rfl | rfl⟩
      · rfl
      · simpa using hlength
  | cons piece pieces ih =>
    intro s n
    -- What all pieces take is what the first one takes and what the others take behind it.
    simp only [choices, List.mem_flatMap, List.mem_map, mem_takes_iff, ih, Cover]
    constructor
    · rintro ⟨first, ⟨hfirst, hfits⟩, others, ⟨hothers, hcover⟩, rfl⟩
      rw [List.length_drop] at hothers
      exact ⟨by omega, s.take first, (s.drop first).take others, List.take_add, hfits, hcover⟩
    · rintro ⟨hn, part, behind, htake, hfits, hcover⟩
      -- The two parts are the beginning of the text and what is behind it.
      have hs : s = part ++ (behind ++ s.drop n) := by
        rw [← List.append_assoc, ← htake, List.take_append_drop]
      have hlength : n = part.length + behind.length := by
        have := congrArg List.length htake
        rw [List.length_take, List.length_append] at this
        omega
      refine ⟨part.length, ⟨by omega, ?_⟩, behind.length, ⟨?_, ?_⟩, hlength.symm⟩
      · rwa [hs, List.take_left']
        rfl
      · rw [List.length_drop]
        omega
      · rw [hs, List.drop_left' rfl, List.take_left' rfl]
        exact hcover

/-! ### One character after the other -/

-- What the first piece can take, for each kind of piece, at the end of a text and before it.
theorem choices_nil_of_ne_run (h : piece ≠ .run) :
    choices foldCase (piece :: rest) [] = [] := by
  cases piece with
  | literal c => rfl
  | any => rfl
  | run => exact absurd rfl h

theorem choices_run_nil : choices foldCase (.run :: rest) [] = choices foldCase rest [] := by
  simp [choices, takes]

theorem choices_literal_cons (c x : Char) :
    choices foldCase (.literal c :: rest) (x :: s)
      = if Pattern.sameChar foldCase c x then (choices foldCase rest s).map (1 + ·) else [] := by
  rw [choices, takes]
  split <;> simp

theorem choices_any_cons (x : Char) :
    choices foldCase (.any :: rest) (x :: s)
      = if x ≠ '\n' then (choices foldCase rest s).map (1 + ·) else [] := by
  rw [choices, takes]
  split <;> simp

/-- A run takes the character and goes on, or it ends before it. -/
theorem choices_run_cons (x : Char) :
    choices foldCase (.run :: rest) (x :: s)
      = (if x ≠ '\n' then (choices foldCase (.run :: rest) s).map (1 + ·) else [])
        ++ choices foldCase rest (x :: s) := by
  by_cases hx : x = '\n'
  · simp [choices, takes, hx]
  · -- Its lengths are those on the rest, with one more, and zero.
    have htakes : takes foldCase .run (x :: s) = (takes foldCase .run s).map (1 + ·) ++ [0] := by
      rw [takes, takes, List.takeWhile_cons, if_pos (decide_eq_true hx), List.length_cons,
        List.range_succ_eq_map, List.reverse_cons, ← List.map_reverse]
      simp [Nat.add_comm]
    rw [choices, htakes, List.flatMap_append, List.flatMap_map, if_pos hx, choices,
      List.map_flatMap]
    congr 1
    · refine List.flatMap_congr fun n _ => ?_
      rw [Nat.add_comm, List.drop_succ_cons, List.map_map]
      exact List.map_congr_left fun m _ => by simp only [Function.comp]; omega
    · simp

end Piece

namespace Pattern

variable {foldCase : Bool} {pattern : Pattern} {s : List Char} {c x : Char} {n : Nat}

/-- The lengths of all matches at the beginning of a text, those of earlier alternatives first. -/
def choices (pattern : Pattern) (s : List Char) : List Nat :=
  pattern.alternatives.flatMap fun pieces => Piece.choices pattern.foldCase pieces s

/-- The length of the match that is preferred at the beginning of a text. -/
def preferred? (pattern : Pattern) (s : List Char) : Option Nat := (pattern.choices s).head?

/-! ### Rows -/

/-- The row that holds a result for every tail of some pieces. -/
def tailRow (result : List Piece → Option Nat) : List Piece → Row
  | [] => [result []]
  | piece :: rest => result (piece :: rest) :: tailRow result rest

-- The row of all tails has the result for all pieces in front.
theorem whole_cons (first : Option Nat) (row : Row) : Row.whole (first :: row) = first := rfl

theorem whole_tailRow (result : List Piece → Option Nat) (pieces : List Piece) :
    (tailRow result pieces).whole = result pieces := by
  cases pieces <;> rfl

/-- The preferred length of some pieces at the beginning of a text. -/
def preferredOf? (foldCase : Bool) (s : List Char) (pieces : List Piece) : Option Nat :=
  (Piece.choices foldCase pieces s).head?

/-- The row at the end of a text has the preferred match of nothing, for every tail. -/
theorem endRow_eq (pieces : List Piece) :
    endRow pieces = tailRow (preferredOf? foldCase []) pieces := by
  induction pieces with
  | nil => rfl
  | cons piece rest ih =>
    rw [endRow, tailRow, ← ih]
    by_cases h : piece = .run
    · rw [if_pos h, h, preferredOf?, Piece.choices_run_nil, ih, whole_tailRow, preferredOf?]
    · rw [if_neg h, preferredOf?, Piece.choices_nil_of_ne_run h, List.head?_nil]

/-- From a row of preferred lengths comes the one for one character more. -/
theorem stepRow_tailRow (pieces : List Piece) :
    stepRow foldCase (some 0) x pieces (tailRow (preferredOf? foldCase s) pieces)
      = tailRow (preferredOf? foldCase (x :: s)) pieces := by
  induction pieces with
  | nil => rfl
  | cons piece rest ih =>
    have hsucc : (fun n => 1 + n) = (· + 1) := funext fun n => Nat.add_comm 1 n
    rw [tailRow, tailRow, stepRow.eq_def]
    simp only [List.tail_cons, ih, whole_tailRow, whole_cons]
    congr 1
    -- The step of each kind of piece is its choice, of which the preferred one is kept.
    cases piece with
    | literal c =>
      simp only [preferredOf?, Piece.choices_literal_cons, hsucc]
      split <;> simp
    | any =>
      simp only [preferredOf?, Piece.choices_any_cons, hsucc]
      split <;> simp
    | run =>
      simp only [preferredOf?, Piece.choices_run_cons, hsucc]
      split <;> simp

/-! ### Along a text -/

/-- A result for every place of a text, from the rest that begins there. -/
def places (result : List Char → Option Nat) : List Char → List (Option Nat)
  | [] => []
  | c :: s => result (c :: s) :: places result s

/-- There is one result for each place. -/
theorem length_places (result : List Char → Option Nat) (s : List Char) :
    (places result s).length = s.length := by
  induction s with
  | nil => rfl
  | cons c s ih => rw [places, List.length_cons, List.length_cons, ih]

/-- Preferring one list of results to another is done place by place. -/
theorem prefer_places (first second : List Char → Option Nat) (s : List Char) :
    prefer (places first s) (places second s) = places (fun s => (first s).or (second s)) s := by
  induction s with
  | nil => rfl
  | cons c s ih => rw [places, places, places, prefer, ih]

theorem prefer_nil (row : Row) : prefer row [] = row := by
  cases row <;> rfl

/-- One walk from the end of a text finds the preferred match at every place. -/
theorem matchLengths_eq (pieces : List Piece) (s : List Char) :
    matchLengths foldCase pieces s
      = (tailRow (preferredOf? foldCase s) pieces,
          places (preferredOf? foldCase · pieces) s) := by
  induction s with
  | nil => rw [matchLengths, List.foldr_nil, endRow_eq, places]
  | cons x s ih =>
    rw [matchLengths, List.foldr_cons, ← matchLengths, ih, places]
    simp only [stepRow_tailRow, whole_tailRow]

-- Without alternatives there is nothing to begin with, and a list of no matches instead.
theorem foldr_prefer_eq {alternatives : List (List Piece)} (h : alternatives ≠ []) (s : List Char) :
    alternatives.foldr (fun pieces rest => prefer (matchLengths foldCase pieces s).2 rest) []
      = places (preferred? ⟨alternatives, foldCase⟩) s := by
  induction alternatives with
  | nil => exact absurd rfl h
  | cons pieces rest ih =>
    have hfound : (matchLengths foldCase pieces s).2 = places (preferredOf? foldCase · pieces) s :=
      congrArg Prod.snd (matchLengths_eq pieces s)
    rw [List.foldr_cons, hfound]
    -- The last alternative has none to fall back on.
    by_cases hrest : rest = []
    · subst hrest
      rw [List.foldr_nil, prefer_nil]
      congr 1
      funext s
      rw [preferred?, choices, List.flatMap_singleton, preferredOf?]
    · rw [ih hrest, prefer_places]
      congr 1
      funext s
      rw [preferred?, preferred?, choices, choices, List.flatMap_cons, List.head?_append,
        preferredOf?]

/-- Every place of a text carries the length that the pattern prefers there. -/
theorem marks_eq (pattern : Pattern) (s : List Char) :
    pattern.marks s
      = (s.zip (places pattern.preferred? s)).map fun (c, length) => (c, length.getD 0) := by
  rw [marks]
  by_cases h : pattern.alternatives = []
  · have hnone : places pattern.preferred? s = List.replicate s.length none := by
      have hpreferred : pattern.preferred? = fun _ => none := by
        funext s
        rw [preferred?, choices, h, List.flatMap_nil, List.head?_nil]
      rw [hpreferred]
      induction s with
      | nil => rfl
      | cons c s ih => rw [places, ih, List.length_cons, List.replicate_succ]
    rw [h, List.foldr_nil, List.nil_append, hnone]
  · -- The matches that are added for the case without alternatives stand behind the end.
    have hzip : (s ++ []).zip (places pattern.preferred? s ++ List.replicate s.length none)
        = s.zip (places pattern.preferred? s) ++ [].zip (List.replicate s.length none) :=
      List.zip_append (length_places pattern.preferred? s).symm
    rw [List.append_nil, List.zip_nil_left, List.append_nil] at hzip
    rw [foldr_prefer_eq h, hzip]

/-- The marks of a text are those of its beginning and of the rest. -/
theorem marks_nil (pattern : Pattern) : pattern.marks [] = [] := by
  rw [marks_eq, List.zip_nil_left, List.map_nil]

theorem marks_cons (pattern : Pattern) (c : Char) (s : List Char) :
    pattern.marks (c :: s) = (c, (pattern.preferred? (c :: s)).getD 0) :: pattern.marks s := by
  rw [marks_eq, marks_eq, places, List.zip_cons_cons, List.map_cons]

/-- What stands behind a place has the marks that it has in the text. -/
theorem marks_drop (pattern : Pattern) (n : Nat) :
    ∀ s, pattern.marks (s.drop n) = (pattern.marks s).drop n := by
  induction n with
  | zero => exact fun _ => rfl
  | succ n ih =>
    intro s
    cases s with
    | nil => rw [List.drop_nil, marks_nil, List.drop_nil]
    | cons c s => rw [marks_cons, List.drop_succ_cons, List.drop_succ_cons, ih]

theorem scan_nil (pattern : Pattern) : pattern.scan [] = [] := by
  rw [scan, marks_nil, parts]

/-- Where nothing or only the empty text matches, a scan passes over the character. -/
theorem scan_cons_of_zero (h : (pattern.preferred? (c :: s)).getD 0 = 0) :
    pattern.scan (c :: s) = .gap c :: pattern.scan s := by
  rw [scan, marks_cons, h, parts, scan]

/-- Behind the preferred match a scan goes on. -/
theorem scan_cons_of_succ (h : pattern.preferred? (c :: s) = some (n + 1)) :
    pattern.scan (c :: s) = .hit c (s.take n) :: pattern.scan (s.drop n) := by
  rw [scan, marks_cons, h, Option.getD_some, parts, scan, marks_drop, List.map_take,
    marks_map_fst]

/-- A match that is longer than nothing is a match. -/
theorem preferred?_of_getD_succ (h : (pattern.preferred? s).getD 0 = n + 1) :
    pattern.preferred? s = some (n + 1) := by
  cases hpreferred : pattern.preferred? s with
  | none =>
    rw [hpreferred, Option.getD_none] at h
    exact absurd h (Nat.zero_ne_add_one n)
  | some length =>
    rw [hpreferred, Option.getD_some] at h
    rw [h]

theorem le_length_of_preferred? (h : pattern.preferred? s = some n) : n ≤ s.length := by
  rcases List.mem_flatMap.mp (List.mem_of_head? h) with ⟨pieces, _, hmem⟩
  exact ((Piece.mem_choices_iff pieces s n).mp hmem).1

end Pattern

end DocSearch
