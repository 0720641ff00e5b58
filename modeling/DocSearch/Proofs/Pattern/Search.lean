import DocSearch.Proofs.Pattern.Preference

/-!
# Searching a Text

All matches that a pattern has in a text, one behind the other.

A search looks for the first place with a match, takes the match that is preferred there, and goes
on where it ended. A match may be empty, and then the search would stay where it is. So an empty
match is found once, and when it turns up at the end of the last match again the search passes over
it and goes on one character further.

A scan does not look for anything. It decides at every place whether a match of at least one
character begins there, and knows of no empty matches and of no match before the last. Both come to
the same stretches of the text, since an empty match only ever makes the search go on where the scan
is in any case.

## Main definitions

* `Span`: A stretch of a text.
* `Pattern.findFrom?`: The first match from a place on.
* `Pattern.searchFrom`, `Pattern.search`: All of them, empty ones included.
* `Pattern.spans`: Where the matches of a scanned text are.

## Theorems

* `of_findFrom?_eq_some`: The first match, and nothing before it.
* `spans_scan_of_unmatched`: A scan passes over what does not match.
* `spans_scan_drop`, `spans_scan`: A scan finds the matches that are not empty.
* `cover_of_mem_search`: What is found is covered by an alternative.
-/

namespace DocSearch

/-- A stretch of a text, from one place up to another. -/
structure Span where
  start : Nat
  stop : Nat
  deriving DecidableEq

/-- Whether a stretch holds a character. -/
def Span.nonempty (span : Span) : Bool := span.start < span.stop

namespace Pattern

variable {pattern : Pattern} {s : List Char} {start place : Nat} {last : Option Nat} {found : Span}

/-- The match that is preferred at a place. -/
def matchAt? (pattern : Pattern) (s : List Char) (place : Nat) : Option Span :=
  (pattern.preferred? (s.drop place)).map fun length => ⟨place, place + length⟩

/-- The match at the first place that has one, from a place on up to the end of the text. -/
def findFrom? (pattern : Pattern) (s : List Char) (start : Nat) : Option Span :=
  (List.range' start (s.length + 1 - start)).findSome? (pattern.matchAt? s)

/-- What is found at a place starts there and is as long as the preferred match. -/
theorem of_matchAt?_eq_some (h : pattern.matchAt? s place = some found) :
    found.start = place ∧ found.start ≤ found.stop
      ∧ pattern.preferred? (s.drop place) = some (found.stop - found.start) := by
  rw [matchAt?, Option.map_eq_some_iff] at h
  rcases h with ⟨length, hlength, rfl⟩
  refine ⟨rfl, Nat.le_add_right .., ?_⟩
  rw [hlength, Nat.add_sub_cancel_left]

/-- Where nothing is found there is no preferred match. -/
theorem preferred?_of_matchAt?_eq_none (h : pattern.matchAt? s place = none) :
    pattern.preferred? (s.drop place) = none :=
  Option.map_eq_none_iff.mp h

/-- The first match from a place on begins within the text, and nothing matches before it. -/
theorem of_findFrom?_eq_some (h : pattern.findFrom? s start = some found) :
    start ≤ found.start ∧ found.start ≤ s.length
      ∧ pattern.matchAt? s found.start = some found
      ∧ ∀ place, start ≤ place → place < found.start → pattern.matchAt? s place = none := by
  unfold findFrom? at h
  rcases List.findSome?_eq_some_iff.mp h with ⟨before, place, after, hrange, hmatch, hbefore⟩
  have hstart : found.start = place := (of_matchAt?_eq_some hmatch).1
  subst hstart
  rcases List.range'_eq_append_iff.mp hrange with ⟨k, hk, rfl, hafter⟩
  rcases List.range'_eq_cons_iff.mp hafter.symm with ⟨hplace, hpos, _⟩
  refine ⟨by omega, by omega, hmatch, fun other hother hlt => ?_⟩
  exact hbefore other (List.mem_range'_1.mpr ⟨hother, by omega⟩)

/-- If nothing is found from a place on, nothing is found at any later place. -/
theorem of_findFrom?_eq_none (h : pattern.findFrom? s start = none) :
    ∀ place, start ≤ place → place ≤ s.length → pattern.matchAt? s place = none := by
  intro place hstart hlength
  unfold findFrom? at h
  exact List.findSome?_eq_none_iff.mp h place (List.mem_range'_1.mpr ⟨hstart, by omega⟩)

/-- The matches of a text from a place on, given where the last one ended. An empty match at the
    end of the last one is passed over, and then the search goes on one character further. -/
def searchFrom (pattern : Pattern) (s : List Char) (start : Nat) (last : Option Nat) :
    List Span :=
  match _h : pattern.findFrom? s start with
  | none => []
  | some found =>
    if found.start = found.stop ∧ last = some found.stop then
      pattern.searchFrom s (start + 1) last
    else found :: pattern.searchFrom s found.stop (some found.stop)
-- An empty match leaves the search where it is, but only once.
termination_by (s.length + 1 - start, if last = some start then 0 else 1)
decreasing_by
  · rcases of_findFrom?_eq_some _h with ⟨hstart, hlength, -, -⟩
    exact .left _ _ (by omega)
  · rename_i hagain
    rcases of_findFrom?_eq_some _h with ⟨hstart, hlength, hmatch, -⟩
    have hle := (of_matchAt?_eq_some hmatch).2.1
    by_cases hstop : found.stop = start
    · have hlast : ¬ last = some start := by
        intro hlast
        exact hagain ⟨by omega, by rw [hlast, hstop]⟩
      rw [hstop, if_pos trivial, if_neg hlast]
      exact .right _ (by omega)
    · exact .left _ _ (by omega)

/-- All matches of a text. -/
def search (pattern : Pattern) (s : List Char) : List Span := pattern.searchFrom s 0 none

/-- The matches among the parts of a text that begin at a place. -/
def spans : Nat → List Part → List Span
  | _, [] => []
  | place, .gap _ :: rest => spans (place + 1) rest
  | place, .hit _ more :: rest =>
    ⟨place, place + (more.length + 1)⟩ :: spans (place + (more.length + 1)) rest

/-! ### Scanning -/

/-- A scan passes over places at which nothing matches, or only the empty text. -/
theorem spans_scan_of_unmatched (n : Nat)
    (h : ∀ place, start ≤ place → place < start + n →
      (pattern.preferred? (s.drop place)).getD 0 = 0) :
    spans start (pattern.scan (s.drop start))
      = spans (start + n) (pattern.scan (s.drop (start + n))) := by
  induction n with
  | zero => rfl
  | succ n ih =>
    rw [ih fun place hstart hplace => h place hstart (by omega)]
    by_cases hlt : start + n < s.length
    · have hgap := h (start + n) (by omega) (by omega)
      rw [List.drop_eq_getElem_cons hlt] at hgap ⊢
      rw [scan_cons_of_zero hgap, spans, Nat.add_assoc]
    · rw [List.drop_eq_nil_of_le (by omega), List.drop_eq_nil_of_le (by omega), scan_nil, spans,
        spans]

-- Where a match of some characters is preferred, it is the next part of the scan.
theorem spans_scan_of_matchAt? (h : pattern.matchAt? s place = some found)
    (hnonempty : found.nonempty = true) :
    spans place (pattern.scan (s.drop place))
      = found :: spans found.stop (pattern.scan (s.drop found.stop)) := by
  rcases of_matchAt?_eq_some h with ⟨rfl, -, hpreferred⟩
  have hlt : found.start < found.stop := of_decide_eq_true hnonempty
  have hlength := le_length_of_preferred? hpreferred
  rw [List.length_drop] at hlength
  -- The scan drops the rest of a match behind its first character. What remains is arithmetic on
  -- where it goes on.
  rcases Nat.exists_eq_add_of_lt hlt with ⟨n, hstop⟩
  have hn : found.stop - found.start = n + 1 := by omega
  rw [List.drop_eq_getElem_cons (by omega), hn] at hpreferred
  have hmore : ((s.drop (found.start + 1)).take n).length = n := by
    rw [List.length_take, List.length_drop]
    omega
  rw [List.drop_eq_getElem_cons (by omega), scan_cons_of_succ hpreferred, spans, hmore,
    List.drop_drop]
  have hplace : found.start + (n + 1) = found.stop := by omega
  have hrest : found.start + 1 + n = found.stop := by omega
  rw [hplace, hrest]

/-- A scan passes a place over where nothing is found. -/
theorem unmatched_of_matchAt?_eq_none (h : pattern.matchAt? s place = none) :
    (pattern.preferred? (s.drop place)).getD 0 = 0 := by
  rw [preferred?_of_matchAt?_eq_none h, Option.getD_none]

/-- It also passes over a place where nothing but the empty text is found. -/
theorem unmatched_of_empty (h : pattern.matchAt? s place = some found)
    (hempty : found.start = found.stop) : (pattern.preferred? (s.drop place)).getD 0 = 0 := by
  rw [(of_matchAt?_eq_some h).2.2, Option.getD_some, hempty, Nat.sub_self]

/-- From any place on, a scan finds the matches of the search that are not empty. -/
theorem spans_scan_drop (pattern : Pattern) (s : List Char) (start : Nat) (last : Option Nat) :
    spans start (pattern.scan (s.drop start))
      = (pattern.searchFrom s start last).filter Span.nonempty := by
  fun_induction searchFrom pattern s start last with
  | case1 start last hnone =>
    -- Nothing is found any more, so the scan passes over all that is left.
    have hunmatched : ∀ place, start ≤ place → place < start + (s.length - start) →
        (pattern.preferred? (s.drop place)).getD 0 = 0 := by
      intro place hstart hplace
      exact unmatched_of_matchAt?_eq_none (of_findFrom?_eq_none hnone place hstart (by omega))
    rw [spans_scan_of_unmatched _ hunmatched, List.drop_eq_nil_of_le (by omega), scan_nil, spans,
      List.filter_nil]
  | case2 start last found hfound hagain ih =>
    rcases of_findFrom?_eq_some hfound with ⟨hstart, -, hmatch, hbefore⟩
    -- Nothing is found at the place itself, or what is found there is empty.
    rw [← ih]
    refine spans_scan_of_unmatched 1 fun place hplace hlt => ?_
    have heq : place = start := by omega
    subst heq
    by_cases hhere : found.start = place
    · rw [hhere] at hmatch
      exact unmatched_of_empty hmatch hagain.1
    · exact unmatched_of_matchAt?_eq_none (hbefore place hplace (by omega))
  | case3 start last found hfound hagain ih =>
    rcases of_findFrom?_eq_some hfound with ⟨hstart, -, hmatch, hbefore⟩
    have hplace : start + (found.start - start) = found.start := by omega
    have hunmatched := spans_scan_of_unmatched (found.start - start) fun place hplace hlt =>
      unmatched_of_matchAt?_eq_none (hbefore place hplace (by omega))
    rw [hunmatched, hplace]
    -- A match that is not empty is one of the scan, and both go on behind it. An empty one is
    -- dropped.
    by_cases hnonempty : found.nonempty = true
    · rw [spans_scan_of_matchAt? hmatch hnonempty, List.filter_cons_of_pos hnonempty, ih]
    · have hle := (of_matchAt?_eq_some hmatch).2.1
      have hempty : found.start = found.stop := by
        simp only [Span.nonempty, decide_eq_true_eq] at hnonempty
        omega
      rw [List.filter_cons_of_neg hnonempty, hempty, ih]

/-- A scan finds the matches of a text that are not empty. -/
theorem spans_scan (pattern : Pattern) (s : List Char) :
    spans 0 (pattern.scan s) = (pattern.search s).filter Span.nonempty :=
  spans_scan_drop pattern s 0 none

/-! ### What is found -/

/-- Whatever the search hands out is a match at its place. -/
theorem of_mem_searchFrom (h : found ∈ pattern.searchFrom s start last) :
    found.start ≤ s.length ∧ pattern.matchAt? s found.start = some found := by
  fun_induction searchFrom pattern s start last with
  | case1 start last hnone => exact absurd h List.not_mem_nil
  | case2 start last first hfirst hagain ih => exact ih h
  | case3 start last first hfirst hagain ih =>
    rcases List.mem_cons.mp h with rfl | hmem
    · rcases of_findFrom?_eq_some hfirst with ⟨-, hlength, hmatch, -⟩
      exact ⟨hlength, hmatch⟩
    · exact ih hmem

/-- What is found is a part of the text that an alternative of the pattern covers. -/
theorem cover_of_mem_search (h : found ∈ pattern.search s) :
    found.start ≤ found.stop ∧ found.stop ≤ s.length
      ∧ ∃ pieces ∈ pattern.alternatives, Piece.Cover pattern.foldCase pieces
        ((s.drop found.start).take (found.stop - found.start)) := by
  rcases of_mem_searchFrom h with ⟨hstart, hmatch⟩
  rcases of_matchAt?_eq_some hmatch with ⟨-, hle, hpreferred⟩
  rcases List.mem_flatMap.mp (List.mem_of_head? hpreferred) with ⟨pieces, hpieces, hmem⟩
  rcases (Piece.mem_choices_iff pieces _ _).mp hmem with ⟨hlength, hcover⟩
  rw [List.length_drop] at hlength
  exact ⟨hle, by omega, pieces, hpieces, hcover⟩

end Pattern

end DocSearch
