import DocSearch.Hit.Highlight
import DocSearch.Proofs.Pattern.Search

/-!
# Snippets

What a snippet is made of: the text, and tags where its matches begin and end.

A snippet is put together from the parts of a scan. That every character of the text is in some part
is not enough to know that the text is intact in between, and a tag that is put around a part is not
yet one that stands at a certain place of the text. So the tags are said to be inserted, place by
place, into the text as it stands. Where one match ends and the next one begins at the same place,
the tag behind the first comes before that of the second.

The places are those of a search that finds empty matches too. These get no tags, but they are part
of the search, which has to get past them.

## Main definitions

* `tagsAt`, `withTags`: A text with tags inserted.
* `Pattern.Part.tagged`: A part of a text with its tags.
* `Pattern.marked`: The stretches that get tags.

## Theorems

* `flatMap_tagged`: The parts with their tags are the text with tags inserted.
* `size_flatMap_tagged`: What the tags add.
* `snippet?_eq`: A snippet as a text with tags.
* `snippets_only_add_tags`: Snippets are the text and the tags, and nothing else.
-/

namespace DocSearch

/-- The tags at a place, between stretches that end there and stretches that begin there. -/
def tagsAt (preTag postTag : List Char) (found : List Span) (place : Nat) : List Char :=
  (if found.any fun span => span.stop = place then postTag else [])
    ++ (if found.any fun span => span.start = place then preTag else [])

/-- The rest of a text, from a place on, with tags where stretches begin and end. -/
def withTags (preTag postTag : List Char) (found : List Span) : Nat → List Char → List Char
  | place, [] => tagsAt preTag postTag found place
  | place, c :: rest =>
    tagsAt preTag postTag found place ++ c :: withTags preTag postTag found (place + 1) rest

/-- The stretches of a text that get tags: the matches of some characters. -/
def Pattern.marked (pattern : Pattern) (s : List Char) : List Span :=
  (pattern.search s).filter Span.nonempty

/-- A part of a text with the tags of a match. -/
def Pattern.Part.tagged (preTag postTag : List Char) : Pattern.Part → List Char
  | .gap c => [c]
  | .hit first rest => preTag ++ (first :: rest) ++ postTag

open Pattern

variable {preTag postTag s t : List Char} {found : List Span} {span : Span} {place : Nat}

/-! ### Inserting -/

-- Which tags stand at a place depends on the stretches that begin or end there.
theorem tagsAt_eq_nil (h : ∀ span ∈ found, span.start ≠ place ∧ span.stop ≠ place) :
    tagsAt preTag postTag found place = [] := by
  have hstop : (found.any fun span => decide (span.stop = place)) = false :=
    List.any_eq_false.mpr fun span hspan => by simpa using (h span hspan).2
  have hstart : (found.any fun span => decide (span.start = place)) = false :=
    List.any_eq_false.mpr fun span hspan => by simpa using (h span hspan).1
  rw [tagsAt, hstop, hstart]
  rfl

theorem tagsAt_cons_of_ne (hstart : span.start ≠ place) (hstop : span.stop ≠ place) :
    tagsAt preTag postTag (span :: found) place = tagsAt preTag postTag found place := by
  simp [tagsAt, hstart, hstop]

/-- Where no tags are inserted the text stays as it is. -/
theorem withTags_append (h : ∀ other, place ≤ other → other < place + s.length →
      tagsAt preTag postTag found other = []) :
    withTags preTag postTag found place (s ++ t)
      = s ++ withTags preTag postTag found (place + s.length) t := by
  induction s generalizing place with
  | nil => rfl
  | cons c s ih =>
    rw [List.length_cons] at h
    have hrest : ∀ other, place + 1 ≤ other → other < place + 1 + s.length →
        tagsAt preTag postTag found other = [] := by
      intro other hle hlt
      exact h other (by omega) (by omega)
    rw [List.cons_append, withTags, h place (Nat.le_refl _) (by omega), ih hrest, List.nil_append,
      List.length_cons, List.cons_append, Nat.add_assoc, Nat.add_comm 1]

-- A stretch that ends before a place has no tag there or behind it.
theorem withTags_cons_of_lt (hstart : span.start < place) (hstop : span.stop < place) :
    withTags preTag postTag (span :: found) place s = withTags preTag postTag found place s := by
  induction s generalizing place with
  | nil => rw [withTags, withTags, tagsAt_cons_of_ne (by omega) (by omega)]
  | cons c s ih =>
    rw [withTags, withTags, ih (by omega) (by omega), tagsAt_cons_of_ne (by omega) (by omega)]

/-- At its end a stretch leaves its tag, before all that stands there for other stretches. -/
theorem withTags_cons_of_stop (hnonempty : span.start < span.stop)
    (h : ∀ other ∈ found, other.stop ≠ span.stop) :
    withTags preTag postTag (span :: found) span.stop s
      = postTag ++ withTags preTag postTag found span.stop s := by
  have hnone : (found.any fun other => decide (other.stop = span.stop)) = false :=
    List.any_eq_false.mpr fun other hother => by simpa using h other hother
  have htags : tagsAt preTag postTag (span :: found) span.stop
      = postTag ++ tagsAt preTag postTag found span.stop := by
    simp [tagsAt, hnone, Nat.ne_of_lt hnonempty]
  cases s with
  | nil => rw [withTags, withTags, htags]
  | cons c s =>
    rw [withTags, withTags, htags, withTags_cons_of_lt (by omega) (by omega), List.append_assoc]

-- A stretch begins with its tag, if none ends at the same place.
theorem tagsAt_cons_of_start (hnonempty : span.start < span.stop)
    (h : ∀ other ∈ found, other.stop ≠ span.start) :
    tagsAt preTag postTag (span :: found) span.start = preTag := by
  have hnone : (found.any fun other => decide (other.stop = span.start)) = false :=
    List.any_eq_false.mpr fun other hother => by simpa using h other hother
  simp [tagsAt, hnone, Nat.ne_of_gt hnonempty]

/-- A stretch before all others gets its two tags and is kept as it is in between. -/
theorem withTags_span (hlength : span.start + s.length = span.stop) (hs : s ≠ [])
    (hbehind : ∀ other ∈ found, span.stop ≤ other.start ∧ other.start < other.stop) :
    withTags preTag postTag (span :: found) span.start (s ++ t)
      = preTag ++ s ++ postTag ++ withTags preTag postTag found span.stop t := by
  cases s with
  | nil => exact absurd rfl hs
  | cons c s =>
    rw [List.length_cons] at hlength
    -- The tag that opens stands before the first character, and that of no other stretch, as they
    -- begin later.
    have hfirst : tagsAt preTag postTag (span :: found) span.start = preTag := by
      refine tagsAt_cons_of_start (by omega) fun other hother => ?_
      have := hbehind other hother
      omega
    -- Inside the stretch no other one begins or ends.
    have hinside : ∀ place, span.start + 1 ≤ place → place < span.start + 1 + s.length →
        tagsAt preTag postTag (span :: found) place = [] := by
      intro place hle hlt
      refine tagsAt_eq_nil fun other hother => ?_
      rcases List.mem_cons.mp hother with rfl | hmem
      · omega
      · have := hbehind other hmem
        omega
    -- Behind the last character stands the tag that closes.
    have hlast : withTags preTag postTag (span :: found) span.stop t
        = postTag ++ withTags preTag postTag found span.stop t := by
      refine withTags_cons_of_stop (by omega) fun other hother => ?_
      have := hbehind other hother
      omega
    have hstop : span.start + 1 + s.length = span.stop := by omega
    rw [List.cons_append, withTags, hfirst, withTags_append hinside, hstop, hlast]
    simp

/-! ### Parts of a text -/

/-- The stretches of some parts lie behind the place where the parts begin, and none of them is
    empty. -/
theorem of_mem_spans {parts : List Part} (h : span ∈ spans place parts) :
    place ≤ span.start ∧ span.start < span.stop := by
  induction parts generalizing place with
  | nil => exact absurd h List.not_mem_nil
  | cons part rest ih =>
    cases part with
    | gap c =>
      rcases ih h with ⟨hstart, hlt⟩
      exact ⟨by omega, hlt⟩
    | hit first more =>
      rcases List.mem_cons.mp h with rfl | hmem
      · exact ⟨Nat.le_refl _, by simp⟩
      · rcases ih hmem with ⟨hstart, hlt⟩
        exact ⟨by omega, hlt⟩

/-- The parts of a text, those that match with their tags, are the text with tags inserted where
    they begin and end. -/
theorem flatMap_tagged (parts : List Part) (place : Nat) :
    parts.flatMap (Part.tagged preTag postTag)
      = withTags preTag postTag (spans place parts) place (parts.flatMap Part.text) := by
  induction parts generalizing place with
  | nil => rfl
  | cons part rest ih =>
    rw [List.flatMap_cons, List.flatMap_cons]
    cases part with
    -- A character between hits is put out as it is, and no stretch touches it.
    | gap c =>
      have htags : tagsAt preTag postTag (spans (place + 1) rest) place = [] := by
        refine tagsAt_eq_nil fun span hspan => ?_
        rcases of_mem_spans hspan with ⟨hstart, hlt⟩
        exact ⟨by omega, by omega⟩
      rw [Part.tagged, Part.text, spans, List.singleton_append, List.singleton_append, withTags,
        htags, ih (place + 1), List.nil_append]
    -- A hit is put out between tags, and is the first stretch from here on.
    | hit first more =>
      rw [Part.tagged, Part.text, spans, ih (place + (more.length + 1))]
      refine Eq.symm (withTags_span ?_ (List.cons_ne_nil first more) fun other hother => ?_)
      · rw [List.length_cons]
      · exact of_mem_spans hother

/-- What the tags add to a text, whatever is counted of it. -/
theorem size_flatMap_tagged (size : List Char → Nat)
    (happend : ∀ s t, size (s ++ t) = size s + size t) (parts : List Part) (place : Nat) :
    size (parts.flatMap (Part.tagged preTag postTag))
      = size (parts.flatMap Part.text)
        + (spans place parts).length * (size preTag + size postTag) := by
  induction parts generalizing place with
  | nil => simp [spans]
  | cons part rest ih =>
    rw [List.flatMap_cons, List.flatMap_cons, happend, happend]
    cases part with
    | gap c =>
      rw [ih (place + 1), spans]
      simp only [Part.tagged, Part.text]
      omega
    | hit first more =>
      rw [ih (place + (more.length + 1)), spans, List.length_cons, Nat.add_one_mul]
      simp only [Part.tagged, Part.text, happend]
      omega

/-- There is a match among the parts of a text if one of them is one. -/
theorem any_isHit_iff (parts : List Part) (place : Nat) :
    parts.any Part.isHit = true ↔ spans place parts ≠ [] := by
  induction parts generalizing place with
  | nil => simp [spans]
  | cons part rest ih =>
    cases part with
    | gap c => rw [List.any_cons, Part.isHit, Bool.false_or, spans, ih]
    | hit first more => simp [Part.isHit, spans]

/-! ### Snippets -/

/-- The parts of a scan with their tags are the text with tags around what is marked. -/
theorem flatMap_tagged_scan (pattern : Pattern) (preTag postTag s : List Char) :
    (pattern.scan s).flatMap (Part.tagged preTag postTag)
      = withTags preTag postTag (pattern.marked s) 0 s := by
  rw [flatMap_tagged (pattern.scan s) 0, scan_text, spans_scan, marked]

/-- Whatever is counted of a text that adds up over its parts, a snippet has as much of it as the
    text and the tags have. -/
theorem size_withTags_marked (size : List Char → Nat)
    (happend : ∀ s t, size (s ++ t) = size s + size t) (pattern : Pattern)
    (preTag postTag s : List Char) :
    size (withTags preTag postTag (pattern.marked s) 0 s)
      = size s + (pattern.marked s).length * (size preTag + size postTag) := by
  rw [← flatMap_tagged_scan, size_flatMap_tagged size happend (pattern.scan s) 0, scan_text,
    spans_scan, marked]

/-- A snippet is the text with tags around what is marked, if anything is. -/
theorem snippet?_eq (pattern : Pattern) (preTag postTag text : String) :
    snippet? pattern preTag postTag text
      = if pattern.marked text.toList = [] then none
        else some (String.ofList (withTags preTag.toList postTag.toList
          (pattern.marked text.toList) 0 text.toList)) := by
  have hany : (pattern.scan text.toList).any Part.isHit = true
      ↔ pattern.marked text.toList ≠ [] := by
    rw [any_isHit_iff _ 0, spans_scan, marked]
  rw [snippet?, ← flatMap_tagged_scan]
  by_cases h : pattern.marked text.toList = []
  · rw [if_pos h, if_neg fun hhit => hany.mp hhit h]
  · rw [if_neg h, if_pos (hany.mpr h)]
    refine congrArg (some ∘ String.ofList) (List.flatMap_congr fun part _ => ?_)
    cases part <;> rfl

/-- Empty tags leave a text as it is. -/
theorem withTags_nil_nil (found : List Span) (place : Nat) (s : List Char) :
    withTags [] [] found place s = s := by
  have htags : ∀ place, tagsAt [] [] found place = [] := by
    intro place
    simp [tagsAt]
  induction s generalizing place with
  | nil => rw [withTags, htags]
  | cons c s ih => rw [withTags, htags, ih, List.nil_append]

/-- For every pattern and all tags, there is a snippet exactly if the search of the text finds a
    match of some characters. It is the text with the first tag where such a match begins and the
    second where it ends, and it is longer by the tags of all of them, in characters and in bytes.
    With empty tags it is the text. What is found are parts of the text that an alternative of the
    pattern covers. -/
theorem snippets_only_add_tags (pattern : Pattern) (preTag postTag text : String) :
    ((snippet? pattern preTag postTag text).isSome ↔ pattern.marked text.toList ≠ [])
      ∧ (∀ snippet, snippet? pattern preTag postTag text = some snippet →
        snippet.toList = withTags preTag.toList postTag.toList (pattern.marked text.toList) 0
            text.toList
          ∧ snippet.length = text.length
            + (pattern.marked text.toList).length * (preTag.length + postTag.length)
          ∧ snippet.utf8ByteSize = text.utf8ByteSize
            + (pattern.marked text.toList).length * (preTag.utf8ByteSize + postTag.utf8ByteSize)
          ∧ snippet? pattern "" "" text = some text)
      ∧ ∀ span ∈ pattern.marked text.toList,
        span.start < span.stop ∧ span.stop ≤ text.toList.length
          ∧ ∃ pieces ∈ pattern.alternatives, Piece.Cover pattern.foldCase pieces
            ((text.toList.drop span.start).take (span.stop - span.start)) := by
  refine ⟨?_, fun snippet hsnippet => ?_, fun span hspan => ?_⟩
  · rw [snippet?_eq]
    by_cases h : pattern.marked text.toList = []
    · simp [h]
    · simp [h]
  · rw [snippet?_eq, Option.ite_none_left_eq_some, Option.some.injEq] at hsnippet
    rcases hsnippet with ⟨hmarked, rfl⟩
    refine ⟨String.toList_ofList .., ?_, ?_, ?_⟩
    · -- The two sizes of a text, in characters and in bytes, both add up over parts.
      have hlength := size_withTags_marked List.length (fun _ _ => List.length_append) pattern
        preTag.toList postTag.toList text.toList
      rwa [String.length_toList, String.length_toList, String.length_toList,
        ← String.length_ofList] at hlength
    · have hbytes := size_withTags_marked (fun s => (String.ofList s).utf8ByteSize)
        (fun s t => by rw [String.ofList_append, String.utf8ByteSize_append]) pattern preTag.toList
        postTag.toList text.toList
      rwa [String.ofList_toList, String.ofList_toList, String.ofList_toList] at hbytes
    · rw [snippet?_eq, if_neg hmarked]
      have hempty : "".toList = [] := rfl
      rw [hempty, withTags_nil_nil, String.ofList_toList]
  · rcases List.mem_filter.mp hspan with ⟨hmem, hnonempty⟩
    rcases cover_of_mem_search hmem with ⟨-, hstop, hcover⟩
    exact ⟨of_decide_eq_true hnonempty, hstop, hcover⟩

/-- A run ends at the line feed, and the next match is a single letter. -/
theorem snippets_only_add_tags_dunes :
    let dunes := Pattern.glob "d*" true
    dunes.marked "Düne\nund".toList = [⟨0, 4⟩, ⟨7, 8⟩]
      ∧ (snippet? dunes "<b>" "</b>" "Düne\nund").isSome
      ∧ snippet? dunes "<b>" "</b>" "Düne\nund" = some "<b>Düne</b>\nun<b>d</b>"
      ∧ "<b>Düne</b>\nun<b>d</b>".toList
        = withTags "<b>".toList "</b>".toList [⟨0, 4⟩, ⟨7, 8⟩] 0 "Düne\nund".toList
      ∧ snippet? dunes "" "" "Düne\nund" = some "Düne\nund"
      ∧ ∃ pieces ∈ dunes.alternatives,
        Piece.Cover true pieces (("Düne\nund".toList.drop 7).take (8 - 7)) := by
  intro dunes
  have hmarked : dunes.marked "Düne\nund".toList = [⟨0, 4⟩, ⟨7, 8⟩] := by
    rw [marked, ← spans_scan]
    decide +kernel
  have hsnippet : snippet? dunes "<b>" "</b>" "Düne\nund" = some "<b>Düne</b>\nun<b>d</b>" := by
    decide +kernel
  rcases snippets_only_add_tags dunes "<b>" "</b>" "Düne\nund" with ⟨hsome, hall, hcovers⟩
  rw [hmarked] at hsome hcovers hall
  rcases hall _ hsnippet with ⟨htags, -, -, hempty⟩
  exact ⟨hmarked, hsome.mpr (by simp), hsnippet, htags, hempty, (hcovers ⟨7, 8⟩ (by simp)).2.2⟩

end DocSearch
