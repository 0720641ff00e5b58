import DocSearch.Proofs.Hit.Marking
import DocSearch.Proofs.Hit.Snippets
import DocSearch.Proofs.Pattern.Words
import DocSearch.Proofs.Relevance.Weights

/-!
# Whole Words

Which of the words that a query shares with a value are marked whole.

Scoring compares words with words. Marking looks for the words of the query wherever they begin, and
of several that begin at one place it takes the one that stands first in the query. So a word that
counts for the score may be marked in part only, since a shorter one from before it in the query was
taken instead.

A word of a value has blanks around it, and no word of a query has one in it. So what is marked in
it depends on nothing else in the value. All of it is marked exactly if the words of the query use
it up, each time the first that begins. It is marked as one piece exactly if the first word that it
begins with is as long as it is, and that is so for all words, however they are ordered, if none of
the query is a beginning of another.

## Main definitions

* `Wraps`: Stretches cover all places from one up to another.
* `markedWords`: The words of a query that are marked.

## Theorems

* `wraps_spans_iff`: What parts of a scan cover.
* `usedUp_congr`: Case does not matter for using up a text.
* `getElem?_tokenize_of_ascii`: The words of a value in ASCII.
* `wraps_marked_piece_iff`, `mem_marked_piece_iff`: What is marked of a word.
* `shorter_word_cuts_longer`: A word of the query that is marked in part.
* `whole_words_marked_iff`: Which words are marked whole.
-/

namespace DocSearch

open Pattern

/-- Every place from one up to another is in one of some stretches. -/
def Wraps (found : List Span) (start stop : Nat) : Prop :=
  ∀ place, start ≤ place → place < stop →
    ∃ span ∈ found, span.start ≤ place ∧ place < span.stop

/-! ### What a scan covers -/

section Covering

variable {parts front back : List Part} {span : Span} {place : Nat}

/-- The stretches of parts in a row are those of the first parts and those of the others, moved
    behind them. -/
theorem spans_append (front back : List Part) (place : Nat) :
    spans place (front ++ back)
      = spans place front ++ spans (place + (front.flatMap Part.text).length) back := by
  induction front generalizing place with
  | nil => rfl
  | cons part front ih =>
    cases part with
    | gap c =>
      rw [List.cons_append, spans, spans, ih, List.flatMap_cons, Part.text, List.length_append,
        List.length_singleton, Nat.add_assoc]
    | hit first more =>
      rw [List.cons_append, spans, spans, ih, List.flatMap_cons, Part.text, List.length_append,
        List.length_cons, Nat.add_assoc, List.cons_append]

/-- No stretch ends behind the parts. -/
theorem stop_le_of_mem_spans (h : span ∈ spans place parts) :
    span.stop ≤ place + (parts.flatMap Part.text).length := by
  induction parts generalizing place with
  | nil => exact absurd h List.not_mem_nil
  | cons part rest ih =>
    cases part with
    | gap c =>
      have hstop := ih h
      rw [List.flatMap_cons, Part.text, List.length_append, List.length_singleton]
      omega
    | hit first more =>
      rw [List.flatMap_cons, Part.text, List.length_append, List.length_cons]
      rcases List.mem_cons.mp h with rfl | hmem
      · show place + (more.length + 1) ≤ _
        omega
      · have hstop := ih hmem
        omega

/-- The parts of a text cover it exactly if all of them are matches. -/
theorem wraps_spans_iff (parts : List Part) (place : Nat) :
    Wraps (spans place parts) place (place + (parts.flatMap Part.text).length)
      ↔ parts.all Part.isHit = true := by
  induction parts generalizing place with
  | nil =>
    constructor
    · exact fun _ => rfl
    · intro _ other hle hlt
      rw [List.flatMap_nil, List.length_nil] at hlt
      omega
  | cons part rest ih =>
    rw [List.flatMap_cons, List.length_append, List.all_cons]
    cases part with
    | gap c =>
      -- The place of the character is before all matches.
      rw [Part.isHit, Bool.false_and]
      constructor
      · intro h
        rw [spans, Part.text, List.length_singleton] at h
        rcases h place (Nat.le_refl _) (by omega) with ⟨span, hspan, hstart, -⟩
        have := (of_mem_spans hspan).1
        omega
      · intro h
        exact absurd h Bool.false_ne_true
    -- A hit covers its own places, and leaves those behind it to the rest.
    | hit first more =>
      rw [Part.isHit, Bool.true_and, spans, Part.text, List.length_cons,
        ← ih (place + (more.length + 1)), Nat.add_assoc place]
      constructor
      · intro h other hle hlt
        rcases h other (by omega) hlt with ⟨span, hspan, hstart, hstop⟩
        rcases List.mem_cons.mp hspan with rfl | hmem
        · exact absurd hstop (Nat.not_lt.mpr hle)
        · exact ⟨span, hmem, hstart, hstop⟩
      · intro h other hle hlt
        by_cases hfirst : other < place + (more.length + 1)
        · exact ⟨_, List.mem_cons_self, hle, hfirst⟩
        · rcases h other (by omega) hlt with ⟨span, hspan, hcovers⟩
          exact ⟨span, List.mem_cons_of_mem _ hspan, hcovers⟩

/-- In between, only the parts themselves matter. -/
theorem mem_spans_between_iff (hstart : (front.flatMap Part.text).length ≤ span.start)
    (hlt : span.start < (front.flatMap Part.text).length + (parts.flatMap Part.text).length) :
    span ∈ spans 0 (front ++ (parts ++ back))
      ↔ span ∈ spans (front.flatMap Part.text).length parts := by
  rw [spans_append, spans_append, Nat.zero_add, List.mem_append, List.mem_append]
  constructor
  · rintro (hfront | hparts | hback)
    · have := stop_le_of_mem_spans hfront
      have := (of_mem_spans hfront).2
      omega
    · exact hparts
    · have := (of_mem_spans hback).1
      omega
  · exact fun h => .inr (.inl h)

/-- Of parts in the middle the same is true, since no stretch reaches over from the parts around
    them. -/
theorem wraps_between_iff (front parts back : List Part) :
    Wraps (spans 0 (front ++ (parts ++ back))) (front.flatMap Part.text).length
        ((front.flatMap Part.text).length + (parts.flatMap Part.text).length)
      ↔ parts.all Part.isHit = true := by
  rw [← wraps_spans_iff parts (front.flatMap Part.text).length]
  constructor
  · intro h place hle hlt
    rcases h place hle hlt with ⟨span, hspan, hstart, hstop⟩
    rw [spans_append, spans_append, Nat.zero_add, List.mem_append, List.mem_append] at hspan
    -- A stretch of the parts before ends too early, and one of the parts behind begins too late.
    rcases hspan with hfront | hparts | hback
    · have := stop_le_of_mem_spans hfront
      omega
    · exact ⟨span, hparts, hstart, hstop⟩
    · have := (of_mem_spans hback).1
      omega
  · intro h place hle hlt
    rcases h place hle hlt with ⟨span, hspan, hcovers⟩
    refine ⟨span, ?_, hcovers⟩
    rw [spans_append, spans_append, Nat.zero_add]
    exact List.mem_append_right _ (List.mem_append_left _ hspan)

/-- A match begins at a place if it is preferred there. -/
theorem mem_spans_scan_iff {pattern : Pattern} {s : List Char} {length : Nat}
    (hpos : 0 < length) :
    ⟨place, place + length⟩ ∈ spans place (pattern.scan s)
      ↔ pattern.preferred? s = some length := by
  cases s with
  | nil =>
    rw [scan_nil, spans]
    constructor
    · exact fun h => absurd h List.not_mem_nil
    · intro h
      have := le_length_of_preferred? h
      rw [List.length_nil] at this
      omega
  | cons c s =>
    -- Without a match the scan goes on one place later, and with one its stretch begins here.
    cases hpreferred : (pattern.preferred? (c :: s)).getD 0 with
    | zero =>
      rw [scan_cons_of_zero hpreferred, spans]
      constructor
      · intro h
        have hstart := (of_mem_spans h).1
        exact absurd hstart (Nat.not_succ_le_self place)
      · intro h
        rw [h, Option.getD_some] at hpreferred
        omega
    | succ n =>
      have hsome := preferred?_of_getD_succ hpreferred
      have hn := le_length_of_preferred? hsome
      rw [List.length_cons] at hn
      have hmore : (s.take n).length = n := by
        rw [List.length_take]
        omega
      rw [scan_cons_of_succ hsome, spans, hmore, hsome, Option.some.injEq]
      constructor
      · intro h
        rcases List.mem_cons.mp h with heq | hmem
        · have hstop := congrArg Span.stop heq
          simp only at hstop
          omega
        · have hstart := (of_mem_spans hmem).1
          simp only at hstart
          omega
      · intro h
        rw [h]
        exact List.mem_cons_self

end Covering

/-! ### Words of a value -/

section Values

variable {words : List String} {word text value : String} {s t piece : List Char} {i j : Nat}

/-- Only the folded characters of a text count for which word it begins with. -/
theorem firstBeginning?_congr (words : List String) (h : s.map Text.fold = t.map Text.fold) :
    firstBeginning? words s = firstBeginning? words t := by
  rw [firstBeginning?, h, firstBeginning?]

/-- Case does not matter for using up a text. -/
theorem usedUp_congr (h : s.map Text.fold = t.map Text.fold) (hused : UsedUp words s) :
    UsedUp words t := by
  induction hused generalizing t with
  | done =>
    rw [List.map_nil, eq_comm, List.map_eq_nil_iff] at h
    rw [h]
    exact .done
  | @take s word first rest ih =>
    refine .take (firstBeginning?_congr words h ▸ first) (ih ?_)
    rw [List.map_drop, h, List.map_drop]

/-- Changing characters moves no separator. -/
theorem pieces_map {separator : Char} {change : Char → Char}
    (h : ∀ c ∈ s, change c = separator ↔ c = separator) :
    Text.pieces separator (s.map change) = (Text.pieces separator s).map (·.map change) := by
  induction s with
  | nil => rfl
  | cons c s ih =>
    have hrest := ih fun x hx => h x (List.mem_cons_of_mem _ hx)
    rw [List.map_cons]
    by_cases hc : c = separator
    · rw [(h c List.mem_cons_self).mpr hc, hc, Text.pieces_cons_self, Text.pieces_cons_self, hrest,
        List.map_cons, List.map_nil]
    · have hchange : change c ≠ separator := mt (h c List.mem_cons_self).mp hc
      rw [Text.pieces, Text.pieces, List.map_cons, List.cons.injEq] at hrest
      rw [Text.pieces_cons_of_ne hchange, Text.pieces_cons_of_ne hc, hrest.1, hrest.2,
        List.map_cons, List.map_cons]

/-- The words of a value in ASCII are its pieces in lower case. -/
theorem getElem?_tokenize_of_ascii (hascii : ∀ c ∈ value.toList, c.toNat < 128)
    (h : (tokenize value)[j]? = some word) :
    ∃ piece, (Text.pieces ' ' value.toList)[j]? = some piece
      ∧ word = String.ofList (piece.map Char.toLower) ∧ ∀ c ∈ piece, c.toNat < 128 := by
  have hlower : Text.lowercase value = String.ofList (value.toList.map Char.toLower) := by
    rw [← Text.lowercase_of_ascii hascii, String.ofList_toList]
  have hpieces : Text.pieces ' ' (value.toList.map Char.toLower)
      = (Text.pieces ' ' value.toList).map (·.map Char.toLower) :=
    pieces_map fun c hc => Text.toLower_eq_blank_iff (hascii c hc)
  rw [tokenize, Text.split, hlower, String.toList_ofList, hpieces, List.map_map,
    List.getElem?_map, Option.map_eq_some_iff] at h
  rcases h with ⟨piece, hpiece, rfl⟩
  refine ⟨piece, hpiece, rfl, fun c hc => hascii c ?_⟩
  rw [← Text.before_append_piece hpiece]
  exact List.mem_append_right _ (List.mem_append_left _ hc)

/-- Words have no blanks in them. -/
theorem notMem_of_mem_tokenize (h : word ∈ tokenize text) : ' ' ∉ word.toList := by
  rw [tokenize, Text.split, List.mem_map] at h
  rcases h with ⟨piece, hpiece, rfl⟩
  rw [String.toList_ofList]
  exact Text.notMem_of_mem_pieces hpiece

/-- A word that is among some words is begun by one of them. -/
theorem exists_firstBeginning? (h : word ∈ words) :
    ∃ first, firstBeginning? words word.toList = some first := by
  cases hfirst : firstBeginning? words word.toList with
  | some first => exact ⟨first, rfl⟩
  | none =>
    have hnone := List.find?_eq_none.mp hfirst word h
    rw [List.isPrefixOf_iff_prefix] at hnone
    exact absurd (List.prefix_refl _) hnone

end Values

/-! ### Marked words -/

section Marked

variable {words : List String} {s piece : List Char} {place length : Nat}

/-- What is marked at the beginning of a word is the first word that begins there. -/
theorem mem_marked_piece_iff (hblank : ∀ word ∈ words, ' ' ∉ word.toList)
    (hpiece : (Text.pieces ' ' s)[place]? = some piece) (hne : piece ≠ []) (hpos : 0 < length) :
    ⟨(Text.before ' ' s place).length, (Text.before ' ' s place).length + length⟩
        ∈ (Pattern.words words).marked s
      ↔ ∃ first, firstBeginning? words piece = some first ∧ first.toList.length = length := by
  rcases scan_words_piece hblank hpiece with ⟨front, back, hscan, hfront⟩
  have hlength : 0 < piece.length := List.length_pos_of_ne_nil hne
  rw [marked, ← spans_scan, hscan, ← hfront, mem_spans_between_iff (Nat.le_refl _),
    mem_spans_scan_iff hpos, preferred?_words, Option.map_eq_some_iff]
  rw [scan_text]
  exact Nat.lt_add_of_pos_right hlength

/-- Where a word of the query stands, something is marked. -/
theorem marked_ne_nil_of_mem {word : String} (hblank : ∀ word ∈ words, ' ' ∉ word.toList)
    (hwords : ∀ word ∈ words, word ≠ "") (hmem : word ∈ words)
    (hpiece : (Text.pieces ' ' s)[place]? = some piece)
    (hfold : word.toList.map Text.fold = piece.map Text.fold) (hne : piece ≠ []) :
    (Pattern.words words).marked s ≠ [] := by
  rcases exists_firstBeginning? hmem with ⟨first, hfirst⟩
  have hpos := length_pos_of_firstBeginning? hwords hfirst
  rw [firstBeginning?_congr words hfold] at hfirst
  exact List.ne_nil_of_mem ((mem_marked_piece_iff hblank hpiece hne hpos).mpr ⟨first, hfirst, rfl⟩)

/-- A word is marked as one piece if no other word of the query is a beginning of it. -/
theorem mem_marked_of_no_beginning {word : String} (hblank : ∀ word ∈ words, ' ' ∉ word.toList)
    (hmem : word ∈ words) (hpiece : (Text.pieces ' ' s)[place]? = some piece)
    (hfold : word.toList.map Text.fold = piece.map Text.fold) (hne : piece ≠ [])
    (hshort : ∀ other ∈ words, other.toList.map Text.fold <+: word.toList.map Text.fold →
      other.length = piece.length) :
    ⟨(Text.before ' ' s place).length, (Text.before ' ' s place).length + piece.length⟩
      ∈ (Pattern.words words).marked s := by
  rcases exists_firstBeginning? hmem with ⟨first, hfirst⟩
  have hprefix := List.find?_some hfirst
  rw [List.isPrefixOf_iff_prefix] at hprefix
  have hlength := hshort first (firstBeginning?_mem hfirst) hprefix
  rw [firstBeginning?_congr words hfold] at hfirst
  refine (mem_marked_piece_iff hblank hpiece hne (List.length_pos_of_ne_nil hne)).mpr ?_
  exact ⟨first, hfirst, by rw [String.length_toList, hlength]⟩

/-- All of a word is marked exactly if the words of the query use it up. -/
theorem wraps_marked_piece_iff (hblank : ∀ word ∈ words, ' ' ∉ word.toList)
    (hwords : ∀ word ∈ words, word ≠ "")
    (hpiece : (Text.pieces ' ' s)[place]? = some piece) :
    Wraps ((Pattern.words words).marked s) (Text.before ' ' s place).length
        ((Text.before ' ' s place).length + piece.length)
      ↔ UsedUp words piece := by
  rcases scan_words_piece hblank hpiece with ⟨front, back, hscan, hfront⟩
  have hbetween := wraps_between_iff front ((Pattern.words words).scan piece) back
  rw [scan_text, hfront] at hbetween
  rw [marked, ← spans_scan, hscan, hbetween, all_isHit_scan_words_iff hwords]

end Marked

/-! ### Queries -/

section Queries

variable {request : HighlightRequest} {schema : Schema} {field text value word : String}
  {document : Json} {i j : Nat}

/-- The words of a query that are marked. -/
def markedWords (text : String) : List String :=
  (tokenize text).filter fun token => token ≠ ""

/-- All words of the query are marked, except for the empty one. -/
theorem mem_markedWords_iff : word ∈ markedWords text ↔ word ∈ tokenize text ∧ word ≠ "" := by
  rw [markedWords, List.mem_filter, decide_eq_true_eq]

/-- If there is a word to mark, the query has a target. -/
theorem target?_of_mem_markedWords (field : String) (h : word ∈ markedWords text) :
    Highlighter.target? (.words field (some text))
      = some (field, Pattern.words (markedWords text)) := by
  have hne : ¬ (markedWords text).isEmpty = true := by
    rw [List.isEmpty_iff]
    exact List.ne_nil_of_mem h
  rw [Highlighter.target?, Option.map_some, Option.getD_some, ← markedWords]
  exact if_neg hne

/-- Where a field is no copy target its snippets are those of the values at its path. -/
theorem highlightsOf_of_mem {query : Query} {pattern : Pattern} {snippet : String}
    (hquery : Highlighter.target? query = some (field, pattern))
    (heligible : field ∈ request.eligible schema) (htarget : schema.copySources? field = none)
    (hvalue : Json.str value ∈ Path.valuesAt document field)
    (hsnippet : snippet? pattern request.preTag request.postTag value = some snippet) :
    ∃ snippets, highlightsOf query request schema document = [(field, snippets)]
      ∧ snippet ∈ snippets := by
  have hhighlighter := Highlighter.ofQuery?_of_target hquery heligible
  rw [Schema.pathsAsWritten, htarget, Option.getD_none] at hhighlighter
  have hmem : snippet ∈ Highlighter.snippetsAt
      ⟨pattern, [field], request.preTag, request.postTag⟩ document field := by
    rw [Highlighter.snippetsAt, List.mem_filterMap]
    exact ⟨value, List.mem_filterMap.mpr ⟨.str value, hvalue, rfl⟩, hsnippet⟩
  refine ⟨_, ?_, hmem⟩
  rw [highlightsOf, hhighlighter]
  simp only [Highlighter.run, List.foldl_cons, List.foldl_nil]
  cases hsnippets : Highlighter.snippetsAt
      ⟨pattern, [field], request.preTag, request.postTag⟩ document field with
  | nil =>
    rw [hsnippets] at hmem
    exact absurd hmem List.not_mem_nil
  | cons first rest => rfl

/-- Of two words the shorter one is taken if it stands first, and the end of the longer one is not
    marked, although it is this one that scores. The other way round it is marked whole. -/
theorem shorter_word_cuts_longer :
    let document : Json := .obj [("title", .str "Dune")]
    let snippets (text : String) : Highlights :=
      highlightsOf (.words "title" (some text)) { fields := ["title"] } ⟨"books", [], []⟩ document
    ((tokenize "dun dune")[1]? = some "dune" ∧ (tokenize "Dune")[0]? = some "dune")
      ∧ snippets "dun dune" = [("title", ["<em>Dun</em>e"])]
      ∧ snippets "dune dun" = [("title", ["<em>Dune</em>"])]
      ∧ ¬ Wraps ((Pattern.words (markedWords "dun dune")).marked "Dune".toList) 0 4 := by
  have hmarked : (Pattern.words (markedWords "dun dune")).marked "Dune".toList = [⟨0, 3⟩] := by
    rw [marked, ← spans_scan]
    decide +kernel
  refine ⟨by decide, by decide +kernel, by decide +kernel, fun hwraps => ?_⟩
  rw [hmarked] at hwraps
  rcases hwraps 3 (by omega) (by omega) with ⟨span, hspan, -, hstop⟩
  rw [List.mem_singleton.mp hspan] at hstop
  exact absurd hstop (by decide)

/-- For every query for words, every field that is asked for and no copy target, and every value of
    it in ASCII: a word of the value that is one of the query scores by its places, and the value
    has a snippet. The word is marked whole exactly if the words of the query use it up, and as one
    piece exactly if the first of them that it begins with is as long as it is. So it is if none of
    the query is a proper beginning of it, in whatever order they are. -/
theorem whole_words_marked_iff (heligible : field ∈ request.eligible schema)
    (htarget : schema.copySources? field = none)
    (hvalue : Json.str value ∈ Path.valuesAt document field)
    (hascii : ∀ c ∈ value.toList, c.toNat < 128) (hword : word ≠ "")
    (hquery : (tokenize text)[i]? = some word) (hfield : (tokenize value)[j]? = some word) :
    let start := (Text.before ' ' value.toList j).length
    let found := (Pattern.words (markedWords text)).marked value.toList
    Relevance.proximity i j ∈ Scorer.sharedWeights (tokenize text) (tokenize value)
      ∧ Text.lowercase (String.ofList ((value.toList.drop start).take word.length)) = word
      ∧ (∃ snippets snippet,
          highlightsOf (.words field (some text)) request schema document = [(field, snippets)]
            ∧ snippet ∈ snippets
            ∧ snippet.toList = withTags request.preTag.toList request.postTag.toList found 0
              value.toList)
      ∧ (Wraps found start (start + word.length) ↔ UsedUp (markedWords text) word.toList)
      ∧ (⟨start, start + word.length⟩ ∈ found ↔ ∃ first,
          firstBeginning? (markedWords text) word.toList = some first
            ∧ first.length = word.length)
      ∧ ((∀ other ∈ markedWords text,
            other.toList.map Text.fold <+: word.toList.map Text.fold →
              other.length = word.length) →
          ⟨start, start + word.length⟩ ∈ found) := by
  intro start found
  rcases getElem?_tokenize_of_ascii hascii hfield with ⟨piece, hpiece, rfl, hasciiPiece⟩
  have hmem := mem_markedWords_iff.mpr ⟨List.mem_of_getElem? hquery, hword⟩
  have hwords : ∀ other ∈ markedWords text, other ≠ "" :=
    fun other hother => (mem_markedWords_iff.mp hother).2
  have hblank : ∀ other ∈ markedWords text, ' ' ∉ other.toList :=
    fun other hother => notMem_of_mem_tokenize (mem_markedWords_iff.mp hother).1
  -- The word of the query and the word of the value differ only in case.
  have hfold : (String.ofList (piece.map Char.toLower)).toList.map Text.fold
      = piece.map Text.fold := by
    rw [String.toList_ofList, List.map_map]
    exact List.map_congr_left fun c hc => Text.fold_toLower (hasciiPiece c hc)
  -- So they are also equally long.
  have hlength : (String.ofList (piece.map Char.toLower)).length = piece.length := by
    rw [String.length_ofList, List.length_map]
  have hne : piece ≠ [] := by
    intro hnil
    rw [hnil] at hword
    exact hword rfl
  have hfirst := firstBeginning?_congr (markedWords text) hfold
  rw [hlength, hfirst]
  refine ⟨?_, ?_, ?_, ?_, ?_, ?_⟩
  · exact Scorer.mem_sharedWeights_iff.mpr ⟨i, j, _, hword, hquery, hfield, rfl⟩
  · have hvalue := Text.before_append_piece hpiece
    rw [← hvalue, List.drop_left' rfl, List.take_left' rfl, Text.lowercase_of_ascii hasciiPiece]
  · have hsnippet := snippet?_eq (Pattern.words (markedWords text)) request.preTag request.postTag
      value
    rw [if_neg (marked_ne_nil_of_mem hblank hwords hmem hpiece hfold hne)] at hsnippet
    rcases highlightsOf_of_mem (target?_of_mem_markedWords field hmem) heligible htarget hvalue
      hsnippet with ⟨snippets, hsnippets, hin⟩
    exact ⟨snippets, _, hsnippets, hin, String.toList_ofList⟩
  · refine (wraps_marked_piece_iff hblank hwords hpiece).trans ⟨?_, ?_⟩
    · exact usedUp_congr hfold.symm
    · exact usedUp_congr hfold
  · exact mem_marked_piece_iff hblank hpiece hne (List.length_pos_of_ne_nil hne)
  · exact mem_marked_of_no_beginning hblank hmem hpiece hfold hne

/-- Two words of the query use up a third, which is marked whole, and yet not as one piece. -/
theorem whole_words_marked_iff_spice :
    let document : Json := .obj [("title", .str "The Spice")]
    let found := (Pattern.words (markedWords "spi ce spice")).marked "The Spice".toList
    Relevance.proximity 2 1 ∈ Scorer.sharedWeights (tokenize "spi ce spice") (tokenize "The Spice")
      ∧ Wraps found 4 9
      ∧ ⟨4, 9⟩ ∉ found
      ∧ highlightsOf (.words "title" (some "spi ce spice")) { fields := ["title"] }
          ⟨"books", [], []⟩ document = [("title", ["The <em>Spi</em><em>ce</em>"])] := by
  intro document found
  have hvalues : Path.valuesAt document "title" = [.str "The Spice"] := rfl
  have hall := @whole_words_marked_iff { fields := ["title"] } ⟨"books", [], []⟩ "title"
    "spi ce spice" "The Spice" "spice" document 2 1 (by decide) (by decide)
    (hvalues ▸ List.mem_singleton_self _) (by simp) (by decide) (by decide) (by decide)
  have hstart : (Text.before ' ' "The Spice".toList 1).length = 4 := by decide
  -- The word is used up by the first two words of the query, and neither of them is as long as it.
  have hfirst : firstBeginning? (markedWords "spi ce spice") "spice".toList = some "spi" := by
    decide
  have hsecond : firstBeginning? (markedWords "spi ce spice") "ce".toList = some "ce" := by
    decide
  rw [hstart, hfirst] at hall
  rcases hall with ⟨hweight, -, -, hwraps, hpiece, -⟩
  refine ⟨hweight, hwraps.mpr (.take hfirst (.take hsecond .done)), fun hmem => ?_,
    by decide +kernel⟩
  rcases hpiece.mp hmem with ⟨first, hspi, hlength⟩
  rw [← Option.some.inj hspi] at hlength
  exact absurd hlength (by decide)

end Queries

end DocSearch
