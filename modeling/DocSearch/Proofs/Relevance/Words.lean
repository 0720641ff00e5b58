import DocSearch.Proofs.Relevance.Sums

/-!
# Shared Words

Which documents a query for words finds.

It should find the documents that share a word with it. A shared word adds the weight of its two
places to the score, and no weight is negative, so the score is positive as soon as one weight is.
But a weight can have vanished. A document whose only shared word stands far back scores zero, like
one that shares nothing, and is not found. There is a second way to get lost: beyond the range of 32
bits a weight may be no number, and then neither is the score, whatever other words are shared.

Both need long texts. Where the places of one shared word are early and no shared word is out of
range, exactly the documents that share a word are found.

## Main definitions

* `Query.SharedAt`: The same word at two places.
* `Query.SharesWord`: Some word is shared.
* `Query.Weighs`: What is shared weighs something.
* `Query.SharesEarly`, `Query.SharesLate`: Shared words at early and at late places only.

## Theorems

* `zero_lt_scoreWords_iff`: What makes the score of words positive.
* `SharesEarly.of_short`: What short texts share is shared early.
* `word_behind_margin_lost`: A document that shares a word and is not found.
* `words_find_iff`: Which documents are found.
-/

namespace DocSearch

namespace Query

/-- A word, which is not the empty one, at one place of a text and at one place of one of some
    values. -/
def SharedAt (text : String) (values : List Json) (i j : Nat) : Prop :=
  ∃ value ∈ values, ∃ content, Scorer.searchableText value = some content
    ∧ ∃ word, word ≠ "" ∧ (tokenize text)[i]? = some word ∧ (tokenize content)[j]? = some word

/-- A text shares a word with one of some values. -/
def SharesWord (text : String) (values : List Json) : Prop :=
  ∃ value ∈ values, ∃ content, Scorer.searchableText value = some content
    ∧ ∃ word ∈ tokenize text, word ≠ "" ∧ word ∈ tokenize content

/-- Of the weights of all shared words one is positive, and all are numbers. -/
structure Weighs (text : String) (values : List Json) : Prop where
  positive : ∃ i j, SharedAt text values i j ∧ 0.0 < Relevance.proximity i j
  number : ∀ i j, SharedAt text values i j → (Relevance.proximity i j).isNaN = false

/-- If words are shared, one is so at two early places, and none at a place beyond 32 bits. -/
structure SharesEarly (text : String) (values : List Json) : Prop where
  early : SharesWord text values → ∃ i j, SharedAt text values i j ∧ i + j ≤ 6815
  inRange : ∀ i j, SharedAt text values i j → i < 2 ^ 31 ∧ j < 2 ^ 31

/-- All words that are shared stand at a late place of the text or of the value, and none at a place
    beyond 32 bits. -/
structure SharesLate (text : String) (values : List Json) : Prop where
  late : ∀ i j, SharedAt text values i j → 8192 ≤ i ∨ 8192 ≤ j
  inRange : ∀ i j, SharedAt text values i j → i < 2 ^ 31 ∧ j < 2 ^ 31

variable {text : String} {values : List Json}

/-- A word is shared if it is shared at some two places. -/
theorem sharesWord_iff : SharesWord text values ↔ ∃ i j, SharedAt text values i j := by
  constructor
  · rintro ⟨value, hvalue, content, hcontent, word, hquery, hne, hfield⟩
    obtain ⟨i, hi⟩ := List.mem_iff_getElem?.mp hquery
    obtain ⟨j, hj⟩ := List.mem_iff_getElem?.mp hfield
    exact ⟨i, j, value, hvalue, content, hcontent, word, hne, hi, hj⟩
  · rintro ⟨i, j, value, hvalue, content, hcontent, word, hne, hi, hj⟩
    exact ⟨value, hvalue, content, hcontent, word, List.mem_of_getElem? hi, hne,
      List.mem_of_getElem? hj⟩

/-- What has weight shares a word. -/
theorem Weighs.sharesWord (h : Weighs text values) : SharesWord text values := by
  obtain ⟨i, j, hshared, _⟩ := h.positive
  exact sharesWord_iff.mpr ⟨i, j, hshared⟩

/-- A word that is shared early enough has weight. -/
theorem SharesEarly.weighs (h : SharesEarly text values) (hshares : SharesWord text values) :
    Weighs text values where
  positive := by
    obtain ⟨i, j, hshared, hearly⟩ := h.early hshares
    exact ⟨i, j, hshared, Relevance.proximity_pos hearly⟩
  number i j hshared := by
    obtain ⟨hi, hj⟩ := h.inRange i j hshared
    exact Relevance.proximity_isNaN hi hj

/-- In short texts all places are early. -/
theorem SharesEarly.of_short
    (h : ∀ value ∈ values, ∀ content, Scorer.searchableText value = some content →
      (tokenize text).length + (tokenize content).length ≤ 6817) : SharesEarly text values := by
  have hplaces : ∀ i j, SharedAt text values i j → i + j ≤ 6815 := by
    rintro i j ⟨value, hvalue, content, hcontent, word, _, hi, hj⟩
    have hlength := h value hvalue content hcontent
    obtain ⟨hi, _⟩ := List.getElem?_eq_some_iff.mp hi
    obtain ⟨hj, _⟩ := List.getElem?_eq_some_iff.mp hj
    omega
  refine ⟨fun hshares => ?_, fun i j hshared => ?_⟩
  · obtain ⟨i, j, hshared⟩ := sharesWord_iff.mp hshares
    exact ⟨i, j, hshared, hplaces i j hshared⟩
  · have := hplaces i j hshared
    omega

/-- Words that are all shared too late have none. -/
theorem SharesLate.not_weighs (h : SharesLate text values) : ¬ Weighs text values := by
  intro hweighs
  obtain ⟨i, j, hshared, hpos⟩ := hweighs.positive
  obtain ⟨hi, hj⟩ := h.inRange i j hshared
  exact Relevance.proximity_eq_zero (h.late i j hshared) hi hj hpos

/-! ### Scores -/

-- The weights that are added up are those of the shared words, in some order.
theorem mem_weights_iff {weight : Float} :
    weight ∈ (values.filterMap Scorer.searchableText).flatMap
        (fun content => Scorer.sharedWeights (tokenize text) (tokenize content))
      ↔ ∃ i j, SharedAt text values i j ∧ weight = Relevance.proximity i j := by
  simp only [List.mem_flatMap, List.mem_filterMap, Scorer.mem_sharedWeights_iff]
  constructor
  · rintro ⟨content, ⟨value, hvalue, hcontent⟩, i, j, word, hne, hi, hj, rfl⟩
    exact ⟨i, j, ⟨value, hvalue, content, hcontent, word, hne, hi, hj⟩, rfl⟩
  · rintro ⟨i, j, ⟨value, hvalue, content, hcontent, word, hne, hi, hj⟩, rfl⟩
    exact ⟨content, ⟨value, hvalue, hcontent⟩, i, j, word, hne, hi, hj, rfl⟩

/-- The score of some values is positive exactly if the words they share weigh something. -/
theorem zero_lt_scoreWords_iff :
    0.0 < Scorer.scoreWords (tokenize text) values ↔ Weighs text values := by
  rw [Scorer.scoreWords, Scorer.zero_lt_sum_iff]
  · constructor
    · rintro ⟨⟨weight, hmem, hpos⟩, hnumber⟩
      obtain ⟨i, j, hshared, rfl⟩ := mem_weights_iff.mp hmem
      exact ⟨⟨i, j, hshared, hpos⟩,
        fun i j hshared => hnumber _ (mem_weights_iff.mpr ⟨i, j, hshared, rfl⟩)⟩
    · rintro ⟨⟨i, j, hshared, hpos⟩, hnumber⟩
      refine ⟨⟨_, mem_weights_iff.mpr ⟨i, j, hshared, rfl⟩, hpos⟩, fun weight hmem => ?_⟩
      obtain ⟨i, j, hshared, rfl⟩ := mem_weights_iff.mp hmem
      exact hnumber i j hshared
  · intro weight hmem
    obtain ⟨i, j, _, rfl⟩ := mem_weights_iff.mp hmem
    exact Relevance.proximity_not_negative i j

/-- A text has at least one word, if only the empty one. -/
theorem tokenize_ne_nil (text : String) : tokenize text ≠ [] := by
  simp [tokenize, Text.split, Text.pieces]

/-- A query for words compiles to a scorer that scores the values of the field. -/
theorem exists_scorer_words (schema : Schema) (field text : String) :
    ∃ scorer, compile schema (.words field (some text)) = .ok scorer
      ∧ ∀ document, 0.0 < scorer.score document
        ↔ Weighs text (schema.resolve document field) := by
  refine ⟨_, rfl, fun document => ?_⟩
  rw [Scorer.score, Option.map_some, Option.getD_some, if_neg (by simpa using tokenize_ne_nil text)]
  exact zero_lt_scoreWords_iff

/-! ### A word behind a margin -/

/-- A text of blanks and one word. -/
def behindMargin (blanks : Nat) : String := String.ofList (List.replicate blanks ' ' ++ ['w'])

-- Lowering the case changes nothing about blanks and a small letter, and the blanks cut the text
-- into empty words and the letter.
theorem lowerFrom_margin (before : List Char) (blanks : Nat) :
    Text.lowerFrom before (List.replicate blanks ' ' ++ ['w'])
      = List.replicate blanks ' ' ++ ['w'] := by
  induction blanks generalizing before with
  | zero => rfl
  | succ blanks ih =>
    rw [List.replicate_succ, List.cons_append, Text.lowerFrom, ih]
    rfl

theorem pieces_margin (blanks : Nat) :
    Text.pieces ' ' (List.replicate blanks ' ' ++ ['w'])
      = List.replicate blanks [] ++ [['w']] := by
  induction blanks with
  | zero => rfl
  | succ blanks ih =>
    rw [List.replicate_succ, List.cons_append, Text.pieces_cons_self, ih, List.replicate_succ,
      List.cons_append]

/-- Every blank of the margin leaves an empty word. -/
theorem tokenize_behindMargin (blanks : Nat) :
    tokenize (behindMargin blanks) = List.replicate blanks "" ++ ["w"] := by
  rw [tokenize, Text.split, Text.lowercase, behindMargin, String.toList_ofList,
    String.toList_ofList, lowerFrom_margin, pieces_margin, List.map_append, List.map_replicate]
  rfl

/-- The letter behind the margin is shared there and nowhere else. -/
theorem sharedAt_behindMargin_iff (blanks i j : Nat) :
    SharedAt "w" [.str (behindMargin blanks)] i j ↔ i = 0 ∧ j = blanks := by
  have hquery : tokenize "w" = ["w"] := by decide
  simp only [SharedAt, List.mem_singleton, exists_eq_left, Scorer.searchableText, Option.some.injEq,
    exists_eq_left', hquery, tokenize_behindMargin]
  constructor
  · rintro ⟨word, hne, hi, hj⟩
    obtain ⟨rfl, rfl⟩ : i = 0 ∧ word = "w" := by
      cases i with
      | zero => exact ⟨rfl, (Option.some.inj hi).symm⟩
      | succ i => simp at hi
    -- Before the letter there are empty words only, and behind it there is nothing.
    rcases lt_trichotomy j blanks with hlt | heq | hgt
    · rw [List.getElem?_append_left (by simpa using hlt), List.getElem?_replicate_of_lt hlt] at hj
      exact absurd (Option.some.inj hj).symm hne
    · exact ⟨rfl, heq⟩
    · have hlength : (List.replicate blanks "" ++ ["w"]).length ≤ j := by
        rw [List.length_append, List.length_replicate]
        exact hgt
      rw [List.getElem?_eq_none hlength] at hj
      exact absurd hj (by simp)
  · rintro ⟨rfl, rfl⟩
    exact ⟨"w", by decide, rfl, by simp⟩

/-- A margin of that width is too wide. -/
theorem sharesLate_behindMargin {blanks : Nat} (hlate : 8192 ≤ blanks) (hlt : blanks < 2 ^ 31) :
    SharesLate "w" [.str (behindMargin blanks)] where
  late i j h := .inr (((sharedAt_behindMargin_iff blanks i j).mp h).2 ▸ hlate)
  inRange i j h := by
    obtain ⟨rfl, rfl⟩ := (sharedAt_behindMargin_iff blanks i j).mp h
    exact ⟨by decide, hlt⟩

/-- In a schema without mappings a field is read where it stands. -/
theorem resolve_title (text : String) :
    Schema.resolve ⟨"books", [], []⟩ (.obj [("title", .str text)]) "title" = [.str text] := by
  rfl

/-- A document whose title is a word behind 8192 blanks shares the word and scores nothing. -/
theorem word_behind_margin_lost :
    let schema : Schema := ⟨"books", [], []⟩
    let document : Json := .obj [("title", .str (behindMargin 8192))]
    SharesWord "w" (schema.resolve document "title")
      ∧ ∃ scorer, compile schema (.words "title" (some "w")) = .ok scorer
        ∧ ¬ 0.0 < scorer.score document := by
  have hlate : SharesLate "w" [.str (behindMargin 8192)] :=
    sharesLate_behindMargin (by decide) (by decide)
  obtain ⟨scorer, hscorer, hscore⟩ := exists_scorer_words ⟨"books", [], []⟩ "title" "w"
  refine ⟨?_, scorer, hscorer, fun hpos => ?_⟩
  · rw [resolve_title]
    exact sharesWord_iff.mpr ⟨0, 8192, (sharedAt_behindMargin_iff 8192 0 8192).mpr ⟨rfl, rfl⟩⟩
  · rw [hscore, resolve_title] at hpos
    exact hlate.not_weighs hpos

/-- A query for words always compiles, and a document scores exactly if the words it shares weigh
    something. Where words are shared early, or none is shared, these are the documents that share a
    word. Where all words are shared late, none of them is found. -/
theorem words_find_iff (schema : Schema) (field text : String) :
    ∃ scorer, compile schema (.words field (some text)) = .ok scorer ∧ ∀ document,
      (0.0 < scorer.score document ↔ Weighs text (schema.resolve document field))
        ∧ (SharesEarly text (schema.resolve document field) →
          (0.0 < scorer.score document ↔ SharesWord text (schema.resolve document field)))
        ∧ (SharesLate text (schema.resolve document field) → ¬ 0.0 < scorer.score document) := by
  obtain ⟨scorer, hscorer, hscore⟩ := exists_scorer_words schema field text
  refine ⟨scorer, hscorer, fun document => ⟨hscore document, fun hearly => ?_, fun hlate => ?_⟩⟩
  · exact (hscore document).trans ⟨Weighs.sharesWord, hearly.weighs⟩
  · exact mt (hscore document).mp hlate.not_weighs

/-- A word that stands first in the query and second in the title is found. -/
theorem words_find_iff_sea :
    ∃ scorer, compile ⟨"books", [], []⟩ (.words "title" (some "Sea")) = .ok scorer
      ∧ 0.0 < scorer.score (.obj [("title", .str "the sea")]) := by
  obtain ⟨scorer, hscorer, hfinds⟩ := words_find_iff ⟨"books", [], []⟩ "title" "Sea"
  refine ⟨scorer, hscorer, ((hfinds _).2.1 ?_).mpr ?_⟩
  · rw [resolve_title]
    refine .of_short fun value hvalue content hcontent => ?_
    rw [List.mem_singleton.mp hvalue, Scorer.searchableText, Option.some.injEq] at hcontent
    subst hcontent
    decide
  · rw [resolve_title]
    exact ⟨_, List.mem_singleton_self _, "the sea", rfl, "sea", by decide, by decide, by decide⟩

end Query

end DocSearch
