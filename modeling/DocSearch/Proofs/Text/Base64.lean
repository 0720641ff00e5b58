import DocSearch.Proofs.Outcome
import DocSearch.Text.Base64

/-!
# Base64 Is Exact

Reading accepts the texts that writing produces and no others, and gives back the bytes they
were written from.

Both directions go through the groups of six bits. Writing cuts the bytes into sextets, shows
each by its symbol, and fills up with padding. Reading finds the sextets again, in two parts,
since only the last group may be short. So the code is exact if two things are: the symbols,
which is a matter of one byte, and the cut into sextets. The cut gives only some lists of
sextets, those whose unused bits are zero, and it is for them that putting sextets together
is its inverse.

## Main definitions

* `sextetsOf`: The sextets of some bytes.
* `Canonical`: Sextets that are those of some bytes.

## Theorems

* `sextet?_symbol`, `symbol_of_sextet?`: Symbols are exact.
* `bytesOf_sextetsOf`, `sextetsOf_bytesOf`: The cut into sextets is.
* `decode_eq_ok_iff_parts`: What reading does, as one condition on its parts.
* `decode_eq_ok_iff`: Reading is the inverse of writing.
-/

namespace DocSearch

namespace Base64

/-! ### Symbols -/

-- The alphabet has 64 symbols, so these two are decided symbol by symbol.
theorem sextet?_symbol : ∀ sextet < 64, sextet? (symbol sextet) = some sextet := by decide

theorem symbol_ne_pad : ∀ sextet < 64, symbol sextet ≠ pad := by decide

-- The cases are the ranges of symbols, in the order in which reading asks for them.
theorem symbol_of_sextet? {byte : UInt8} {sextet : Nat} (h : sextet? byte = some sextet) :
    symbol sextet = byte ∧ sextet < 64 := by
  have hbyte : UInt8.ofNat byte.toNat = byte := UInt8.ofNat_toNat
  unfold sextet? at h
  -- The alphabet has five parts: two of letters, the digits and two single symbols. In each of them
  -- the place of the byte gives the sextet, and the sextet gives the byte.
  by_cases hupper : 65 ≤ byte.toNat ∧ byte.toNat ≤ 90
  · rw [if_pos hupper, Option.some.injEq] at h
    have hback : 65 + sextet = byte.toNat := by omega
    rw [symbol, if_pos (by omega), hback]
    exact ⟨hbyte, by omega⟩
  rw [if_neg hupper] at h
  by_cases hlower : 97 ≤ byte.toNat ∧ byte.toNat ≤ 122
  · rw [if_pos hlower, Option.some.injEq] at h
    have hback : 71 + sextet = byte.toNat := by omega
    rw [symbol, if_neg (by omega), if_pos (by omega), hback]
    exact ⟨hbyte, by omega⟩
  rw [if_neg hlower] at h
  by_cases hdigit : 48 ≤ byte.toNat ∧ byte.toNat ≤ 57
  · rw [if_pos hdigit, Option.some.injEq] at h
    have hback : sextet - 4 = byte.toNat := by omega
    rw [symbol, if_neg (by omega), if_neg (by omega), if_pos (by omega), hback]
    exact ⟨hbyte, by omega⟩
  rw [if_neg hdigit] at h
  by_cases hplus : byte.toNat = 43
  · rw [if_pos hplus, Option.some.injEq] at h
    rw [hplus] at hbyte
    rw [← h, ← hbyte]
    decide
  rw [if_neg hplus] at h
  by_cases hslash : byte.toNat = 47
  · rw [if_pos hslash, Option.some.injEq] at h
    rw [hslash] at hbyte
    rw [← h, ← hbyte]
    decide
  rw [if_neg hslash] at h
  exact absurd h (by simp)

/-! ### Sextets -/

/-- The sextets of some bytes. The last one is filled up with zero bits. -/
def sextetsOf : List UInt8 → List Nat
  | [] => []
  | [a] => [a.toNat / 4, a.toNat % 4 * 16]
  | [a, b] => [a.toNat / 4, a.toNat % 4 * 16 + b.toNat / 16, b.toNat % 16 * 4]
  | a :: b :: c :: rest =>
    a.toNat / 4 :: (a.toNat % 4 * 16 + b.toNat / 16) :: (b.toNat % 16 * 4 + c.toNat / 64)
      :: c.toNat % 64 :: sextetsOf rest

/-- How many padding signs follow the sextets of some bytes. -/
def padCount (bytes : List UInt8) : Nat := (3 - bytes.length % 3) % 3

/-- Sextets that are those of some bytes: groups of four, and a last one of two or three in
    which the bits that belong to no byte are zero. -/
def Canonical : List Nat → Prop
  | [] => True
  | [_] => False
  | [a, b] => a < 64 ∧ b < 64 ∧ b % 16 = 0
  | [a, b, c] => a < 64 ∧ b < 64 ∧ c < 64 ∧ c % 4 = 0
  | a :: b :: c :: d :: rest => a < 64 ∧ b < 64 ∧ c < 64 ∧ d < 64 ∧ Canonical rest

/-- Encoding writes the sextets as symbols and pads behind them. The recursion takes three bytes at
    a time, here and in the next lemmas. -/
theorem encode_eq : ∀ bytes : List UInt8,
    encode bytes = (sextetsOf bytes).map symbol ++ List.replicate (padCount bytes) pad
  | [] => rfl
  | [_] => rfl
  | [_, _] => rfl
  | a :: b :: c :: rest => by
    have hpads : padCount (a :: b :: c :: rest) = padCount rest := by
      simp only [padCount, List.length_cons]
      omega
    rw [encode, sextetsOf, hpads, encode_eq rest]
    rfl

/-- Sextets and pads together make whole groups of four. -/
theorem length_sextetsOf : ∀ bytes : List UInt8,
    ((sextetsOf bytes).length + padCount bytes) % 4 = 0
  | [] => rfl
  | [_] => by simp [sextetsOf, padCount]
  | [_, _] => by simp [sextetsOf, padCount]
  | a :: b :: c :: rest => by
    have hrest := length_sextetsOf rest
    have hpads : padCount (a :: b :: c :: rest) = padCount rest := by
      simp only [padCount, List.length_cons]
      omega
    rw [sextetsOf, hpads]
    simp only [List.length_cons]
    omega

/-- The sextets of bytes are below 64 and have no bits that are left over. -/
theorem canonical_sextetsOf : ∀ bytes : List UInt8, Canonical (sextetsOf bytes)
  | [] => trivial
  -- The last one or two bytes fill up their sextets with zeros.
  | [a] => by
    have ha := a.toNat_lt
    simp only [sextetsOf, Canonical]
    omega
  | [a, b] => by
    have ha := a.toNat_lt
    have hb := b.toNat_lt
    simp only [sextetsOf, Canonical]
    omega
  | a :: b :: c :: rest => by
    have ha := a.toNat_lt
    have hb := b.toNat_lt
    have hc := c.toNat_lt
    have hrest := canonical_sextetsOf rest
    simp only [sextetsOf, Canonical]
    refine ⟨?_, ?_, ?_, ?_, hrest⟩ <;> omega

/-- Bytes that are cut into sextets are put together again. -/
theorem bytesOf_sextetsOf : ∀ bytes : List UInt8, bytesOf (sextetsOf bytes) = bytes
  | [] => rfl
  | [a] => by
    have ha := a.toNat_lt
    have hfirst : a.toNat / 4 * 4 + a.toNat % 4 * 16 / 16 = a.toNat := by omega
    simp only [sextetsOf, bytesOf, hfirst, UInt8.ofNat_toNat]
  | [a, b] => by
    have ha := a.toNat_lt
    have hb := b.toNat_lt
    -- Two bytes are spread over three sextets. Each byte is put together from the end of one sextet
    -- and the beginning of the next.
    have hfirst : a.toNat / 4 * 4 + (a.toNat % 4 * 16 + b.toNat / 16) / 16 = a.toNat := by omega
    have hsecond : (a.toNat % 4 * 16 + b.toNat / 16) % 16 * 16 + b.toNat % 16 * 4 / 4
        = b.toNat := by omega
    simp only [sextetsOf, bytesOf, hfirst, hsecond, UInt8.ofNat_toNat]
  | a :: b :: c :: rest => by
    have ha := a.toNat_lt
    have hb := b.toNat_lt
    have hc := c.toNat_lt
    have hfirst : a.toNat / 4 * 4 + (a.toNat % 4 * 16 + b.toNat / 16) / 16 = a.toNat := by omega
    have hsecond : (a.toNat % 4 * 16 + b.toNat / 16) % 16 * 16
        + (b.toNat % 16 * 4 + c.toNat / 64) / 4 = b.toNat := by omega
    have hthird : (b.toNat % 16 * 4 + c.toNat / 64) % 4 * 64 + c.toNat % 64 = c.toNat := by omega
    simp only [sextetsOf, bytesOf, hfirst, hsecond, hthird, UInt8.ofNat_toNat,
      bytesOf_sextetsOf rest]

-- A byte that is put together from sextets is small enough to be one.
theorem toNat_ofNat_of_lt {n : Nat} (h : n < 256) : (UInt8.ofNat n).toNat = n := by
  rw [UInt8.toNat_ofNat']
  exact Nat.mod_eq_of_lt h

/-- Sextets without bits left over are cut again as they were. -/
theorem sextetsOf_bytesOf : ∀ {sextets : List Nat}, Canonical sextets →
    sextetsOf (bytesOf sextets) = sextets
  | [], _ => rfl
  | [_], h => absurd h id
  -- Each sextet is found again in the bytes it was spread over; what was left over is zero by
  -- assumption.
  | [a, b], h => by
    simp only [Canonical] at h
    have hfirst : (a * 4 + b / 16) / 4 = a := by omega
    have hsecond : (a * 4 + b / 16) % 4 * 16 = b := by omega
    rw [bytesOf, sextetsOf, toNat_ofNat_of_lt (by omega), hfirst, hsecond]
  | [a, b, c], h => by
    simp only [Canonical] at h
    have hfirst : (a * 4 + b / 16) / 4 = a := by omega
    have hsecond : (a * 4 + b / 16) % 4 * 16 + (b % 16 * 16 + c / 4) / 16 = b := by omega
    have hthird : (b % 16 * 16 + c / 4) % 16 * 4 = c := by omega
    rw [bytesOf, sextetsOf, toNat_ofNat_of_lt (by omega), toNat_ofNat_of_lt (by omega), hfirst,
      hsecond, hthird]
  | a :: b :: c :: d :: rest, h => by
    simp only [Canonical] at h
    rcases h with ⟨ha, hb, hc, hd, hrest⟩
    have hfirst : (a * 4 + b / 16) / 4 = a := by omega
    have hsecond : (a * 4 + b / 16) % 4 * 16 + (b % 16 * 16 + c / 4) / 16 = b := by omega
    have hthird : (b % 16 * 16 + c / 4) % 16 * 4 + (c % 4 * 64 + d) / 64 = c := by omega
    have hfourth : (c % 4 * 64 + d) % 64 = d := by omega
    rw [bytesOf, sextetsOf, toNat_ofNat_of_lt (by omega), toNat_ofNat_of_lt (by omega),
      toNat_ofNat_of_lt (by omega), sextetsOf_bytesOf hrest, hfirst, hsecond, hthird, hfourth]

/-- There is nothing in the bits that a last group leaves over. -/
theorem unusedBits_of_canonical : ∀ {sextets : List Nat}, Canonical sextets →
    unusedBits sextets = 0
  | [], _ => rfl
  | [_], h => absurd h id
  | [_, _], h => h.2.2
  | [_, _, _], h => h.2.2.2
  | _ :: _ :: _ :: _ :: _, _ => rfl

/-- All sextets are below 64. -/
theorem lt_of_canonical : ∀ {sextets : List Nat}, Canonical sextets →
    ∀ sextet ∈ sextets, sextet < 64
  | [], _ => fun _ h => absurd h List.not_mem_nil
  | [_], h => absurd h id
  -- In a last group, too, a sextet is below 64, since the leftover bits only lower it.
  | [a, b], h => by
    simp only [Canonical] at h
    simp only [List.mem_cons, List.not_mem_nil, or_false]
    rintro sextet (rfl | rfl) <;> omega
  | [a, b, c], h => by
    simp only [Canonical] at h
    simp only [List.mem_cons, List.not_mem_nil, or_false]
    rintro sextet (rfl | rfl | rfl) <;> omega
  | a :: b :: c :: d :: rest, h => by
    simp only [Canonical] at h
    rcases h with ⟨ha, hb, hc, hd, hrest⟩
    simp only [List.mem_cons]
    rintro sextet (rfl | rfl | rfl | rfl | hmem)
    · exact ha
    · exact hb
    · exact hc
    · exact hd
    · exact lt_of_canonical hrest sextet hmem

-- Whole groups may be taken away or put in front.
theorem canonical_append_iff : ∀ {body last : List Nat}, body.length % 4 = 0 →
    (Canonical (body ++ last) ↔ (∀ sextet ∈ body, sextet < 64) ∧ Canonical last)
  | [], last, _ => by simp
  | [_], _, h => absurd h (by simp)
  | [_, _], _, h => absurd h (by simp)
  | [_, _, _], _, h => absurd h (by simp)
  | a :: b :: c :: d :: rest, last, h => by
    have hrest : rest.length % 4 = 0 := by
      simp only [List.length_cons] at h
      omega
    simp only [List.cons_append, Canonical, canonical_append_iff hrest, List.mem_cons,
      forall_eq_or_imp, and_assoc]

/-! ### Groups -/

/-- Symbols are read as the sextets that they stand for. -/
theorem sextets_map_symbol {offset : Nat} {symbols : List Nat}
    (h : ∀ sextet ∈ symbols, sextet < 64) :
    sextets offset (symbols.map symbol) = .ok symbols := by
  induction symbols generalizing offset with
  | nil => rfl
  | cons sextet rest ih =>
    rw [List.map_cons, sextets, sextet?_symbol sextet (h sextet List.mem_cons_self),
      ih fun other hother => h other (List.mem_cons_of_mem _ hother)]
    rfl

/-- Whatever is read as sextets was written in symbols. -/
theorem eq_map_symbol_of_sextets {offset : Nat} {bytes : List UInt8} {symbols : List Nat}
    (h : sextets offset bytes = .ok symbols) :
    bytes = symbols.map symbol ∧ ∀ sextet ∈ symbols, sextet < 64 := by
  induction bytes generalizing offset symbols with
  | nil =>
    cases h
    exact ⟨rfl, fun _ h => absurd h List.not_mem_nil⟩
  | cons byte rest ih =>
    rw [sextets] at h
    cases hbyte : sextet? byte with
    | none =>
      rw [hbyte] at h
      exact absurd h (by simp)
    | some sextet =>
      rw [hbyte] at h
      rcases Outcome.map_eq_ok_iff.mp h with ⟨others, hothers, rfl⟩
      rcases ih hothers with ⟨hrest, hlt⟩
      -- Each byte that has a sextet is the symbol of that sextet, so nothing but symbols is read.
      rcases symbol_of_sextet? hbyte with ⟨hsymbol, hsextet⟩
      refine ⟨by rw [List.map_cons, hsymbol, ← hrest], fun other hother => ?_⟩
      rcases List.mem_cons.mp hother with rfl | hother
      · exact hsextet
      · exact hlt other hother

-- Behind a padding sign only padding is read.
theorem lastGroup_pads (start firstPad : Nat) : ∀ {place pads : Nat}, 2 ≤ place →
    lastGroup start place (some firstPad) (List.replicate pads pad) = .ok ([], pads) := by
  intro place pads
  induction pads generalizing place with
  | zero => intro _; rfl
  | succ pads ih =>
    intro hplace
    rw [List.replicate_succ, lastGroup, if_pos rfl, if_neg (by omega), Option.getD_some,
      ih (by omega)]
    rfl

/-- The last group reads symbols and the pads behind them. A pad is accepted from the third place
    on. -/
theorem lastGroup_symbols {start : Nat} {symbols : List Nat} {pads : Nat}
    (h : ∀ sextet ∈ symbols, sextet < 64) :
    ∀ {place : Nat}, 2 ≤ place + symbols.length →
      lastGroup start place none (symbols.map symbol ++ List.replicate pads pad)
        = .ok (symbols, pads) := by
  induction symbols with
  | nil =>
    intro place hplace
    rw [List.length_nil, Nat.add_zero] at hplace
    cases pads with
    | zero => rfl
    | succ pads =>
      rw [List.map_nil, List.nil_append, List.replicate_succ]
      unfold lastGroup
      -- The first pad comes behind at least two symbols, and behind it only pads are read.
      rw [if_pos rfl, if_neg (by omega), lastGroup_pads start _ (by omega)]
      rfl
  | cons sextet rest ih =>
    intro place hplace
    rw [List.length_cons] at hplace
    have hsextet := h sextet List.mem_cons_self
    rw [List.map_cons, List.cons_append]
    unfold lastGroup
    rw [if_neg (symbol_ne_pad sextet hsextet), sextet?_symbol sextet hsextet,
      ih (fun other hother => h other (List.mem_cons_of_mem _ hother)) (by omega)]
    rfl

/-- Behind the first pad of a last group there are only pads. -/
theorem eq_replicate_of_lastGroup {start firstPad : Nat} {bytes : List UInt8} :
    ∀ {place : Nat} {symbols : List Nat} {pads : Nat},
      lastGroup start place (some firstPad) bytes = .ok (symbols, pads) →
      symbols = [] ∧ bytes = List.replicate pads pad := by
  induction bytes with
  | nil =>
    intro place symbols pads h
    cases h
    exact ⟨rfl, rfl⟩
  | cons byte rest ih =>
    intro place symbols pads h
    rw [lastGroup] at h
    by_cases hpad : byte = pad
    · rw [if_pos hpad] at h
      -- A pad is refused among the first two places.
      by_cases hplace : place < 2
      · rw [if_pos hplace] at h
        exact absurd h (by simp)
      · rw [if_neg hplace, Option.getD_some] at h
        rcases Outcome.map_eq_ok_iff.mp h with ⟨⟨others, more⟩, hrest, heq⟩
        rcases ih hrest with ⟨rfl, hbytes⟩
        cases heq
        exact ⟨rfl, by rw [hpad, hbytes, List.replicate_succ]⟩
    · rw [if_neg hpad] at h
      exact absurd h (by simp)

/-- So a last group that is read consists of symbols and of pads behind them. -/
theorem eq_symbols_of_lastGroup {start : Nat} {bytes : List UInt8} :
    ∀ {place : Nat} {symbols : List Nat} {pads : Nat},
      lastGroup start place none bytes = .ok (symbols, pads) →
      bytes = symbols.map symbol ++ List.replicate pads pad
        ∧ ∀ sextet ∈ symbols, sextet < 64 := by
  induction bytes with
  | nil =>
    intro place symbols pads h
    cases h
    exact ⟨rfl, fun _ h => absurd h List.not_mem_nil⟩
  | cons byte rest ih =>
    intro place symbols pads h
    unfold lastGroup at h
    -- The first pad ends the symbols, and what is behind it is the lemma before.
    by_cases hpad : byte = pad
    · rw [if_pos hpad] at h
      by_cases hplace : place < 2
      · rw [if_pos hplace] at h
        exact absurd h (by simp)
      · rw [if_neg hplace] at h
        rcases Outcome.map_eq_ok_iff.mp h with ⟨⟨others, more⟩, hrest, heq⟩
        rcases eq_replicate_of_lastGroup hrest with ⟨rfl, hbytes⟩
        cases heq
        refine ⟨?_, fun _ h => absurd h List.not_mem_nil⟩
        rw [hpad, hbytes, List.replicate_succ]
        rfl
    · rw [if_neg hpad] at h
      cases hbyte : sextet? byte with
      | none =>
        rw [hbyte] at h
        exact absurd h (by simp)
      | some sextet =>
        rw [hbyte] at h
        rcases Outcome.map_eq_ok_iff.mp h with ⟨⟨others, more⟩, hrest, heq⟩
        rcases ih hrest with ⟨hbytes, hlt⟩
        rcases symbol_of_sextet? hbyte with ⟨hsymbol, hsextet⟩
        cases heq
        refine ⟨by rw [hbytes, List.map_cons, hsymbol, List.cons_append], ?_⟩
        intro other hother
        rcases List.mem_cons.mp hother with rfl | hother
        · exact hsextet
        · exact hlt other hother

/-! ### Texts -/

/-- What reading does, as one condition on its parts: no stray end, whole groups, a last group
    of four with two symbols at least, and no unused bits. -/
theorem decode_eq_ok_iff_parts {text bytes : List UInt8} :
    decode text = .ok bytes
      ↔ strayEnd? text = none ∧ ∃ body last pads,
          sextets 0 (text.take (text.length - lastGroupLength text.length)) = .ok body
          ∧ lastGroup (text.length - lastGroupLength text.length) 0 none
              (text.drop (text.length - lastGroupLength text.length)) = .ok (last, pads)
          ∧ (text ≠ [] → 2 ≤ last.length ∧ last.length + pads = 4)
          ∧ unusedBits last = 0 ∧ bytes = bytesOf (body ++ last) := by
  unfold decode
  cases hstray : strayEnd? text with
  | some fault => exact iff_of_false Outcome.throw_bind_ne_ok fun h => absurd h.1 (by simp)
  | none =>
    simp only [true_and, Outcome.bind_eq_ok_iff, Prod.exists, exists_and_left]
    refine exists_congr fun body => and_congr_right fun _ => exists_congr fun last =>
      exists_congr fun pads => and_congr_right fun _ => ?_
    -- The three checks that are left, in the order in which they are made.
    by_cases hlength : text ≠ [] ∧ last.length < 2
    · rw [if_pos hlength]
      refine iff_of_false Outcome.throw_bind_ne_ok fun h => ?_
      have htwo := (h.1 hlength.1).1
      omega
    rw [if_neg hlength]
    by_cases hpadding : text ≠ [] ∧ last.length + pads ≠ 4
    · rw [if_pos hpadding]
      exact iff_of_false Outcome.throw_bind_ne_ok fun h => hpadding.2 (h.1 hpadding.1).2
    rw [if_neg hpadding]
    by_cases hunused : unusedBits last ≠ 0
    · rw [if_pos hunused]
      exact iff_of_false Outcome.throw_bind_ne_ok fun h => hunused h.2.1
    rw [if_neg hunused]
    constructor
    · intro h
      refine ⟨fun htext => ⟨?_, ?_⟩, Decidable.not_not.mp hunused, (Except.ok.inj h).symm⟩
      · exact Nat.le_of_not_lt fun hlt => hlength ⟨htext, hlt⟩
      · exact Decidable.not_not.mp fun hne => hpadding ⟨htext, hne⟩
    · rintro ⟨_, _, rfl⟩
      rfl

theorem padCount_le (bytes : List UInt8) : padCount bytes ≤ 2 := by
  unfold padCount
  omega

-- The checks of the last group are what makes it the end of some bytes.
theorem canonical_last : ∀ {last : List Nat}, 2 ≤ last.length → last.length ≤ 4 →
    (∀ sextet ∈ last, sextet < 64) → unusedBits last = 0 → Canonical last
  | [], h, _, _, _ => absurd h (by simp)
  | [_], h, _, _, _ => absurd h (by simp)
  | [a, b], _, _, hlt, hunused => by
    exact ⟨hlt a (by simp), hlt b (by simp), hunused⟩
  | [a, b, c], _, _, hlt, hunused => by
    exact ⟨hlt a (by simp), hlt b (by simp), hlt c (by simp), hunused⟩
  | [a, b, c, d], _, _, hlt, _ => by
    exact ⟨hlt a (by simp), hlt b (by simp), hlt c (by simp), hlt d (by simp), trivial⟩
  | _ :: _ :: _ :: _ :: _ :: _, _, h, _, _ => absurd h (by simp)

/-- What writing produces is read back. -/
theorem decode_encode (bytes : List UInt8) : decode (encode bytes) = .ok bytes := by
  by_cases hbytes : bytes = []
  · rw [hbytes]
    rfl
  have hcanonical := canonical_sextetsOf bytes
  have hback := bytesOf_sextetsOf bytes
  have hwhole := length_sextetsOf bytes
  have hpads := padCount_le bytes
  have hlt := lt_of_canonical hcanonical
  -- A text that is not empty has a last group.
  have hne : sextetsOf bytes ≠ [] := by
    intro h
    rw [h] at hback
    exact hbytes hback.symm
  have hpositive := List.length_pos_iff.mpr hne
  have hlength : (encode bytes).length = (sextetsOf bytes).length + padCount bytes := by
    rw [encode_eq, List.length_append, List.length_map, List.length_replicate]
  -- The last group of the text is its last four bytes.
  have hstart : (encode bytes).length - lastGroupLength (encode bytes).length
      = (sextetsOf bytes).length + padCount bytes - 4 := by
    rw [hlength, lastGroupLength, if_pos hwhole]
    omega
  have hsplit : sextetsOf bytes = (sextetsOf bytes).take
        ((sextetsOf bytes).length + padCount bytes - 4)
      ++ (sextetsOf bytes).drop ((sextetsOf bytes).length + padCount bytes - 4) :=
    (List.take_append_drop _ _).symm
  generalize hplace : (sextetsOf bytes).length + padCount bytes - 4 = start at hstart hsplit
  -- The groups before the last one are whole, so they end where three bytes do.
  have hbody : ((sextetsOf bytes).take start).length % 4 = 0 := by
    rw [List.length_take]
    omega
  rw [hsplit] at hcanonical
  have hlast := ((canonical_append_iff hbody).mp hcanonical).2
  rw [decode_eq_ok_iff_parts, hstart, encode_eq]
  refine ⟨?_, (sextetsOf bytes).take start, (sextetsOf bytes).drop start, padCount bytes, ?_, ?_,
    fun _ => ?_, unusedBits_of_canonical hlast, ?_⟩
  · rw [strayEnd?, ← encode_eq, hlength, if_neg (by omega)]
  · rw [List.take_append_of_le_length (by rw [List.length_map]; omega), ← List.map_take]
    exact sextets_map_symbol fun sextet h => hlt sextet (List.mem_of_mem_take h)
  · rw [List.drop_append_of_le_length (by rw [List.length_map]; omega), ← List.map_drop]
    refine lastGroup_symbols (fun sextet h => hlt sextet (List.mem_of_mem_drop h)) ?_
    rw [List.length_drop]
    omega
  · rw [List.length_drop]
    omega
  · rw [← hsplit, hback]

/-- What is read was written from the bytes that are read. -/
theorem eq_encode_of_decode {text bytes : List UInt8} (h : decode text = .ok bytes) :
    text = encode bytes := by
  rcases decode_eq_ok_iff_parts.mp h with
    ⟨_, body, last, pads, hbody, hlast, hshape, hunused, rfl⟩
  rcases eq_map_symbol_of_sextets hbody with ⟨hfront, hbodyLt⟩
  rcases eq_symbols_of_lastGroup hlast with ⟨hback, hlastLt⟩
  -- The text is what was read, written in symbols again.
  have htext : text = body.map symbol ++ (last.map symbol ++ List.replicate pads pad) := by
    rw [← hfront, ← hback, List.take_append_drop]
  by_cases hempty : text = []
  · rw [hempty] at htext
    have hnil := List.append_eq_nil_iff.mp htext.symm
    have hnil' := List.append_eq_nil_iff.mp hnil.2
    rw [List.map_eq_nil_iff.mp hnil.1, List.map_eq_nil_iff.mp hnil'.1, hempty]
    rfl
  rcases hshape hempty with ⟨htwo, hfour⟩
  have hlengthBack := congrArg List.length hback
  have hlengthFront := congrArg List.length hfront
  rw [List.length_drop, List.length_append, List.length_map, List.length_replicate]
    at hlengthBack
  rw [List.length_take, List.length_map] at hlengthFront
  -- The last group has four bytes, so the groups before it are whole.
  have hwhole : body.length % 4 = 0 := by
    unfold lastGroupLength at hlengthBack hlengthFront
    by_cases hmod : text.length % 4 = 0
    · rw [if_pos hmod] at hlengthBack hlengthFront
      omega
    · rw [if_neg hmod] at hlengthBack hlengthFront
      omega
  have hcanonical : Canonical (body ++ last) :=
    (canonical_append_iff hwhole).mpr
      ⟨hbodyLt, canonical_last htwo (by omega) hlastLt hunused⟩
  have hsextets := sextetsOf_bytesOf hcanonical
  -- The sextets settle how many pads there have to be.
  have hpads : padCount (bytesOf (body ++ last)) = pads := by
    have hsum := length_sextetsOf (bytesOf (body ++ last))
    have hle := padCount_le (bytesOf (body ++ last))
    rw [hsextets, List.length_append] at hsum
    omega
  rw [encode_eq, hsextets, hpads, htext, List.map_append, List.append_assoc]

/-- Reading is the inverse of writing: a text stands for some bytes exactly if it is what
    they are written as. -/
theorem decode_eq_ok_iff {text bytes : List UInt8} :
    decode text = .ok bytes ↔ text = encode bytes := by
  constructor
  · exact eq_encode_of_decode
  · rintro rfl
    exact decode_encode bytes

-- All symbols, and the padding sign, are ASCII.
theorem lt_of_mem_encode {bytes : List UInt8} {byte : UInt8} (h : byte ∈ encode bytes) :
    byte.toNat < 128 := by
  have hsymbol : ∀ sextet < 64, (symbol sextet).toNat < 128 := by decide
  rw [encode_eq, List.mem_append] at h
  rcases h with h | h
  · rcases List.mem_map.mp h with ⟨sextet, hmem, rfl⟩
    exact hsymbol sextet (lt_of_canonical (canonical_sextetsOf bytes) sextet hmem)
  · rw [List.eq_of_mem_replicate h]
    decide

end Base64

end DocSearch
