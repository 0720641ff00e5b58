import DocSearch.Proofs.Text.Base64
import DocSearch.Scroll.Id

/-!
# Scroll Ids Are Exact

Every node has one id, and no other text is accepted.

An id goes through three codes: the node to its bytes, the frame and the bytes to symbols,
and the symbols, which are ASCII, to a text. Each of them is exact, so the id is. What this
is for is that two ids never name one scroll. A client who reads a scroll is the only one who
moves it, as long as nobody else has the very same text.

## Theorems

* `textOf?_eq_some_iff`: UTF-8 is exact.
* `bytesOf_ofList_of_ascii`: A text of ASCII characters has them as its bytes.
* `decode_eq_ok_iff_encode`: An id is read as a node exactly if it is the id of that node.
* `encode_injective`: Different nodes have different ids.
* `kind_of_decode_error`: Whatever is refused is a mistake in the request.
* `ids_exact`: Ids and nodes correspond one to one, and every other text is refused.
-/

namespace DocSearch

namespace ScrollId

/-- UTF-8 is exact: some bytes are read as a text exactly if they are those of the text. -/
theorem textOf?_eq_some_iff {bytes : List UInt8} {text : String} :
    textOf? bytes = some text ↔ bytes = bytesOf text := by
  unfold textOf? String.fromUTF8?
  constructor
  · intro h
    by_cases hvalid : (ByteArray.mk bytes.toArray).IsValidUTF8
    · rw [dif_pos hvalid, Option.some.injEq] at h
      rw [← h]
      rfl
    · rw [dif_neg hvalid] at h
      exact absurd h (by simp)
  · rintro rfl
    have hvalid : (ByteArray.mk (bytesOf text).toArray).IsValidUTF8 := text.isValidUTF8
    rw [dif_pos hvalid]
    rfl

/-- The bytes of a text settle the text. -/
theorem bytesOf_injective {text other : String} (h : bytesOf text = bytesOf other) :
    text = other := by
  have htext := textOf?_eq_some_iff.mpr h
  have hself := textOf?_eq_some_iff.mpr (Eq.refl (bytesOf text))
  rw [hself, Option.some.injEq] at htext
  exact htext

/-- An ASCII character is one byte, which is its code. -/
theorem utf8EncodeChar_of_ascii {byte : UInt8} (h : byte.toNat < 128) :
    String.utf8EncodeChar (Char.ofNat byte.toNat) = [byte] := by
  have hvalid : byte.toNat.isValidChar := Or.inl (by omega)
  have hvalue : (Char.ofNat byte.toNat).val.toNat = byte.toNat := by
    rw [Char.ofNat, dif_pos hvalid]
    rfl
  unfold String.utf8EncodeChar
  simp only [hvalue]
  rw [if_pos (by omega), UInt8.ofNat_toNat]

/-- A text of ASCII characters has them as its bytes. -/
theorem bytesOf_ofList_of_ascii {bytes : List UInt8} (h : ∀ byte ∈ bytes, byte.toNat < 128) :
    bytesOf (String.ofList (bytes.map fun byte => Char.ofNat byte.toNat)) = bytes := by
  have hencode : (bytes.map fun byte => Char.ofNat byte.toNat).flatMap String.utf8EncodeChar
      = bytes := by
    induction bytes with
    | nil => rfl
    | cons byte rest ih =>
      rw [List.map_cons, List.flatMap_cons, utf8EncodeChar_of_ascii (h byte List.mem_cons_self),
        ih fun other hother => h other (List.mem_cons_of_mem _ hother)]
      rfl
  rw [bytesOf, String.toUTF8_eq_toByteArray, String.toByteArray_ofList, List.utf8Encode, hencode,
    List.toList_data_toByteArray]

/-- An id is read as a node exactly if it is the id of that node. -/
theorem decode_eq_ok_iff_encode {id node : String} :
    decode id = .ok node ↔ id = encode node := by
  constructor
  · -- The three codes are taken off one after another, symbols first.
    intro h
    unfold decode at h
    cases hbytes : Base64.decode (bytesOf id) with
    | error fault =>
      rw [hbytes] at h
      exact absurd h (by simp)
    | ok bytes =>
      simp only [hbytes] at h
      by_cases hframe : frame.isPrefixOf bytes = true
      · rw [if_pos hframe] at h
        rcases List.isPrefixOf_iff_prefix.mp hframe with ⟨rest, rfl⟩
        rw [List.drop_left] at h
        cases htext : textOf? rest with
        | none =>
          rw [htext] at h
          exact absurd h (by simp)
        | some text =>
          rw [htext] at h
          cases h
          have hrest := textOf?_eq_some_iff.mp htext
          have hsymbols := Base64.decode_eq_ok_iff.mp hbytes
          -- Each code is exact, so the id is what the node is encoded to.
          refine bytesOf_injective ?_
          rw [hsymbols, hrest, encode,
            bytesOf_ofList_of_ascii fun byte hmem => Base64.lt_of_mem_encode hmem]
      · rw [if_neg hframe] at h
        exact absurd h (by simp)
  · rintro rfl
    have hbytes : Base64.decode (bytesOf (encode node)) = .ok (frame ++ bytesOf node) := by
      rw [Base64.decode_eq_ok_iff, encode,
        bytesOf_ofList_of_ascii fun byte hmem => Base64.lt_of_mem_encode hmem]
    have hframe : frame.isPrefixOf (frame ++ bytesOf node) = true :=
      List.isPrefixOf_iff_prefix.mpr (List.prefix_append _ _)
    have hnode := textOf?_eq_some_iff.mpr (Eq.refl (bytesOf node))
    simp only [decode, hbytes, if_pos hframe, List.drop_left, hnode]

/-- Different nodes have different ids. -/
theorem encode_injective {node other : String} (h : encode node = encode other) :
    node = other := by
  have hnode := decode_eq_ok_iff_encode.mpr (Eq.refl (encode node))
  rw [decode_eq_ok_iff_encode.mpr h, Except.ok.injEq] at hnode
  exact hnode.symm

/-- Whatever is refused as an id is a mistake in the request, be it in the symbols, in the
    frame or in the bytes of the node. -/
theorem kind_of_decode_error {id : String} {error : Error} (h : decode id = .error error) :
    error.kind = .validation := by
  unfold decode at h
  -- There are three faults: it is not Base64, it does not begin with the frame, or what follows is
  -- not UTF-8.
  cases hbytes : Base64.decode (bytesOf id) with
  | error fault =>
    rw [hbytes] at h
    cases h
    rfl
  | ok bytes =>
    simp only [hbytes] at h
    by_cases hframe : frame.isPrefixOf bytes = true
    · rw [if_pos hframe] at h
      cases htext : textOf? (bytes.drop frame.length) with
      | none =>
        rw [htext] at h
        cases h
        rfl
      | some node =>
        rw [htext] at h
        exact absurd h (by simp)
    · rw [if_neg hframe] at h
      cases h
      rfl

/-- Ids and nodes correspond one to one. The id of a node is the Base64 text of the frame and
    the node. A text is read as a node exactly if it is the id of that node, so every node
    comes back from its id and no two texts are accepted for one node. Every text that is not
    the id of some node is refused as a mistake in the request. -/
theorem ids_exact :
    (∀ node, bytesOf (encode node) = Base64.encode (frame ++ bytesOf node))
      ∧ (∀ id node, decode id = .ok node ↔ id = encode node)
      ∧ (∀ node, decode (encode node) = .ok node)
      ∧ (∀ id other node, decode id = .ok node → decode other = .ok node → id = other)
      ∧ ∀ id, (∀ node, id ≠ encode node) →
          ∃ error, decode id = .error error ∧ error.kind = .validation := by
  refine ⟨fun node => ?_, fun id node => decode_eq_ok_iff_encode,
    fun node => decode_eq_ok_iff_encode.mpr rfl, fun id other node hid hother => ?_,
    fun id hnone => ?_⟩
  · exact bytesOf_ofList_of_ascii fun byte hmem => Base64.lt_of_mem_encode hmem
  · rw [decode_eq_ok_iff_encode.mp hid, decode_eq_ok_iff_encode.mp hother]
  · cases hdecode : decode id with
    | error error => exact ⟨error, rfl, kind_of_decode_error hdecode⟩
    | ok node => exact absurd (decode_eq_ok_iff_encode.mp hdecode) (hnone node)

end ScrollId

end DocSearch
