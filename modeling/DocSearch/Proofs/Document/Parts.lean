import DocSearch.Proofs.Document.Endings

/-!
# Paths Followed in Parts

A path can be cut between any two of its names, and the two parts followed one after the other.

Following the first part ends at some elements. What stands there need not be an object: it may be
an array, whose objects are all meant, or a scalar, which leads nowhere. So the second part is not
followed from the elements but from the objects they stand for, each in its turn. Every array on
the way is opened by this one rule, at a cut as well as between two names of one part, and that is
why it does not matter where a path is cut.

Both questions about a path cut it before its last name. The objects around the leaf are what the
names before it lead to, and the values are what the last name leads to from each of them. A path of
one name has nothing before it. There the object around the leaf is the document, and a document
that is no object has neither that object nor a value.

## Main definitions

* `Path.enclosedAt`: The objects that some names lead to.

## Theorems

* `elementsAt_append`: Following the names in two parts.
* `elementsAt_concat`: The last name, looked up in every object around it.
* `parentsOfLeaf_eq_enclosedAt`: The objects around the leaf of a path.
* `resolves_in_parts`: Both at once, with the values of a path.
-/

namespace DocSearch

namespace Path

/-- The objects that some names lead to: what stands there itself, or the objects among the
    elements of an array there. -/
def enclosedAt (names : List String) (node : Json) : List Json :=
  (elementsAt names node).flatMap objectsOf

/-- One step, and then the rest from every object found there, as for elements. -/
theorem enclosedAt_cons_cons (name next : String) (rest : List String) (node : Json) :
    enclosedAt (name :: next :: rest) node
      = ((node.get? name).toList.flatMap objectsOf).flatMap (enclosedAt (next :: rest)) := by
  rw [enclosedAt, elementsAt_cons_cons, List.flatMap_assoc]
  rfl

/-- Names followed in two parts. The induction is on the first one, name by name as they are
    followed. -/
theorem elementsAt_append : ∀ {front back : List String}, front ≠ [] → back ≠ [] →
    ∀ node, elementsAt (front ++ back) node = (enclosedAt front node).flatMap (elementsAt back)
  | [], _, hfront, _, _ => absurd rfl hfront
  | _ :: _, [], _, hback, _ => absurd rfl hback
  | [name], next :: back, _, _, node => by
    rw [List.singleton_append, elementsAt_cons_cons, enclosedAt, elementsAt_singleton]
  | name :: next :: front, back, _, hback, node => by
    -- Behind the first name both sides go on from the same objects.
    have hrest : elementsAt (next :: (front ++ back))
        = fun object => (enclosedAt (next :: front) object).flatMap (elementsAt back) :=
      funext fun object => elementsAt_append (List.cons_ne_nil next front) hback object
    rw [List.cons_append, List.cons_append, elementsAt_cons_cons, hrest, enclosedAt_cons_cons]
    exact List.flatMap_assoc.symm

/-- The last of some names is looked up in every object around it. -/
theorem elementsAt_concat {front : List String} (h : front ≠ []) (name : String) (node : Json) :
    elementsAt (front ++ [name]) node
      = (enclosedAt front node).flatMap fun parent => (parent.get? name).toList := by
  have hlast : elementsAt [name] = fun parent => (parent.get? name).toList :=
    funext (elementsAt_singleton name)
  rw [elementsAt_append h (List.cons_ne_nil name []), hlast]

/-- The objects around the leaf of a path are what the names before the leaf lead to. -/
theorem parentsOfLeaf_eq_enclosedAt {path leaf : String} {front : List String}
    (hpath : segments path = front ++ [leaf]) (h : front ≠ []) (document : Json) :
    parentsOfLeaf document path = enclosedAt front document := by
  rw [parentsOfLeaf, hpath, List.dropLast_concat]
  cases front with
  | nil => exact absurd rfl h
  | cons name rest => rfl

/-- A path of one name has the document around its leaf, if that is an object. -/
theorem parentsOfLeaf_single {path leaf : String} (hpath : segments path = [leaf])
    (document : Json) :
    parentsOfLeaf document path = if document.isObject then [document] else [] := by
  rw [parentsOfLeaf, hpath]
  rfl

/-- What a path leads to is what its last name leads to from the objects around it. -/
theorem elementsAt_segments (document : Json) (path : String) :
    elementsAt (segments path) document
      = (parentsOfLeaf document path).flatMap fun parent =>
          (parent.get? (leafName path)).toList := by
  have hpath := segments_eq_dropLast_append path
  by_cases h : (segments path).dropLast = []
  · -- Only an object has members, so a document of another kind has no leaf either.
    rw [h, List.nil_append] at hpath
    rw [parentsOfLeaf_single hpath, hpath, elementsAt_singleton]
    cases hobject : document.isObject with
    | false => rw [Json.get?_eq_none_of_not_isObject hobject]; rfl
    | true => exact (List.flatMap_singleton _ _).symm
  · rw [parentsOfLeaf_eq_enclosedAt hpath h, ← elementsAt_concat h, ← hpath]

/-- Following a path is done in parts, in every document. Names that are followed in two parts
    lead to what the second part leads to from every object around it, in the order of these
    objects. The objects around the leaf of a path are the ones its other names lead to. And the
    values of a path are the scalars that stand under its last name in the objects around its leaf,
    again in their order, the keyword ending taken off first. -/
theorem resolves_in_parts (document : Json) :
    (∀ front back : List String, front ≠ [] → back ≠ [] →
      elementsAt (front ++ back) document
        = (enclosedAt front document).flatMap (elementsAt back))
    ∧ (∀ (path leaf : String) (front : List String), segments path = front ++ [leaf] →
      front ≠ [] → parentsOfLeaf document path = enclosedAt front document)
    ∧ ∀ path, valuesAt document path
        = (parentsOfLeaf document (withoutKeyword path)).flatMap fun parent =>
            (parent.get? (leafName (withoutKeyword path))).toList.flatMap scalarsOf := by
  refine ⟨fun front back hfront hback => elementsAt_append hfront hback document,
    fun path leaf front hpath hfront => parentsOfLeaf_eq_enclosedAt hpath hfront document,
    fun path => ?_⟩
  rw [valuesAt, elementsAt_segments, List.flatMap_assoc]

/-- A document with remarks and the replies to them, among which one is no object. -/
def remarks : Json :=
  .obj [("remarks", .arr
    [.obj [("by", .str "ann"), ("replies", .arr [.obj [("by", .str "bob")], .obj [("by", .null)]])],
      .str "no object",
      .obj [("by", .str "dan"), ("replies", .obj [("by", .arr [.str "eve", .null, .str "flo"])])]])]

/-- The authors of the replies, in the order of the remarks. -/
theorem resolves_in_parts_remarks :
    elementsAt ["remarks", "replies", "by"] remarks
        = (enclosedAt ["remarks"] remarks).flatMap (elementsAt ["replies", "by"])
      ∧ parentsOfLeaf remarks "remarks.replies.by" = enclosedAt ["remarks", "replies"] remarks
      ∧ valuesAt remarks "remarks.replies.by.keyword" = [.str "bob", .str "eve", .str "flo"] := by
  rcases resolves_in_parts remarks with ⟨happend, hparents, hvalues⟩
  refine ⟨happend ["remarks"] ["replies", "by"] (by decide) (by decide),
    hparents "remarks.replies.by" "by" ["remarks", "replies"] (by decide) (by decide), ?_⟩
  rw [hvalues]
  rfl

end Path

end DocSearch
