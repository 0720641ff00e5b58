import DocSearch.Search.Run

/-!
# Pages of a List

Pages of one size, each starting where the one before it ends, tile a list.

What is paged is a list of hits, but what a page is compared by is less than a hit: the
index, the id and the score. The rest of a hit depends on how much of it was asked for.

## Main definitions

* `Hit.label`: What tells a hit from others.

## Theorems

* `pageOf_append_pageOf`: A page and the one behind it are one longer page.
* `flatMap_pageOf`: Pages in a row are one long page.
* `flatMap_pageOf_of_le`: Enough pages are everything from the start of the first.
* `pageOf_of_length_le`: Behind the end pages are empty.
* `pageOf_min`: It does not matter how far behind the end a page starts.
-/

namespace DocSearch

/-- What tells a hit from others: its index, its id, and its score. -/
def Hit.label (hit : Hit) : String × String × Float := (hit.index, hit.id, hit.score)

namespace Search

/-- A page and the one behind it are one longer page. -/
theorem pageOf_append_pageOf (start size more : Nat) (hits : List Hit) :
    pageOf start size hits ++ pageOf (start + size) more hits
      = pageOf start (size + more) hits := by
  unfold pageOf
  rw [← List.drop_drop, List.take_add]

/-- Pages in a row, each starting where the one before it ends, are one long page. -/
theorem flatMap_pageOf (start size count : Nat) (hits : List Hit) :
    (List.range count).flatMap (fun page => pageOf (start + page * size) size hits)
      = pageOf start (count * size) hits := by
  induction count with
  | zero => simp [pageOf]
  | succ count ih =>
    rw [List.range_succ, List.flatMap_append, ih, List.flatMap_singleton,
      pageOf_append_pageOf, Nat.succ_mul]

/-- Enough pages are everything from the start of the first. -/
theorem flatMap_pageOf_of_le (start size count : Nat) {hits : List Hit}
    (h : hits.length ≤ start + count * size) :
    (List.range count).flatMap (fun page => pageOf (start + page * size) size hits)
      = hits.drop start := by
  rw [flatMap_pageOf, pageOf, List.take_of_length_le]
  rw [List.length_drop]
  omega

/-- Behind the end of a list pages are empty. -/
theorem pageOf_of_length_le {start : Nat} (size : Nat) {hits : List Hit}
    (h : hits.length ≤ start) : pageOf start size hits = [] := by
  rw [pageOf, List.drop_eq_nil_of_le h, List.take_nil]

/-- A place that is cut where the list has ended is as good as the place itself. -/
theorem pageOf_min {limit : Nat} (start size : Nat) {hits : List Hit}
    (h : hits.length ≤ limit) :
    pageOf (min start limit) size hits = pageOf start size hits := by
  by_cases hle : start ≤ limit
  · rw [Nat.min_eq_left hle]
  · rw [pageOf_of_length_le size (by omega), pageOf_of_length_le size (by omega)]

end Search

end DocSearch
