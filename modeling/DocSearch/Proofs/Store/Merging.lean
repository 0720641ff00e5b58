import DocSearch.Proofs.Store.Coherence
import DocSearch.Proofs.Store.Drawing

/-!
# Documents Put into Another Index

Copying the documents of an index into another one is putting them there one after another. Put
like that it is a loop that could stop at every step, and its outcome depends on the order of the
steps. Neither is so.

It cannot stop, since the documents of an index are objects and objects are accepted. And the
outcome can be written down. The documents that were there keep their places. Where an id is also
an id of the source its document is replaced, and behind them come the documents of the source
with new ids, in the order of the source. This takes that both have every id once: otherwise it
would matter which of two documents with one id comes later.

Putting a document where it is already changes nothing, neither in the list nor in the table
behind it. So putting the same documents a second time changes nothing, and nothing comes of
putting the documents of an index into itself.

## Main definitions

* `Collection.putAll`: Documents put one after another.
* `Collection.merge`: What comes of it.

## Theorems

* `putAll_eq_merge`: Putting one after another merges.
* `get?_putAll`: What was put is there.
* `exists_putAll_eq`, `putAll_of_held`: Objects, and documents that are there already.
* `reindex_merges`: Copying the documents of an index.
-/

namespace DocSearch

namespace Collection

variable {id : String} {document : Json} {rows others : Collection}

/-- Put documents one after another. -/
def putAll (rows others : Collection) : Collection :=
  others.foldl (fun built row => put row.1 row.2 built) rows

/-- The rows in their places, each with the document that the others have under its id if they
    have one, and behind them the others with new ids. -/
def merge (rows others : Collection) : Collection :=
  rows.map (fun row => (row.1, (Keyed.get? row.1 others).getD row.2))
    ++ others.filter fun row => row.1 ∉ Keyed.keys rows

theorem merge_nil (rows : Collection) : merge rows [] = rows := by
  rw [merge, List.filter_nil, List.append_nil]
  exact List.map_id' rows

-- Putting the first of some rows and merging the rest merges all of them.
theorem merge_put (hrows : (Keyed.keys rows).Nodup) (hid : id ∉ Keyed.keys others) :
    merge (put id document rows) others = merge rows ((id, document) :: others) := by
  have hnone := (Keyed.get?_eq_none_iff id others).mpr hid
  by_cases hmem : id ∈ Keyed.keys rows
  · -- The id is there already, so the write replaces a document in its place and the merge does the
    -- same.
    have hnew : others.filter (fun row => row.1 ∉ Keyed.keys (put id document rows))
        = ((id, document) :: others).filter fun row => row.1 ∉ Keyed.keys rows := by
      rw [List.filter_cons_of_neg (by simpa using hmem)]
      refine List.filter_congr fun row _ => ?_
      rw [decide_eq_decide, mem_keys_put, not_or, and_iff_right_iff_imp]
      exact fun hfree heq => hfree (heq ▸ hmem)
    rw [merge, merge, hnew, put_of_mem hrows hmem, List.map_map]
    congr 1
    refine List.map_congr_left fun row _ => ?_
    by_cases hrow : row.1 = id
    · simp [Keyed.get?, hrow, hnone]
    · simp [Keyed.get?, hrow, Ne.symm hrow]
  · have hnew : others.filter (fun row => row.1 ∉ Keyed.keys (put id document rows))
        = others.filter fun row => row.1 ∉ Keyed.keys rows := by
      refine List.filter_congr fun row hrow => ?_
      rw [decide_eq_decide, mem_keys_put, not_or, and_iff_right_iff_imp]
      exact fun _ heq => hid (heq ▸ List.mem_map_of_mem hrow)
    have hold : rows.map (fun row => (row.1, (Keyed.get? row.1 others).getD row.2))
        = rows.map fun row =>
            (row.1, (Keyed.get? row.1 ((id, document) :: others)).getD row.2) := by
      refine List.map_congr_left fun row hrow => ?_
      have hne : id ≠ row.1 := fun heq => hmem (heq ▸ List.mem_map_of_mem hrow)
      rw [Keyed.get?, if_neg hne]
    rw [merge, hnew, merge, ← hold, put_of_notMem hmem,
      List.filter_cons_of_pos (by simpa using hmem), List.map_append, List.append_assoc,
      List.map_singleton, hnone]
    rfl

/-- Putting one after another merges, where both have every id once. By induction on what is put,
    whatever it is put into. -/
theorem putAll_eq_merge (hrows : (Keyed.keys rows).Nodup) (hothers : (Keyed.keys others).Nodup) :
    putAll rows others = merge rows others := by
  induction others generalizing rows with
  | nil => exact (merge_nil rows).symm
  | cons row rest ih =>
    rcases row with ⟨id, document⟩
    rw [Keyed.keys_cons, List.nodup_cons] at hothers
    rw [putAll, List.foldl_cons, ← merge_put hrows hothers.1]
    exact ih (nodup_keys_put hrows) hothers.2

/-- What was put is there, and where nothing was put there is what was there before. -/
theorem get?_putAll (id : String) (hothers : (Keyed.keys others).Nodup) (rows : Collection) :
    Keyed.get? id (putAll rows others) = (Keyed.get? id others).or (Keyed.get? id rows) := by
  induction others generalizing rows with
  | nil => rfl
  | cons row rest ih =>
    rcases row with ⟨key, document⟩
    -- A later write under the same id would win, so the ids written have to be distinct.
    rw [Keyed.keys_cons, List.nodup_cons] at hothers
    rw [putAll, List.foldl_cons]
    refine (ih hothers.2 _).trans ?_
    rw [get?_put, Keyed.get?]
    by_cases hkey : key = id
    · have hnone := (Keyed.get?_eq_none_iff key rest).mpr hothers.1
      rw [if_pos hkey, if_pos hkey, ← hkey, hnone, Option.none_or, Option.some_or]
    · rw [if_neg hkey, if_neg hkey]

end Collection

namespace Database

variable {db ensured : Database} {source target : String} {index : Index} {rows : Collection}

/-! ### Putting documents -/

-- By induction on the documents, whatever the index they are put into.
theorem exists_putAll_eq (hobjects : ∀ row ∈ rows, row.2.isObject = true) :
    ∀ index : Index, index.documents.Linked →
      ∃ documents, putAll index rows = (.ok (), { index with documents })
        ∧ documents.Linked
        ∧ documents.toList = Collection.putAll index.documents.toList rows := by
  induction rows with
  | nil => exact fun index hlinked => ⟨index.documents, rfl, hlinked, rfl⟩
  | cons row rest ih =>
    intro index hlinked
    rcases row with ⟨id, document⟩
    have hhead : document.isObject = true := hobjects (id, document) List.mem_cons_self
    have hrest := fun other hother => hobjects other (List.mem_cons_of_mem _ hother)
    -- The first write succeeds, and the others go on from the index it leaves.
    rcases ih hrest { index with documents := (index.documents.put id document).2 }
      (DocumentTable.linked_put hlinked id document) with ⟨documents, hput, hdocuments, hlist⟩
    refine ⟨documents, ?_, hdocuments, ?_⟩
    · rw [putAll, Index.put_of_isObject hhead]
      exact hput
    · rw [hlist, Collection.putAll, Collection.putAll, List.foldl_cons,
        DocumentTable.toList_put hlinked]

/-- Writing documents that are held already leaves the index as it is. This is why reindexing twice
    is reindexing once. -/
theorem putAll_of_held (hlinked : index.documents.Linked)
    (hobjects : ∀ row ∈ rows, row.2.isObject = true)
    (hheld : ∀ row ∈ rows, index.documents.get? row.1 = some row.2) :
    putAll index rows = (.ok (), index) := by
  induction rows with
  | nil => rfl
  | cons row rest ih =>
    rcases row with ⟨id, document⟩
    have hhead : document.isObject = true := hobjects (id, document) List.mem_cons_self
    have hput := DocumentTable.put_of_get? hlinked (hheld (id, document) List.mem_cons_self)
    rw [putAll, Index.put_of_isObject hhead, hput]
    exact ih (fun other hother => hobjects other (List.mem_cons_of_mem _ hother))
      fun other hother => hheld other (List.mem_cons_of_mem _ hother)

/-! ### Copying documents -/

theorem exists_of_documents (h : db.documents source = .ok rows) :
    ∃ index, db.index source = .ok index ∧ index.documents.toList = rows :=
  Outcome.map_eq_ok_iff.mp h

-- Documents that the target has already are put where they are, and the index where it is.
theorem reindex_of_held (hsound : EachIndex Index.Sound db) (hordered : Keyed.Ordered db.indexes)
    (hsource : db.documents source = .ok rows) (hindex : db.index target = .ok index)
    (hheld : ∀ row ∈ rows, index.documents.get? row.1 = some row.2) :
    db.reindex source target = (.ok rows.length, db) := by
  rcases exists_of_documents hsource with ⟨original, horiginal, rfl⟩
  have hget := get?_of_index hindex
  have hcopied := putAll_of_held (sound_of_index hsound hindex).2.linked
    (sound_of_index hsound horiginal).2.objects hheld
  simp only [reindex, hsource, ensureIndex_of_get? hget, hcopied, store_of_get? hordered hget]
  rfl

/-- An index copied into itself writes to every id the document it holds. -/
theorem reindex_self (hsound : EachIndex Index.Sound db) (hordered : Keyed.Ordered db.indexes)
    (hsource : db.documents source = .ok rows) :
    db.reindex source source = (.ok rows.length, db) := by
  rcases exists_of_documents hsource with ⟨index, hindex, hrows⟩
  have hlinked := (sound_of_index hsound hindex).2.linked
  refine reindex_of_held hsound hordered hsource hindex fun row hrow => ?_
  rw [← hrows] at hrow
  rw [← DocumentTable.get?_toList hlinked]
  exact Keyed.get?_of_mem (DocumentTable.nodup_keys_toList hlinked) hrow

-- What copying does to the index that it was given or that it created.
theorem reindex_eq (hsound : EachIndex Index.Sound db) (hsource : db.documents source = .ok rows)
    (hensure : db.ensureIndex target = .ok (index, ensured)) :
    ∃ documents,
      db.reindex source target
          = (.ok rows.length, ensured.store target { index with documents })
        ∧ documents.Linked
        ∧ documents.toList = Collection.putAll index.documents.toList rows := by
  rcases exists_of_documents hsource with ⟨original, horiginal, rfl⟩
  rcases exists_putAll_eq (sound_of_index hsound horiginal).2.objects index
    (sound_of_ensureIndex hsound hensure).2.linked with ⟨documents, hcopied, hlinked, hlist⟩
  refine ⟨documents, ?_, hlinked, hlist⟩
  simp only [reindex, hsource, hensure, hcopied]
  rfl

-- What is copied into itself leaves the database as it was, and all else is another index.
theorem index_source_reindex {after : Database} (hsound : EachIndex Index.Sound db)
    (hordered : Keyed.Ordered db.indexes) (hsource : db.documents source = .ok rows)
    (hreindex : db.reindex source target = (.ok rows.length, after))
    (hothers : ∀ other, other ≠ target → after.index other = db.index other) :
    after.index source = db.index source := by
  by_cases hsame : source = target
  · rw [← hsame, reindex_self hsound hordered hsource] at hreindex
    rw [← (Prod.mk.inj hreindex).2]
  · exact hothers source hsame

/-- Copying the documents of an index always succeeds in a reachable database, provided that the
    target is there or may be created, and says how many documents the source has. The target then
    holds what it held before merged with the documents of the source, and nothing else is
    different, not even the source where it is the target itself. Copying once more changes
    nothing, and copying documents into the index they are in never does. -/
theorem reindex_merges (config : Config) (history : List Command) {db : Database}
    (hdb : db = (empty config).after history) {source target : String} {rows : Collection}
    (hsource : db.documents source = .ok rows)
    (htarget : target ≠ "" ∨ db.indexExists target = true) :
    ∃ after, db.reindex source target = (.ok rows.length, after)
      ∧ db.Refilled target (Collection.merge ((db.collections target).getD []) rows) after
      ∧ after.index source = db.index source
      ∧ after.reindex source target = (.ok rows.length, after)
      ∧ db.reindex source source = (.ok rows.length, db) := by
  have hsound : EachIndex Index.Sound db := by
    rw [hdb]
    exact sound_after config history
  have hordered : Keyed.Ordered db.indexes := by
    rw [hdb]
    exact ordered_after config history
  rcases exists_of_documents hsource with ⟨original, horiginal, hrows⟩
  rcases exists_ensureIndex_iff.mpr htarget with ⟨index, ensured, hensure⟩
  rcases reindex_eq hsound hsource hensure with ⟨documents, hreindex, hlinked, hlist⟩
  have hnodup : (Keyed.keys rows).Nodup := by
    rw [← hrows]
    exact DocumentTable.nodup_keys_toList (sound_of_index hsound horiginal).2.linked
  have hmerged : documents.toList = Collection.merge ((db.collections target).getD []) rows := by
    have hold := (sound_of_ensureIndex hsound hensure).2.linked
    rw [hlist, getD_collections hensure,
      Collection.putAll_eq_merge (DocumentTable.nodup_keys_toList hold) hnodup]
  have hrefilled := refilled_store hensure hmerged
  have hkept := index_source_reindex hsound hordered hsource hreindex hrefilled.others
  -- The database behind the copying is reachable as well.
  have hafter : ensured.store target { index with documents }
      = (empty config).after (history ++ [.reindex source target]) := by
    refine (congrArg Prod.snd hreindex).symm.trans ?_
    rw [hdb, after, after, List.foldl_append]
    rfl
  refine ⟨_, hreindex, hrefilled, hkept, ?_, reindex_self hsound hordered hsource⟩
  refine reindex_of_held (hafter ▸ sound_after config _) (hafter ▸ ordered_after config _) ?_
    (index_store ensured target _) fun row hrow => ?_
  · rw [Database.documents, hkept, horiginal, Except.map, hrows]
  · rw [← DocumentTable.get?_toList hlinked, hlist, Collection.get?_putAll row.1 hnodup,
      Keyed.get?_of_mem hnodup hrow, Option.some_or]

/-- The boats copied to the crews: one takes the place of the crew with its number, the other comes
    behind. Nothing comes of copying them again. -/
theorem reindex_merges_harbour :
    ∃ after, harbour.reindex "boats" "crews" = (.ok 2, after)
      ∧ after.documents "crews"
        = .ok [("1", .obj [("name", .str "blue sea")]), ("2", .obj [("name", .str "red sail")])]
      ∧ after.reindex "boats" "crews" = (.ok 2, after) := by
  rcases reindex_merges {} fillHarbour rfl (rfl : harbour.documents "boats" = .ok _)
    (Or.inl (by decide : "crews" ≠ "")) with ⟨after, hcopied, hrefilled, _, hagain, _⟩
  exact ⟨after, hcopied, hrefilled.documents, hagain⟩

end Database

end DocSearch
