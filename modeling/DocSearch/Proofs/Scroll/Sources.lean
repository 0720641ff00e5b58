import DocSearch.Proofs.Pattern.Globs
import DocSearch.Proofs.Scroll.Run
import DocSearch.Proofs.Store.Contents

/-!
# Documents on the Pages of a Scroll

A source filter covers the page of the search, and the pages of its scroll show whole documents.

The filter is part of the request and is applied to one page, after the scroll was opened. The
scroll keeps the hits as they were found, with the documents of that moment, and it does not keep
the request. So what a client hides on the first page is there on the second one, where the whole
document is that of the search, whatever has become of it in between.

For this it does not matter where the scroll stands or how long it stays open, only that nobody
else is read under its id. So the invariant says less than the one for reading a scroll to its end:
whatever is open under the node is a scroll over the hits of the search. A command does to the open
scrolls what a few steps do, and a step that keeps the invariant is all that has to be looked at.

## Main definitions

* `SourceFilter.Removes`, `SourceFilter.Covers`: What a filter takes out of documents, and hits
  without it.
* `ScrollTable.Turns`: Steps from one table to another, with the ids that are handed out.
* `ScrollTable.Shows`: Only these hits can be read under a node.
* `Database.LaterPage`: The pages that are read after a search.
* `Database.CoversScroll`: A filter that covers them as well.

## Theorems

* `SourceFilter.covers_dress`: Hits that are handed out by a search are covered.
* `turns_execute`: What a command does to the open scrolls.
* `Turns.shows`: No step changes what can be read, unless it hands out the id again.
* `mem_finds_of_laterPage`: Later pages show what the search found.
* `scroll_shows_documents`: What is shown on the page of a search and on those of its scroll.
* `not_coversScroll`: A filter that does not cover the second page.
-/

namespace DocSearch

/-! ### Filters -/

namespace SourceFilter

variable {filter : SourceFilter} {name : String}

/-- Whether a filter removes the members of a name: it removes all documents, or it keeps some
    names and this is none of them, or this is one that it does not keep. -/
def Removes : SourceFilter → String → Prop
  | .all, _ => False
  | .nothing, _ => True
  | .fields includes excludes, name =>
    includes ≠ [] ∧ (∀ glob ∈ includes, ¬ CutsInto false glob name)
      ∨ ∃ glob ∈ excludes, CutsInto false glob name

/-- A hit has nothing that a filter removes: no document at all if none is to be shown, and
    otherwise none with a member of such a name. -/
structure Covers (filter : SourceFilter) (hit : Hit) : Prop where
  hidden : filter = .nothing → hit.source = none
  removed : ∀ source, hit.source = some source → ∀ name, filter.Removes name →
    source.get? name = none

/-- A member that is removed by some selection is not kept by it. -/
theorem not_keeps_of_removes {includes excludes : List String}
    (h : (fields includes excludes).Removes name) : keeps includes excludes name = false := by
  rcases h with ⟨hsome, hincludes⟩ | hexcludes
  · have hfits : fits includes name = false :=
      Bool.eq_false_iff.mpr fun h => by
        rcases fits_iff.mp h with ⟨glob, hglob, hcuts⟩
        exact hincludes glob hglob hcuts
    rw [keeps, hfits, List.isEmpty_eq_false_iff.mpr hsome]
    rfl
  · rw [keeps, fits_iff.mpr hexcludes, Bool.not_true, Bool.and_false]

/-- Nothing is left of what a filter removes. -/
theorem get?_of_removes (h : filter.Removes name) {document left : Json}
    (hleft : filter.apply document = some left) : left.get? name = none := by
  cases filter with
  | all => exact absurd h id
  | nothing => exact absurd hleft (by simp [apply])
  | fields includes excludes =>
    cases document with
    | obj members =>
      cases hleft
      -- A member with the name would have been kept by the filter.
      refine (Keyed.get?_eq_none_iff name _).mpr fun hmem => ?_
      rcases List.mem_map.mp hmem with ⟨member, hmember, rfl⟩
      have hkept := (List.mem_filter.mp hmember).2
      rw [not_keeps_of_removes h] at hkept
      cases hkept
    | _ =>
      cases hleft
      rfl

/-- Hits that are handed out by a search are covered. -/
theorem covers_dress (indexes : List Index) (request : SearchRequest) (hit : Hit) :
    request.source.Covers (Search.dress indexes request hit) where
  hidden hnothing := by
    simp only [Search.dress, hnothing]
    exact Option.bind_eq_none_iff.mpr fun _ _ => rfl
  removed source hsource name hremoves := by
    rcases Option.bind_eq_some_iff.mp hsource with ⟨document, _, hleft⟩
    exact get?_of_removes hremoves hleft

end SourceFilter

/-! ### Steps -/

namespace ScrollTable

variable {table before after : ScrollTable} {node other : String} {cursor : Cursor}
  {hits : List Hit} {opened : List String}

/-- Steps from one table to another, in which scrolls are opened only under some ids. -/
inductive Turns (opened : List String) : ScrollTable → ScrollTable → Prop where
  | none (table : ScrollTable) : Turns opened table table
  | push (table : ScrollTable) {node : String} (cursor : Cursor)
      (hopened : ScrollId.encode node ∈ opened) : Turns opened table (table.push node cursor)
  | read (table : ScrollTable) (scrollId : String) : Turns opened table (table.read scrollId).2
  | drop (table : ScrollTable) (node : String) : Turns opened table (table.drop node)
  | closeAll (table : ScrollTable) : Turns opened table table.closeAll.2
  | more {before between after : ScrollTable} :
      Turns opened before between → Turns opened between after → Turns opened before after

/-- A table that has turned into another one by opening some scrolls has done so by opening these or
    more. -/
theorem Turns.mono (h : Turns opened before after) {more : List String}
    (hsub : ∀ id ∈ opened, id ∈ more) : Turns more before after := by
  induction h with
  | none table => exact .none table
  | push table cursor hopened => exact .push table cursor (hsub _ hopened)
  | read table scrollId => exact .read table scrollId
  | drop table node => exact .drop table node
  | closeAll table => exact .closeAll table
  | more _ _ ihfirst ihrest => exact .more ihfirst ihrest

-- Closing opens no scroll.
theorem turns_closeNodes (nodes : List String) :
    ∀ table : ScrollTable, Turns opened table (closeNodes nodes table).2 := by
  induction nodes with
  | nil => exact .none
  | cons node rest ih => exact fun table => .more (.drop table node) (ih (table.drop node))

theorem turns_close (table : ScrollTable) (scrollIds : List String) :
    Turns opened table (table.close scrollIds).2 := by
  unfold close
  cases scrollIds.mapM ScrollId.decode with
  | error error => exact .none table
  | ok nodes => exact turns_closeNodes nodes table

/-- Whatever is open under a node is a scroll over these hits. -/
def Shows (table : ScrollTable) (node : String) (hits : List Hit) : Prop :=
  ∀ cursor, (node, cursor) ∈ table.cursors → cursor.hits = hits

/-- A scroll that a table holds is shown with its hits. -/
theorem shows_of_holds {younger : Nat} (h : table.Holds node cursor younger) :
    table.Shows node cursor.hits := by
  rcases h with ⟨older, newer, hcursors, holder, hnewer, _⟩
  intro found hmem
  rw [hcursors, List.mem_append, List.mem_cons] at hmem
  rcases hmem with hmem | heq | hmem
  · exact absurd (List.mem_map_of_mem hmem) holder
  · rw [(Prod.mk.inj heq).2]
  · exact absurd (List.mem_map_of_mem hmem) hnewer

/-- Opening another scroll does not change the hits of this one. -/
theorem Shows.push (h : table.Shows node hits) (hne : other ≠ node) (cursor : Cursor) :
    (table.push other cursor).Shows node hits := by
  intro found hmem
  rcases List.mem_append.mp hmem with hkept | hnew
  · -- Making room takes scrolls away and brings none.
    refine h found ?_
    split at hkept
    · exact (List.mem_filter.mp hkept).1
    · split at hkept
      · exact hkept
      · exact List.mem_of_mem_drop hkept
  · exact absurd (Prod.mk.inj (List.mem_singleton.mp hnew)).1.symm hne

/-- Replacing a cursor leaves all other entries as they were. -/
theorem mem_of_mem_replace {cursors : List (String × Cursor)} {entry : String × Cursor}
    (h : entry ∈ replace node cursor cursors) : entry ∈ cursors ∨ entry = (node, cursor) := by
  induction cursors with
  | nil => exact absurd h List.not_mem_nil
  | cons head rest ih =>
    rcases head with ⟨first, old⟩
    rw [replace] at h
    by_cases hfirst : first = node
    · rw [if_pos hfirst] at h
      rcases List.mem_cons.mp h with rfl | hrest
      · exact .inr (by rw [hfirst])
      · exact .inl (List.mem_cons_of_mem _ hrest)
    · rw [if_neg hfirst] at h
      rcases List.mem_cons.mp h with rfl | hrest
      · exact .inl List.mem_cons_self
      · exact (ih hrest).imp_left (List.mem_cons_of_mem _)

-- Reading moves the place of a scroll and leaves its hits alone.
theorem Shows.read (h : table.Shows node hits) (scrollId : String) :
    (table.read scrollId).2.Shows node hits := by
  rcases read_cases table scrollId with ⟨_, hread⟩ | ⟨found, moved, -, hfind, hread⟩
  · rw [hread]
    exact h
  · rw [hread]
    intro cursor hmem
    -- The cursor is moved on, but over the same hits.
    rcases mem_of_mem_replace hmem with hold | heq
    · exact h cursor hold
    · rcases Prod.mk.inj heq with ⟨rfl, rfl⟩
      exact h moved (Keyed.mem_of_get?_eq_some hfind)

/-- No step changes what can be read under a node, unless it hands out the id of the node. -/
theorem Turns.shows (h : Turns opened before after) (hfresh : ScrollId.encode node ∉ opened)
    (hshows : before.Shows node hits) : after.Shows node hits := by
  induction h with
  | none => exact hshows
  | push table cursor hopened =>
    exact hshows.push (fun hsame => hfresh (hsame ▸ hopened)) cursor
  | read table scrollId => exact hshows.read scrollId
  | drop table closed => exact fun cursor hmem => hshows cursor (List.mem_filter.mp hmem).1
  | closeAll table => exact fun cursor hmem => absurd hmem List.not_mem_nil
  | more _ _ ihfirst ihrest => exact ihrest (ihfirst hshows)

/-- Only hits of the scroll are on its pages. -/
theorem mem_of_mem_page (h : table.Shows node hits) {page : ScrollPage}
    (hread : (table.read (ScrollId.encode node)).1 = .ok page) {hit : Hit}
    (hhit : hit ∈ page.hits) : hit ∈ hits := by
  rcases read_cases table (ScrollId.encode node) with
    ⟨_, hfails⟩ | ⟨found, cursor, hdecode, hfind, hok⟩
  · rw [hfails] at hread
    cases hread
  · rw [hok] at hread
    cases hread
    -- A page is cut from the hits of the cursor that its id leads to.
    cases hdecode.symm.trans (ScrollId.decode_eq_ok_iff_encode.mpr rfl)
    rw [← h cursor (Keyed.mem_of_get?_eq_some hfind)]
    exact List.mem_of_mem_drop (List.mem_of_mem_take hhit)

end ScrollTable

namespace Database

open ScrollTable (Turns)

variable {db : Database} {node : String} {hits : List Hit}

/-- A search opens the scroll in its answer, if there is one, and no other. -/
theorem turns_search (db : Database) (names : List String) (request : SearchRequest)
    (node : String) :
    Turns (scrollIdsOf (db.search names request node).1) db.scrolls
      (db.search names request node).2.scrolls := by
  rcases scrolls_search_cases db names request node with ⟨_, hscrolls⟩ | ⟨_, hids, hscrolls⟩
  · rw [hscrolls]
    exact .none _
  · rw [hids, hscrolls]
    exact .push _ _ (List.mem_singleton_self _)

-- The ids that are drawn for the single searches are numbered on.
theorem turns_multiSearch (nodes : Nat → String) (requests : List (String × SearchRequest)) :
    ∀ (place : Nat) (db : Database),
      Turns ((db.multiSearch nodes place requests).1.flatMap scrollIdsOf) db.scrolls
        (db.multiSearch nodes place requests).2.scrolls := by
  induction requests with
  | nil => exact fun _ db => .none db.scrolls
  | cons head rest ih =>
    intro place db
    rcases head with ⟨name, request⟩
    have hfirst := turns_search db [name] request (nodes place)
    have hrest := ih (place + 1) (db.search [name] request (nodes place)).2
    exact .more (hfirst.mono fun _ => List.mem_append_left _)
      (hrest.mono fun _ => List.mem_append_right _)

/-- What a command does to the open scrolls. -/
theorem turns_execute (db : Database) (command : Command) :
    Turns (Answer.scrollIds (db.execute command).1) db.scrolls
      (db.execute command).2.scrolls := by
  by_cases htouches : command.touchesScrolls = false
  · rw [(keepsScrolls_execute db htouches).scrolls]
    exact .none db.scrolls
  · cases command with
    | clear => exact .closeAll db.scrolls
    | search names request drawn =>
      simp only [execute, answer, Answer.scrollIds_results]
      exact turns_search db names request drawn
    | searchBody names body scroll drawn =>
      simp only [execute, answer, searchBody]
      cases SearchRequest.ofJson db.config body with
      | error error => exact .none db.scrolls
      | ok request =>
        simp only [Answer.scrollIds_results]
        exact turns_search db names _ drawn
    | multiSearch requests nodes => exact turns_multiSearch nodes requests 0 db
    | continueScroll scrollId => exact .read db.scrolls scrollId
    | clearScroll scrollIds => exact ScrollTable.turns_close db.scrolls scrollIds
    -- All other commands leave the scrolls alone.
    | _ => exact absurd rfl htouches

/-- The pages that are read under an id in a run that does not hand it out again show hits of the
    scroll only. The induction is on the commands. -/
theorem mem_of_mem_pagesRead (commands : List Command) :
    ∀ db : Database, db.scrolls.Shows node hits →
      ScrollId.encode node ∉ db.idsOpened commands →
      ∀ page, .ok page ∈ db.pagesRead (ScrollId.encode node) commands →
        ∀ hit ∈ page.hits, hit ∈ hits := by
  induction commands with
  | nil => exact fun _ _ _ _ hpage => absurd hpage List.not_mem_nil
  | cons command rest ih =>
    intro db hshows hfresh page hpage
    rw [idsOpened, List.mem_append, not_or] at hfresh
    -- Whatever the command does, the id still shows these hits afterwards, as long as it is not
    -- opened anew.
    have hlater := ih _ ((turns_execute db command).shows hfresh.1 hshows) hfresh.2 page
    rw [pagesRead] at hpage
    by_cases hreads : command.reads (ScrollId.encode node) = true
    · rw [if_pos hreads] at hpage
      rcases List.mem_cons.mp hpage with hfirst | hrest
      · rw [continueScroll_fst] at hfirst
        exact fun hit hhit => ScrollTable.mem_of_mem_page hshows hfirst.symm hhit
      · exact hlater hrest
    · rw [if_neg hreads] at hpage
      exact hlater hpage

/-! ### Documents -/

/-- What is found carries the document that is stored under its id. -/
theorem get_of_mem_finds (hsound : EachIndex Index.Sound db) {query : Query}
    {names : List String} {hit : Hit} (h : hit ∈ db.finds query names) :
    ∃ document, db.get hit.index hit.id = .ok document ∧ hit.source = some document := by
  rcases of_mem_finds h with ⟨_, _, index, document, hindex, hrow, hsource⟩
  have hlinked := (sound_of_index hsound hindex).2.linked
  have hget : index.get? hit.id = some document :=
    (DocumentTable.get?_toList hlinked hit.id).symm.trans
      (Keyed.get?_of_mem (DocumentTable.nodup_keys_toList hlinked) hrow)
  refine ⟨document, ?_, hsource⟩
  simp only [get, hindex, hget]

/-- A page that is read under the id that a search handed out, in a run that does not hand out the
    id again. -/
def LaterPage (outcome : Except Error SearchResults × Database) (page : ScrollPage) : Prop :=
  ∃ results scrollId commands, outcome.1 = .ok results ∧ results.scrollId = some scrollId
    ∧ scrollId ∉ outcome.2.idsOpened commands ∧ .ok page ∈ outcome.2.pagesRead scrollId commands

/-- The filter of a search covers its page and all pages of its scroll. -/
def CoversScroll (db : Database) (names : List String) (request : SearchRequest)
    (node : String) : Prop :=
  (∀ results, (db.search names request node).1 = .ok results →
      ∀ hit ∈ results.hits, request.source.Covers hit)
    ∧ ∀ page, LaterPage (db.search names request node) page →
      ∀ hit ∈ page.hits, request.source.Covers hit

/-- Later pages show what the search found, whatever has happened in between. -/
theorem mem_finds_of_laterPage (hnamed : db.Named) {names : List String} {request : SearchRequest}
    {page : ScrollPage} (h : LaterPage (db.search names request node) page) {hit : Hit}
    (hhit : hit ∈ page.hits) : hit ∈ db.finds request.query names := by
  rcases h with ⟨results, scrollId, commands, hsearch, hopened, hfresh, hpage⟩
  rcases holds_of_search hnamed hsearch hopened with ⟨rfl, _, hholds⟩
  have hranked : hit ∈ db.ranks request.query request.sort names :=
    mem_of_mem_pagesRead commands _ (ScrollTable.shows_of_holds hholds) hfresh page hpage hit hhit
  exact (stablySorted_sortHits request.sort _).perm.mem_iff.mp hranked

/-- What is shown after a search of a reachable database. The filter covers the page of the search,
    and the pages of its scroll show whole documents, as they were stored when it was searched. -/
theorem scroll_shows_documents (config : Config) (history : List Command) {db : Database}
    (hdb : db = (empty config).after history) (names : List String) (request : SearchRequest)
    (node : String) :
    (∀ results, (db.search names request node).1 = .ok results →
        ∀ hit ∈ results.hits, request.source.Covers hit)
      ∧ ∀ page, LaterPage (db.search names request node) page →
        ∀ hit ∈ page.hits, ∃ document,
          db.get hit.index hit.id = .ok document ∧ hit.source = some document := by
  constructor
  · intro results hsearch hit hhit
    rcases search_eq_ok_iff.mp hsearch with ⟨indexes, found, _, _, _, rfl⟩
    rcases List.mem_map.mp hhit with ⟨bare, _, rfl⟩
    exact SourceFilter.covers_dress indexes request bare
  · intro page hlater hit hhit
    have hnamed : db.Named := hdb ▸ named_after config history
    have hsound : EachIndex Index.Sound db := hdb ▸ sound_after config history
    exact get_of_mem_finds hsound (mem_finds_of_laterPage hnamed hlater hhit)

-- Three hits are found in the harbour and the first page has one, so there is a second one.
theorem laterPage_harbour : ∃ page,
    LaterPage (harbour.search ["crews", "boats", "crews"] seaRequest "a") page
      ∧ page.hits.length = 1 := by
  have hnamed : harbour.Named := named_after {} fillHarbour
  rcases search_of_searchable hnamed "a" searchable_harbour rfl with ⟨results, hok, _⟩
  have hscroll : results.scrollId = some (ScrollId.encode "a") := by
    rcases search_eq_ok_iff.mp hok with ⟨_, _, _, _, _, rfl⟩
    rfl
  rcases holds_of_search hnamed hok hscroll with ⟨_, duration, hholds⟩
  have hread := (ScrollTable.read_of_holds (ScrollId.decode_eq_ok_iff_encode.mpr rfl) hholds).1
  refine ⟨_, ⟨results, _, [.continueScroll (ScrollId.encode "a")], hok, hscroll, by decide,
    List.mem_singleton.mpr hread.symm⟩, ?_⟩
  have hlength : (harbour.ranks seaRequest.query seaRequest.sort
      ["crews", "boats", "crews"]).length = 3 :=
    (stablySorted_sortHits _ _).perm.length_eq.trans length_finds_harbour
  rw [Cursor.page, List.length_take, List.length_drop, hlength]
  rfl

/-- No document is asked for, and the second page shows one. -/
theorem not_coversScroll : ¬ harbour.CoversScroll ["crews", "boats", "crews"] seaRequest "a" := by
  rintro ⟨-, hcovers⟩
  rcases laterPage_harbour with ⟨page, hlater, hlength⟩
  rcases List.length_eq_one_iff.mp hlength with ⟨hit, hhits⟩
  have hhit : hit ∈ page.hits := hhits ▸ List.mem_singleton_self hit
  rcases get_of_mem_finds (sound_after {} fillHarbour)
    (mem_finds_of_laterPage (named_after {} fillHarbour) hlater hhit) with ⟨document, _, hsource⟩
  -- The document is there, and the filter of the request removes all documents.
  have hhidden : hit.source = none := (hcovers page hlater hit hhit).hidden rfl
  rw [hsource] at hhidden
  cases hhidden

/-- The second page shows the document that the filter hides, as it is stored. -/
theorem scroll_shows_documents_harbour : ∃ page,
    LaterPage (harbour.search ["crews", "boats", "crews"] seaRequest "a") page
      ∧ page.hits ≠ []
      ∧ ∀ hit ∈ page.hits, ∃ document,
          harbour.get hit.index hit.id = .ok document ∧ hit.source = some document := by
  rcases laterPage_harbour with ⟨page, hlater, hlength⟩
  exact ⟨page, hlater, List.ne_nil_of_length_pos (Nat.lt_of_lt_of_eq Nat.zero_lt_one hlength.symm),
    (scroll_shows_documents {} fillHarbour rfl ["crews", "boats", "crews"] seaRequest "a").2 page
      hlater⟩

end Database

end DocSearch
