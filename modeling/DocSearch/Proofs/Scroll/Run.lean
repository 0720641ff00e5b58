import DocSearch.Proofs.Scroll.Id
import DocSearch.Proofs.Scroll.Table
import DocSearch.Proofs.Search.Found

/-!
# Reading a Scroll to Its End

A client who opens a scroll and goes on reading it gets every hit once and in order, whatever
is done to the database in the meantime.

The hits are those of the moment the scroll was opened. Nothing that is written afterwards
can change them, since the scroll has its own copy. What could go wrong is the scroll itself:
it could be closed, by its name, with all others, or because too many were opened after it;
it could be replaced, by a scroll under the same node; and it could be moved by somebody
else. The last needs the id, since no other text names the same scroll. The rest is what the
hypotheses rule out, each stated of what a client sees, which is the commands that are given
and the ids that are handed out.

The invariant is that the scroll is open, at a place that depends only on how often it was
read, with no more scrolls behind it than ids were handed out. One lemma says that every
command keeps it, and the run follows by induction on the commands.

## Main definitions

* `Command.reads`, `Command.closes`: The commands that read a scroll, and that close it.
* `Database.idsOpened`: The ids that are handed out in a run.
* `Database.pagesRead`: The answers to those who read a scroll in a run.
* `Cursor.readTimes`: A cursor that was read some times.

## Theorems

* `scrolls_search_cases`: What a search does to the scrolls.
* `holds_execute`: What every command does to one scroll.
* `pagesRead_of_holds`: What is read in a run.
* `offset_readTimes`: Where a scroll stands.
* `scroll_reads_all`: A scroll is read to its end.
-/

namespace DocSearch

/-- Whether a command reads the next page of a scroll. -/
def Command.reads (scrollId : String) : Command → Bool
  | .continueScroll id => id = scrollId
  | _ => false

/-- Whether a command closes a scroll: it closes all of them, or it names this one and every
    id that it names can be read. -/
def Command.closes (scrollId : String) : Command → Prop
  | .clear => True
  | .clearScroll ids => scrollId ∈ ids ∧ ∀ id ∈ ids, ∃ node, ScrollId.decode id = .ok node
  | _ => False

/-- The id of the scroll that a search opened, if it did. -/
def scrollIdsOf : Except Error SearchResults → List String
  | .ok results => results.scrollId.toList
  | .error _ => []

/-- The ids that an answer hands out. -/
def Answer.scrollIds : Except Error Answer → List String
  | .ok (.results found) => scrollIdsOf (.ok found)
  | .ok (.manyResults outcomes) => outcomes.flatMap scrollIdsOf
  | _ => []

/-- A cursor after it was read some times. -/
def Cursor.readTimes (cursor : Cursor) : Nat → Cursor
  | 0 => cursor
  | times + 1 => cursor.advance.readTimes times

namespace Database

/-- The ids of scrolls that are handed out in a run of commands. -/
def idsOpened : Database → List Command → List String
  | _, [] => []
  | db, command :: rest =>
    Answer.scrollIds (db.execute command).1 ++ idsOpened (db.execute command).2 rest

/-- The answers to the commands of a run that read a scroll. -/
def pagesRead (scrollId : String) : Database → List Command → List (Except Error ScrollPage)
  | _, [] => []
  | db, command :: rest =>
    if command.reads scrollId then
      (db.continueScroll scrollId).1 :: pagesRead scrollId (db.execute command).2 rest
    else pagesRead scrollId (db.execute command).2 rest

end Database

/-! ### Commands and the table -/

-- The ids in an answer: a search may open one scroll, and reading a page opens none.
theorem Answer.scrollIds_results (outcome : Except Error SearchResults) :
    Answer.scrollIds (outcome.map Answer.results) = scrollIdsOf outcome := by
  cases outcome with
  | error error => rfl
  | ok results => rfl

theorem Answer.scrollIds_page (outcome : Except Error ScrollPage) :
    Answer.scrollIds (outcome.map Answer.page) = [] := by
  cases outcome with
  | error error => rfl
  | ok page => rfl

namespace Database

variable {db : Database} {node : String} {cursor : Cursor} {younger : Nat}

/-- What a search does to the scrolls: nothing, or it opens one and hands out its id. -/
theorem scrolls_search_cases (db : Database) (names : List String) (request : SearchRequest)
    (node : String) :
    (scrollIdsOf (db.search names request node).1 = []
        ∧ (db.search names request node).2.scrolls = db.scrolls)
      ∨ ∃ cursor, scrollIdsOf (db.search names request node).1 = [ScrollId.encode node]
          ∧ (db.search names request node).2.scrolls = db.scrolls.push node cursor := by
  cases hok : (db.search names request node).1 with
  | error error => exact Or.inl ⟨rfl, scrolls_search_of_error hok⟩
  | ok results =>
    rcases search_eq_ok_iff.mp hok with ⟨indexes, found, _, _, _, hresults⟩
    cases hscroll : request.scroll with
    | none =>
      refine Or.inl ⟨?_, scrolls_search_of_no_scroll hok hscroll⟩
      rw [hresults, scrollIdsOf, Search.resultsOf, hscroll]
      rfl
    | some keepAlive =>
      rcases scrolls_search_of_scroll hok hscroll with ⟨_, _, _, _, _, hscrolls⟩
      refine Or.inr ⟨_, ?_, hscrolls⟩
      rw [hresults, scrollIdsOf, Search.resultsOf, hscroll]
      rfl

/-- No command changes how many scrolls may be open. -/
theorem capacity_search (db : Database) (names : List String) (request : SearchRequest)
    (node : String) :
    (db.search names request node).2.scrolls.capacity = db.scrolls.capacity := by
  rcases scrolls_search_cases db names request node with ⟨_, h⟩ | ⟨_, _, h⟩
  · rw [h]
  · rw [h, ScrollTable.capacity_push]

-- The searches of one command are carried out one after another.
theorem capacity_multiSearch (nodes : Nat → String) (requests : List (String × SearchRequest)) :
    ∀ (place : Nat) (db : Database),
      (db.multiSearch nodes place requests).2.scrolls.capacity = db.scrolls.capacity := by
  induction requests with
  | nil => exact fun _ _ => rfl
  | cons head rest ih =>
    intro place db
    rcases head with ⟨name, request⟩
    exact (ih (place + 1) _).trans (capacity_search db [name] request (nodes place))

-- The other commands that touch scrolls open none.
theorem capacity_execute (db : Database) (command : Command) :
    (db.execute command).2.scrolls.capacity = db.scrolls.capacity := by
  by_cases htouches : command.touchesScrolls = false
  · rw [(keepsScrolls_execute db htouches).scrolls]
  · cases command with
    | clear => rfl
    | search names request node => exact capacity_search db names request node
    | searchBody names body scroll node =>
      simp only [execute, answer, searchBody]
      cases SearchRequest.ofJson db.config body with
      | error error => rfl
      | ok request => exact capacity_search db names _ node
    | multiSearch requests nodes => exact capacity_multiSearch nodes requests 0 db
    | continueScroll scrollId => exact ScrollTable.capacity_read db.scrolls scrollId
    | clearScroll scrollIds => exact ScrollTable.capacity_close db.scrolls scrollIds
    | _ => exact absurd rfl htouches

/-- The number of scrolls that may be open is that of the configuration, and one at least. -/
theorem capacity_after (config : Config) (history : List Command) :
    ((empty config).after history).scrolls.capacity = max config.scrollCapacity 1 :=
  @after_induction (fun db => db.scrolls.capacity = max config.scrollCapacity 1) _ rfl
    (fun db command h => (capacity_execute db command).trans h) history

-- A search leaves a scroll open if it opens no other in its place and there is room.
theorem holds_search (h : db.scrolls.Holds node cursor younger) (names : List String)
    (request : SearchRequest) (drawn : String)
    (hfresh : ScrollId.encode node ∉ scrollIdsOf (db.search names request drawn).1)
    (hroom : younger + (scrollIdsOf (db.search names request drawn).1).length
      < db.scrolls.capacity) :
    (db.search names request drawn).2.scrolls.Holds node cursor
      (younger + (scrollIdsOf (db.search names request drawn).1).length) := by
  rcases scrolls_search_cases db names request drawn with ⟨hids, hscrolls⟩ |
    ⟨opened, hids, hscrolls⟩
  · rw [hids, hscrolls]
    exact h
  · rw [hids, List.length_singleton] at hroom
    rw [hids, List.mem_singleton] at hfresh
    rw [hids, hscrolls]
    exact ScrollTable.holds_push h (fun he => hfresh (congrArg _ he.symm)) hroom opened

-- The same for one search after another, by induction on the requests.
theorem holds_multiSearch (nodes : Nat → String) (requests : List (String × SearchRequest)) :
    ∀ (place : Nat) (db : Database) (younger : Nat), db.scrolls.Holds node cursor younger →
      ScrollId.encode node ∉ (db.multiSearch nodes place requests).1.flatMap scrollIdsOf →
      younger + ((db.multiSearch nodes place requests).1.flatMap scrollIdsOf).length
        < db.scrolls.capacity →
      (db.multiSearch nodes place requests).2.scrolls.Holds node cursor
        (younger + ((db.multiSearch nodes place requests).1.flatMap scrollIdsOf).length) := by
  induction requests with
  | nil => exact fun _ _ _ h _ _ => h
  | cons head rest ih =>
    intro place db younger h hfresh hroom
    rcases head with ⟨name, request⟩
    simp only [multiSearch, List.flatMap_cons, List.mem_append, not_or, List.length_append]
      at hfresh hroom ⊢
    -- Each request opens at most one scroll, and the room for all of them is room for the first and
    -- for the others behind it.
    have hfirst := holds_search h [name] request (nodes place) hfresh.1 (by omega)
    rw [← Nat.add_assoc] at hroom ⊢
    refine ih (place + 1) _ _ hfirst hfresh.2 ?_
    rw [capacity_search]
    exact hroom

-- Closing leaves a scroll open unless it names it among ids that can all be read.
theorem holds_clearScroll (h : db.scrolls.Holds node cursor younger) {scrollIds : List String}
    (hkept : ¬ (Command.clearScroll scrollIds).closes (ScrollId.encode node)) :
    (db.clearScroll scrollIds).2.scrolls.Holds node cursor younger := by
  unfold clearScroll ScrollTable.close
  cases hnodes : scrollIds.mapM ScrollId.decode with
  | error error => exact h
  | ok nodes =>
    refine ScrollTable.holds_closeNodes h fun hmem => hkept ?_
    -- Each node that is closed comes from an id of the command, and only one id names it.
    have hids : scrollIds = nodes.map ScrollId.encode := by
      clear hkept hmem
      induction scrollIds generalizing nodes with
      | nil =>
        cases hnodes
        rfl
      | cons id rest ih =>
        rcases Outcome.mapM_cons_eq_ok_iff.mp hnodes with ⟨first, others, hfirst, hothers, rfl⟩
        rw [List.map_cons, ← ih others hothers, ScrollId.decode_eq_ok_iff_encode.mp hfirst]
    refine ⟨hids ▸ List.mem_map_of_mem hmem, fun id hid => ?_⟩
    rw [hids] at hid
    rcases List.mem_map.mp hid with ⟨found, _, rfl⟩
    exact ⟨found, ScrollId.decode_eq_ok_iff_encode.mpr rfl⟩

/-- What every command does to one scroll. It stays open, unless the command closes it, hands
    out its id again, or leaves no room for it; and it is moved exactly if the command reads
    it. -/
theorem holds_execute (h : db.scrolls.Holds node cursor younger) (command : Command)
    (hkept : ¬ command.closes (ScrollId.encode node))
    (hfresh : ScrollId.encode node ∉ Answer.scrollIds (db.execute command).1)
    (hroom : younger + (Answer.scrollIds (db.execute command).1).length < db.scrolls.capacity) :
    (db.execute command).2.scrolls.Holds node
      (if command.reads (ScrollId.encode node) then cursor.advance else cursor)
      (younger + (Answer.scrollIds (db.execute command).1).length) := by
  by_cases htouches : command.touchesScrolls = false
  · -- A command that leaves the scrolls alone does not read one either.
    have hscrolls := (keepsScrolls_execute db htouches).scrolls
    have hreads : command.reads (ScrollId.encode node) = false := by
      cases command with
      | continueScroll id => exact absurd htouches (by simp [Command.touchesScrolls])
      | _ => rfl
    rw [hscrolls, hreads]
    exact ScrollTable.holds_mono h (Nat.le_add_right _ _)
  · cases command with
    | clear => exact absurd trivial hkept
    | search names request drawn =>
      simp only [execute, answer, Answer.scrollIds_results] at hfresh hroom ⊢
      exact holds_search h names request drawn hfresh hroom
    | searchBody names body scroll drawn =>
      simp only [execute, answer, searchBody] at hfresh hroom ⊢
      cases hrequest : SearchRequest.ofJson db.config body with
      | error error => exact ScrollTable.holds_mono h (Nat.le_add_right _ _)
      | ok request =>
        simp only [hrequest, Answer.scrollIds_results] at hfresh hroom ⊢
        exact holds_search h names _ drawn hfresh hroom
    | multiSearch requests nodes =>
      exact holds_multiSearch nodes requests 0 db younger h hfresh hroom
    | continueScroll scrollId =>
      have hnone : Answer.scrollIds (db.execute (.continueScroll scrollId)).1 = [] :=
        Answer.scrollIds_page (db.continueScroll scrollId).1
      rw [hnone]
      -- Reading the scroll itself moves it, and reading another one leaves it where it is.
      by_cases hsame : scrollId = ScrollId.encode node
      · have hreads : (Command.continueScroll scrollId).reads (ScrollId.encode node) = true :=
          decide_eq_true hsame
        rw [hreads, if_pos rfl]
        exact (ScrollTable.read_of_holds (ScrollId.decode_eq_ok_iff_encode.mpr hsame) h).2
      · have hreads : (Command.continueScroll scrollId).reads (ScrollId.encode node) = false :=
          decide_eq_false hsame
        rw [hreads]
        exact ScrollTable.holds_read_other
          (fun hid => hsame (ScrollId.decode_eq_ok_iff_encode.mp hid)) h
    | clearScroll scrollIds =>
      exact ScrollTable.holds_mono (holds_clearScroll h hkept) (Nat.le_add_right _ _)
    | _ => exact absurd rfl htouches

/-! ### The run -/

-- The two are the same by unfolding, but that takes long to find out, so it is done once.
theorem continueScroll_fst (db : Database) (scrollId : String) :
    (db.continueScroll scrollId).1 = (db.scrolls.read scrollId).1 := by
  simp only [continueScroll]

/-- What is read of an open scroll in a run that does not close it: one page after another,
    each with the number of all hits. The induction is on the commands, with the place of the
    scroll and the number of those opened since as the state that changes. -/
theorem pagesRead_of_holds {node : String} (commands : List Command) :
    ∀ (db : Database) (cursor : Cursor) (younger : Nat), db.scrolls.Holds node cursor younger →
      (∀ command ∈ commands, ¬ command.closes (ScrollId.encode node)) →
      ScrollId.encode node ∉ db.idsOpened commands →
      younger + (db.idsOpened commands).length < db.scrolls.capacity →
      db.pagesRead (ScrollId.encode node) commands
        = (List.range (commands.countP (Command.reads (ScrollId.encode node)))).map fun times =>
            .ok ⟨ScrollId.encode node, cursor.hits.length, (cursor.readTimes times).page⟩ := by
  induction commands with
  | nil => exact fun _ _ _ _ _ _ _ => rfl
  | cons command rest ih =>
    intro db cursor younger h hkept hfresh hroom
    rw [idsOpened, List.mem_append, not_or] at hfresh
    rw [idsOpened, List.length_append, ← Nat.add_assoc] at hroom
    have hnext := holds_execute h command (hkept command List.mem_cons_self) hfresh.1 (by omega)
    rw [← capacity_execute db command] at hroom
    have hrest := ih _ _ _ hnext (fun other hother => hkept other (List.mem_cons_of_mem _ hother))
      hfresh.2 hroom
    rw [pagesRead, List.countP_cons, hrest]
    -- The pages of the rest are those from the place where this command leaves the scroll.
    by_cases hreads : command.reads (ScrollId.encode node) = true
    · have hpage := (ScrollTable.read_of_holds
        (ScrollId.decode_eq_ok_iff_encode.mpr (Eq.refl (ScrollId.encode node))) h).1
      rw [if_pos hreads, if_pos hreads, if_pos hreads, continueScroll_fst, hpage,
        List.range_succ_eq_map, List.map_cons, List.map_map]
      rfl
    · rw [if_neg hreads, if_neg hreads, if_neg hreads, Nat.add_zero]

end Database

-- However often a scroll is read, its hits and its page size stay.
theorem Cursor.hits_readTimes (cursor : Cursor) (times : Nat) :
    (cursor.readTimes times).hits = cursor.hits := by
  induction times generalizing cursor with
  | zero => rfl
  | succ times ih => exact ih cursor.advance

theorem Cursor.size_readTimes (cursor : Cursor) (times : Nat) :
    (cursor.readTimes times).size = cursor.size := by
  induction times generalizing cursor with
  | zero => rfl
  | succ times ih => exact ih cursor.advance

/-- Where a scroll stands: a page further with every time it was read, as far as places are
    counted. -/
theorem Cursor.offset_readTimes {cursor : Cursor} (h : cursor.offset ≤ Number.greatestWord)
    (times : Nat) :
    (cursor.readTimes times).offset
      = min (cursor.offset + times * cursor.size) Number.greatestWord := by
  induction times generalizing cursor with
  | zero =>
    rw [Nat.zero_mul, Nat.add_zero]
    exact (Nat.min_eq_left h).symm
  | succ times ih =>
    have hnext : cursor.advance.offset ≤ Number.greatestWord := Nat.min_le_right _ _
    rw [readTimes, ih hnext, Nat.succ_mul]
    simp only [advance, advancePlace]
    omega

namespace Database

/-- The hits of the pages that were read, by their labels. -/
def labelsRead (pages : List (Except Error ScrollPage)) : List (String × String × Float) :=
  pages.flatMap fun
    | .ok page => page.hits.map Hit.label
    | .error _ => []

-- A search that hands out an id leaves that scroll open, over what it should find, a page
-- further than its own, and as the youngest.
theorem holds_of_search {db : Database} (hnamed : db.Named) {names : List String}
    {request : SearchRequest} {node : String} {results : SearchResults} {scrollId : String}
    (hsearch : (db.search names request node).1 = .ok results)
    (hopened : results.scrollId = some scrollId) :
    scrollId = ScrollId.encode node ∧ ∃ duration,
      (db.search names request node).2.scrolls.Holds node
        ⟨db.ranks request.query request.sort names, advancePlace request.start request.size,
          request.size, duration⟩ 0 := by
  rcases search_eq_ok_iff.mp hsearch with ⟨_, _, _, _, _, hresults⟩
  rw [hresults, Search.resultsOf] at hopened
  rcases Option.map_eq_some_iff.mp hopened with ⟨keepAlive, hscroll, hid⟩
  rcases scrolls_search_of_scroll hsearch hscroll with
    ⟨indexes, found, duration, hindexes, hfound, hscrolls⟩
  refine ⟨hid.symm, duration, ?_⟩
  rw [hscrolls, eq_finds_of_hitsOf hnamed hindexes hfound]
  exact ScrollTable.holds_push_self db.scrolls node _

-- The page of such a scroll after some reads, in terms of the search.
theorem page_readTimes (hits : List Hit) (start size : Nat) (duration : Duration)
    (times : Nat) :
    ((⟨hits, advancePlace start size, size, duration⟩ : Cursor).readTimes times).page
      = Search.pageOf (min (start + (times + 1) * size) Number.greatestWord) size hits := by
  -- Cutting the place at every read is the same as cutting it once.
  have hplace : (⟨hits, advancePlace start size, size, duration⟩ : Cursor).offset
      ≤ Number.greatestWord := Nat.min_le_right _ _
  have hoffset : min (advancePlace start size + times * size) Number.greatestWord
      = min (start + (times + 1) * size) Number.greatestWord := by
    rw [Nat.succ_mul, advancePlace]
    omega
  rw [Cursor.page, Cursor.hits_readTimes, Cursor.size_readTimes,
    Cursor.offset_readTimes hplace, hoffset]
  rfl

-- Pages that were read one after another are one long page, as long as the list is short
-- enough for its places to be counted.
theorem labelsRead_pages {sorted : List Hit} (hword : sorted.length ≤ Number.greatestWord)
    (scrollId : String) (total start size reads : Nat) :
    labelsRead ((List.range reads).map fun times => .ok ⟨scrollId, total,
        Search.pageOf (min (start + (times + 1) * size) Number.greatestWord) size sorted⟩)
      = (Search.pageOf (start + size) (reads * size) sorted).map Hit.label := by
  have hpage : ∀ times, Search.pageOf (min (start + (times + 1) * size) Number.greatestWord)
        size sorted
      = Search.pageOf (start + size + times * size) size sorted := by
    intro times
    rw [Search.pageOf_min _ _ hword, Nat.succ_mul, Nat.add_comm (times * size), Nat.add_assoc]
  rw [← Search.flatMap_pageOf, List.map_flatMap]
  simp only [labelsRead, List.flatMap_map, hpage]

-- Of the pages that were read, the ones behind the end of the list are empty.
theorem hits_eq_nil_of_length_le {sorted : List Hit}
    (hword : sorted.length ≤ Number.greatestWord) (scrollId : String)
    (total start size reads : Nat) {times : Nat} {page : ScrollPage}
    (hget : ((List.range reads).map fun times => (.ok ⟨scrollId, total,
        Search.pageOf (min (start + (times + 1) * size) Number.greatestWord) size sorted⟩ :
      Except Error ScrollPage))[times]? = some (.ok page))
    (hend : sorted.length ≤ start + (times + 1) * size) : page.hits = [] := by
  rw [List.getElem?_map] at hget
  rcases Option.map_eq_some_iff.mp hget with ⟨place, hplace, heq⟩
  rcases List.getElem?_eq_some_iff.mp hplace with ⟨_, hsame⟩
  rw [List.getElem_range] at hsame
  subst hsame
  cases heq
  rw [Search.pageOf_min _ _ hword]
  exact Search.pageOf_of_length_le size hend

/-- A scroll is read to its end. Let a search of a reachable database hand out the id of a
    scroll, and let any commands follow that do not close the scroll, do not hand out its id
    again, and open fewer further scrolls than may be open. Then every read of the scroll
    gives a page, namely the next piece of the list that was sorted when the scroll was
    opened, together with the length of that list. As long as places can be counted, the page
    of the search and the pages that were read are one piece of the list, in order and without
    a gap. So once the scroll was read often enough they are all of it from the start of the
    search on, and every page behind the end is empty. -/
theorem scroll_reads_all (config : Config) (history : List Command) {db : Database}
    (hdb : db = (empty config).after history) (names : List String) (request : SearchRequest)
    (node : String) {results : SearchResults} {scrollId : String}
    (hsearch : (db.search names request node).1 = .ok results)
    (hopened : results.scrollId = some scrollId) (commands : List Command)
    (hkept : ∀ command ∈ commands, ¬ command.closes scrollId)
    (hfresh : scrollId ∉ (db.search names request node).2.idsOpened commands)
    (hroom : ((db.search names request node).2.idsOpened commands).length
      < max config.scrollCapacity 1) :
    let sorted := db.ranks request.query request.sort names
    let reads := commands.countP (Command.reads scrollId)
    let pages := (db.search names request node).2.pagesRead scrollId commands
    pages = ((List.range reads).map fun times =>
        .ok ⟨scrollId, sorted.length, Search.pageOf
          (min (request.start + (times + 1) * request.size) Number.greatestWord)
          request.size sorted⟩)
      ∧ results.totalHits = sorted.length
      ∧ (sorted.length ≤ Number.greatestWord →
          results.hits.map Hit.label ++ labelsRead pages
            = ((sorted.drop request.start).take ((reads + 1) * request.size)).map Hit.label
          ∧ (sorted.length ≤ request.start + (reads + 1) * request.size →
              results.hits.map Hit.label ++ labelsRead pages
                = (sorted.drop request.start).map Hit.label)
          ∧ ∀ times page, pages[times]? = some (.ok page) →
              sorted.length ≤ request.start + (times + 1) * request.size → page.hits = []) := by
  intro sorted reads pages
  have hnamed : db.Named := by
    rw [hdb]
    exact named_after config history
  -- The room for scrolls is that of the configuration, whatever has happened.
  have hcapacity : (db.search names request node).2.scrolls.capacity
      = max config.scrollCapacity 1 := by
    rw [capacity_search, hdb]
    exact capacity_after config history
  rcases holds_of_search hnamed hsearch hopened with ⟨rfl, duration, hholds⟩
  have hpages := pagesRead_of_holds commands _ _ 0 hholds hkept hfresh
    (by rw [hcapacity, Nat.zero_add]; exact hroom)
  simp only [page_readTimes] at hpages
  rcases answer_of_search hnamed hsearch with ⟨htotal, hfirst⟩
  refine ⟨hpages, htotal, fun hword => ?_⟩
  -- The first page and those that were read stand behind each other in the sorted list, without a
  -- gap.
  have hpiece : results.hits.map Hit.label ++ labelsRead pages
      = ((sorted.drop request.start).take ((reads + 1) * request.size)).map Hit.label := by
    have hread : labelsRead pages = _ := (congrArg labelsRead hpages).trans
      (labelsRead_pages hword _ _ request.start request.size reads)
    rw [hfirst, hread, ← List.map_append, Search.pageOf_append_pageOf, Nat.succ_mul,
      Nat.add_comm (reads * request.size)]
    rfl
  refine ⟨hpiece, fun henough => ?_, fun times page hget hend => ?_⟩
  · rw [hpiece, List.take_of_length_le]
    rw [List.length_drop]
    omega
  · rw [show pages = _ from hpages] at hget
    exact hits_eq_nil_of_length_le hword _ _ request.start request.size reads hget hend

/-- What happens in the harbour while a scroll is read twice: a document is put, a second
    scroll is opened and closed, and an index of the first one is deleted. -/
def harbourTraffic : List Command :=
  [.put "crews" "2" (.obj [("name", .str "sea legs")]),
    .search ["boats"] seaRequest "b",
    .continueScroll (ScrollId.encode "a"),
    .clearScroll [ScrollId.encode "b"],
    .deleteIndex "boats",
    .continueScroll (ScrollId.encode "a")]

/-- The scroll is read to its end. -/
theorem scroll_reads_all_harbour :
    ∃ results, (harbour.search ["crews", "boats", "crews"] seaRequest "a").1 = .ok results
      ∧ results.scrollId = some (ScrollId.encode "a")
      ∧ results.hits.map Hit.label
          ++ labelsRead ((harbour.search ["crews", "boats", "crews"] seaRequest "a").2.pagesRead
              (ScrollId.encode "a") harbourTraffic)
        = (harbour.ranks seaRequest.query seaRequest.sort
            ["crews", "boats", "crews"]).map Hit.label := by
  have hnamed : harbour.Named := named_after {} fillHarbour
  rcases search_of_searchable hnamed "a" searchable_harbour rfl with ⟨results, hok, _⟩
  have hscroll : results.scrollId = some (ScrollId.encode "a") := by
    rcases search_eq_ok_iff.mp hok with ⟨_, _, _, _, _, hresults⟩
    rw [hresults]
    rfl
  -- None of the commands closes the scroll, and the one that closes a scroll closes another one.
  have hkept : ∀ command ∈ harbourTraffic, ¬ command.closes (ScrollId.encode "a") := by
    have hother : ScrollId.encode "a" ∉ [ScrollId.encode "b"] := by decide
    simp only [harbourTraffic, List.mem_cons, List.not_mem_nil, or_false]
    rintro command (rfl | rfl | rfl | rfl | rfl | rfl)
    · exact id
    · exact id
    · exact id
    · exact fun h => hother h.1
    · exact id
    · exact id
  have hlength : (harbour.ranks seaRequest.query seaRequest.sort
      ["crews", "boats", "crews"]).length = 3 :=
    (stablySorted_sortHits _ _).perm.length_eq.trans length_finds_harbour
  rcases scroll_reads_all {} fillHarbour rfl ["crews", "boats", "crews"] seaRequest "a" hok
    hscroll harbourTraffic hkept (by decide) (by decide) with ⟨_, _, hall⟩
  rcases hall (Nat.le_trans (Nat.le_of_eq hlength) (by decide)) with ⟨_, hwhole, _⟩
  exact ⟨results, hok, hscroll, hwhole (Nat.le_trans (Nat.le_of_eq hlength) (by decide))⟩

end Database

end DocSearch
