import DocSearch.Proofs.Bucket.CompositePages

/-!
# Keys as Objects

Whether the object that shows a key stands for that key.

Clients see a key as an object, with a member for every source under the name of the source, and
resume by giving such an object back. An object has one member under a name. So the values of
sources with one name end up in one place, where the last of them stays, and each of the sources
reads that one back. Reading therefore always gives some key, and it gives another one than was
shown as soon as two sources share a name but not their value.

Nothing keeps sources from sharing a name when an aggregation is read. For such sources different
buckets can show the same object, and the object that a page hands out to resume after it can stand
for a key that no hit has, behind which there is nothing.

## Main definitions

* `NamesAgree`: Sources with one name have one value in a key.

## Theorems

* `keyOfObject?_keyObject_iff`: Which keys are read back from their objects.
* `nodup_names_iff`: Sources whose keys are all read back have distinct names.
* `eq_of_keyObject_eq`: Where the names are distinct, so are the objects of buckets.
* `exists_bucket_of_afterKey`: The key that a page comes with is that of its last bucket.
* `key_objects_read_back_iff`: What objects say about keys, and where clients resume.
-/

namespace DocSearch

namespace CompositeAggregation

/-- Whether sources that have one name have one value in a key. -/
def NamesAgree (sources : List CompositeSource) (key : CompositeKey) : Prop :=
  ∀ a ∈ sources.zip key, ∀ b ∈ sources.zip key, a.1.name = b.1.name → a.2 = b.2

/-- The object that shows a key has a value of the key under the name of each source, though it may
    be that of another source. -/
theorem exists_get?_keyObject {sources : List CompositeSource} {key : CompositeKey}
    {source : CompositeSource} {value : String} (hmem : (source, value) ∈ sources.zip key) :
    ∃ other ∈ sources.zip key, other.1.name = source.name
      ∧ Keyed.get? source.name (keyObject sources key) = some (.str other.2) := by
  have hobject : keyObject sources key = Keyed.ofList ((sources.zip key).map
      fun entry => (entry.1.name, Json.str entry.2)) := rfl
  -- The last term written under the name is the one that is kept.
  rw [hobject, Keyed.get?_ofList, ← List.map_reverse]
  cases hget : Keyed.get? source.name ((sources.zip key).reverse.map
      fun entry => (entry.1.name, Json.str entry.2)) with
  | none =>
    refine absurd ?_ ((Keyed.get?_eq_none_iff _ _).mp hget)
    rw [Keyed.keys, List.map_map]
    exact List.mem_map.mpr ⟨_, List.mem_reverse.mpr hmem, rfl⟩
  | some found =>
    rcases List.mem_map.mp (Keyed.mem_of_get?_eq_some hget) with ⟨other, hother, heq⟩
    rw [Prod.mk.injEq] at heq
    exact ⟨other, List.mem_reverse.mp hother, heq.1, congrArg some heq.2.symm⟩

/-- The object that shows a key is read as some key. -/
theorem exists_keyOfObject?_keyObject {sources : List CompositeSource} {key : CompositeKey}
    (hlength : key.length = sources.length) :
    ∃ other, keyOfObject? sources (keyObject sources key) = some other := by
  refine Outcome.exists_mapM_eq_some fun source hsource => ?_
  rw [← List.map_fst_zip (Nat.le_of_eq hlength.symm)] at hsource
  rcases List.mem_map.mp hsource with ⟨⟨_, value⟩, hmem, rfl⟩
  rcases exists_get?_keyObject hmem with ⟨other, _, _, hget⟩
  rw [hget]
  exact ⟨_, rfl⟩

/-- A key is read back from its object if sources with one name agree about it. -/
theorem keyOfObject?_keyObject_iff {sources : List CompositeSource} {key : CompositeKey}
    (hlength : key.length = sources.length) :
    keyOfObject? sources (keyObject sources key) = some key ↔ NamesAgree sources key := by
  rw [keyOfObject?_eq_some_iff]
  constructor
  · rintro ⟨_, hread⟩ ⟨source, value⟩ ha ⟨other, value'⟩ hb hname
    -- Both are read from one place.
    have hvalue := hread source value ha
    have hvalue' := hread other value' hb
    rw [show source.name = other.name from hname, hvalue'] at hvalue
    exact (Option.some.inj hvalue).symm
  · intro hagree
    refine ⟨hlength.symm, fun source value hmem => ?_⟩
    rcases exists_get?_keyObject hmem with ⟨other, hother, hname, hget⟩
    rw [hget, Option.map_some, hagree other hother (source, value) hmem hname]
    rfl

/-- Where sources agree about every key they have distinct names. The induction is on the sources: a
    key that has one text at the first place and another one at all places behind it tells the
    name of the first source from the names behind it. -/
theorem nodup_names_of_namesAgree {sources : List CompositeSource}
    (h : ∀ key : CompositeKey, key.length = sources.length → NamesAgree sources key) :
    (sources.map CompositeSource.name).Nodup := by
  induction sources with
  | nil => exact List.nodup_nil
  | cons source rest ih =>
    rw [List.map_cons, List.nodup_cons]
    constructor
    · intro hname
      rcases List.mem_map.mp hname with ⟨other, hother, heq⟩
      have hlength : ("1" :: rest.map fun _ => "").length = (source :: rest).length := by
        rw [List.length_cons, List.length_cons, List.length_map]
      have hmem : (other, "") ∈ rest.zip (rest.map fun _ => "") := by
        rw [← List.map_prod_left_eq_zip]
        exact List.mem_map.mpr ⟨other, hother, rfl⟩
      -- The key that has `1` for this source and nothing for all others tells the two apart.
      have hvalues : "1" = "" := h _ hlength (source, "1") List.mem_cons_self (other, "")
        (List.mem_cons_of_mem _ hmem) heq.symm
      exact absurd hvalues (by decide)
    · refine ih fun key hlength a ha b hb hab => ?_
      have hlength' : ("" :: key).length = (source :: rest).length := by
        rw [List.length_cons, List.length_cons, hlength]
      exact h _ hlength' a (List.mem_cons_of_mem _ ha) b (List.mem_cons_of_mem _ hb) hab

/-- Sources whose keys are all read back have distinct names. -/
theorem nodup_names_iff {sources : List CompositeSource} :
    (∀ key : CompositeKey, key.length = sources.length →
        keyOfObject? sources (keyObject sources key) = some key)
      ↔ (sources.map CompositeSource.name).Nodup := by
  constructor
  · intro h
    exact nodup_names_of_namesAgree fun key hlength =>
      (keyOfObject?_keyObject_iff hlength).mp (h key hlength)
  · exact fun hnames key => keyOfObject?_keyObject hnames

/-- No two buckets show the same object. -/
theorem eq_of_keyObject_eq {sources : List CompositeSource} {hits : List Hit}
    (hnames : (sources.map CompositeSource.name).Nodup) {a b : CompositeKey × Nat}
    (ha : a ∈ counts sources hits) (hb : b ∈ counts sources hits)
    (hobject : keyObject sources a.1 = keyObject sources b.1) : a = b := by
  have hread := keyOfObject?_keyObject hnames (length_of_mem_counts ha)
  rw [hobject, keyOfObject?_keyObject hnames (length_of_mem_counts hb)] at hread
  exact List.inj_on_of_nodup_map (nodup_keys_counts sources hits) ha hb
    (Option.some.inj hread).symm

/-- The key that a page comes with is that of the last bucket of the page. -/
theorem exists_bucket_of_afterKey {aggregation : CompositeAggregation} {hits : List Hit}
    {members : List (String × Json)} (h : (aggregation.run hits).afterKey = some members) :
    ∃ entry ∈ counts aggregation.sources hits,
      (aggregation.run hits).buckets.getLast? = some (bucketOf aggregation.sources entry)
        ∧ members = keyObject aggregation.sources entry.1 := by
  by_cases hsources : aggregation.sources = []
  · -- Without sources there are no buckets.
    rw [run, if_pos (List.isEmpty_iff.mpr hsources)] at h
    exact absurd h (by simp)
  · rw [afterKey_run aggregation hits hsources] at h
    by_cases hend : (counts aggregation.sources hits).length
        ≤ aggregation.startIn hits + aggregation.size
    · rw [if_pos hend] at h
      exact absurd h (by simp)
    · rw [if_neg hend, Option.map_eq_some_iff] at h
      rcases h with ⟨bucket, hlast, rfl⟩
      have hmem := List.mem_of_getLast? hlast
      rw [buckets_run aggregation hits hsources] at hmem
      rcases List.mem_map.mp hmem with ⟨entry, hentry, rfl⟩
      exact ⟨entry, List.mem_of_mem_drop (List.mem_of_mem_take hentry), hlast, rfl⟩

/-- The object that shows a key always stands for some key, and it stands for that key itself
    if sources with one name agree about it. So the objects of all keys stand for them exactly if
    the names of the sources are distinct. In that case no two buckets show the same object,
    and the key that a page comes with stands for the last bucket of the page. -/
theorem key_objects_read_back_iff (sources : List CompositeSource) :
    (∀ key : CompositeKey, key.length = sources.length →
        (∃ other, keyOfObject? sources (keyObject sources key) = some other)
          ∧ (keyOfObject? sources (keyObject sources key) = some key ↔ NamesAgree sources key))
      ∧ ((∀ key : CompositeKey, key.length = sources.length →
            keyOfObject? sources (keyObject sources key) = some key)
          ↔ (sources.map CompositeSource.name).Nodup)
      ∧ ((sources.map CompositeSource.name).Nodup → ∀ hits,
          (∀ a ∈ counts sources hits, ∀ b ∈ counts sources hits,
              (bucketOf sources a).key = (bucketOf sources b).key → a = b)
            ∧ ∀ size after members, (run ⟨sources, size, after⟩ hits).afterKey = some members →
              ∃ entry ∈ counts sources hits,
                (run ⟨sources, size, after⟩ hits).buckets.getLast?
                    = some (bucketOf sources entry)
                  ∧ members = (bucketOf sources entry).key
                  ∧ keyOfObject? sources members = some entry.1) := by
  refine ⟨fun key hlength => ⟨exists_keyOfObject?_keyObject hlength,
    keyOfObject?_keyObject_iff hlength⟩, nodup_names_iff, fun hnames hits =>
      ⟨fun a ha b hb => eq_of_keyObject_eq hnames ha hb, fun size after members hkey => ?_⟩⟩
  rcases exists_bucket_of_afterKey hkey with ⟨entry, hentry, hlast, rfl⟩
  exact ⟨entry, hentry, hlast, rfl, keyOfObject?_keyObject hnames (length_of_mem_counts hentry)⟩

/-- A page with the first of the two buckets of the shelf comes with a key, which stands for it. -/
theorem key_objects_read_back_shelf :
    (byGenre.map CompositeSource.name).Nodup
      ∧ ∃ entry ∈ counts byGenre shelf,
        (run ⟨byGenre, 1, none⟩ shelf).afterKey = some (bucketOf byGenre entry).key
          ∧ keyOfObject? byGenre (bucketOf byGenre entry).key = some entry.1 := by
  have hnames : (byGenre.map CompositeSource.name).Nodup := by decide
  have hlength : (counts byGenre shelf).length = 2 := by
    rw [length_counts]
    decide
  have hkey := afterKey_run_of_lt ⟨byGenre, 1, none⟩ shelf (List.cons_ne_nil _ _) (Nat.le_refl 1)
    (by change 0 + 1 < (counts byGenre shelf).length; omega)
  rcases (key_objects_read_back_iff byGenre).2.2 hnames shelf with ⟨_, hlast⟩
  rcases hlast 1 none _ hkey with ⟨entry, hentry, _, hmembers, hread⟩
  rw [hmembers] at hkey hread
  exact ⟨hnames, entry, hentry, hkey, hread⟩

/-- Two sources with one name. -/
def twinParameters : Json :=
  .obj [("sources", .arr [
    .obj [("tag", .obj [("terms", .obj [("field", .str "x")])])],
    .obj [("tag", .obj [("terms", .obj [("field", .str "y")])])]])]

/-- Two hits, each with a value in both fields. -/
def twinHits : List Hit :=
  [⟨"pairs", "1", 1.0, some (.obj [("x", .str "1"), ("y", .str "2")]), none⟩,
    ⟨"pairs", "2", 1.0, some (.obj [("x", .str "3"), ("y", .str "4")]), none⟩]

/-- Two sources with one name can be asked for. The object that shows a key of theirs stands for
    another key, and for no bucket. It is what the first page comes with, though a bucket is
    left, and nothing is found behind it. -/
theorem key_objects_of_twins_not_read_back :
    ∃ aggregation, ofJson 1 twinParameters = .ok aggregation
      ∧ (["1", "2"], 1) ∈ counts aggregation.sources twinHits
      ∧ (["3", "4"], 1) ∈ counts aggregation.sources twinHits
      ∧ keyOfObject? aggregation.sources (keyObject aggregation.sources ["1", "2"])
        = some ["2", "2"]
      ∧ keyObject aggregation.sources ["1", "2"] = keyObject aggregation.sources ["3", "2"]
      ∧ (aggregation.run twinHits).afterKey = some (keyObject aggregation.sources ["1", "2"])
      ∧ ((aggregation.resumeAfter (keyObject aggregation.sources ["1", "2"])).run
          twinHits).buckets = [] := by
  -- Both sources are called `tag`, and the second one overwrites what the first one put there.
  let sources : List CompositeSource := [⟨"tag", "x", .ascending⟩, ⟨"tag", "y", .ascending⟩]
  have hcounts : counts sources twinHits = [(["1", "2"], 1), (["3", "4"], 1)] := by
    refine eq_of_perm_of_sortedBy ((perm_counts sources twinHits).trans ?_)
      (fun _ hmem => length_of_mem_counts hmem) (sortedBy_counts sources twinHits) ?_
    · decide
    · unfold SortedBy
      decide
  refine ⟨⟨sources, 1, none⟩, rfl, ?_, ?_, by decide, rfl, ?_, ?_⟩
  · rw [hcounts]
    decide
  · rw [hcounts]
    decide
  · unfold run
    simp only [hcounts]
    rfl
  · unfold run resumeAfter
    simp only [hcounts]
    rfl

end CompositeAggregation

end DocSearch
