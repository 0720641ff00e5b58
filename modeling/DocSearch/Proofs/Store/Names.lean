import DocSearch.Proofs.Store.Failure
import Mathlib.Data.List.Induction

/-!
# The Empty Name

Which indexes can come to have no name.

Creating an index under the empty name is refused, by every command that creates one to write to.
The check stands in the one place where they all look for their index. Copying an index does not
pass that place. It asks whether the name is free, and the empty name is as free as any other. A
database can therefore hold an index without a name, and once it does, the commands that
write find it and have no reason to refuse.

So the empty name is taken exactly from a successful copy to it until the index is deleted, or all
of them are. Nothing else brings such an index into being or takes it away.

## Main definitions

* `Command.drops`: The commands that delete the index under a name, if there is one.
* `Database.CopiesToNoName`: A command copies an index to the empty name.
* `Database.CopiedToNoName`: One of several commands does, and no later one deletes the index.

## Theorems

* `indexExists_of_writings`: Writing does not bring the empty name into use.
* `indexExists_cloneIndex`: Copying brings the name that is asked for into use.
* `noName_execute`: What a command does to the empty name.
* `clone_takes_no_name`: The empty name in use.
* `noName_iff`: When it is.
-/

namespace DocSearch

open Relation

/-- Whether a command deletes the index under a name, if there is one. -/
def Command.drops (name : String) : Command → Bool
  | .clear => true
  | .deleteIndex other => decide (other = name)
  | _ => false

namespace Database

variable {db : Database} {source target name : String}

/-- A stored index adds its own name and no other. -/
theorem indexExists_store (db : Database) (name other : String) (index : Index) :
    (db.store name index).indexExists other = (decide (name = other) || db.indexExists other) := by
  unfold indexExists Keyed.contains store
  rw [Keyed.get?_insert]
  by_cases h : name = other
  · simp [h]
  · simp [h]

theorem mem_indexNames_iff (db : Database) (name : String) :
    name ∈ db.indexNames ↔ db.indexExists name = true := by
  rw [indexNames, indexExists, Keyed.contains_iff]

/-! ### One command -/

/-- What is created has a name, and what is written to was there before. -/
theorem indexExists_of_writing {before after : Database} (h : Writing before after) :
    after.indexExists "" = before.indexExists "" := by
  cases h with
  | @create name hfree hname =>
    have hstore := indexExists_store before name "" (Index.empty name before.nextIdentity)
    rw [decide_eq_false hname, Bool.false_or] at hstore
    exact hstore
  | @write name index written hindex hwritten =>
    rw [indexExists_store]
    by_cases hname : name = ""
    · have hexists : before.indexExists "" = true := by
        rw [indexExists, Keyed.contains, ← hname, hindex, Option.isSome_some]
      rw [hexists, Bool.or_true]
    · rw [decide_eq_false hname, Bool.false_or]

/-- No run of writes creates an index without a name, since each creation refuses the empty one. -/
theorem indexExists_of_writings {before after : Database}
    (h : ReflTransGen Writing before after) :
    after.indexExists "" = before.indexExists "" := by
  induction h with
  | refl => rfl
  | tail _ hwriting ih => exact (indexExists_of_writing hwriting).trans ih

/-- A deletion takes away its own name and no other. -/
theorem indexExists_deleteIndex (db : Database) (name other : String) :
    (db.deleteIndex name).2.indexExists other
      = (!decide (name = other) && db.indexExists other) := by
  unfold deleteIndex
  by_cases hexists : db.indexExists name = true
  · rw [if_pos hexists]
    simp only [indexExists, Keyed.contains, Keyed.get?_erase]
    by_cases hname : name = other
    · simp [hname]
    · simp [hname]
  · rw [if_neg hexists]
    by_cases hname : name = other
    · rw [← hname, Bool.eq_false_iff.mpr hexists, Bool.and_false]
    · rw [decide_eq_false hname, Bool.not_false, Bool.true_and]

/-- Copying brings the name that is asked for into use, whatever it is. -/
theorem indexExists_cloneIndex (h : (db.cloneIndex source target).1 = .ok ()) (other : String) :
    (db.cloneIndex source target).2.indexExists other
      = (decide (target = other) || db.indexExists other) := by
  rcases cloneIndex_cases db source target with ⟨_, hfails⟩ | ⟨_, -, -, -, hok⟩
  · rw [hfails] at h
    exact absurd h (by simp)
  · rw [hok]
    exact indexExists_store db target other _

/-- A command copies an index to the empty name. -/
def CopiesToNoName (db : Database) (command : Command) : Prop :=
  ∃ source, command = .cloneIndex source "" ∧ (db.cloneIndex source "").1 = .ok ()

theorem not_copiesToNoName_of_ne {command : Command}
    (h : ∀ source, command ≠ .cloneIndex source "") : ¬ db.CopiesToNoName command := by
  rintro ⟨source, heq, _⟩
  exact h source heq

-- What leaves the empty name as it was, and neither copies nor deletes.
theorem noName_execute_of_same {command : Command} (hdrops : command.drops "" = false)
    (hother : ∀ source, command ≠ .cloneIndex source "")
    (hsame : (db.execute command).2.indexExists "" = db.indexExists "") :
    (db.execute command).2.indexExists "" = true
      ↔ db.indexExists "" = true ∧ command.drops "" = false ∨ db.CopiesToNoName command := by
  rw [hsame, or_iff_left (not_copiesToNoName_of_ne hother), and_iff_left hdrops]

/-- After a copy there is an index without a name exactly when there was one before or the copy was
    to the empty name and succeeded. The target is tested for being taken, and never for being
    empty. -/
theorem noName_cloneIndex (db : Database) (source target : String) :
    (db.cloneIndex source target).2.indexExists "" = true
      ↔ db.indexExists "" = true ∨ db.CopiesToNoName (.cloneIndex source target) := by
  cases hclone : (db.cloneIndex source target).1 with
  | error error =>
    have hfails : ¬ db.CopiesToNoName (.cloneIndex source target) := by
      rintro ⟨other, heq, hok⟩
      cases heq
      exact absurd (hclone.symm.trans hok) (by simp)
    rw [cloneIndex_of_error hclone, or_iff_left hfails]
  | ok done =>
    -- The only new name is that of the target.
    rw [indexExists_cloneIndex hclone, Bool.or_eq_true, decide_eq_true_eq, or_comm]
    refine or_congr_right ⟨fun htarget => ?_, ?_⟩
    · subst htarget
      exact ⟨source, rfl, hclone⟩
    · rintro ⟨other, heq, _⟩
      cases heq
      rfl

/-- After a command the empty name is in use if it was before and the command does not delete
    its index, or if the command copies an index to it. -/
theorem noName_execute (db : Database) (command : Command) :
    (db.execute command).2.indexExists "" = true
      ↔ db.indexExists "" = true ∧ command.drops "" = false ∨ db.CopiesToNoName command := by
  cases command with
  | cloneIndex source target =>
    have hdrops : Command.drops "" (.cloneIndex source target) = false := rfl
    rw [and_iff_left hdrops]
    exact noName_cloneIndex db source target
  | deleteIndex name =>
    rw [or_iff_left (not_copiesToNoName_of_ne fun source => by simp)]
    have hdelete : (db.execute (.deleteIndex name)).2 = (db.deleteIndex name).2 := rfl
    rw [hdelete, indexExists_deleteIndex, Bool.and_eq_true, Bool.not_eq_true', and_comm]
    rfl
  -- The empty database has no index of any name.
  | clear =>
    rw [or_iff_left (not_copiesToNoName_of_ne fun source => by simp)]
    exact ⟨fun h => absurd h (by simp [execute, clear, indexExists, Keyed.contains]),
      fun h => absurd h.2 (by simp [Command.drops])⟩
  -- All of these refuse to create an index without a name.
  | createIndex | put | add | remove | setMappings | setSettings | reindex =>
    exact noName_execute_of_same rfl (fun source => by simp)
      (indexExists_of_writings (writings_execute db rfl))
  | _ =>
    refine noName_execute_of_same rfl (fun source => by simp) ?_
    rw [indexExists, (keepsIndexes_execute db rfl).indexes, indexExists]

/-! ### Commands in a row -/

/-- One of several commands copies an index to the empty name, and no later one deletes it. -/
def CopiedToNoName (db : Database) (commands : List Command) : Prop :=
  ∃ before source rest, commands = before ++ .cloneIndex source "" :: rest
    ∧ ((db.after before).cloneIndex source "").1 = .ok ()
    ∧ ∀ command ∈ rest, command.drops "" = false

/-- The history condition unfolds from its end, which is the end at which the induction on a run
    adds a command: it holds with one command more if that command keeps the nameless index, or if
    it makes one. -/
theorem copiedToNoName_concat (db : Database) (commands : List Command) (command : Command) :
    db.CopiedToNoName (commands ++ [command])
      ↔ db.CopiedToNoName commands ∧ command.drops "" = false
        ∨ (db.after commands).CopiesToNoName command := by
  constructor
  · rintro ⟨before, source, rest, hsplit, hok, hrest⟩
    -- The copy is the last command, or it is among those before.
    rcases List.eq_nil_or_concat rest with rfl | ⟨others, last, rfl⟩
    · rcases List.append_inj' hsplit rfl with ⟨hbefore, hlast⟩
      rw [List.singleton_inj] at hlast
      rw [← hbefore] at hok
      exact Or.inr ⟨source, hlast, hok⟩
    · rw [List.concat_eq_append, ← List.cons_append, ← List.append_assoc] at hsplit
      rcases List.append_inj' hsplit rfl with ⟨hbefore, hlast⟩
      rw [List.singleton_inj] at hlast
      rw [List.concat_eq_append] at hrest
      refine Or.inl ⟨⟨before, source, others, hbefore, hok, fun other hother => ?_⟩, ?_⟩
      · exact hrest other (List.mem_append_left _ hother)
      · rw [hlast]
        exact hrest last (List.mem_append_right _ List.mem_cons_self)
  · rintro (⟨⟨before, source, rest, rfl, hok, hrest⟩, hkeeps⟩ | ⟨source, rfl, hok⟩)
    · refine ⟨before, source, rest ++ [command], by simp, hok, fun other hother => ?_⟩
      rcases List.mem_append.mp hother with hold | hlast
      · exact hrest other hold
      · rw [List.mem_singleton.mp hlast]
        exact hkeeps
    · exact ⟨commands, source, [], rfl, hok, fun _ hmem => absurd hmem List.not_mem_nil⟩

-- By induction on the commands, from the last one.
theorem noName_after (config : Config) (commands : List Command) :
    ((empty config).after commands).indexExists "" = true
      ↔ (empty config).CopiedToNoName commands := by
  induction commands using List.reverseRecOn with
  | nil =>
    refine ⟨fun h => absurd h (by simp [after, empty, indexExists, Keyed.contains]), ?_⟩
    rintro ⟨before, source, rest, hsplit, _⟩
    exact absurd hsplit (by simp)
  | append_singleton commands command ih =>
    have hafter : (empty config).after (commands ++ [command])
        = (((empty config).after commands).execute command).2 := by
      rw [after, List.foldl_concat]
      rfl
    rw [hafter, noName_execute, copiedToNoName_concat, ih]

/-- Settings that block writing. -/
def closedSettings : Json := .obj [("index.blocks.write", .bool true)]

/-- Creating an index without a name is refused, and copying one is not. -/
theorem clone_takes_no_name :
    ((empty {}).execute (.createIndex "" none)).1 = .error .indexNameEmpty
      ∧ ((empty {}).after [.createIndex "books" (some closedSettings),
          .cloneIndex "books" ""]).indexNames = ["", "books"] := by
  exact ⟨rfl, rfl⟩

/-- Under the empty name there is an index exactly if one has been copied to it and neither it nor
    all indexes have been deleted since. It is also the only index that carries no name. -/
theorem noName_iff (config : Config) (commands : List Command) :
    ("" ∈ ((empty config).after commands).indexNames
        ↔ (empty config).CopiedToNoName commands)
      ∧ ((∃ entry ∈ ((empty config).after commands).indexes, entry.2.name = "")
        ↔ (empty config).CopiedToNoName commands) := by
  have hname : "" ∈ ((empty config).after commands).indexNames
      ↔ (empty config).CopiedToNoName commands := by
    rw [mem_indexNames_iff, noName_after]
  have hsound := sound_after config commands
  refine ⟨hname, Iff.trans ⟨?_, ?_⟩ hname⟩
  · rintro ⟨⟨name, index⟩, hmem, hindex⟩
    rw [← hindex, (hsound name index hmem).1]
    exact List.mem_map_of_mem hmem
  · intro hmem
    rcases List.mem_map.mp hmem with ⟨⟨name, index⟩, hentry, heq⟩
    exact ⟨_, hentry, (hsound name index hentry).1.trans heq⟩

end Database

end DocSearch
