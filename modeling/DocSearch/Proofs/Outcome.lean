import DocSearch.Error
import Mathlib.Data.List.Forall2

/-!
# Outcomes

Taking apart a computation that may fail. A chain of steps that ends well has a result for
every step, and a list of steps has one for every element. One that fails has a first step
that does.

Readers refuse what they cannot use, and then the request is at fault. Which values a reader takes
and that it blames the request for all others is said together, because its steps do both.

## Main definitions

* `Decides`: A reading step that accepts exactly where a condition holds.

## Theorems

* `bind_eq_ok_iff`, `bind_eq_error_iff`: A step and what follows it.
* `throw_bind_ne_ok`: A refusal, whatever would follow it.
* `map_eq_ok_iff`, `map_eq_error_iff`: A step with a function behind it.
* `mapM_cons_eq_ok_iff`, `mapM_cons_eq_error_iff`: A list of steps, from its head.
* `ok_of_mem_of_mapM`: A list of steps that ends well, at one of its elements.
* `error_of_mapM`: A list of steps that fails, at an element where a step does.
* `mapM_eq_some_iff`: A list of steps with results, at every element.
* `exists_mapM_eq_some`: A list of steps that all have results.
* `mapM_map_eq_some`: A list of steps that undo others.
* `mapM_eq_none_of_mem`: A list of steps of which one has no result.
-/

namespace DocSearch

namespace Outcome

variable {ε α β : Type}

-- When a step and what follows on it succeed, and when they fail. All that is proved of programs
-- with failures goes through these.
theorem bind_eq_ok_iff {x : Except ε α} {f : α → Except ε β} {b : β} :
    x >>= f = .ok b ↔ ∃ a, x = .ok a ∧ f a = .ok b := by
  cases x with
  | error e => simp [bind, Except.bind]
  | ok a => simp [bind, Except.bind]

theorem bind_eq_error_iff {x : Except ε α} {f : α → Except ε β} {e : ε} :
    x >>= f = .error e ↔ x = .error e ∨ ∃ a, x = .ok a ∧ f a = .error e := by
  cases x with
  | error e' => simp [bind, Except.bind]
  | ok a => simp [bind, Except.bind]

/-- Nothing follows on a failure. -/
theorem throw_bind_ne_ok {e : ε} {f : α → Except ε β} {b : β} :
    (throw e >>= f : Except ε β) ≠ .ok b := by
  intro h
  rcases bind_eq_ok_iff.mp h with ⟨_, hthrow, _⟩
  exact absurd hthrow (by simp [throw, throwThe, MonadExceptOf.throw])

theorem map_eq_ok_iff {x : Except ε α} {f : α → β} {b : β} :
    x.map f = .ok b ↔ ∃ a, x = .ok a ∧ f a = b := by
  cases x with
  | error e => simp [Except.map]
  | ok a => simp [Except.map]

theorem map_eq_error_iff {x : Except ε α} {f : α → β} {e : ε} :
    x.map f = .error e ↔ x = .error e := by
  cases x with
  | error e' => simp [Except.map]
  | ok a => simp [Except.map]

/-- Steps in a row succeed if the first one does and then the others do. -/
theorem mapM_cons_eq_ok_iff {f : α → Except ε β} {a : α} {rest : List α} {results : List β} :
    (a :: rest).mapM f = .ok results
      ↔ ∃ b others, f a = .ok b ∧ rest.mapM f = .ok others ∧ results = b :: others := by
  rw [List.mapM_cons, bind_eq_ok_iff]
  constructor
  · rintro ⟨b, hb, hrest⟩
    rcases bind_eq_ok_iff.mp hrest with ⟨others, hothers, heq⟩
    exact ⟨b, others, hb, hothers, (Except.ok.inj heq).symm⟩
  · rintro ⟨b, others, hb, hothers, rfl⟩
    exact ⟨b, hb, bind_eq_ok_iff.mpr ⟨others, hothers, rfl⟩⟩

/-- They fail with the first failure among them. -/
theorem mapM_cons_eq_error_iff {f : α → Except ε β} {a : α} {rest : List α} {e : ε} :
    (a :: rest).mapM f = .error e
      ↔ f a = .error e ∨ ∃ b, f a = .ok b ∧ rest.mapM f = .error e := by
  rw [List.mapM_cons, bind_eq_error_iff]
  refine or_congr_right (exists_congr fun b => and_congr_right fun _ => ?_)
  -- behind the last step the results are only put together
  rw [bind_eq_error_iff, or_iff_left]
  rintro ⟨others, _, hpure⟩
  exact absurd hpure (by simp [pure, Except.pure])

/-- If all steps succeed, each one does. -/
theorem ok_of_mem_of_mapM {f : α → Except ε β} {xs : List α} {results : List β}
    (h : xs.mapM f = .ok results) {a : α} (hmem : a ∈ xs) : ∃ b, f a = .ok b := by
  induction xs generalizing results with
  | nil => exact absurd hmem List.not_mem_nil
  | cons head rest ih =>
    rcases mapM_cons_eq_ok_iff.mp h with ⟨b, others, hhead, hrest, _⟩
    rcases List.mem_cons.mp hmem with rfl | hmem
    · exact ⟨b, hhead⟩
    · exact ih hrest hmem

/-- If they fail, one of them does, with the same error. -/
theorem error_of_mapM {f : α → Except ε β} {xs : List α} {e : ε} (h : xs.mapM f = .error e) :
    ∃ a ∈ xs, f a = .error e := by
  induction xs with
  | nil => exact absurd h (by simp [pure, Except.pure])
  | cons head rest ih =>
    rcases mapM_cons_eq_error_iff.mp h with hhead | ⟨_, _, hrest⟩
    · exact ⟨head, List.mem_cons_self, hhead⟩
    · rcases ih hrest with ⟨a, hmem, herror⟩
      exact ⟨a, List.mem_cons_of_mem _ hmem, herror⟩

/-- For steps without an error: the results belong to the inputs, one by one. -/
theorem mapM_eq_some_iff {f : α → Option β} {xs : List α} {results : List β} :
    xs.mapM f = some results ↔ List.Forall₂ (fun x result => f x = some result) xs results := by
  induction xs generalizing results with
  | nil => simp [eq_comm]
  | cons head rest ih =>
    rw [List.mapM_cons, List.forall₂_cons_left_iff]
    simp only [← ih, Option.bind_eq_bind, Option.bind_eq_some_iff, Option.pure_def,
      Option.some.injEq]
    constructor
    · rintro ⟨b, hhead, others, hrest, rfl⟩
      exact ⟨b, others, hhead, hrest, rfl⟩
    · rintro ⟨b, others, hhead, hrest, rfl⟩
      exact ⟨b, hhead, others, hrest, rfl⟩

/-- There are results if there is one for every input. -/
theorem exists_mapM_eq_some {f : α → Option β} {xs : List α}
    (h : ∀ x ∈ xs, ∃ result, f x = some result) : ∃ results, xs.mapM f = some results := by
  induction xs with
  | nil => exact ⟨[], rfl⟩
  | cons head rest ih =>
    rcases h head List.mem_cons_self with ⟨result, hhead⟩
    rcases ih fun x hx => h x (List.mem_cons_of_mem _ hx) with ⟨results, hrest⟩
    refine ⟨result :: results, ?_⟩
    rw [List.mapM_cons, hhead, hrest]
    rfl

-- What is taken back step by step is taken back as a whole.
theorem mapM_map_eq_some {f : α → β} {g : β → Option α} {xs : List α}
    (h : ∀ x ∈ xs, g (f x) = some x) : (xs.map f).mapM g = some xs := by
  induction xs with
  | nil => rfl
  | cons head rest ih =>
    rw [List.map_cons, List.mapM_cons, h head List.mem_cons_self,
      ih fun x hx => h x (List.mem_cons_of_mem _ hx)]
    rfl

-- One step without a result leaves the whole without one.
theorem mapM_eq_none_of_mem {f : α → Option β} {xs : List α} {a : α} (hmem : a ∈ xs)
    (h : f a = none) : xs.mapM f = none := by
  induction xs with
  | nil => exact absurd hmem List.not_mem_nil
  | cons head rest ih =>
    rw [List.mapM_cons]
    rcases List.mem_cons.mp hmem with rfl | hrest
    · rw [h]
      rfl
    · rw [ih hrest]
      cases f head <;> rfl

end Outcome

/-- A reading step accepts exactly where a condition holds, and where it refuses, the request is at
    fault. -/
structure Decides {α : Type} (step : Except Error α) (condition : Prop) : Prop where
  accepts : (∃ result, step = .ok result) ↔ condition
  blames : ∀ error, step = .error error → error.kind = .validation

namespace Decides

variable {α β : Type} {step : Except Error α} {P Q : Prop}

-- A step that succeeds decides what holds, and one that blames the request decides what does not.
theorem of_ok (result : α) (h : P) : Decides (.ok result) P :=
  ⟨iff_of_true ⟨result, rfl⟩ h, fun _ herror => absurd herror (by simp)⟩

theorem of_error {error : Error} (hkind : error.kind = .validation) (h : ¬ P) :
    Decides (.error error : Except Error α) P :=
  ⟨iff_of_false (fun ⟨_, hok⟩ => absurd hok (by simp)) h,
    fun _ herror => (Except.error.inj herror) ▸ hkind⟩

/-- What is decided may be put in other words. -/
theorem congr (h : Decides step P) (hiff : P ↔ Q) : Decides step Q :=
  ⟨h.accepts.trans hiff, h.blames⟩

/-- What is done with the result does not change what is decided. -/
theorem map (h : Decides step P) (f : α → β) : Decides (step.map f) P := by
  cases step with
  | ok result => exact of_ok (f result) (h.accepts.mp ⟨result, rfl⟩)
  | error error =>
    exact of_error (h.blames error rfl) fun hP => absurd (h.accepts.mpr hP) (by simp)

-- What is refused first is refused, so nothing is said about the second step then.
theorem bind {next : α → Except Error β} (h : Decides step P)
    (hnext : ∀ result, step = .ok result → Decides (next result) Q) :
    Decides (step >>= next) (P ∧ Q) := by
  cases step with
  | ok result =>
    have hP : P := h.accepts.mp ⟨result, rfl⟩
    exact (hnext result rfl).congr (by simp [hP])
  | error error =>
    exact of_error (h.blames error rfl) fun hboth => absurd (h.accepts.mpr hboth.1) (by simp)

end Decides

end DocSearch
