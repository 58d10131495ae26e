import Mathlib.Data.List.Basic
import Mathlib.Data.List.Forall2

/-!
# Computations that may fail

How a successful computation in the `Except` monad comes apart, and what a fold
of a fallible step preserves when it succeeds.
-/

set_option autoImplicit false

namespace Fallible

universe u v w

variable {E : Type u} {A B : Type v}

theorem bind_eq_ok_iff {first : Except E A} {second : A → Except E B} {result : B} :
    (first >>= second) = .ok result ↔ ∃ value, first = .ok value ∧ second value = .ok result := by
  cases first with
  | error failure =>
      constructor
      · intro absurd
        cases absurd
      · rintro ⟨value, absurd, _⟩
        cases absurd
  | ok value =>
      constructor
      · intro done
        exact ⟨value, rfl, done⟩
      · rintro ⟨_, same, done⟩
        cases same
        exact done

theorem map_eq_ok_iff {first : Except E A} {after : A → B} {result : B} :
    first.map after = .ok result ↔ ∃ value, first = .ok value ∧ after value = result := by
  cases first with
  | error failure =>
      constructor
      · intro absurd
        cases absurd
      · rintro ⟨value, absurd, _⟩
        cases absurd
  | ok value =>
      constructor
      · intro done
        cases done
        exact ⟨value, rfl, rfl⟩
      · rintro ⟨_, same, rfl⟩
        cases same
        rfl

theorem exists_map_eq_ok_iff {first : Except E A} {after : A → B} :
    (∃ result, first.map after = .ok result) ↔ ∃ value, first = .ok value := by
  cases first with
  | error failure => exact iff_of_false (fun done => nomatch done) (fun done => nomatch done)
  | ok value => exact iff_of_true ⟨after value, rfl⟩ ⟨value, rfl⟩

/-- A value that may be absent fails only when it is there. -/
theorem exists_option_mapM_eq_ok_iff {I : Type v} {step : I → Except E A} {item : Option I} :
    (∃ result, item.mapM step = .ok result) ↔ ∀ value ∈ item, ∃ result, step value = .ok result := by
  cases item with
  | none => exact iff_of_true ⟨none, rfl⟩ nofun
  | some value =>
      have mapped : (some value).mapM step = (step value).map some := rfl
      rw [mapped, exists_map_eq_ok_iff]
      simp

theorem exists_ok_of_isOk {A : Type u} {result : Except E A} (succeeded : result.isOk = true) :
    ∃ value, result = .ok value := by
  cases result with
  | error failure => cases succeeded
  | ok value => exact ⟨value, rfl⟩

theorem eq_ok_of_isOk {result : Except E Unit} (succeeded : result.isOk = true) :
    result = .ok () := by
  cases result with
  | error failure => cases succeeded
  | ok _ => rfl

/-- A step that succeeds on every item maps the list. -/
theorem mapM_eq_ok_map {I : Type w} {step : I → Except E A} {result : I → A} {items : List I}
    (succeeds : ∀ item ∈ items, step item = .ok (result item)) :
    items.mapM step = .ok (items.map result) := by
  induction items with
  | nil => rfl
  | cons item rest ih =>
      obtain ⟨first, later⟩ := List.forall_mem_cons.mp succeeds
      rw [List.mapM_cons, first, ih later]
      rfl

/-- What the step gives for each item, when it succeeds on all of them. -/
theorem forall₂_of_mapM {I : Type w} {step : I → Except E A} {items : List I} {results : List A}
    (done : items.mapM step = .ok results) :
    List.Forall₂ (fun item result => step item = .ok result) items results := by
  induction items generalizing results with
  | nil =>
      cases done
      exact .nil
  | cons item rest ih =>
      rw [List.mapM_cons] at done
      obtain ⟨first, taken, done⟩ := bind_eq_ok_iff.mp done
      obtain ⟨others, mapped, done⟩ := bind_eq_ok_iff.mp done
      cases done
      exact .cons taken (ih mapped)

theorem mapM_of_forall {I : Type w} {step : I → Except E A} {related : I → A → Prop}
    {items : List I} (each : ∀ item ∈ items, ∃ result, step item = .ok result ∧ related item result) :
    ∃ results, items.mapM step = .ok results ∧ List.Forall₂ related items results := by
  induction items with
  | nil => exact ⟨[], rfl, .nil⟩
  | cons item rest ih =>
      obtain ⟨⟨first, taken, isFirst⟩, later⟩ := List.forall_mem_cons.mp each
      obtain ⟨others, mapped, areOthers⟩ := ih later
      refine ⟨first :: others, ?_, .cons isFirst areOthers⟩
      rw [List.mapM_cons, taken, mapped]
      rfl

theorem exists_of_mem_left {I : Type w} {related : I → A → Prop} {items : List I}
    {results : List A} (all : List.Forall₂ related items results) {item : I} (member : item ∈ items) :
    ∃ result ∈ results, related item result := by
  induction all with
  | nil => cases member
  | cons first _ ih =>
      rcases List.mem_cons.mp member with rfl | later
      · exact ⟨_, List.mem_cons_self, first⟩
      · obtain ⟨result, isResult, holds⟩ := ih later
        exact ⟨result, List.mem_cons_of_mem _ isResult, holds⟩

theorem exists_mapM_eq_ok_iff {I : Type w} {step : I → Except E A} {items : List I} :
    (∃ results, items.mapM step = .ok results) ↔
      ∀ item ∈ items, ∃ result, step item = .ok result := by
  constructor
  · rintro ⟨results, done⟩ item member
    obtain ⟨result, _, taken⟩ := exists_of_mem_left (forall₂_of_mapM done) member
    exact ⟨result, taken⟩
  · intro each
    have mapped := @mapM_of_forall E A I step (fun _ _ => True) items fun item member =>
      (each item member).imp fun _ taken => ⟨taken, trivial⟩
    exact mapped.imp fun _ => And.left

theorem exists_of_mem_right {I : Type w} {related : I → A → Prop} {items : List I}
    {results : List A} (all : List.Forall₂ related items results) {result : A}
    (member : result ∈ results) : ∃ item ∈ items, related item result := by
  induction all with
  | nil => cases member
  | cons first _ ih =>
      rcases List.mem_cons.mp member with rfl | later
      · exact ⟨_, List.mem_cons_self, first⟩
      · obtain ⟨item, isItem, holds⟩ := ih later
        exact ⟨item, List.mem_cons_of_mem _ isItem, holds⟩

theorem forall₂_chain {I : Type w} {J : Type w} {K : Type w} {left : I → J → Prop}
    {right : J → K → Prop} {related : I → K → Prop}
    (chain : ∀ first second third, left first second → right second third → related first third)
    {firsts : List I} {seconds : List J} {thirds : List K} (lefts : List.Forall₂ left firsts seconds)
    (rights : List.Forall₂ right seconds thirds) : List.Forall₂ related firsts thirds := by
  induction lefts generalizing thirds with
  | nil =>
      cases rights
      exact .nil
  | cons first _ ih =>
      cases rights with
      | cons second rest => exact .cons (chain _ _ _ first second) (ih rest)

section Fold
variable {S : Type v} {I : Type w} {step : S → I → Except E S}

theorem foldlM_invariant {invariant : S → Prop}
    (keeps : ∀ state item next, invariant state → step state item = .ok next → invariant next)
    {items : List I} {state final : S} (start : invariant state)
    (done : items.foldlM step state = .ok final) : invariant final := by
  induction items generalizing state with
  | nil =>
      cases done
      exact start
  | cons item rest ih =>
      rw [List.foldlM_cons] at done
      obtain ⟨next, stepped, done⟩ := bind_eq_ok_iff.mp done
      exact ih (keeps state item next start stepped) done

/-- A view of the state that every step changes by a pure update. -/
theorem foldlM_view {V : Type v} (view : S → V) (update : V → I → V)
    (simulates : ∀ state item next, step state item = .ok next →
      view next = update (view state) item)
    {items : List I} {state final : S} (done : items.foldlM step state = .ok final) :
    view final = items.foldl update (view state) := by
  induction items generalizing state with
  | nil =>
      cases done
      rfl
  | cons item rest ih =>
      rw [List.foldlM_cons] at done
      obtain ⟨next, stepped, done⟩ := bind_eq_ok_iff.mp done
      rw [ih done, simulates state item next stepped]
      rfl

/-- A fold goes through when every item does, where the state does not decide it. -/
theorem foldlM_ok_iff (fits : I → Prop)
    (decides : ∀ state item, (∃ next, step state item = .ok next) ↔ fits item)
    {items : List I} {state : S} :
    (∃ final, items.foldlM step state = .ok final) ↔ ∀ item ∈ items, fits item := by
  induction items generalizing state with
  | nil => simp [pure, Except.pure]
  | cons item rest ih =>
      rw [List.forall_mem_cons, ← decides state item, List.foldlM_cons]
      constructor
      · rintro ⟨final, done⟩
        obtain ⟨next, stepped, done⟩ := bind_eq_ok_iff.mp done
        exact ⟨⟨next, stepped⟩, ih.mp ⟨final, done⟩⟩
      · rintro ⟨⟨next, stepped⟩, later⟩
        obtain ⟨final, done⟩ : ∃ final, rest.foldlM step next = .ok final := ih.mpr later
        exact ⟨final, bind_eq_ok_iff.mpr ⟨next, stepped, done⟩⟩

end Fold

/-- What is read from the items of a list, all of which can be read. -/
theorem mem_of_mapM_option {A B : Type u} {read : A → Option B} {items : List A} {results : List B}
    (done : items.mapM read = some results) :
    results.length = items.length ∧
      ∀ result, result ∈ results ↔ ∃ item ∈ items, read item = some result := by
  induction items generalizing results with
  | nil =>
      cases done
      exact ⟨rfl, fun result => by simp⟩
  | cons item rest ih =>
      rw [List.mapM_cons] at done
      obtain ⟨first, isRead, done⟩ := Option.bind_eq_some_iff.mp done
      obtain ⟨others, readOthers, done⟩ := Option.bind_eq_some_iff.mp done
      cases done
      obtain ⟨lengths, members⟩ := ih readOthers
      refine ⟨congrArg (· + 1) lengths, ?_⟩
      intro result
      rw [List.mem_cons, members]
      constructor
      · rintro (rfl | ⟨other, member, found⟩)
        · exact ⟨item, List.mem_cons_self .., isRead⟩
        · exact ⟨other, List.mem_cons_of_mem _ member, found⟩
      · rintro ⟨other, member, found⟩
        rcases List.mem_cons.mp member with rfl | inRest
        · exact Or.inl (Option.some.inj (found.symm.trans isRead))
        · exact Or.inr ⟨other, inRest, found⟩

theorem mapM_option_of_forall {A B : Type u} {read : A → Option B} {items : List A}
    (each : ∀ item ∈ items, (read item).isSome = true) : ∃ results, items.mapM read = some results := by
  induction items with
  | nil => exact ⟨[], rfl⟩
  | cons item rest ih =>
      obtain ⟨first, later⟩ := List.forall_mem_cons.mp each
      obtain ⟨result, isRead⟩ := Option.isSome_iff_exists.mp first
      obtain ⟨others, readOthers⟩ := ih later
      refine ⟨result :: others, ?_⟩
      rw [List.mapM_cons, isRead, readOthers]
      rfl

/-- What the results show is what the items show that they were read from. -/
theorem map_of_mapM_option {A B : Type u} {C : Type v} {read : A → Option B} {shown : B → C}
    {shows : A → C} (alike : ∀ item result, read item = some result → shown result = shows item)
    {items : List A} {results : List B} (done : items.mapM read = some results) :
    results.map shown = items.map shows := by
  induction items generalizing results with
  | nil =>
      cases done
      rfl
  | cons item rest ih =>
      rw [List.mapM_cons] at done
      obtain ⟨first, isRead, done⟩ := Option.bind_eq_some_iff.mp done
      obtain ⟨others, readOthers, done⟩ := Option.bind_eq_some_iff.mp done
      cases done
      rw [List.map_cons, List.map_cons, alike item first isRead, ih readOthers]

theorem exists_of_mapM_option {A B : Type u} {read : A → Option B} {items : List A} {results : List B}
    (done : items.mapM read = some results) : ∀ item ∈ items, ∃ result, read item = some result := by
  induction items generalizing results with
  | nil => exact fun _ member => nomatch member
  | cons item rest ih =>
      rw [List.mapM_cons] at done
      obtain ⟨first, isRead, done⟩ := Option.bind_eq_some_iff.mp done
      obtain ⟨others, readOthers, _⟩ := Option.bind_eq_some_iff.mp done
      exact List.forall_mem_cons.mpr ⟨⟨first, isRead⟩, ih readOthers⟩

/-- What is shown of the items that are there, when every item can be read. -/
theorem map_filterMap_of_mapM_option {A B C : Type u} {read : A → Option (Option B)} {view : B → C}
    {shown : A → Option C} {items : List A} {results : List (Option B)}
    (agrees : ∀ item ∈ items, ∀ answer, read item = some answer → answer.map view = shown item)
    (done : items.mapM read = some results) :
    (results.filterMap id).map view = items.filterMap shown := by
  induction items generalizing results with
  | nil =>
      cases done
      rfl
  | cons item rest ih =>
      obtain ⟨agreesFirst, agreesRest⟩ := List.forall_mem_cons.mp agrees
      rw [List.mapM_cons] at done
      obtain ⟨first, isRead, done⟩ := Option.bind_eq_some_iff.mp done
      obtain ⟨others, readOthers, done⟩ := Option.bind_eq_some_iff.mp done
      cases done
      have same := agreesFirst first isRead
      cases first with
      | none =>
          rw [List.filterMap_cons, List.filterMap_cons, ← same]
          exact ih agreesRest readOthers
      | some value =>
          rw [List.filterMap_cons, List.filterMap_cons, ← same]
          exact congrArg (view value :: ·) (ih agreesRest readOthers)

end Fallible
