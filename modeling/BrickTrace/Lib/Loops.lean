import Mathlib.Data.List.Basic
import Mathlib.Data.List.Forall2

/-!
# Loops that keep what they did

A loop takes the items of a list in order and stops at the first failure.  What
the steps before the failure did, and what the failing step did before it failed,
stays.  `Visits` speaks of every item the loop reaches, with the state it finds.
-/

set_option autoImplicit false

namespace Loops

universe u v w

variable {E : Type u} {S : Type v} {I : Type w} (step : S → I → Except E Unit × S)

def forEach : S → List I → Except E Unit × S
  | state, [] => (.ok (), state)
  | state, item :: rest =>
      match step state item with
      | (.error failure, next) => (.error failure, next)
      | (.ok (), next) => forEach next rest

/-- Every item the loop reaches meets a condition on the state it is reached in. -/
def Visits (condition : S → I → Prop) : S → List I → Prop
  | _, [] => True
  | state, item :: rest =>
      condition state item ∧
        ((step state item).1 = .ok () → Visits condition (step state item).2 rest)

/-- What a loop emits, one item after the other, the item that it fails at included. -/
def collect {C : Type u} (emits : S → I → List C) : S → List I → List C
  | _, [] => []
  | state, item :: rest =>
      emits state item ++
        match step state item with
        | (.error _, _) => []
        | (.ok (), next) => collect emits next rest

variable {step} {state : S} {items : List I}

theorem forEach_cons_of_error {item : I} {failure : E} (failed : (step state item).1 = .error failure) :
    forEach step state (item :: items) = (.error failure, (step state item).2) := by
  unfold forEach
  cases taken : step state item with
  | mk result next =>
      rw [taken] at failed
      cases failed
      rfl

theorem forEach_cons_of_ok {item : I} (succeeded : (step state item).1 = .ok ()) :
    forEach step state (item :: items) = forEach step (step state item).2 items := by
  conv_lhs => unfold forEach
  cases taken : step state item with
  | mk result next =>
      rw [taken] at succeeded
      cases succeeded
      rfl

theorem forEach_singleton (state : S) (item : I) : forEach step state [item] = step state item := by
  cases result : (step state item).1 with
  | error failure =>
      rw [forEach_cons_of_error result]
      exact Prod.ext result.symm rfl
  | ok _ =>
      rw [forEach_cons_of_ok result]
      exact Prod.ext result.symm rfl

/-- A loop that fails does so at one item, after taking the ones before it. -/
theorem forEach_error {failure : E} (failed : (forEach step state items).1 = .error failure) :
    ∃ before item after, items = before ++ item :: after ∧
      (forEach step state before).1 = .ok () ∧
      step (forEach step state before).2 item = (.error failure, (forEach step state items).2) := by
  induction items generalizing state with
  | nil => cases failed
  | cons item rest ih =>
      cases result : (step state item).1 with
      | error reason =>
          rw [forEach_cons_of_error result] at failed ⊢
          cases failed
          exact ⟨[], item, rest, rfl, rfl, Prod.ext result rfl⟩
      | ok _ =>
          rw [forEach_cons_of_ok result] at failed ⊢
          obtain ⟨before, reached, after, rfl, taken, stopped⟩ := ih failed
          refine ⟨item :: before, reached, after, rfl, ?_, ?_⟩
          · rwa [forEach_cons_of_ok result]
          · rwa [forEach_cons_of_ok result]

/-- What a step that succeeds shows of its item, after a loop that succeeds. -/
theorem forEach_all {shown : I → Prop}
    (shows : ∀ state item, (step state item).1 = .ok () → shown item)
    (succeeded : (forEach step state items).1 = .ok ()) : ∀ item ∈ items, shown item := by
  induction items generalizing state with
  | nil => exact fun _ member => nomatch member
  | cons item rest ih =>
      cases result : (step state item).1 with
      | error reason =>
          rw [forEach_cons_of_error result] at succeeded
          cases succeeded
      | ok _ =>
          rw [forEach_cons_of_ok result] at succeeded
          exact List.forall_mem_cons.mpr ⟨shows state item result, ih succeeded⟩

/-- What every visited step preserves, the failing one included, holds at the end. -/
theorem forEach_invariant {condition : S → I → Prop} (invariant : S → Prop)
    (keeps : ∀ state item, invariant state → condition state item → invariant (step state item).2)
    (start : invariant state) (visits : Visits step condition state items) :
    invariant (forEach step state items).2 := by
  induction items generalizing state with
  | nil => exact start
  | cons item rest ih =>
      have kept := keeps state item start visits.1
      cases result : (step state item).1 with
      | error reason =>
          rw [forEach_cons_of_error result]
          exact kept
      | ok _ =>
          rw [forEach_cons_of_ok result]
          exact ih kept (visits.2 result)

theorem visits_of_mem {condition : S → I → Prop} (all : ∀ item ∈ items, ∀ state, condition state item) :
    Visits step condition state items := by
  induction items generalizing state with
  | nil => trivial
  | cons item rest ih =>
      obtain ⟨first, later⟩ := List.forall_mem_cons.mp all
      exact ⟨first state, fun _ => ih later⟩

theorem visits_trivially (step : S → I → Except E Unit × S) (state : S) (items : List I) :
    Visits step (fun _ _ => True) state items :=
  visits_of_mem fun _ _ _ => trivial

/-- What every step keeps, the failing one included, a loop keeps. -/
theorem forEach_keeps (invariant : S → Prop)
    (keeps : ∀ state item, invariant state → invariant (step state item).2)
    (start : invariant state) : invariant (forEach step state items).2 :=
  forEach_invariant invariant (fun state item kept _ => keeps state item kept) start
    (visits_trivially step state items)

/-- A view of the state that each step which succeeds edits by its item. -/
theorem view_forEach {View : Type u} (view : S → View) (edit : View → I → View)
    (steps : ∀ state item, (step state item).1 = .ok () →
      view (step state item).2 = edit (view state) item)
    (succeeded : (forEach step state items).1 = .ok ()) :
    view (forEach step state items).2 = items.foldl edit (view state) := by
  induction items generalizing state with
  | nil => rfl
  | cons item rest ih =>
      cases result : (step state item).1 with
      | error reason =>
          rw [forEach_cons_of_error result] at succeeded
          cases succeeded
      | ok _ =>
          rw [forEach_cons_of_ok result] at succeeded ⊢
          rw [ih succeeded, steps state item result]
          rfl

/-- What every visited step that succeeds preserves holds after a loop that succeeds. -/
theorem forEach_ok {condition : S → I → Prop} (invariant : S → Prop)
    (keeps : ∀ state item, invariant state → condition state item →
      (step state item).1 = .ok () → invariant (step state item).2)
    (start : invariant state) (visits : Visits step condition state items)
    (succeeded : (forEach step state items).1 = .ok ()) : invariant (forEach step state items).2 := by
  induction items generalizing state with
  | nil => exact start
  | cons item rest ih =>
      cases result : (step state item).1 with
      | error reason =>
          rw [forEach_cons_of_error result] at succeeded
          cases succeeded
      | ok _ =>
          rw [forEach_cons_of_ok result] at succeeded ⊢
          exact ih (keeps state item start visits.1 result) (visits.2 result) succeeded

/-- A loop meets a condition that an invariant of its steps implies. -/
theorem visits_of_invariant {condition : S → I → Prop} (invariant : S → Prop)
    (keeps : ∀ state item, invariant state → invariant (step state item).2)
    (implies : ∀ state, ∀ item ∈ items, invariant state → condition state item)
    (start : invariant state) : Visits step condition state items := by
  induction items generalizing state with
  | nil => trivial
  | cons item rest ih =>
      refine ⟨implies state item (List.mem_cons_self ..) start, fun _ => ?_⟩
      apply ih
      · exact fun other later member => implies other later (List.mem_cons_of_mem _ member)
      · exact keeps state item start

theorem size_le_forEach (size : S → Nat) (grows : ∀ state item, size state ≤ size (step state item).2)
    (state : S) (items : List I) : size state ≤ size (forEach step state items).2 :=
  forEach_keeps (fun reached => size state ≤ size reached)
    (fun reached item above => Nat.le_trans above (grows reached item)) (Nat.le_refl _)

/-- A loop that leaves a size as it was met every condition whose failure grows the size. -/
theorem visits_of_unmoved {condition : S → I → Prop} (size : S → Nat)
    (grows : ∀ state item, size state ≤ size (step state item).2)
    (moves : ∀ state item, (step state item).1 = .ok () → ¬ condition state item →
      size state < size (step state item).2)
    (succeeded : (forEach step state items).1 = .ok ())
    (unmoved : size (forEach step state items).2 = size state) :
    Visits step condition state items := by
  induction items generalizing state with
  | nil => trivial
  | cons item rest ih =>
      cases result : (step state item).1 with
      | error reason =>
          rw [forEach_cons_of_error result] at succeeded
          cases succeeded
      | ok _ =>
          rw [forEach_cons_of_ok result] at succeeded unmoved
          have first := grows state item
          have later : size (step state item).2 ≤ size (forEach step (step state item).2 rest).2 :=
            size_le_forEach size grows _ rest
          have still : size (step state item).2 = size state := by omega
          constructor
          · by_contra failed
            have moved := moves state item result failed
            omega
          · intro _
            apply ih succeeded
            omega

/-- A loop that succeeds goes as the loop of another step that agrees with its own wherever this
one succeeds. -/
theorem forEach_congr_of_ok {other : S → I → Except E Unit × S}
    (agree : ∀ state item, (step state item).1 = .ok () → other state item = step state item)
    (succeeded : (forEach step state items).1 = .ok ()) :
    forEach other state items = forEach step state items := by
  induction items generalizing state with
  | nil => rfl
  | cons item rest ih =>
      cases result : (step state item).1 with
      | error reason =>
          rw [forEach_cons_of_error result] at succeeded
          cases succeeded
      | ok _ =>
          have same := agree state item result
          rw [forEach_cons_of_ok result] at succeeded ⊢
          rw [forEach_cons_of_ok (same ▸ result), same]
          exact ih succeeded

/-- A state in which a loop that succeeds takes an item. -/
def Reaches (step : S → I → Except E Unit × S) (state : S) (items : List I) (reached : S)
    (item : I) : Prop :=
  ∃ before after, items = before ++ item :: after ∧ (forEach step state before).2 = reached

/-- After a loop that succeeds, what a step did for its item and the later steps kept is
done for every item, as seen from the state it was taken in. -/
theorem forEach_done {condition : S → I → Prop} (done : S → I → S → Prop)
    (does : ∀ state item, condition state item → (step state item).1 = .ok () →
      done state item (step state item).2)
    (keeps : ∀ reached other state item, done reached other state → condition state item →
      (step state item).1 = .ok () → done reached other (step state item).2)
    (visits : Visits step condition state items)
    (succeeded : (forEach step state items).1 = .ok ()) {reached : S} {item : I}
    (taken : Reaches step state items reached item) :
    done reached item (forEach step state items).2 := by
  obtain ⟨before, after, rfl, rfl⟩ := taken
  induction before generalizing state with
  | nil =>
      cases result : (step state item).1 with
      | error reason =>
          rw [List.nil_append, forEach_cons_of_error result] at succeeded
          cases succeeded
      | ok _ =>
          rw [List.nil_append, forEach_cons_of_ok result] at succeeded ⊢
          exact forEach_ok _ (keeps _ _) (does state item visits.1 result) (visits.2 result) succeeded
  | cons first rest ih =>
      cases result : (step state first).1 with
      | error reason =>
          rw [List.cons_append, forEach_cons_of_error result] at succeeded
          cases succeeded
      | ok _ =>
          rw [List.cons_append, forEach_cons_of_ok result] at succeeded ⊢
          rw [forEach_cons_of_ok result]
          exact ih (visits.2 result) succeeded

/-- The items of a list are the ones that its loop takes. -/
theorem reaches_of_mem {item : I} (member : item ∈ items) :
    ∃ reached, Reaches step state items reached item := by
  obtain ⟨before, after, rfl⟩ := List.append_of_mem member
  exact ⟨_, before, after, rfl, rfl⟩

/-- A loop succeeds exactly when every item it reaches meets what its step needs. -/
theorem forEach_ok_iff {condition : S → I → Prop}
    (needs : ∀ state item, (step state item).1 = .ok () ↔ condition state item) :
    (forEach step state items).1 = .ok () ↔ Visits step condition state items := by
  induction items generalizing state with
  | nil => exact iff_of_true rfl trivial
  | cons item rest ih =>
      cases result : (step state item).1 with
      | error reason =>
          have unmet : ¬ condition state item := by
            rw [← needs state item, result]
            exact nofun
          rw [forEach_cons_of_error result]
          exact iff_of_false nofun fun visits => unmet visits.1
      | ok _ =>
          rw [forEach_cons_of_ok result, ih]
          constructor
          · exact fun visits => ⟨(needs state item).mp result, fun _ => visits⟩
          · exact fun visits => visits.2 result

theorem visits_and_of_forall {condition : S → I → Prop} {shown : I → Prop}
    (all : ∀ item ∈ items, shown item) (visits : Visits step condition state items) :
    Visits step (fun state item => shown item ∧ condition state item) state items := by
  induction items generalizing state with
  | nil => trivial
  | cons item rest ih =>
      obtain ⟨here, later⟩ := List.forall_mem_cons.mp all
      exact ⟨⟨here, visits.1⟩, fun result => ih later (visits.2 result)⟩

theorem visits_mono {condition weaker : S → I → Prop}
    (implies : ∀ state item, condition state item → weaker state item)
    (visits : Visits step condition state items) : Visits step weaker state items := by
  induction items generalizing state with
  | nil => trivial
  | cons item rest ih => exact ⟨implies state item visits.1, fun result => ih (visits.2 result)⟩

/-! ## What a loop emits -/

section Emits
variable {C D : Type u} {emits : S → I → List C} {wanted : I → List D} {meets : D → C → Prop}

theorem collect_cons_of_error {item : I} {failure : E}
    (failed : (step state item).1 = .error failure) :
    collect step emits state (item :: items) = emits state item := by
  unfold collect
  cases taken : step state item with
  | mk result next =>
      rw [taken] at failed
      cases failed
      exact List.append_nil _

theorem collect_cons_of_ok {item : I} (succeeded : (step state item).1 = .ok ()) :
    collect step emits state (item :: items) =
      emits state item ++ collect step emits (step state item).2 items := by
  conv_lhs => unfold collect
  cases taken : step state item with
  | mk result next =>
      rw [taken] at succeeded
      cases succeeded
      rfl

/-- A loop that fails emits less than is wanted of it. -/
theorem length_collect_lt
    (full : ∀ state item, (step state item).1 = .ok () →
      List.Forall₂ meets (wanted item) (emits state item))
    (short : ∀ state item failure, (step state item).1 = .error failure →
      (emits state item).length < (wanted item).length) {failure : E}
    (failed : (forEach step state items).1 = .error failure) :
    (collect step emits state items).length < (items.flatMap wanted).length := by
  induction items generalizing state with
  | nil => cases failed
  | cons item rest ih =>
      rw [List.flatMap_cons, List.length_append]
      cases result : (step state item).1 with
      | error reason =>
          rw [collect_cons_of_error result]
          exact Nat.lt_add_right _ (short state item reason result)
      | ok _ =>
          rw [forEach_cons_of_ok result] at failed
          have here := (full state item result).length_eq
          have later := ih failed
          rw [collect_cons_of_ok result, List.length_append]
          omega

/-- Where a step that succeeds emits what is wanted and one that fails does not, a loop emits
what is wanted exactly when it succeeds. -/
theorem forall₂_collect_iff
    (full : ∀ state item, (step state item).1 = .ok () →
      List.Forall₂ meets (wanted item) (emits state item))
    (short : ∀ state item failure, (step state item).1 = .error failure →
      (emits state item).length < (wanted item).length) :
    List.Forall₂ meets (items.flatMap wanted) (collect step emits state items) ↔
      (forEach step state items).1 = .ok () := by
  constructor
  · intro met
    cases result : (forEach step state items).1 with
    | error failure =>
        have fewer := length_collect_lt full short result
        have same := met.length_eq
        omega
    | ok _ => rfl
  · intro succeeded
    induction items generalizing state with
    | nil => exact .nil
    | cons item rest ih =>
        cases result : (step state item).1 with
        | error reason =>
            rw [forEach_cons_of_error result] at succeeded
            cases succeeded
        | ok _ =>
            rw [forEach_cons_of_ok result] at succeeded
            rw [List.flatMap_cons, collect_cons_of_ok result]
            exact List.rel_append (full state item result) (ih succeeded)

end Emits

end Loops
