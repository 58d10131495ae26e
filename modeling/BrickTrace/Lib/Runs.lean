import Mathlib.Data.List.Basic

/-!
# Runs of a deterministic system

A system moves from state to state by one label at a time.  A run is a list of
labels.  `Always` speaks of every state the run passes through, the first one
included; `Meets` speaks of every step it takes.  The rules reduce a fact about
runs to one step.
-/

set_option autoImplicit false

namespace Runs

universe u v

variable {State : Type u} {Label : Type v} (next : State → Label → State)

def run (state : State) (labels : List Label) : State := labels.foldl next state

/-- Every step of the run meets a condition on the state before it and its label. -/
def Meets (condition : State → Label → Prop) : State → List Label → Prop
  | _, [] => True
  | state, label :: rest => condition state label ∧ Meets condition (next state label) rest

/-- Every state of the run, the first and the last included, has the property. -/
def Always (property : State → Prop) : State → List Label → Prop
  | state, [] => property state
  | state, label :: rest => property state ∧ Always property (next state label) rest

theorem run_cons (state : State) (label : Label) (rest : List Label) :
    run next state (label :: rest) = run next (next state label) rest := rfl

theorem run_append (state : State) (first second : List Label) :
    run next state (first ++ second) = run next (run next state first) second :=
  List.foldl_append

theorem always_start {property : State → Prop} {state : State} {labels : List Label}
    (always : Always next property state labels) : property state := by
  cases labels with
  | nil => exact always
  | cons label rest => exact always.1

theorem always_iff_isPrefix (property : State → Prop) (state : State) (labels : List Label) :
    Always next property state labels ↔
      ∀ taken, taken <+: labels → property (run next state taken) := by
  induction labels generalizing state with
  | nil =>
      constructor
      · intro holds taken isPrefix
        rw [List.prefix_nil.mp isPrefix]
        exact holds
      · intro holds
        exact holds [] (List.prefix_refl _)
  | cons label rest ih =>
      simp only [Always, ih]
      constructor
      · rintro ⟨start, later⟩ taken isPrefix
        cases taken with
        | nil => exact start
        | cons first others =>
            obtain ⟨rfl, othersPrefix⟩ := List.cons_prefix_cons.mp isPrefix
            exact later others othersPrefix
      · intro holds
        refine ⟨holds [] (List.nil_prefix ..), ?_⟩
        intro others isPrefix
        exact holds (label :: others) (List.cons_prefix_cons.mpr ⟨rfl, isPrefix⟩)

theorem always_last {property : State → Prop} {state : State} {labels : List Label}
    (always : Always next property state labels) : property (run next state labels) :=
  (always_iff_isPrefix next property state labels).mp always labels (List.prefix_refl _)

theorem always_mono {stronger weaker : State → Prop} (weaken : ∀ state, stronger state → weaker state)
    {state : State} {labels : List Label} (always : Always next stronger state labels) :
    Always next weaker state labels := by
  rw [always_iff_isPrefix] at always ⊢
  exact fun taken isPrefix => weaken _ (always taken isPrefix)

theorem meets_mono {stronger weaker : State → Label → Prop}
    (weaken : ∀ state label, stronger state label → weaker state label)
    {state : State} {labels : List Label} (meets : Meets next stronger state labels) :
    Meets next weaker state labels := by
  induction labels generalizing state with
  | nil => trivial
  | cons label rest ih => exact ⟨weaken state label meets.1, ih meets.2⟩

/-- What one permitted step preserves holds along every run of permitted steps. -/
theorem always_of_meets {condition : State → Label → Prop} {invariant : State → Prop}
    (step : ∀ state label, invariant state → condition state label →
      invariant (next state label))
    {state : State} {labels : List Label} (start : invariant state)
    (permitted : Meets next condition state labels) : Always next invariant state labels := by
  induction labels generalizing state with
  | nil => exact start
  | cons label rest ih =>
      exact ⟨start, ih (step state label start permitted.1) permitted.2⟩

/-- What every step guarantees under an invariant that the permitted steps preserve. -/
theorem meets_of_meets {condition guarantee : State → Label → Prop} {invariant : State → Prop}
    (step : ∀ state label, invariant state → condition state label →
      invariant (next state label))
    (ensures : ∀ state label, invariant state → condition state label → guarantee state label)
    {state : State} {labels : List Label} (start : invariant state)
    (permitted : Meets next condition state labels) : Meets next guarantee state labels := by
  induction labels generalizing state with
  | nil => trivial
  | cons label rest ih =>
      exact ⟨ensures state label start permitted.1,
        ih (step state label start permitted.1) permitted.2⟩

/-- Two conditions that agree on every step of a run, as far as an invariant reaches
that one of them preserves. -/
theorem meets_iff_meets {condition guarantee : State → Label → Prop} {invariant : State → Prop}
    (step : ∀ state label, invariant state → condition state label →
      invariant (next state label))
    (agree : ∀ state label, invariant state → (guarantee state label ↔ condition state label))
    {state : State} {labels : List Label} (start : invariant state) :
    Meets next guarantee state labels ↔ Meets next condition state labels := by
  induction labels generalizing state with
  | nil => exact Iff.rfl
  | cons label rest ih =>
      constructor
      · rintro ⟨ensured, others⟩
        have met := (agree state label start).mp ensured
        exact ⟨met, (ih (step state label start met)).mp others⟩
      · rintro ⟨met, others⟩
        exact ⟨(agree state label start).mpr met, (ih (step state label start met)).mpr others⟩

/-- The unconditional case: one step preserves the invariant, so every run does. -/
theorem always_of_step {invariant : State → Prop}
    (step : ∀ state label, invariant state → invariant (next state label))
    {state : State} (labels : List Label) (start : invariant state) :
    Always next invariant state labels := by
  induction labels generalizing state with
  | nil => exact start
  | cons label rest ih => exact ⟨start, ih (step state label start)⟩

theorem run_of_step {invariant : State → Prop}
    (step : ∀ state label, invariant state → invariant (next state label))
    {state : State} (labels : List Label) (start : invariant state) :
    invariant (run next state labels) :=
  always_last next (always_of_step next step labels start)

/-- A reflexive and transitive relation kept by each step relates the ends of a run. -/
theorem run_related {related : State → State → Prop} (reflexive : ∀ state, related state state)
    (transitive : ∀ first second third, related first second → related second third →
      related first third)
    (step : ∀ state label, related state (next state label))
    (state : State) (labels : List Label) : related state (run next state labels) := by
  induction labels generalizing state with
  | nil => exact reflexive state
  | cons label rest ih => exact transitive _ _ _ (step state label) (ih (next state label))

section Related
variable {condition : State → Label → Prop} (related : State → State → Prop)
  (reflexive : ∀ state, related state state)
  (transitive : ∀ first second third, related first second → related second third →
    related first third)
  (step : ∀ state label, condition state label → related state (next state label))
include reflexive transitive step

theorem related_to_start {state : State} {labels : List Label}
    (permitted : Meets next condition state labels) {taken : List Label} (isPrefix : taken <+: labels) :
    related state (run next state taken) := by
  induction labels generalizing state taken with
  | nil =>
      rw [List.prefix_nil.mp isPrefix]
      exact reflexive state
  | cons label rest ih =>
      cases taken with
      | nil => exact reflexive state
      | cons first others =>
          obtain ⟨rfl, othersPrefix⟩ := List.cons_prefix_cons.mp isPrefix
          exact transitive _ _ _ (step state first permitted.1) (ih permitted.2 othersPrefix)

/-- A reflexive and transitive relation kept by each permitted step relates an earlier state of
a run of permitted steps to every later one. -/
theorem related_of_meets {state : State} {labels : List Label}
    (permitted : Meets next condition state labels) {earlier between : List Label}
    (isPrefix : earlier ++ between <+: labels) :
    related (run next state earlier) (run next state (earlier ++ between)) := by
  induction earlier generalizing state labels with
  | nil => exact related_to_start next related reflexive transitive step permitted isPrefix
  | cons first others ih =>
      cases labels with
      | nil => exact absurd (List.prefix_nil.mp isPrefix) (List.cons_ne_nil _ _)
      | cons label rest =>
          obtain ⟨rfl, othersPrefix⟩ := List.cons_prefix_cons.mp isPrefix
          exact ih permitted.2 othersPrefix

end Related

/-- A condition on labels alone holds of every step when it holds of every label. -/
theorem meets_and_of_mem {condition : State → Label → Prop} {permitted : Label → Prop}
    {state : State} {labels : List Label} (meets : Meets next condition state labels)
    (all : ∀ label ∈ labels, permitted label) :
    Meets next (fun state label => condition state label ∧ permitted label) state labels := by
  induction labels generalizing state with
  | nil => trivial
  | cons label rest ih =>
      obtain ⟨first, later⟩ := List.forall_mem_cons.mp all
      exact ⟨⟨meets.1, first⟩, ih meets.2 later⟩

/-- A view that every permitted step changes as a system of its own does follows the
run of that system. -/
theorem view_run {View : Type u} {Action : Type v} (nextView : View → Action → View)
    (view : State → View) (action : Label → Action) {condition : State → Label → Prop}
    {invariant : State → Prop}
    (step : ∀ state label, invariant state → condition state label →
      invariant (next state label))
    (simulates : ∀ state label, invariant state → condition state label →
      view (next state label) = nextView (view state) (action label))
    {state : State} {labels : List Label} (start : invariant state)
    (permitted : Meets next condition state labels) :
    view (run next state labels) = run nextView (view state) (labels.map action) := by
  induction labels generalizing state with
  | nil => rfl
  | cons label rest ih =>
      rw [run_cons, ih (step state label start permitted.1) permitted.2,
        simulates state label start permitted.1]
      rfl

/-- When the condition is exactly what one step needs to keep the property, the
property holds all along a run exactly when every step meets the condition. -/
theorem always_iff_meets {condition : State → Label → Prop} {invariant property : State → Prop}
    (keeps : ∀ state label, invariant state → invariant (next state label))
    (exact_step : ∀ state label, invariant state → property state →
      (property (next state label) ↔ condition state label))
    {state : State} (labels : List Label) (invariantStart : invariant state)
    (start : property state) :
    Always next property state labels ↔ Meets next condition state labels := by
  induction labels generalizing state with
  | nil => exact ⟨fun _ => trivial, fun _ => start⟩
  | cons label rest ih =>
      have one := exact_step state label invariantStart start
      have later := fun kept => ih (keeps state label invariantStart) kept
      constructor
      · rintro ⟨_, always⟩
        have kept := always_start next always
        exact ⟨one.mp kept, (later kept).mp always⟩
      · rintro ⟨meets, others⟩
        have kept := one.mpr meets
        exact ⟨start, (later kept).mpr others⟩

end Runs
