import Mathlib.Data.List.Basic

/-!
# Calls that keep to one part of a shared state

A state has parts under names.  A call keeps to a part when its answer and what it makes of the
part follow from the part, and every other part is as it was.  In a run of calls of several
owners each owner then sees what a run of its own calls alone shows it.
-/

set_option autoImplicit false

namespace Noninterference

variable {State Name Part Call Answer : Type}

structure KeepsTo (part : State → Name → Part) (name : Name) (run : State → Answer × State) :
    Prop where
  answer : ∀ {one other}, part one name = part other name → (run one).1 = (run other).1
  own : ∀ {one other}, part one name = part other name →
    part (run one).2 name = part (run other).2 name
  others : ∀ state {other}, other ≠ name → part (run state).2 other = part state other

variable (run : Call → State → Answer × State)

/-- The answers in the order of the calls, and the state after them. -/
def runCalls (state : State) : List Call → List (Call × Answer) × State
  | [] => ([], state)
  | call :: rest =>
      ((call, (run call state).1) :: (runCalls (run call state).2 rest).1,
        (runCalls (run call state).2 rest).2)

theorem runCalls_cons (state : State) (call : Call) (rest : List Call) :
    runCalls run state (call :: rest) =
      ((call, (run call state).1) :: (runCalls run (run call state).2 rest).1,
        (runCalls run (run call state).2 rest).2) := rfl

variable {run} {part : State → Name → Part} {owner : Call → Name} [DecidableEq Name]

/-- What an owner is answered, and what becomes of its part, are as if it was alone. -/
theorem runCalls_of_owner (keeps : ∀ call, KeepsTo part (owner call) (run call))
    (calls : List Call) (name : Name) {one other : State} (same : part one name = part other name) :
    (runCalls run one calls).1.filter (fun answered => owner answered.1 = name) =
        (runCalls run other (calls.filter fun call => owner call = name)).1 ∧
      part (runCalls run one calls).2 name =
        part (runCalls run other (calls.filter fun call => owner call = name)).2 name := by
  induction calls generalizing one other with
  | nil => exact ⟨rfl, same⟩
  | cons call rest ih =>
      by_cases owned : owner call = name
      · subst owned
        obtain ⟨answers, last⟩ := ih ((keeps call).own same)
        rw [List.filter_cons_of_pos (by simp), runCalls_cons, runCalls_cons,
          List.filter_cons_of_pos (by simp), answers, last, (keeps call).answer same]
        exact ⟨rfl, rfl⟩
      · have untouched : part (run call one).2 name = part other name :=
          ((keeps call).others one (Ne.symm owned)).trans same
        rw [List.filter_cons_of_neg (by simpa using owned), runCalls_cons,
          List.filter_cons_of_neg (by simpa using owned)]
        exact ih untouched

/-- What no call of a run owns is as it was. -/
theorem part_runCalls (keeps : ∀ call, KeepsTo part (owner call) (run call)) {calls : List Call}
    {name : Name} (foreign : ∀ call ∈ calls, owner call ≠ name) (state : State) :
    part (runCalls run state calls).2 name = part state name := by
  have none : calls.filter (fun call => owner call = name) = [] :=
    List.filter_eq_nil_iff.mpr fun call member => by simpa using foreign call member
  have alone := (runCalls_of_owner keeps calls name (Eq.refl (part state name))).2
  rw [none] at alone
  exact alone

end Noninterference
