import BrickTrace.Lib.Runs
import Mathlib.Data.Set.Insert
import Mathlib.Logic.Function.Basic

/-!
# Replicas that exchange items through a hub

The hub and every replica hold a set of items.  A replica writes items of its
own, gives the hub what it holds, and takes what the hub holds.  Nothing is ever
removed.  Once every replica has given what it wrote, and every replica has
taken since, all of them hold what the hub holds.
-/

set_option autoImplicit false

namespace HubReplicas

universe u v

variable {Replica : Type u} {Item : Type v}

@[ext] structure System (Replica : Type u) (Item : Type v) where
  hub : Set Item
  held : Replica → Set Item

inductive Action (Replica : Type u) (Item : Type v) where
  | write (replica : Replica) (item : Item)
  | push (replica : Replica)
  | pull (replica : Replica)

variable [DecidableEq Replica]

def act (system : System Replica Item) : Action Replica Item → System Replica Item
  | .write replica item =>
      { system with held := Function.update system.held replica (insert item (system.held replica)) }
  | .push replica => { system with hub := system.hub ∪ system.held replica }
  | .pull replica =>
      { system with held := Function.update system.held replica (system.held replica ∪ system.hub) }

@[simp] theorem act_write_hub (system : System Replica Item) (replica : Replica) (item : Item) :
    (act system (.write replica item)).hub = system.hub := rfl

@[simp] theorem act_pull_hub (system : System Replica Item) (replica : Replica) :
    (act system (.pull replica)).hub = system.hub := rfl

@[simp] theorem act_push_held (system : System Replica Item) (replica other : Replica) :
    (act system (.push replica)).held other = system.held other := rfl

theorem act_write_of_ne (system : System Replica Item) {replica other : Replica} (item : Item)
    (differs : other ≠ replica) :
    (act system (.write replica item)).held other = system.held other :=
  Function.update_of_ne differs _ _

theorem act_pull_self (system : System Replica Item) (replica : Replica) :
    (act system (.pull replica)).held replica = system.held replica ∪ system.hub :=
  Function.update_self ..

theorem act_pull_of_ne (system : System Replica Item) {replica other : Replica}
    (differs : other ≠ replica) :
    (act system (.pull replica)).held other = system.held other :=
  Function.update_of_ne differs _ _

/-- What the hub and every replica hold in one system they hold in the other. -/
structure Within (before after : System Replica Item) : Prop where
  hub : before.hub ⊆ after.hub
  held : ∀ replica, before.held replica ⊆ after.held replica

omit [DecidableEq Replica] in
theorem Within.refl (system : System Replica Item) : Within system system :=
  ⟨Set.Subset.refl _, fun _ => Set.Subset.refl _⟩

omit [DecidableEq Replica] in
theorem Within.trans {first second third : System Replica Item} (earlier : Within first second)
    (later : Within second third) : Within first third :=
  ⟨earlier.hub.trans later.hub, fun replica => (earlier.held replica).trans (later.held replica)⟩

theorem subset_update (held : Replica → Set Item) (replica : Replica) {grown : Set Item}
    (grows : held replica ⊆ grown) (other : Replica) :
    held other ⊆ Function.update held replica grown other := by
  by_cases same : other = replica
  · subst same
    rwa [Function.update_self]
  · rw [Function.update_of_ne same]

theorem within_act (system : System Replica Item) (action : Action Replica Item) :
    Within system (act system action) := by
  cases action with
  | write replica item =>
      exact ⟨Set.Subset.refl _, subset_update _ replica (Set.subset_insert ..)⟩
  | push replica => exact ⟨Set.subset_union_left, fun _ => Set.Subset.refl _⟩
  | pull replica =>
      exact ⟨Set.Subset.refl _, subset_update _ replica Set.subset_union_left⟩

/-! ## A replica that has given what it holds -/

def Given (replica : Replica) (system : System Replica Item) : Prop :=
  system.held replica ⊆ system.hub

theorem given_push (system : System Replica Item) (replica : Replica) :
    Given replica (act system (.push replica)) :=
  Set.subset_union_right

/-- Only a write of its own gives a replica something that the hub may lack. -/
theorem Given.act {system : System Replica Item} {replica : Replica} (given : Given replica system)
    {action : Action Replica Item} (quiet : ∀ item, action ≠ .write replica item) :
    Given replica (act system action) := by
  cases action with
  | write other item =>
      have differs : replica ≠ other := by
        rintro rfl
        exact quiet item rfl
      rwa [Given, act_write_of_ne system item differs]
  | push other => exact given.trans Set.subset_union_left
  | pull other =>
      by_cases same : replica = other
      · subst same
        rw [Given, act_pull_self]
        exact Set.union_subset given (Set.Subset.refl _)
      · rwa [Given, act_pull_of_ne system same]

/-- The replica pushes, and writes nothing afterwards. -/
def PushesLast (replica : Replica) (actions : List (Action Replica Item)) : Prop :=
  ∃ before after, actions = before ++ .push replica :: after ∧
    ∀ item, .write replica item ∉ after

theorem given_of_quiet {system : System Replica Item} {replica : Replica}
    (given : Given replica system) {actions : List (Action Replica Item)}
    (quiet : ∀ item, .write replica item ∉ actions) :
    Given replica (Runs.run act system actions) := by
  induction actions generalizing system with
  | nil => exact given
  | cons action rest ih =>
      refine ih (given.act ?_) fun item member => quiet item (List.mem_cons_of_mem _ member)
      rintro item rfl
      exact quiet item (List.mem_cons_self ..)

theorem given_of_pushesLast {replica : Replica} {actions : List (Action Replica Item)}
    (pushes : PushesLast replica actions) (system : System Replica Item) :
    Given replica (Runs.run act system actions) := by
  obtain ⟨before, after, rfl, quiet⟩ := pushes
  rw [Runs.run_append, Runs.run_cons]
  exact given_of_quiet (given_push _ replica) quiet

/-! ## Once everything is given -/

/-- The hub stays what it is while no replica has something new for it. -/
structure Settled (hub : Set Item) (system : System Replica Item) : Prop where
  hub : system.hub = hub
  given : ∀ replica, Given replica system

theorem Settled.act {hub : Set Item} {system : System Replica Item} (settled : Settled hub system)
    {action : Action Replica Item} (quiet : ∀ replica item, action ≠ .write replica item) :
    Settled hub (act system action) where
  hub := by
    cases action with
    | write replica item => exact absurd rfl (quiet replica item)
    | push replica =>
        have same : (HubReplicas.act system (.push replica)).hub = system.hub :=
          Set.union_eq_self_of_subset_right (settled.given replica)
        rw [same, settled.hub]
    | pull replica => exact settled.hub
  given replica := (settled.given replica).act (quiet replica)

/-- A replica that pulls from a settled hub holds what the hub holds, for good. -/
theorem hub_subset_of_pull {hub : Set Item} {system : System Replica Item}
    (settled : Settled hub system) {actions : List (Action Replica Item)}
    (quiet : ∀ replica item, .write replica item ∉ actions) {replica : Replica}
    (pulls : .pull replica ∈ actions) :
    hub ⊆ (Runs.run act system actions).held replica := by
  induction actions generalizing system with
  | nil => cases pulls
  | cons action rest ih =>
      rcases List.mem_cons.mp pulls with rfl | later
      · have taken : hub ⊆ (act system (.pull replica)).held replica := by
          rw [act_pull_self, settled.hub]
          exact Set.subset_union_right
        have kept := Runs.run_related act Within.refl (fun _ _ _ => Within.trans) within_act
          (act system (.pull replica)) rest
        exact taken.trans (kept.held replica)
      · have still := settled.act fun other item same =>
          quiet other item (same ▸ List.mem_cons_self ..)
        exact ih still (fun other item member => quiet other item (List.mem_cons_of_mem _ member))
          later

theorem settled_run {hub : Set Item} {system : System Replica Item} (settled : Settled hub system)
    {actions : List (Action Replica Item)}
    (quiet : ∀ replica item, .write replica item ∉ actions) :
    Settled hub (Runs.run act system actions) := by
  induction actions generalizing system with
  | nil => exact settled
  | cons action rest ih =>
      refine ih (settled.act ?_) fun replica item member =>
        quiet replica item (List.mem_cons_of_mem _ member)
      rintro replica item rfl
      exact quiet replica item (List.mem_cons_self ..)

/-- Every replica gives what it wrote; then, while nothing is written, every one takes. -/
theorem held_eq_hub (start : System Replica Item) {first second : List (Action Replica Item)}
    (pushes : ∀ replica, PushesLast replica first)
    (quiet : ∀ replica item, .write replica item ∉ second)
    (pulls : ∀ replica, .pull replica ∈ second) (replica : Replica) :
    (Runs.run act start (first ++ second)).held replica =
      (Runs.run act start (first ++ second)).hub := by
  rw [Runs.run_append]
  have settled : Settled (Runs.run act start first).hub (Runs.run act start first) :=
    ⟨rfl, fun other => given_of_pushesLast (pushes other) start⟩
  have still := settled_run settled quiet
  refine Set.Subset.antisymm (still.given replica) ?_
  rw [still.hub]
  exact hub_subset_of_pull settled quiet (pulls replica)

end HubReplicas
