import Mathlib.Data.Set.Finite.Basic
import Mathlib.Logic.Relation
import Mathlib.Order.WellFounded

/-!
# Following references

Keys that refer to keys.  References are followed to a bounded depth exactly if none of them leads
into a cycle, where only finitely many keys refer to any.
-/

set_option autoImplicit false

namespace ReferenceGraph

universe u

variable {K : Type u} (next : K → List K)

def Leads (key other : K) : Prop := other ∈ next key

/-- Every chain of references from the key has fewer keys than that. -/
def Within : Nat → K → Prop
  | 0, _ => False
  | depth + 1, key => ∀ other ∈ next key, Within depth other

/-- Nothing that is reached from the keys leads back to itself. -/
def NoCycleFrom (starts : List K) : Prop :=
  ∀ start ∈ starts, ∀ key, Relation.ReflTransGen (Leads next) start key →
    ¬Relation.TransGen (Leads next) key key

variable {next}

theorem Within.mono {depth deeper : Nat} {key : K} (within : Within next depth key)
    (le : depth ≤ deeper) : Within next deeper key := by
  induction depth generalizing deeper key with
  | zero => cases within
  | succ depth ih =>
      cases deeper with
      | zero => cases le
      | succ deeper => exact fun other member => ih (within other member) (Nat.le_of_succ_le_succ le)

theorem Within.reached {depth : Nat} {start key : K} (within : Within next depth start)
    (reaches : Relation.ReflTransGen (Leads next) start key) : Within next depth key := by
  induction reaches with
  | refl => exact within
  | tail _ leads ih =>
      cases depth with
      | zero => cases ih
      | succ depth => exact Within.mono (ih _ leads) (Nat.le_succ depth)

theorem Within.not_cycle {depth : Nat} {key : K} (within : Within next depth key) :
    ¬Relation.TransGen (Leads next) key key := by
  induction depth generalizing key with
  | zero => cases within
  | succ depth ih =>
      intro cycle
      obtain ⟨other, leads, back⟩ := Relation.TransGen.head'_iff.mp cycle
      exact ih (within other leads) (Relation.TransGen.tail' back leads)

/-- Depths that suffice for single keys give one that suffices for all of them. -/
theorem exists_common_depth {keys : List K} (each : ∀ key ∈ keys, ∃ depth, Within next depth key) :
    ∃ depth, ∀ key ∈ keys, Within next depth key := by
  induction keys with
  | nil => exact ⟨0, fun _ member => nomatch member⟩
  | cons key rest ih =>
      obtain ⟨⟨depth, within⟩, later⟩ := List.forall_mem_cons.mp each
      obtain ⟨common, all⟩ := ih later
      refine ⟨max depth common, List.forall_mem_cons.mpr ⟨within.mono (Nat.le_max_left ..), ?_⟩⟩
      exact fun other member => (all other member).mono (Nat.le_max_right ..)

theorem exists_within_of_acc {key : K} (acc : Acc (fun later earlier => Leads next earlier later) key) :
    ∃ depth, Within next depth key := by
  induction acc with
  | intro key _ ih =>
      obtain ⟨depth, all⟩ := exists_common_depth ih
      exact ⟨depth + 1, all⟩

/-- Where finitely many keys refer to any, references that meet no cycle come to an end. -/
theorem acc_of_no_cycle (finite : {key | next key ≠ []}.Finite) {start : K}
    (noCycle : ∀ key, Relation.ReflTransGen (Leads next) start key →
      ¬Relation.TransGen (Leads next) key key) :
    Acc (fun later earlier => Leads next earlier later) start := by
  let Referring := {key // next key ≠ [] ∧ Relation.ReflTransGen (Leads next) start key}
  let Later : Referring → Referring → Prop :=
    fun later earlier => Relation.TransGen (Leads next) earlier.val later.val
  have : Finite Referring := (finite.subset fun _ isReferring => isReferring.1).to_subtype
  have : IsTrans Referring Later := ⟨fun _ _ _ first second => second.trans first⟩
  have : Std.Irrefl Later := ⟨fun key => noCycle key.val key.property.2⟩
  have wellFounded : WellFounded Later := Finite.wellFounded_of_trans_of_irrefl Later
  have ends : ∀ key, next key = [] → Acc (fun later earlier => Leads next earlier later) key := by
    intro key none
    refine ⟨key, fun other leads => ?_⟩
    unfold Leads at leads
    rw [none] at leads
    cases leads
  have each : ∀ key : Referring, Acc (fun later earlier => Leads next earlier later) key.val := by
    intro key
    induction key using wellFounded.induction with
    | h key ih =>
        refine ⟨key.val, fun other leads => ?_⟩
        by_cases none : next other = []
        · exact ends other none
        · exact ih ⟨other, none, key.property.2.tail leads⟩ (Relation.TransGen.single leads)
  by_cases none : next start = []
  · exact ends start none
  · exact each ⟨start, none, Relation.ReflTransGen.refl⟩

theorem exists_depth_iff (finite : {key | next key ≠ []}.Finite) (starts : List K) :
    (∃ depth, ∀ start ∈ starts, Within next depth start) ↔ NoCycleFrom next starts := by
  constructor
  · rintro ⟨depth, all⟩ start isStart key reaches
    exact ((all start isStart).reached reaches).not_cycle
  · intro noCycle
    exact exists_common_depth fun start isStart =>
      exists_within_of_acc (acc_of_no_cycle finite (noCycle start isStart))

end ReferenceGraph
