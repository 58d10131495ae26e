import Mathlib.Data.List.Destutter
import Mathlib.Data.List.Nodup

/-!
# Distinctness of lists put together from parts

Two ways to see that a list has no repetition: its parts belong to distinct
owners, or its parts have increasing ranks.
-/

set_option autoImplicit false

namespace Distinct

universe u v w

/-- Parts that belong to distinct owners do not overlap. -/
theorem nodup_flatMap_of_owner {A : Type u} {B : Type v} {I : Type w} (owner : B → I)
    (idOf : A → I) {items : List A} {part : A → List B} (distinct : (items.map idOf).Nodup)
    (owned : ∀ item ∈ items, ∀ b ∈ part item, owner b = idOf item)
    (each : ∀ item ∈ items, (part item).Nodup) : (items.flatMap part).Nodup := by
  rw [List.nodup_flatMap]
  refine ⟨each, ?_⟩
  rw [List.Nodup, List.pairwise_map] at distinct
  refine distinct.imp_of_mem ?_
  intro first second isFirst isSecond differ b inFirst inSecond
  exact differ ((owned first isFirst b inFirst).symm.trans (owned second isSecond b inSecond))

section Stacked
variable {B : Type v} (rank : B → Nat)

/-- A list without repetition whose elements have at least a given rank. -/
structure Stacked (bottom : Nat) (items : List B) : Prop where
  nodup : items.Nodup
  above : ∀ item ∈ items, bottom ≤ rank item

variable {rank}

theorem Stacked.nil (bottom : Nat) : Stacked rank bottom [] :=
  ⟨List.nodup_nil, fun _ member => absurd member (List.not_mem_nil)⟩

/-- A part of one rank goes under a stack of higher ranks. -/
theorem Stacked.under {bottom : Nat} {part items : List B} (stacked : Stacked rank (bottom + 1) items)
    (distinct : part.Nodup) (ranked : ∀ item ∈ part, rank item = bottom) :
    Stacked rank bottom (part ++ items) where
  nodup := by
    refine List.nodup_append.mpr ⟨distinct, stacked.nodup, ?_⟩
    rintro item inPart _ inItems rfl
    have high := stacked.above item inItems
    have low := ranked item inPart
    omega
  above := by
    intro item member
    rcases List.mem_append.mp member with inPart | inItems
    · exact Nat.le_of_eq (ranked item inPart).symm
    · exact Nat.le_of_succ_le (stacked.above item inItems)

theorem Stacked.perm {bottom : Nat} {items items' : List B} (stacked : Stacked rank bottom items)
    (same : items.Perm items') : Stacked rank bottom items' where
  nodup := same.nodup_iff.mp stacked.nodup
  above := fun item member => stacked.above item (same.mem_iff.mpr member)

end Stacked

/-- Where items that do not differ are equal, dropping each that follows its like drops none. -/
theorem mem_destutter {A : Type u} {differ : A → A → Prop} [DecidableRel differ] {items : List A}
    (alike : ∀ first ∈ items, ∀ second ∈ items, ¬ differ first second → first = second) (item : A) :
    item ∈ items.destutter differ ↔ item ∈ items := by
  constructor
  · exact fun member => (List.destutter_sublist differ items).subset member
  · intro member
    cases items with
    | nil => cases member
    | cons first rest =>
        rw [List.destutter_cons']
        induction rest generalizing first with
        | nil => exact member
        | cons second later ih =>
            rw [List.destutter'_cons]
            split
            · rcases List.mem_cons.mp member with rfl | inRest
              · exact List.mem_cons_self ..
              · apply List.mem_cons_of_mem
                apply ih second _ inRest
                intro left isLeft right isRight
                exact alike left (List.mem_cons_of_mem _ isLeft) right (List.mem_cons_of_mem _ isRight)
            · rename_i same
              have equal := alike first (List.mem_cons_self ..) second
                (List.mem_cons_of_mem _ (List.mem_cons_self ..)) same
              subst equal
              apply ih first
              · intro left isLeft right isRight
                exact alike left (List.mem_cons_of_mem _ isLeft) right (List.mem_cons_of_mem _ isRight)
              · rcases List.mem_cons.mp member with rfl | inRest
                · exact List.mem_cons_self ..
                · exact inRest

/-- Dropping each item that follows its like leaves no repetition exactly if nothing else stands
between two like items. -/
theorem nodup_destutter_iff {A : Type u} [DecidableEq A] (items : List A) :
    (items.destutter (· ≠ ·)).Nodup ↔
      ∀ first second, [first, second, first].Sublist items → second = first := by
  cases items with
  | nil => simp
  | cons head rest =>
      rw [List.destutter_cons']
      induction rest generalizing head with
      | nil => simp
      | cons next later ih =>
          rw [List.destutter'_cons]
          split
          · rename_i differ
            have sameMembers : head ∈ later.destutter' (· ≠ ·) next ↔ head ∈ next :: later := by
              rw [← List.destutter_cons']
              exact mem_destutter (fun _ _ _ _ same => not_not.mp same) head
            rw [List.nodup_cons, ih, sameMembers]
            constructor
            · rintro ⟨absent, between⟩ first second within
              cases within with
              | cons _ inside => exact between first second inside
              | cons_cons _ inside => exact absurd (inside.subset (by simp)) absent
            · intro between
              refine ⟨fun member => ?_, fun first second within => between first second (within.cons _)⟩
              have inLater : head ∈ later := (List.mem_cons.mp member).resolve_left differ
              exact differ (between head next
                (((List.singleton_sublist.mpr inLater).cons_cons next).cons_cons head)).symm
          · rename_i same
            rw [not_not] at same
            subst same
            rw [ih]
            constructor
            · intro between first second within
              cases within with
              | cons _ inside => exact between first second inside
              | cons_cons _ inside =>
                  cases inside with
                  | cons _ deeper => exact between head second (deeper.cons_cons head)
                  | cons_cons _ _ => rfl
            · exact fun between first second within => between first second (within.cons _)

/-- Three values in a row are shown by three items in a row. -/
theorem exists_of_three_sublist_map {A : Type u} {B : Type v} {shows : A → B} {items : List A}
    {first second third : B} (within : [first, second, third].Sublist (items.map shows)) :
    ∃ a b c, [a, b, c].Sublist items ∧ shows a = first ∧ shows b = second ∧ shows c = third := by
  obtain ⟨chosen, inItems, same⟩ := List.sublist_map_iff.mp within
  obtain ⟨a, _, rfl, isFirst, same⟩ := List.map_eq_cons_iff.mp same.symm
  obtain ⟨b, _, rfl, isSecond, same⟩ := List.map_eq_cons_iff.mp same
  obtain ⟨c, _, rfl, isThird, same⟩ := List.map_eq_cons_iff.mp same
  rw [List.map_eq_nil_iff.mp same] at inItems
  exact ⟨a, b, c, inItems, isFirst, isSecond, isThird⟩

end Distinct
