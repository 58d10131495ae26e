import Mathlib.Data.List.Basic

/-!
# High-water marks

A pass over a list marks the highest item that it met; a pass that met none has no mark.
What is stored is replaced by the mark of the latest pass that has one.  No mark is below
every mark.
-/

set_option autoImplicit false

namespace HighWater

universe u

variable {α : Type u}

section Pass
variable [Max α]

theorem foldl_some_max (height : α) (rest : List α) :
    rest.foldl (fun mark next => max mark (some next)) (some height) = some (rest.foldl max height) := by
  induction rest generalizing height with
  | nil => rfl
  | cons next others ih =>
      rw [List.foldl_cons, List.foldl_cons]
      exact ih (max height next)

/-- A pass that starts without a mark ends with the highest. -/
theorem foldl_max_none (heights : List α) :
    heights.foldl (fun mark next => max mark (some next)) none = heights.max? := by
  cases heights with
  | nil => rfl
  | cons first rest => exact foldl_some_max first rest

end Pass

variable [LE α] [Std.IsLinearOrder α]

theorem mark_le_refl (mark : Option α) : mark ≤ mark := by
  cases mark with
  | none => exact Option.none_le
  | some height => exact Option.some_le_some.mpr (Std.le_refl height)

theorem mark_le_trans {first second third : Option α} (lower : first ≤ second)
    (upper : second ≤ third) : first ≤ third := by
  cases first with
  | none => exact Option.none_le
  | some low =>
      cases second with
      | none => exact absurd lower Option.not_some_le_none
      | some middle =>
          cases third with
          | none => exact absurd upper Option.not_some_le_none
          | some high =>
              apply Option.some_le_some.mpr
              exact Std.le_trans (Option.some_le_some.mp lower) (Option.some_le_some.mp upper)

variable [Max α] [Std.LawfulOrderMax α] {heights : List α}

/-- The stored mark does not sink exactly when the pass met nothing, or something that is
not below the mark. -/
theorem le_max?_or_iff (held : Option α) :
    held ≤ heights.max?.or held ↔ heights = [] ∨ ∃ height ∈ heights, held ≤ some height := by
  cases top : heights.max? with
  | none =>
      constructor
      · intro _
        exact Or.inl (List.max?_eq_none_iff.mp top)
      · intro _
        exact mark_le_refl held
  | some highest =>
      obtain ⟨member, above⟩ := List.max?_eq_some_iff.mp top
      constructor
      · intro kept
        exact Or.inr ⟨highest, member, kept⟩
      · rintro (rfl | ⟨height, met, reached⟩)
        · cases top
        · exact mark_le_trans reached (Option.some_le_some.mpr (above height met))

end HighWater
