import BrickTrace.Lib.OrderedMap

/-!
# Links kept at both ends

Each value of a map carries a set of keys of another map.  Two maps mirror each
other when every link is kept at both of its ends; then no set names a key that
the other map lacks.
-/

set_option autoImplicit false

namespace OrderedMap

universe u v w x

section Points
variable {K : Type u} {V : Type v} {L : Type w} [Ord K] [Std.TransOrd K] [Ord L] [Std.TransOrd L]
  (idsOf : V → KeySet L)

/-- The value under the key names the target. -/
def Points (map : Map K V) (key : K) (target : L) : Prop :=
  ∃ value, map[key]? = some value ∧ target ∈ idsOf value

theorem not_points_empty (key : K) (target : L) : ¬ Points idsOf (∅ : Map K V) key target := by
  rintro ⟨value, held, _⟩
  simp at held

theorem points_iff_of_held {idsOf : V → KeySet L} {map : Map K V} {key : K} {value : V}
    (held : map[key]? = some value) (target : L) :
    Points idsOf map key target ↔ target ∈ idsOf value := by
  unfold Points
  rw [held]
  simp

theorem Points.mem {idsOf : V → KeySet L} {map : Map K V} {key : K} {target : L}
    (points : Points idsOf map key target) : key ∈ map := by
  obtain ⟨value, held, _⟩ := points
  exact Std.ExtTreeMap.mem_iff_isSome_getElem?.mpr (by rw [held]; rfl)

variable [Std.LawfulEqOrd K] [DecidableEq K]
variable {idsOf} {map : Map K V} {key : K} {fresh : V} {edit : V → V}

/-- An edit of a value that names more targets. -/
theorem points_upsert_addAll {added : L → Prop} (blank : ∀ target, target ∉ idsOf fresh)
    (adds : ∀ value target, target ∈ idsOf (edit value) ↔ added target ∨ target ∈ idsOf value)
    (other : K) (target : L) :
    Points idsOf (upsert map key fresh edit) other target ↔
      key = other ∧ added target ∨ Points idsOf map other target := by
  unfold Points
  simp only [getElem?_upsert]
  by_cases same : key = other
  · subst same
    simp only [if_pos, Option.some.injEq, exists_eq_left', adds, true_and]
    apply or_congr_right
    cases held : map[key]? with
    | none => simpa using blank target
    | some value => simp
  · simp [same]

/-- An edit of a value that names a target more. -/
theorem points_upsert_add {added : L} (blank : ∀ target, target ∉ idsOf fresh)
    (adds : ∀ value target, target ∈ idsOf (edit value) ↔ added = target ∨ target ∈ idsOf value)
    (other : K) (target : L) :
    Points idsOf (upsert map key fresh edit) other target ↔
      key = other ∧ added = target ∨ Points idsOf map other target :=
  points_upsert_addAll blank adds other target

/-- An edit in place names a target more, if the key is there. -/
theorem points_modify_add {added : L}
    (adds : ∀ value target, target ∈ idsOf (edit value) ↔ added = target ∨ target ∈ idsOf value)
    (other : K) (target : L) :
    Points idsOf (map.modify key edit) other target ↔
      (key = other ∧ key ∈ map) ∧ added = target ∨ Points idsOf map other target := by
  unfold Points
  simp only [getElem?_modify_eq]
  by_cases same : key = other
  · subst same
    rw [Std.ExtTreeMap.mem_iff_isSome_getElem?]
    cases held : map[key]? with
    | none => simp
    | some value => simp [adds]
  · simp [same]

/-- An edit that names the same targets as before. -/
theorem points_upsert_keep (blank : ∀ target, target ∉ idsOf fresh)
    (keeps : ∀ value, idsOf (edit value) = idsOf value) (other : K) (target : L) :
    Points idsOf (upsert map key fresh edit) other target ↔ Points idsOf map other target := by
  unfold Points
  simp only [getElem?_upsert]
  by_cases same : key = other
  · subst same
    simp only [if_pos, Option.some.injEq, exists_eq_left', keeps]
    cases held : map[key]? with
    | none => simpa using blank target
    | some value => simp
  · simp [same]

theorem points_modify_keep (keeps : ∀ value, idsOf (edit value) = idsOf value)
    (other : K) (target : L) :
    Points idsOf (map.modify key edit) other target ↔ Points idsOf map other target := by
  unfold Points
  simp only [getElem?_modify_eq]
  by_cases same : key = other
  · simp [same, keeps]
  · simp [same]

theorem mem_upsert (other : K) : other ∈ upsert map key fresh edit ↔ key = other ∨ other ∈ map := by
  rw [Std.ExtTreeMap.mem_iff_isSome_getElem?, getElem?_upsert, Std.ExtTreeMap.mem_iff_isSome_getElem?]
  by_cases same : key = other
  · simp [same]
  · simp [same]

end Points

section Keyed
variable {K : Type u} {V : Type v} [Ord K] [Std.TransOrd K] [Std.LawfulEqOrd K] {idOf : V → K}
  {map : Map K V}

/-- In a map whose values carry their keys, a value is found by its own id. -/
theorem exists_values_iff (keyed : Keyed idOf map) (key : K) (property : V → Prop) :
    (∃ value ∈ values map, property value ∧ idOf value = key) ↔
      ∃ value, map[key]? = some value ∧ property value := by
  constructor
  · rintro ⟨value, member, holds, rfl⟩
    obtain ⟨own, held⟩ := (mem_values_iff map value).mp member
    exact ⟨value, by rw [keyed own value held]; exact held, holds⟩
  · rintro ⟨value, held, holds⟩
    exact ⟨value, (mem_values_iff map value).mpr ⟨key, held⟩, holds, keyed key value held⟩

theorem getElem?_of_mem_values (keyed : Keyed idOf map) {value : V} (member : value ∈ values map) :
    map[idOf value]? = some value := by
  obtain ⟨key, held⟩ := (mem_values_iff map value).mp member
  rw [keyed key value held]
  exact held

end Keyed

section Mirrored
variable {K L : Type u} {V : Type v} {W : Type w}
  [Ord K] [Std.TransOrd K] [Ord L] [Std.TransOrd L]

/-- Every link is kept at both ends. -/
def Mirrored (idsOf : V → KeySet L) (backOf : W → KeySet K) (left : Map K V) (right : Map L W) :
    Prop :=
  ∀ key target, Points idsOf left key target ↔ Points backOf right target key

variable {idsOf : V → KeySet L} {backOf : W → KeySet K} {left next : Map K V}
  {right after : Map L W}

theorem mirrored_empty : Mirrored idsOf backOf ∅ ∅ := fun key target =>
  iff_of_false (not_points_empty idsOf key target) (not_points_empty backOf target key)

theorem Mirrored.symm (mirrored : Mirrored idsOf backOf left right) :
    Mirrored backOf idsOf right left :=
  fun target key => (mirrored key target).symm

/-- Edits that change no link. -/
theorem Mirrored.congr (mirrored : Mirrored idsOf backOf left right)
    (sameLeft : ∀ key target, Points idsOf next key target ↔ Points idsOf left key target)
    (sameRight : ∀ key target, Points backOf after key target ↔ Points backOf right key target) :
    Mirrored idsOf backOf next after := by
  intro key target
  rw [sameLeft, sameRight]
  exact mirrored key target

/-- One link more, added at both ends. -/
theorem Mirrored.link (mirrored : Mirrored idsOf backOf left right) (source : K) (goal : L)
    (addedLeft : ∀ key target, Points idsOf next key target ↔
      source = key ∧ goal = target ∨ Points idsOf left key target)
    (addedRight : ∀ key target, Points backOf after key target ↔
      goal = key ∧ source = target ∨ Points backOf right key target) :
    Mirrored idsOf backOf next after := by
  intro key target
  rw [addedLeft, addedRight, mirrored key target, and_comm]

/-- Every key that a set names is a key of the map at the other end. -/
theorem Mirrored.total (mirrored : Mirrored idsOf backOf left right) {key : K} {target : L}
    (points : Points idsOf left key target) : target ∈ right :=
  ((mirrored key target).mp points).mem

end Mirrored

end OrderedMap
