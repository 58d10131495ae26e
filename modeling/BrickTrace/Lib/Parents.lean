import BrickTrace.Lib.LastWrite
import BrickTrace.Lib.Links

/-!
# Parent pointers and child sets

A child points to one parent, and a parent carries the set of its children.  When a
link is made, the pointer is overwritten and the set only grows.  So the sets hold
every link ever made and the pointers the last one of each child; the two agree when
no child was ever linked to two parents.
-/

set_option autoImplicit false

namespace OrderedMap

open LastWrite

universe u v w

section Pointer
variable {K : Type u} {L : Type v} {W : Type w} [Ord L] [Std.TransOrd L]
  (parentOf : W → Option K)

/-- The parent that the value under a key points to. -/
def parentIn (children : Map L W) (child : L) : Option K := children[child]?.bind parentOf

variable {parentOf} {children : Map L W} {key : L}

@[simp] theorem parentIn_empty (child : L) : parentIn parentOf (∅ : Map L W) child = none := by
  simp [parentIn]

variable [Std.LawfulEqOrd L] [DecidableEq L] {fresh : W} {edit : W → W}

theorem parentIn_upsert_set (parent : K) (sets : ∀ value, parentOf (edit value) = some parent)
    (child : L) : parentIn parentOf (upsert children key fresh edit) child =
      if key = child then some parent else parentIn parentOf children child := by
  unfold parentIn
  rw [getElem?_upsert]
  by_cases same : key = child
  · simp [same, sets]
  · simp [same]

/-- Setting the parent that a child points to already. -/
theorem parentIn_upsert_same {parent : K} (sets : ∀ value, parentOf (edit value) = some parent)
    (points : parentIn parentOf children key = some parent) (child : L) :
    parentIn parentOf (upsert children key fresh edit) child = parentIn parentOf children child := by
  rw [parentIn_upsert_set parent sets]
  by_cases same : key = child
  · subst same
    rw [if_pos rfl, points]
  · rw [if_neg same]

theorem parentIn_upsert_keep (blank : parentOf fresh = none)
    (keeps : ∀ value, parentOf (edit value) = parentOf value) (child : L) :
    parentIn parentOf (upsert children key fresh edit) child = parentIn parentOf children child := by
  unfold parentIn
  rw [getElem?_upsert]
  by_cases same : key = child
  · subst same
    cases held : children[key]? with
    | none => simp [keeps, blank]
    | some value => simp [keeps]
  · simp [same]

theorem parentIn_modify_keep (keeps : ∀ value, parentOf (edit value) = parentOf value) (child : L) :
    parentIn parentOf (children.modify key edit) child = parentIn parentOf children child := by
  unfold parentIn
  rw [getElem?_modify_eq]
  by_cases same : key = child
  · subst same
    cases held : children[key]? with
    | none => simp
    | some value => simp [keeps]
  · simp [same]

end Pointer

section Tracks
variable {K : Type u} {L : Type u} {V : Type v} {W : Type w} [Ord K] [Std.TransOrd K]
  [Ord L] [Std.TransOrd L] [DecidableEq L]

/-- What a link writes to the pointer of a child. -/
def parentWrite (child : L) (link : L × K) : Option K :=
  if link.1 = child then some link.2 else none

/-- The sets and the pointers after the links, each from a child to a parent. -/
structure Tracks (childrenOf : V → KeySet L) (parentOf : W → Option K) (parents : Map K V)
    (children : Map L W) (links : List (L × K)) : Prop where
  listed : ∀ parent child, Points childrenOf parents parent child ↔ (child, parent) ∈ links
  pointed : ∀ child, parentIn parentOf children child = lastWrite (parentWrite child) links

/-- Each child is linked to one parent only. -/
def OneParentEach (links : List (L × K)) : Prop :=
  ∀ left ∈ links, ∀ right ∈ links, left.1 = right.1 → left.2 = right.2

variable {childrenOf : V → KeySet L} {parentOf : W → Option K} {parents after : Map K V}
  {children next : Map L W} {links : List (L × K)}

theorem tracks_empty : Tracks childrenOf parentOf ∅ ∅ ([] : List (L × K)) where
  listed parent child := iff_of_false (not_points_empty childrenOf parent child) List.not_mem_nil
  pointed child := by simp

/-- Edits that make no link. -/
theorem Tracks.congr (tracks : Tracks childrenOf parentOf parents children links)
    (sameSets : ∀ parent child, Points childrenOf after parent child ↔
      Points childrenOf parents parent child)
    (samePointers : ∀ child, parentIn parentOf next child = parentIn parentOf children child) :
    Tracks childrenOf parentOf after next links where
  listed parent child := (sameSets parent child).trans (tracks.listed parent child)
  pointed child := (samePointers child).trans (tracks.pointed child)

/-- One link more: the set of the parent grows, the pointer of the child is overwritten. -/
theorem Tracks.link (tracks : Tracks childrenOf parentOf parents children links) (source : L)
    (goal : K)
    (added : ∀ parent child, Points childrenOf after parent child ↔
      goal = parent ∧ source = child ∨ Points childrenOf parents parent child)
    (overwritten : ∀ child, parentIn parentOf next child =
      if source = child then some goal else parentIn parentOf children child) :
    Tracks childrenOf parentOf after next (links ++ [(source, goal)]) where
  listed parent child := by
    rw [added, tracks.listed, List.mem_append, List.mem_singleton, Prod.mk.injEq, or_comm]
    simp only [eq_comm, and_comm]
  pointed child := by
    rw [overwritten, lastWrite_append, tracks.pointed, lastWrite_cons, lastWrite_nil, Option.none_or]
    unfold parentWrite
    by_cases same : source = child
    · simp [same]
    · simp [same]

/-- Sets and pointers agree exactly when no child was linked to two parents. -/
theorem Tracks.agree_iff (tracks : Tracks childrenOf parentOf parents children links) :
    (∀ parent child, Points childrenOf parents parent child ↔
        parentIn parentOf children child = some parent) ↔ OneParentEach links := by
  simp only [tracks.listed, tracks.pointed]
  constructor
  · rintro agree ⟨child, left⟩ isLeft ⟨other, right⟩ isRight same
    obtain rfl : child = other := same
    have points := (agree left child).mp isLeft
    rw [(agree right child).mp isRight] at points
    exact (Option.some.inj points).symm
  · intro one parent child
    constructor
    · intro linked
      have written : (lastWrite (parentWrite child) links).isSome :=
        isSome_lastWrite_iff.mpr ⟨(child, parent), linked, by simp [parentWrite]⟩
      obtain ⟨last, points⟩ := Option.isSome_iff_exists.mp written
      obtain ⟨link, isLast, wrote⟩ := lastWrite_eq_some_iff.mp points
      obtain ⟨before, later, rfl, -, -⟩ := isLast
      unfold parentWrite at wrote
      split at wrote
      · rename_i same
        cases wrote
        rw [points, one link (by simp) (child, parent) linked same]
      · cases wrote
    · intro points
      obtain ⟨link, isLast, wrote⟩ := lastWrite_eq_some_iff.mp points
      obtain ⟨before, later, rfl, -, -⟩ := isLast
      unfold parentWrite at wrote
      split at wrote
      · rename_i same
        cases wrote
        simp [← same]
      · cases wrote

end Tracks

end OrderedMap
