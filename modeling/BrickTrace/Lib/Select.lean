import Mathlib.Data.List.Dedup
import Mathlib.Data.List.Nodup

/-!
# Selecting rows

A query joins the rows of two tables, keeps those that meet its parameters, orders
them and returns the first ones.  A parameter that is null is met by every row.
Without parameters and with a limit that is large enough, a query of distinct rows
returns the rows of its first table.
-/

set_option autoImplicit false

namespace Select

universe u v w

variable {A : Type u} {B : Type v}

/-- Whether a column equals the parameter; a null column equals no parameter. -/
def meets [BEq A] (parameter column : Option A) : Bool :=
  parameter.all fun value => column == some value

@[simp] theorem meets_none [BEq A] (column : Option A) : meets none column = true := rfl

/-- Each left row with every right row that matches, or alone when none does. -/
def leftJoin (matching : A → B → Bool) (left : List A) (right : List B) : List (A × Option B) :=
  left.flatMap fun a =>
    match right.filter (matching a) with
    | [] => [(a, none)]
    | found => found.map fun b => (a, some b)

theorem mem_map_fst_leftJoin (matching : A → B → Bool) (left : List A) (right : List B) (a : A) :
    a ∈ (leftJoin matching left right).map Prod.fst ↔ a ∈ left := by
  simp only [leftJoin, List.mem_map, List.mem_flatMap]
  constructor
  · rintro ⟨pair, ⟨first, member, joined⟩, rfl⟩
    have same : pair.1 = first := by
      split at joined
      · rw [List.mem_singleton.mp joined]
      · obtain ⟨_, -, rfl⟩ := List.mem_map.mp joined
        rfl
    rwa [same]
  · intro member
    cases found : right.filter (matching a) with
    | nil => exact ⟨(a, none), ⟨a, member, by simp [found]⟩, rfl⟩
    | cons b rest => exact ⟨(a, some b), ⟨a, member, by simp [found]⟩, rfl⟩

/-- Columns of the left rows are the same after the join. -/
theorem mem_map_leftJoin {C : Type w} (matching : A → B → Bool) (left : List A) (right : List B)
    (column : A → C) (c : C) :
    c ∈ (leftJoin matching left right).map (fun pair => column pair.1) ↔ c ∈ left.map column := by
  have split : (leftJoin matching left right).map (fun pair => column pair.1) =
      ((leftJoin matching left right).map Prod.fst).map column := by
    rw [List.map_map]
    rfl
  rw [split, List.mem_map, List.mem_map]
  simp only [mem_map_fst_leftJoin]

/-- Each left row with every right row that matches. -/
def join (matching : A → B → Bool) (left : List A) (right : List B) : List (A × B) :=
  left.flatMap fun a => (right.filter (matching a)).map fun b => (a, b)

/-- A choice of more items that is not longer is the same choice. -/
theorem filter_eq_of_length_le {few many : A → Bool} {items : List A}
    (more : ∀ item ∈ items, few item = true → many item = true)
    (lengths : (items.filter many).length ≤ (items.filter few).length) :
    ∀ item ∈ items, many item = few item := by
  have within : (items.filter few).Sublist (items.filter many) := by
    have chosen : items.filter few = (items.filter many).filter few := by
      rw [List.filter_filter]
      apply List.filter_congr
      intro item member
      cases isFew : few item with
      | false => rfl
      | true => rw [more item member isFew, Bool.and_self]
    rw [chosen]
    exact List.filter_sublist
  have same := within.eq_of_length_le lengths
  intro item member
  cases isMany : many item with
  | false =>
      cases isFew : few item with
      | false => rfl
      | true =>
          rw [more item member isFew] at isMany
          cases isMany
  | true =>
      have isFew : item ∈ items.filter few := same ▸ List.mem_filter.mpr ⟨member, isMany⟩
      exact (List.mem_filter.mp isFew).2.symm

/-- The first rows in an order. -/
def firstRows (order : A → A → Bool) (limit : Nat) (rows : List A) : List A :=
  (rows.mergeSort order).take limit

theorem firstRows_perm (order : A → A → Bool) {limit : Nat} {rows : List A}
    (large : rows.length ≤ limit) : (firstRows order limit rows).Perm rows := by
  unfold firstRows
  rw [List.take_of_length_le (by rw [List.length_mergeSort]; exact large)]
  exact List.mergeSort_perm rows order

/-- Distinct rows of a join, when the rows of the first table are distinct. -/
theorem dedup_perm [DecidableEq A] {rows joined : List A} (distinct : rows.Nodup)
    (same : ∀ row, row ∈ joined ↔ row ∈ rows) : joined.dedup.Perm rows :=
  (List.perm_ext_iff_of_nodup (List.nodup_dedup joined) distinct).mpr fun row =>
    List.mem_dedup.trans (same row)

/-! ## The best item -/

/-- The item takes the place of one that it is better than. -/
def keepBetter (better : A → A → Bool) (held : Option A) (item : A) : Option A :=
  if held.all (better item) then some item else held

/-- The fold ends with an item, or with what it began with, and none it saw is better. -/
theorem best_of_foldl_keepBetter {better : A → A → Bool}
    (asymm : ∀ first second, better first second = true → better second first = false)
    (trans : ∀ first second third, better first second = false → better second third = false →
      better first third = false)
    {items : List A} {before : Option A} {best : A}
    (kept : items.foldl (keepBetter better) before = some best) :
    (best ∈ items ∨ before = some best) ∧
      (∀ item ∈ items, better item best = false) ∧
        ∀ held, before = some held → better held best = false := by
  have irrefl : better best best = false := by
    cases self : better best best with
    | false => rfl
    | true => exact self.symm.trans (asymm best best self)
  induction items generalizing before with
  | nil =>
      refine ⟨.inr kept, (fun item member => nomatch member), fun held isHeld => ?_⟩
      cases isHeld.symm.trans kept
      exact irrefl
  | cons item rest ih =>
      obtain ⟨found, restWorse, nextWorse⟩ := ih kept
      unfold keepBetter at found nextWorse
      cases replaced : before.all (better item) with
      | true =>
          rw [if_pos replaced] at found nextWorse
          refine ⟨.inl ?_, List.forall_mem_cons.mpr ⟨nextWorse item rfl, restWorse⟩, ?_⟩
          · rcases found with inRest | isItem
            · exact List.mem_cons_of_mem item inRest
            · exact List.mem_cons.mpr (.inl (Option.some.inj isItem).symm)
          · intro held isHeld
            rw [isHeld] at replaced
            exact trans held item best (asymm item held replaced) (nextWorse item rfl)
      | false =>
          rw [if_neg (by rw [replaced]; decide)] at found nextWorse
          refine ⟨found.imp_left (List.mem_cons_of_mem item), List.forall_mem_cons.mpr
            ⟨?_, restWorse⟩, nextWorse⟩
          cases isHeld : before with
          | none =>
              rw [isHeld] at replaced
              cases replaced
          | some held =>
              rw [isHeld] at replaced
              exact trans item held best replaced (nextWorse held isHeld)

/-! ## Columns of keyed rows -/

variable {Row : Type u} {Key : Type v} {C D : Type w} {key : Row → Option Key} {rows : List Row}

/-- A column repeats no value among the chosen rows of a table, when it determines
their key. -/
theorem nodup_column (distinct : (rows.filterMap key).Nodup) (read : Row → Option C)
    (chosen : C → Bool) (column : C → D)
    (determines : ∀ row other found more, read row = some found → read other = some more →
      chosen found = true → chosen more = true → column found = column more →
        ∃ k, key row = some k ∧ key other = some k) :
    (((rows.filterMap read).filter chosen).map column).Nodup := by
  rw [List.Nodup, List.pairwise_map, List.pairwise_filter, List.pairwise_filterMap]
  rw [List.Nodup, List.pairwise_filterMap] at distinct
  refine distinct.imp fun {row other} apart found isFound more isMore chosenFound chosenMore same => ?_
  obtain ⟨k, first, second⟩ := determines row other found more isFound isMore chosenFound chosenMore
    same
  exact apart k first k second rfl

end Select
