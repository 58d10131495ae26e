import BrickTrace.Lib.LastWrite
import BrickTrace.Lib.OrderedMap

/-!
# Links declared at either end

An item may name its own parent, and it may list its children.  Items are read in
order into one map of parents: what an item says of itself replaces what is known of
it, and what a parent says of a child stands only where nothing is known yet.  So the
last word of the child goes before the first word of a parent.
-/

set_option autoImplicit false

namespace TwoSidedLinks

universe u v

section Known
variable {K : Type u} [DecidableEq K]

/-- The child gets the parent, also in the place of another. -/
def point (known : List (K × K)) (child parent : K) : List (K × K) :=
  known.filter (fun link => link.1 != child) ++ [(child, parent)]

/-- The child gets the parent if it has none. -/
def pointFirst (known : List (K × K)) (child parent : K) : List (K × K) :=
  if (known.lookup child).isSome then known else known ++ [(child, parent)]

theorem lookup_filter_of_ne {known : List (K × K)} {child other : K} (differs : other ≠ child) :
    (known.filter fun link => link.1 != child).lookup other = known.lookup other := by
  induction known with
  | nil => rfl
  | cons link rest ih =>
      obtain ⟨held, parent⟩ := link
      by_cases isChild : held = child
      · have passes : (other == held) = false := beq_eq_false_iff_ne.mpr (isChild ▸ differs)
        rw [List.filter_cons_of_neg (by simp [isChild]), ih, List.lookup_cons, passes]
      · rw [List.filter_cons_of_pos (by simp [isChild]), List.lookup_cons, List.lookup_cons, ih]

theorem lookup_filter_self (known : List (K × K)) (child : K) :
    (known.filter fun link => link.1 != child).lookup child = none := by
  apply List.lookup_eq_none_iff.mpr
  intro link member
  have kept := (List.mem_filter.mp member).2
  exact bne_iff_ne.mpr (Ne.symm (bne_iff_ne.mp kept))

theorem lookup_point (known : List (K × K)) (child parent other : K) :
    (point known child parent).lookup other =
      if other = child then some parent else known.lookup other := by
  unfold point
  rw [List.lookup_append]
  by_cases same : other = child
  · rw [if_pos same, same, lookup_filter_self, List.lookup_cons_self]
    rfl
  · have passes : (other == child) = false := beq_eq_false_iff_ne.mpr same
    rw [if_neg same, lookup_filter_of_ne same, List.lookup_cons, passes]
    exact Option.or_none

theorem lookup_pointFirst (known : List (K × K)) (child parent other : K) :
    (pointFirst known child parent).lookup other =
      (known.lookup other).or (if other = child then some parent else none) := by
  unfold pointFirst
  by_cases same : other = child
  · subst same
    cases held : known.lookup other with
    | none => simp [List.lookup_append, held]
    | some before => simp [held]
  · have passes : (other == child) = false := beq_eq_false_iff_ne.mpr same
    rw [if_neg same, Option.or_none]
    split
    · rfl
    · rw [List.lookup_append, List.lookup_cons, passes]
      exact Option.or_none

theorem nodup_point {known : List (K × K)} (distinct : (known.map Prod.fst).Nodup) (child parent : K) :
    ((point known child parent).map Prod.fst).Nodup := by
  unfold point
  rw [List.map_append, List.map_singleton]
  apply List.Nodup.append (distinct.sublist (List.filter_sublist.map _)) (List.nodup_singleton _)
  intro held before isChild
  obtain ⟨link, kept, rfl⟩ := List.mem_map.mp before
  exact bne_iff_ne.mp (List.mem_filter.mp kept).2 (List.mem_singleton.mp isChild)

theorem nodup_pointFirst {known : List (K × K)} (distinct : (known.map Prod.fst).Nodup)
    (child parent : K) : ((pointFirst known child parent).map Prod.fst).Nodup := by
  unfold pointFirst
  split
  · exact distinct
  · rename_i unknown
    rw [List.map_append, List.map_singleton]
    apply List.Nodup.append distinct (List.nodup_singleton _)
    intro held before isChild
    obtain ⟨link, member, rfl⟩ := List.mem_map.mp before
    have found : known.lookup link.1 = some link.2 := OrderedMap.lookup_of_mem distinct member
    rw [List.mem_singleton.mp isChild] at found
    simp [found] at unknown

end Known

section Declared
variable {I : Type v} {K : Type u} [DecidableEq K] (keyOf : I → K) (ownParent : I → Option K)
  (children : I → List K)

/-- What an item says of its own parent. -/
def ownWord (child : K) (item : I) : Option K := if keyOf item = child then ownParent item else none

/-- An item that lists the child is its parent by its own word. -/
def parentWord (child : K) (item : I) : Option K :=
  if child ∈ children item then some (keyOf item) else none

/-- The last word of the child, or else the first word of a parent. -/
def parentOf (items : List I) (child : K) : Option K :=
  (LastWrite.lastWrite (ownWord keyOf ownParent child) items).or
    (items.findSome? (parentWord keyOf children child))

def declare (known : List (K × K)) (item : I) : List (K × K) :=
  (children item).foldl (fun grown child => pointFirst grown child (keyOf item))
    (match ownParent item with
    | none => known
    | some parent => point known (keyOf item) parent)

def declared (items : List I) : List (K × K) := items.foldl (declare keyOf ownParent children) []

theorem lookup_foldl_pointFirst (listed : List K) (known : List (K × K)) (parent child : K) :
    (listed.foldl (fun grown child => pointFirst grown child parent) known).lookup child =
      (known.lookup child).or (if child ∈ listed then some parent else none) := by
  induction listed generalizing known with
  | nil => simp
  | cons first rest ih =>
      rw [List.foldl_cons, ih, lookup_pointFirst, Option.or_assoc]
      by_cases same : child = first
      · simp [same]
      · simp [same]

theorem lookup_declare (known : List (K × K)) (item : I) (child : K) :
    (declare keyOf ownParent children known item).lookup child =
      ((ownWord keyOf ownParent child item).or (known.lookup child)).or
        (parentWord keyOf children child item) := by
  unfold declare ownWord parentWord
  rw [lookup_foldl_pointFirst]
  congr 1
  cases ownParent item with
  | none => simp
  | some parent =>
      dsimp only
      rw [lookup_point]
      by_cases same : keyOf item = child
      · rw [if_pos same, if_pos same.symm]
        rfl
      · rw [if_neg same, if_neg (Ne.symm same)]
        rfl

theorem lookup_declared (items : List I) (child : K) :
    (declared keyOf ownParent children items).lookup child =
      parentOf keyOf ownParent children items child := by
  unfold declared parentOf
  induction items using List.reverseRecOn with
  | nil => rfl
  | append_singleton earlier item ih =>
      have first : [item].findSome? (parentWord keyOf children child) =
          parentWord keyOf children child item := by
        cases word : parentWord keyOf children child item with
        | none => simp [word]
        | some parent => simp [word]
      rw [List.foldl_append, List.foldl_cons, List.foldl_nil, lookup_declare, ih,
        LastWrite.lastWrite_append, List.findSome?_append, first, LastWrite.lastWrite_cons,
        LastWrite.lastWrite_nil, Option.none_or, Option.or_assoc, Option.or_assoc, Option.or_assoc]

theorem nodup_declare {known : List (K × K)} (distinct : (known.map Prod.fst).Nodup) (item : I) :
    ((declare keyOf ownParent children known item).map Prod.fst).Nodup := by
  have listed : ∀ (names : List K) (held : List (K × K)), (held.map Prod.fst).Nodup →
      ((names.foldl (fun grown child => pointFirst grown child (keyOf item)) held).map
        Prod.fst).Nodup := by
    intro names
    induction names with
    | nil => exact fun _ holds => holds
    | cons name rest ih => exact fun _ holds => ih _ (nodup_pointFirst holds _ _)
  unfold declare
  apply listed
  cases ownParent item with
  | none => exact distinct
  | some parent => exact nodup_point distinct _ _

theorem nodup_declared (items : List I) :
    ((declared keyOf ownParent children items).map Prod.fst).Nodup := by
  unfold declared
  induction items using List.reverseRecOn with
  | nil => exact List.nodup_nil
  | append_singleton earlier item ih =>
      rw [List.foldl_append, List.foldl_cons, List.foldl_nil]
      exact nodup_declare keyOf ownParent children ih item

/-- The map of parents has the one link of each child. -/
theorem mem_declared_iff {items : List I} {child parent : K} :
    (child, parent) ∈ declared keyOf ownParent children items ↔
      parentOf keyOf ownParent children items child = some parent := by
  rw [← lookup_declared]
  exact ⟨OrderedMap.lookup_of_mem (nodup_declared keyOf ownParent children items),
    OrderedMap.mem_of_lookup⟩

/-- A child that says nothing has a parent only by the word of one. -/
theorem parentOf_eq_none_iff {items : List I} {child : K} :
    parentOf keyOf ownParent children items child = none ↔
      (∀ item ∈ items, keyOf item = child → ownParent item = none) ∧
        ∀ item ∈ items, child ∉ children item := by
  unfold parentOf ownWord parentWord
  rw [Option.or_eq_none_iff, LastWrite.lastWrite_eq_none_iff, List.findSome?_eq_none_iff]
  simp

/-! ## Keys that tell the items apart -/

section Distinct
variable {items : List I} (distinct : (items.map keyOf).Nodup)
include distinct

/-- The own word of the child, or without one the first item that lists it. -/
theorem parentOf_eq_some_iff {child parent : K} :
    parentOf keyOf ownParent children items child = some parent ↔
      (∃ item ∈ items, keyOf item = child ∧ ownParent item = some parent) ∨
        (∀ item ∈ items, keyOf item = child → ownParent item = none) ∧
          ∃ before item after, items = before ++ item :: after ∧ keyOf item = parent ∧
            child ∈ children item ∧ ∀ earlier ∈ before, child ∉ children earlier := by
  unfold parentOf
  cases own : LastWrite.lastWrite (ownWord keyOf ownParent child) items with
  | none =>
      have silent : ∀ item ∈ items, keyOf item = child → ownParent item = none := by
        intro item member isChild
        have word := LastWrite.lastWrite_eq_none_iff.mp own item member
        unfold ownWord at word
        rwa [if_pos isChild] at word
      rw [Option.none_or, List.findSome?_eq_some_iff]
      constructor
      · rintro ⟨before, item, after, whole, word, quiet⟩
        unfold parentWord at word
        split at word
        · rename_i listed
          cases word
          refine Or.inr ⟨silent, before, item, after, whole, rfl, listed, fun earlier member => ?_⟩
          have unlisted := quiet earlier member
          unfold parentWord at unlisted
          intro isListed
          rw [if_pos isListed] at unlisted
          cases unlisted
        · cases word
      · rintro (⟨item, member, isChild, isOwn⟩ | ⟨_, before, item, after, whole, rfl, listed, quiet⟩)
        · rw [silent item member isChild] at isOwn
          cases isOwn
        · exact ⟨before, item, after, whole, if_pos listed, fun earlier member => if_neg (quiet earlier member)⟩
  | some named =>
      obtain ⟨item, isLast, word⟩ := LastWrite.lastWrite_eq_some_iff.mp own
      unfold ownWord at word
      split at word
      · rename_i isChild
        rw [Option.some_or, Option.some.injEq]
        constructor
        · rintro rfl
          exact Or.inl ⟨item, isLast.mem, isChild, word⟩
        · rintro (⟨other, member, isSame, isOwn⟩ | ⟨silent, _⟩)
          · have same := List.inj_on_of_nodup_map distinct member isLast.mem (isSame.trans isChild.symm)
            rw [same, word, Option.some.injEq] at isOwn
            exact isOwn
          · rw [silent item isLast.mem isChild] at word
            cases word
      · cases word

omit [DecidableEq K] in
/-- An item has one place only. -/
theorem before_unique {before before' after after' : List I} {item item' : I}
    (whole : items = before ++ item :: after) (whole' : items = before' ++ item' :: after')
    (sameKey : keyOf item = keyOf item') : before = before' ∧ item = item' := by
  have same : item = item' := List.inj_on_of_nodup_map distinct (by simp [whole]) (by simp [whole'])
    sameKey
  subst same
  have apart := distinct.of_map keyOf
  rw [whole, List.nodup_append, List.nodup_cons] at apart
  have absent : item ∉ before := fun member => apart.2.2 item member item List.mem_cons_self rfl
  exact ⟨((List.append_cons_inj_of_notMem absent apart.2.1.1).mp (whole.symm.trans whole')).1, rfl⟩

end Distinct

/-- Some item names it as its parent, or some child that names none is listed by it first. -/
def ParentOfSome (items before : List I) (item : I) : Prop :=
  (∃ child ∈ items, ownParent child = some (keyOf item)) ∨
    ∃ child ∈ children item, (∀ other ∈ items, keyOf other = child → ownParent other = none) ∧
      ∀ earlier ∈ before, child ∉ children earlier

theorem exists_parentOf_iff {items before after : List I} (distinct : (items.map keyOf).Nodup) {item : I}
    (whole : items = before ++ item :: after) :
    (∃ child, parentOf keyOf ownParent children items child = some (keyOf item)) ↔
      ParentOfSome keyOf ownParent children items before item := by
  unfold ParentOfSome
  simp only [parentOf_eq_some_iff keyOf ownParent children distinct]
  constructor
  · rintro ⟨child, ⟨other, member, _, isOwn⟩ | ⟨silent, front, first, back, split, isItem, listed, quiet⟩⟩
    · exact Or.inl ⟨other, member, isOwn⟩
    · obtain ⟨rfl, rfl⟩ := before_unique keyOf distinct split whole isItem
      exact Or.inr ⟨child, listed, silent, quiet⟩
  · rintro (⟨other, member, isOwn⟩ | ⟨child, listed, silent, quiet⟩)
    · exact ⟨keyOf other, Or.inl ⟨other, member, rfl, isOwn⟩⟩
    · exact ⟨child, Or.inr ⟨silent, before, item, after, whole, rfl, listed, quiet⟩⟩

/-- What an item shows as its children where its own list gives way to the children that have it as
their parent, if there are any. -/
def ShowsChild (items : List I) (item : I) (child : K) : Prop :=
  (∃ known, parentOf keyOf ownParent children items known = some (keyOf item)) ∧
      parentOf keyOf ownParent children items child = some (keyOf item) ∨
    (∀ known, parentOf keyOf ownParent children items known ≠ some (keyOf item)) ∧
      child ∈ children item

/-- The children that are shown are those that have the item as their parent, exactly if each item
that lists another is the parent of something. -/
theorem showsChild_iff {items : List I} (distinct : (items.map keyOf).Nodup) :
    (∀ item ∈ items, ∀ child ∈ items, ShowsChild keyOf ownParent children items item (keyOf child) ↔
        parentOf keyOf ownParent children items (keyOf child) = some (keyOf item)) ↔
      ∀ before item after, items = before ++ item :: after →
        (∃ child ∈ items, keyOf child ∈ children item) →
          ParentOfSome keyOf ownParent children items before item := by
  constructor
  · rintro consistent before item after whole ⟨child, isChild, listed⟩
    rw [← exists_parentOf_iff keyOf ownParent children distinct whole]
    by_contra childless
    have none_known := not_exists.mp childless
    have shown := (consistent item (by simp [whole]) child isChild).mp (Or.inr ⟨none_known, listed⟩)
    exact none_known _ shown
  · intro replaced item isItem child isChild
    obtain ⟨before, after, whole⟩ := List.append_of_mem isItem
    constructor
    · rintro (⟨_, isParent⟩ | ⟨childless, listed⟩)
      · exact isParent
      · have known := replaced before item after whole ⟨child, isChild, listed⟩
        rw [← exists_parentOf_iff keyOf ownParent children distinct whole] at known
        obtain ⟨other, isParent⟩ := known
        exact absurd isParent (childless other)
    · exact fun isParent => Or.inl ⟨⟨_, isParent⟩, isParent⟩

end Declared

end TwoSidedLinks
