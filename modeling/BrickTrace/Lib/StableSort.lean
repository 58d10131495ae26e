import Mathlib.Data.List.Sort
import Mathlib.Order.Basic

/-!
# Sorting by a key, judged by another order

A stable sort puts the items of a larger key first and leaves items of one key in the
order they had.  When the sorted list is to meet an order of its own, this says what
the items have to satisfy.
-/

set_option autoImplicit false

namespace StableSort

universe u v

variable {A : Type u} {K : Type v} [LinearOrder K] (key : A → K)

/-- Whether `left` may stand before `right` when the larger key comes first. -/
def larger (left right : A) : Bool := key right ≤ key left

def largestFirst (items : List A) : List A := items.mergeSort (larger key)

theorem larger_trans (first second third : A) (left : larger key first second = true)
    (right : larger key second third = true) : larger key first third = true := by
  simp only [larger, decide_eq_true_eq] at left right ⊢
  exact right.trans left

theorem larger_total (left right : A) : (larger key left right || larger key right left) = true := by
  simp only [larger, Bool.or_eq_true, decide_eq_true_eq]
  exact le_total (key right) (key left)

variable {key} {items : List A}

theorem largestFirst_perm : (largestFirst key items).Perm items := List.mergeSort_perm _ _

theorem pairwise_largestFirst :
    (largestFirst key items).Pairwise fun left right => key right ≤ key left :=
  (List.pairwise_mergeSort (larger_trans key) (larger_total key) items).imp of_decide_eq_true

/-- The items of one key stand in the order they had. -/
theorem filter_largestFirst (value : K) :
    (largestFirst key items).filter (key · = value) = items.filter (key · = value) := by
  have alike : (items.filter (key · = value)).Pairwise fun left right => larger key left right := by
    apply List.pairwise_of_forall_mem_list
    intro left isLeft right isRight
    have leftKey : key left = value := of_decide_eq_true (List.mem_filter.mp isLeft).2
    have rightKey : key right = value := of_decide_eq_true (List.mem_filter.mp isRight).2
    simp [larger, leftKey, rightKey]
  have within : (items.filter (key · = value)).Sublist (largestFirst key items) :=
    List.sublist_mergeSort (larger_trans key) (larger_total key) alike List.filter_sublist
  have filtered := within.filter (key · = value)
  rw [List.filter_filter] at filtered
  simp only [Bool.and_self] at filtered
  have lengths : (items.filter (key · = value)).length =
      ((largestFirst key items).filter (key · = value)).length :=
    (largestFirst_perm.filter _).length_eq.symm
  exact (filtered.eq_of_length lengths).symm

/-- In a list with descending keys, two items of different keys stand in their order. -/
theorem sublist_of_key_lt {sorted : List A}
    (descending : sorted.Pairwise fun left right => key right ≤ key left) {left right : A}
    (isLeft : left ∈ sorted) (isRight : right ∈ sorted) (below : key right < key left) :
    [left, right].Sublist sorted := by
  obtain ⟨before, after, rfl⟩ := List.append_of_mem isLeft
  rw [List.pairwise_append] at descending
  rcases List.mem_append.mp isRight with early | late
  · have above := descending.2.2 right early left (List.mem_cons_self ..)
    exact absurd above (not_le_of_gt below)
  · rcases List.mem_cons.mp late with rfl | later
    · exact absurd below (lt_irrefl _)
    · have tail : [left, right].Sublist (left :: after) :=
        (List.singleton_sublist.mpr later).cons_cons left
      exact tail.trans (List.sublist_append_right ..)

/-- A sorted list meets an order exactly when the items of different keys meet it in the
order of their keys and the items of one key in the order they had. -/
theorem pairwise_largestFirst_iff {ordered : A → A → Prop} :
    (largestFirst key items).Pairwise ordered ↔
      (∀ left ∈ items, ∀ right ∈ items, key right < key left → ordered left right) ∧
        items.Pairwise fun left right => key left = key right → ordered left right := by
  simp only [List.pairwise_iff_forall_sublist]
  constructor
  · intro meets
    refine ⟨?_, ?_⟩
    · intro left isLeft right isRight below
      exact meets (sublist_of_key_lt pairwise_largestFirst (largestFirst_perm.mem_iff.mpr isLeft)
        (largestFirst_perm.mem_iff.mpr isRight) below)
    intro left right before same
    have kept : [left, right].Sublist (items.filter (key · = key left)) := by
      simpa [same] using before.filter (key · = key left)
    rw [← filter_largestFirst] at kept
    exact meets (kept.trans List.filter_sublist)
  · rintro ⟨different, same⟩ left right before
    have isLeft : left ∈ items := largestFirst_perm.mem_iff.mp (before.subset (by simp))
    have isRight : right ∈ items := largestFirst_perm.mem_iff.mp (before.subset (by simp))
    have le := List.pairwise_iff_forall_sublist.mp pairwise_largestFirst before
    rcases lt_or_eq_of_le le with below | equal
    · exact different left isLeft right isRight below
    · have kept : [left, right].Sublist ((largestFirst key items).filter (key · = key left)) := by
        simpa [equal] using before.filter (key · = key left)
      rw [filter_largestFirst] at kept
      exact same (kept.trans List.filter_sublist) equal.symm

/-- Sorted lists with the same items of every key are the same. -/
theorem eq_of_filter_eq {left right : List A}
    (leftSorted : left.Pairwise fun before after => key after ≤ key before)
    (rightSorted : right.Pairwise fun before after => key after ≤ key before)
    (same : ∀ value, left.filter (key · = value) = right.filter (key · = value)) : left = right := by
  induction left generalizing right with
  | nil =>
      cases right with
      | nil => rfl
      | cons item rest =>
          have none := same (key item)
          rw [List.filter_cons_of_pos (by simp)] at none
          cases none
  | cons item rest ih =>
      have mem_iff : ∀ other, other ∈ item :: rest ↔ other ∈ right := by
        intro other
        have members := congrArg (other ∈ ·) (same (key other))
        simpa using members
      cases right with
      | nil => exact absurd ((mem_iff item).mp List.mem_cons_self) List.not_mem_nil
      | cons first others =>
          obtain ⟨above, restSorted⟩ := List.pairwise_cons.mp leftSorted
          obtain ⟨firstAbove, othersSorted⟩ := List.pairwise_cons.mp rightSorted
          have sameKey : key item = key first := by
            apply le_antisymm
            · rcases List.mem_cons.mp ((mem_iff item).mp List.mem_cons_self) with rfl | later
              · exact le_rfl
              · exact firstAbove item later
            · rcases List.mem_cons.mp ((mem_iff first).mpr List.mem_cons_self) with rfl | later
              · exact le_rfl
              · exact above first later
          have heads := same (key item)
          rw [List.filter_cons_of_pos (by simp), List.filter_cons_of_pos (by simp [sameKey])] at heads
          obtain ⟨sameItem, _⟩ := List.cons.inj heads
          subst sameItem
          congr 1
          refine ih restSorted othersSorted fun value => ?_
          have whole := same value
          by_cases own : key item = value
          · rw [List.filter_cons_of_pos (by simpa using own),
              List.filter_cons_of_pos (by simpa using own)] at whole
            exact (List.cons.inj whole).2
          · rwa [List.filter_cons_of_neg (by simpa using own),
              List.filter_cons_of_neg (by simpa using own)] at whole

/-- Two lists are sorted into one exactly if the items of every key stand in the same order. -/
theorem largestFirst_eq_iff {others : List A} :
    largestFirst key items = largestFirst key others ↔
      ∀ value, items.filter (key · = value) = others.filter (key · = value) := by
  constructor
  · intro same value
    rw [← filter_largestFirst, same, filter_largestFirst]
  · intro same
    refine eq_of_filter_eq pairwise_largestFirst pairwise_largestFirst fun value => ?_
    rw [filter_largestFirst, filter_largestFirst, same]

/-- Inserting one item after the other sorts stably too. -/
theorem insertionSort_eq_largestFirst {before : A → A → Prop} [DecidableRel before]
    (agrees : ∀ left right, before left right ↔ larger key left right = true) (items : List A) :
    items.insertionSort before = largestFirst key items := by
  have : Std.Total before :=
    ⟨fun left right => by rw [agrees, agrees, ← Bool.or_eq_true]; exact larger_total key left right⟩
  have : IsTrans A before :=
    ⟨fun first second third => by rw [agrees, agrees, agrees]; exact larger_trans key _ _ _⟩
  refine @eq_of_filter_eq A K _ key _ _ ?_ pairwise_largestFirst fun value => ?_
  · exact (List.pairwise_insertionSort before items).imp fun early =>
      of_decide_eq_true ((agrees _ _).mp early)
  · rw [filter_largestFirst]
    have alike : (items.filter (key · = value)).Pairwise before := by
      apply List.pairwise_of_forall_mem_list
      intro left isLeft right isRight
      have leftKey : key left = value := of_decide_eq_true (List.mem_filter.mp isLeft).2
      have rightKey : key right = value := of_decide_eq_true (List.mem_filter.mp isRight).2
      exact (agrees left right).mpr (decide_eq_true (le_of_eq (rightKey.trans leftKey.symm)))
    have within := (List.sublist_insertionSort alike List.filter_sublist).filter (key · = value)
    rw [List.filter_filter] at within
    simp only [Bool.and_self] at within
    exact (within.eq_of_length
      ((List.perm_insertionSort before items).filter _).length_eq.symm).symm

/-- An item stands between two likes in the sorted list exactly if it did before and has their key. -/
theorem between_largestFirst_iff {first second : A} :
    [first, second, first].Sublist (largestFirst key items) ↔
      [first, second, first].Sublist items ∧ key second = key first := by
  have sameKept : key second = key first →
      [first, second, first].filter (key · = key first) = [first, second, first] := by
    intro same
    simp [same]
  constructor
  · intro within
    have descending := pairwise_largestFirst.sublist within
    simp only [List.pairwise_cons, List.mem_cons, List.not_mem_nil, or_false] at descending
    have same : key second = key first :=
      le_antisymm (descending.1 second (Or.inl rfl)) (descending.2.1 first rfl)
    refine ⟨?_, same⟩
    have kept := within.filter (key · = key first)
    rw [sameKept same, filter_largestFirst] at kept
    exact kept.trans List.filter_sublist
  · rintro ⟨within, same⟩
    have kept := within.filter (key · = key first)
    rw [sameKept same, ← filter_largestFirst] at kept
    exact kept.trans List.filter_sublist

/-! ## Choosing among sorted items -/

/-- A list is cut where a condition ends. -/
theorem cut_append {early : A → Bool} {front back : List A}
    (isEarly : ∀ item ∈ front, early item = true) (isLate : ∀ item ∈ back, early item = false) :
    (front ++ back).takeWhile early = front ∧ (front ++ back).dropWhile early = back := by
  rw [List.takeWhile_append_of_pos isEarly, List.dropWhile_append_of_pos isEarly]
  cases back with
  | nil => exact ⟨List.append_nil front, rfl⟩
  | cons first rest => simp [isLate first (List.mem_cons_self ..)]

section Choose
variable {before : A → A → Bool}
  (trans : ∀ first second third, before first second = true → before second third = true →
    before first third = true)
  (total : ∀ left right, (before left right || before right left) = true)
include trans total

/-- One item more stands between those that it is not before and those that it is before. -/
theorem exists_mergeSort_cons (item : A) (items : List A) :
    ∃ front back, (item :: items).mergeSort before = front ++ item :: back ∧
      items.mergeSort before = front ++ back ∧
      (∀ other ∈ front, before item other = false) ∧ ∀ other ∈ back, before item other = true := by
  obtain ⟨front, back, whole, rest, early⟩ := List.mergeSort_cons trans total item items
  have sorted := List.pairwise_mergeSort trans total (item :: items)
  rw [whole, List.pairwise_append, List.pairwise_cons] at sorted
  exact ⟨front, back, whole, rest, fun other member => Bool.not_eq_true' _ |>.mp (early other member),
    sorted.2.1.1⟩

/-- Choosing items and sorting them may be done in either order. -/
theorem filter_mergeSort (keep : A → Bool) (items : List A) :
    (items.mergeSort before).filter keep = (items.filter keep).mergeSort before := by
  induction items with
  | nil => simp
  | cons item rest ih =>
      obtain ⟨front, back, whole, sorted, early, late⟩ :=
        exists_mergeSort_cons trans total item rest
      rw [sorted, List.filter_append] at ih
      rw [whole, List.filter_append]
      cases kept : keep item with
      | false => rw [List.filter_cons_of_neg (by simp [kept]), ih, List.filter_cons_of_neg (by simp [kept])]
      | true =>
          -- the place of the item is told by the chosen items alone
          obtain ⟨front', back', whole', sorted', early', late'⟩ :=
            exists_mergeSort_cons trans total item (rest.filter keep)
          rw [sorted'] at ih
          have cut := @cut_append _ (fun other => !before item other)
            (front.filter keep) (back.filter keep)
            (fun other member => by simp [early other (List.mem_of_mem_filter member)])
            (fun other member => by simp [late other (List.mem_of_mem_filter member)])
          have cut' := @cut_append _ (fun other => !before item other) front' back'
            (fun other member => by simp [early' other member])
            (fun other member => by simp [late' other member])
          rw [ih] at cut
          rw [List.filter_cons_of_pos kept, List.filter_cons_of_pos kept, whole',
            cut.1.symm.trans cut'.1, cut.2.symm.trans cut'.2]

/-- Items that all stand behind others are sorted by themselves. -/
theorem mergeSort_append {front back : List A}
    (behind : ∀ first ∈ front, ∀ second ∈ back, before second first = false) :
    (front ++ back).mergeSort before = front.mergeSort before ++ back.mergeSort before := by
  let early : A → Bool := fun item => back.all fun second => !before second item
  have isEarly : ∀ item ∈ front, early item = true := by
    intro item member
    exact List.all_eq_true.mpr fun second isBack => by rw [behind item member second isBack]; rfl
  have isLate : ∀ item ∈ back, early item = false := by
    intro item member
    have self : before item item = true := by simpa using total item item
    exact List.all_eq_false.mpr ⟨item, member, by rw [self]; decide⟩
  have frontKept : (front ++ back).filter early = front := by
    rw [List.filter_append, List.filter_eq_self.mpr isEarly,
      List.filter_eq_nil_iff.mpr fun item member => by rw [isLate item member]; decide,
      List.append_nil]
  have backKept : (front ++ back).filter (fun item => !early item) = back := by
    rw [List.filter_append,
      List.filter_eq_nil_iff.mpr fun item member => by rw [isEarly item member]; decide,
      List.filter_eq_self.mpr fun item member => by rw [isLate item member]; rfl, List.nil_append]
  -- no early item stands behind a late one
  have split : ∀ items : List A, items.Pairwise (fun left right => before left right = true) →
      items = items.filter early ++ items.filter fun item => !early item := by
    intro items sorted
    induction items with
    | nil => rfl
    | cons item rest ih =>
        obtain ⟨here, later⟩ := List.pairwise_cons.mp sorted
        cases first : early item with
        | true =>
            rw [List.filter_cons_of_pos first, List.filter_cons_of_neg (by simp [first]),
              List.cons_append, ← ih later]
        | false =>
            have none : ∀ other ∈ rest, ¬ early other = true := by
              intro other member isEarly
              obtain ⟨second, isBack, notEarly⟩ := List.all_eq_false.mp first
              have ahead := List.all_eq_true.mp isEarly second isBack
              have itemBehind : before second item = true := by simpa using notEarly
              rw [trans second item other itemBehind (here other member)] at ahead
              cases ahead
            have late : ∀ other ∈ rest, (!early other) = true := by
              intro other member
              simpa using none other member
            rw [List.filter_cons_of_neg (by simp [first]), List.filter_eq_nil_iff.mpr none,
              List.filter_cons_of_pos (by simp [first]), List.filter_eq_self.mpr late,
              List.nil_append]
  have sorted := List.pairwise_mergeSort trans total (front ++ back)
  rw [split _ sorted, filter_mergeSort trans total, filter_mergeSort trans total, frontKept,
    backKept]

/-- Items that may stand either way keep the order they had. -/
theorem pairwise_mergeSort_kept {kept : A → A → Prop} {items : List A}
    (ordered : items.Pairwise kept) :
    (items.mergeSort before).Pairwise fun left right => before right left = true → kept left right := by
  induction items with
  | nil => simp
  | cons item rest ih =>
      obtain ⟨front, back, whole, sorted, early, _⟩ := exists_mergeSort_cons trans total item rest
      obtain ⟨here, others⟩ := List.pairwise_cons.mp ordered
      have inRest : ∀ other ∈ front ++ back, other ∈ rest := by
        intro other member
        rw [← sorted] at member
        exact (List.mergeSort_perm _ _).mem_iff.mp member
      have inner := ih others
      rw [sorted, List.pairwise_append] at inner
      rw [whole, List.pairwise_append, List.pairwise_cons]
      refine ⟨inner.1, ⟨?_, inner.2.1⟩, ?_⟩
      · intro other member _
        exact here other (inRest other (List.mem_append_right _ member))
      · intro left isLeft right isRight
        rcases List.mem_cons.mp isRight with rfl | later
        · intro either
          rw [early left isLeft] at either
          cases either
        · exact inner.2.2 left isLeft right later

end Choose

/-! ## The first items -/

/-- In a list that is strictly in order, the first items are those with few ahead of them. -/
theorem take_eq_filter {ahead : A → A → Bool} {items : List A} (irrefl : ∀ item, ahead item item = false)
    (ordered : items.Pairwise fun left right => ahead left right = true ∧ ahead right left = false)
    (limit : Nat) :
    items.take limit = items.filter fun item => items.countP (ahead · item) < limit := by
  induction items generalizing limit with
  | nil => simp
  | cons first rest ih =>
      obtain ⟨here, others⟩ := List.pairwise_cons.mp ordered
      have none : (first :: rest).countP (ahead · first) = 0 := by
        rw [List.countP_eq_zero]
        intro item member
        rcases List.mem_cons.mp member with rfl | later
        · simp [irrefl]
        · simp [(here item later).2]
      have oneMore : ∀ item ∈ rest,
          (first :: rest).countP (ahead · item) = rest.countP (ahead · item) + 1 :=
        fun item member => List.countP_cons_of_pos (here item member).1
      cases limit with
      | zero => simp
      | succ limit =>
          have kept : rest.filter (fun item => (first :: rest).countP (ahead · item) < limit + 1) =
              rest.filter fun item => rest.countP (ahead · item) < limit := by
            apply List.filter_congr
            intro item member
            rw [oneMore item member]
            exact decide_eq_decide.mpr Nat.add_lt_add_iff_right
          rw [List.take_succ_cons, List.filter_cons_of_pos (by simp [none]), kept, ih others]

/-- Leaving items out shows among the first ones, unless only later ones are left out. -/
theorem take_filter_map_iff {B : Type v} {value : A → B} {keep : A → Bool} {items : List A}
    (apart : items.Pairwise fun left right =>
      keep left = false → keep right = true → value left ≠ value right) (limit : Nat) :
    ((items.filter keep).map value).take limit = (items.map value).take limit ↔
      ∀ item ∈ items.take limit, keep item = true := by
  induction items generalizing limit with
  | nil => simp
  | cons first rest ih =>
      obtain ⟨here, others⟩ := List.pairwise_cons.mp apart
      cases limit with
      | zero => simp
      | succ limit =>
          cases kept : keep first with
          | true =>
              rw [List.filter_cons_of_pos kept, List.map_cons, List.map_cons, List.take_succ_cons,
                List.take_succ_cons, List.take_succ_cons, List.cons.injEq, List.forall_mem_cons,
                ih others]
              simp [kept]
          | false =>
              rw [List.filter_cons_of_neg (by simp [kept]), List.map_cons, List.take_succ_cons,
                List.take_succ_cons, List.forall_mem_cons, kept]
              apply iff_of_false _ (fun all => nomatch all.1)
              intro same
              -- the next item that is kept would have to look like this one
              cases left : rest.filter keep with
              | nil =>
                  rw [left] at same
                  cases same
              | cons next later =>
                  rw [left, List.map_cons, List.take_succ_cons] at same
                  have isNext : next ∈ rest.filter keep := left ▸ List.mem_cons_self
                  obtain ⟨member, isKept⟩ := List.mem_filter.mp isNext
                  exact here next member kept isKept (List.cons.inj same).1.symm

end StableSort
