import BrickTrace.Lib.StableSort

/-!
# Merging lists that were cut first

Two lists, each put in one order and cut to a limit, are put together in another order and
cut again.  Without the first cuts, the answer could be longer but not different in its
first items: this says when the cuts leave them as they are.
-/

set_option autoImplicit false

namespace LimitedMerge

universe u v

/-- An item of the first list or of the second, with its place there. -/
structure Placed (A : Type u) where
  item : A
  second : Bool
  place : Nat

variable {A : Type u}

def placed (second : Bool) (items : List A) : List (Placed A) :=
  items.zipIdx.map fun entry => ⟨entry.1, second, entry.2⟩

def both (first second : List A) : List (Placed A) := placed false first ++ placed true second

variable (listed answered : A → A → Bool)

def limited (limit : Nat) (first second : List A) : List A :=
  (((first.mergeSort listed).take limit ++ (second.mergeSort listed).take limit).mergeSort
    answered).take limit

def whole (first second : List A) : List A :=
  (first.mergeSort listed ++ second.mergeSort listed).mergeSort answered

/-- Of two items that the order lets stand either way, the one stored first is ahead. -/
def listedBefore (left right : Placed A) : Bool :=
  listed left.item right.item && (!listed right.item left.item || left.place < right.place)

def answeredBefore (left right : Placed A) : Bool :=
  answered left.item right.item && (!answered right.item left.item ||
    if left.second = right.second then listedBefore listed left right else right.second)

/-- How many items are ahead of one in its own list. -/
def aheadInList (first second : List A) (here : Placed A) : Nat :=
  (both first second).countP fun other => other.second == here.second && listedBefore listed other here

/-- How many items of both lists are ahead of one. -/
def aheadInAnswer (first second : List A) (here : Placed A) : Nat :=
  (both first second).countP (answeredBefore listed answered · here)

/-- Whatever belongs to the first items of the answer belongs to those of its list. -/
def ListedInTime (limit : Nat) (first second : List A) : Prop :=
  ∀ here ∈ both first second, aheadInAnswer listed answered first second here < limit →
    aheadInList listed first second here < limit

section Order
variable {listed answered} {first second : List A}

theorem map_item_placed (second : Bool) (items : List A) :
    (placed second items).map Placed.item = items := by
  unfold placed
  rw [List.map_map]
  exact List.zipIdx_map_fst 0 items

theorem second_of_placed {second : Bool} {items : List A} {here : Placed A}
    (member : here ∈ placed second items) : here.second = second ∧ here.item ∈ items := by
  obtain ⟨entry, isEntry, rfl⟩ := List.mem_map.mp member
  refine ⟨rfl, ?_⟩
  rw [← List.zipIdx_map_fst 0 items]
  exact List.mem_map_of_mem isEntry

theorem item_of_both {here : Placed A} (member : here ∈ both first second) :
    (here.second = false → here.item ∈ first) ∧ (here.second = true → here.item ∈ second) := by
  rcases List.mem_append.mp member with inFirst | inSecond
  · obtain ⟨kind, isItem⟩ := second_of_placed inFirst
    exact ⟨fun _ => isItem, fun other => nomatch kind.symm.trans other⟩
  · obtain ⟨kind, isItem⟩ := second_of_placed inSecond
    exact ⟨fun other => (nomatch kind.symm.trans other), fun _ => isItem⟩

theorem placed_ordered (second : Bool) (items : List A) :
    (placed second items).Pairwise fun left right => left.place < right.place := by
  unfold placed
  rw [List.pairwise_map]
  have places : (items.zipIdx.map Prod.snd).Pairwise (· < ·) := by
    rw [List.zipIdx_map_snd]
    exact List.pairwise_lt_range'
  exact List.pairwise_map.mp places

theorem listedBefore_irrefl (here : Placed A) : listedBefore listed here here = false := by
  simp [listedBefore]

theorem answeredBefore_irrefl (here : Placed A) : answeredBefore listed answered here here = false := by
  simp [answeredBefore, listedBefore_irrefl]

/-- An order of items, for their places. -/
def byItem (order : A → A → Bool) (left right : Placed A) : Bool := order left.item right.item

/-- The list of one kind, in its order, as it is cut. -/
def sortedPlaces (listed : A → A → Bool) (second : Bool) (items : List A) : List (Placed A) :=
  (placed second items).mergeSort (byItem listed)

theorem map_item_mergeSort (order : A → A → Bool) (places : List (Placed A)) :
    (places.mergeSort (byItem order)).map Placed.item = (places.map Placed.item).mergeSort order :=
  List.map_mergeSort fun _ _ _ _ => rfl

theorem mem_sortedPlaces {isSecond : Bool} {items : List A} {here : Placed A} :
    here ∈ sortedPlaces listed isSecond items ↔ here ∈ placed isSecond items :=
  (List.mergeSort_perm _ _).mem_iff

theorem byItem_trans {order : A → A → Bool}
    (trans : ∀ first second third, order first second = true → order second third = true →
      order first third = true) (first second third : Placed A) :
    byItem order first second = true → byItem order second third = true →
      byItem order first third = true :=
  trans first.item second.item third.item

theorem byItem_total {order : A → A → Bool}
    (total : ∀ left right, (order left right || order right left) = true) (left right : Placed A) :
    (byItem order left right || byItem order right left) = true :=
  total left.item right.item

section Total
variable (trans : ∀ first second third, listed first second = true → listed second third = true →
    listed first third = true)
  (total : ∀ left right, (listed left right || listed right left) = true)
include trans total

omit total in
theorem listedBefore_trans {left middle right : Placed A}
    (early : listedBefore listed left middle = true) (late : listedBefore listed middle right = true) :
    listedBefore listed left right = true := by
  unfold listedBefore at early late ⊢
  rw [Bool.and_eq_true, Bool.or_eq_true, Bool.not_eq_true', decide_eq_true_eq] at early late ⊢
  refine ⟨trans _ _ _ early.1 late.1, ?_⟩
  cases back : listed right.item left.item with
  | false => exact Or.inl rfl
  | true =>
      -- all three may stand either way, so the places decide
      have first : ¬ listed middle.item left.item = false := by
        rw [trans _ _ _ late.1 back]
        decide
      have second : ¬ listed right.item middle.item = false := by
        rw [trans _ _ _ back early.1]
        decide
      exact Or.inr ((early.2.resolve_left first).trans (late.2.resolve_left second))

theorem pairwise_sortedPlaces (isSecond : Bool) (items : List A) :
    (sortedPlaces listed isSecond items).Pairwise fun left right =>
      listedBefore listed left right = true ∧ listedBefore listed right left = false := by
  have sorted := List.pairwise_mergeSort (byItem_trans trans) (byItem_total total)
    (placed isSecond items)
  have kept := StableSort.pairwise_mergeSort_kept (byItem_trans trans) (byItem_total total)
    (placed_ordered isSecond items)
  refine (sorted.and kept).imp ?_
  intro left right ⟨inOrder, places⟩
  unfold byItem at inOrder places
  unfold listedBefore
  cases either : listed right.item left.item with
  | false => simp [inOrder]
  | true =>
      have place := places either
      simp [inOrder, place, Nat.le_of_lt place]

theorem take_sortedPlaces (isSecond : Bool) (items : List A) (limit : Nat) :
    (sortedPlaces listed isSecond items).take limit =
      (sortedPlaces listed isSecond items).filter fun here =>
        (placed isSecond items).countP (listedBefore listed · here) < limit := by
  rw [StableSort.take_eq_filter listedBefore_irrefl
    (pairwise_sortedPlaces trans total isSecond items)]
  apply List.filter_congr
  intro here _
  rw [sortedPlaces, (List.mergeSort_perm _ _).countP_eq]

end Total

/-- The items of the other list are not counted. -/
theorem aheadInList_eq {isSecond : Bool} {items : List A} {here : Placed A}
    (own : items = if isSecond then second else first) (member : here ∈ placed isSecond items) :
    aheadInList listed first second here =
      (placed isSecond items).countP (listedBefore listed · here) := by
  have counted : ∀ kind : Bool, ∀ others : List A, (placed kind others).countP (fun other =>
      other.second == here.second && listedBefore listed other here) =
        if kind = isSecond then (placed kind others).countP (listedBefore listed · here) else 0 := by
    intro kind others
    by_cases same : kind = isSecond
    · rw [if_pos same]
      apply List.countP_congr
      intro other isOther
      rw [(second_of_placed isOther).1, (second_of_placed member).1, same]
      simp
    · rw [if_neg same, List.countP_eq_zero]
      intro other isOther
      rw [(second_of_placed isOther).1, (second_of_placed member).1]
      simp [same]
  unfold aheadInList both
  rw [List.countP_append, counted, counted, own]
  cases isSecond <;> simp

/-! ## The answer -/

section Answer
variable (transListed : ∀ first second third, listed first second = true →
    listed second third = true → listed first third = true)
  (totalListed : ∀ left right, (listed left right || listed right left) = true)
  (transAnswered : ∀ first second third, answered first second = true →
    answered second third = true → answered first third = true)
  (totalAnswered : ∀ left right, (answered left right || answered right left) = true)

/-- The items of both lists in the order of the answer, each with its place. -/
def wholePlaces (listed answered : A → A → Bool) (first second : List A) : List (Placed A) :=
  (sortedPlaces listed false first ++ sortedPlaces listed true second).mergeSort (byItem answered)

theorem wholePlaces_perm : (wholePlaces listed answered first second).Perm (both first second) :=
  (List.mergeSort_perm _ _).trans
    ((List.mergeSort_perm _ _).append (List.mergeSort_perm _ _))

theorem map_item_sortedPlaces (isSecond : Bool) (items : List A) :
    (sortedPlaces listed isSecond items).map Placed.item = items.mergeSort listed := by
  rw [sortedPlaces, map_item_mergeSort, map_item_placed]

theorem whole_eq : whole listed answered first second =
    (wholePlaces listed answered first second).map Placed.item := by
  rw [wholePlaces, map_item_mergeSort, List.map_append, map_item_sortedPlaces,
    map_item_sortedPlaces]
  rfl

include transListed totalListed

/-- Cutting the lists keeps the items with few ahead of them. -/
theorem limited_eq_take (limit : Nat) : limited listed answered limit first second =
    ((((sortedPlaces listed false first ++ sortedPlaces listed true second).filter fun here =>
      aheadInList listed first second here < limit).mergeSort (byItem answered)).map
        Placed.item).take limit := by
  have cut : ∀ (isSecond : Bool) (items : List A), items = (if isSecond then second else first) →
      (items.mergeSort listed).take limit = ((sortedPlaces listed isSecond items).filter fun here =>
        aheadInList listed first second here < limit).map Placed.item := by
    intro isSecond items own
    rw [← map_item_sortedPlaces isSecond items, ← List.map_take,
      take_sortedPlaces transListed totalListed]
    congr 1
    apply List.filter_congr
    intro here member
    rw [aheadInList_eq own (mem_sortedPlaces.mp member)]
  rw [limited, cut false first rfl, cut true second rfl, map_item_mergeSort, List.filter_append,
    List.map_append]

include transAnswered totalAnswered

theorem pairwise_wholePlaces :
    (wholePlaces listed answered first second).Pairwise fun left right =>
      answeredBefore listed answered left right = true ∧
        answeredBefore listed answered right left = false := by
  have stored : (sortedPlaces listed false first ++ sortedPlaces listed true second).Pairwise
      fun left right => if left.second = right.second then
        listedBefore listed left right = true ∧ listedBefore listed right left = false
      else right.second = true ∧ left.second = false := by
    have kinds : ∀ (isSecond : Bool) (items : List A), ∀ here ∈ sortedPlaces listed isSecond items,
        here.second = isSecond :=
      fun isSecond items here member => (second_of_placed (mem_sortedPlaces.mp member)).1
    rw [List.pairwise_append]
    refine ⟨?_, ?_, ?_⟩
    · refine (pairwise_sortedPlaces transListed totalListed false first).imp_of_mem ?_
      intro left right isLeft isRight before
      rw [if_pos ((kinds _ _ left isLeft).trans (kinds _ _ right isRight).symm)]
      exact before
    · refine (pairwise_sortedPlaces transListed totalListed true second).imp_of_mem ?_
      intro left right isLeft isRight before
      rw [if_pos ((kinds _ _ left isLeft).trans (kinds _ _ right isRight).symm)]
      exact before
    · intro left isLeft right isRight
      rw [kinds _ _ left isLeft, kinds _ _ right isRight, if_neg (by decide)]
      exact ⟨rfl, rfl⟩
  have sorted := List.pairwise_mergeSort (byItem_trans transAnswered) (byItem_total totalAnswered)
    (sortedPlaces listed false first ++ sortedPlaces listed true second)
  have kept := StableSort.pairwise_mergeSort_kept (byItem_trans transAnswered)
    (byItem_total totalAnswered) stored
  refine (sorted.and kept).imp ?_
  intro left right ⟨inOrder, places⟩
  unfold byItem at inOrder places
  unfold answeredBefore
  cases either : answered right.item left.item with
  | false => simp [inOrder]
  | true =>
      have place := places either
      by_cases same : left.second = right.second
      · rw [if_pos same] at place
        simp [inOrder, same, place]
      · rw [if_neg same] at place
        simp [inOrder, place]

/-- The cuts leave the answer as it is exactly when the first items of the answer are among
the first ones of their lists. -/
theorem map_limited_eq_take_iff {B : Type v} {value : A → B}
    (alike : ∀ left right, value left = value right → answered right left = true)
    (apart : ∀ left ∈ first, ∀ right ∈ second, value left ≠ value right) (limit : Nat) :
    (limited listed answered limit first second).map value =
        ((whole listed answered first second).map value).take limit ↔
      ListedInTime listed answered limit first second := by
  have ordered : (wholePlaces listed answered first second).Pairwise _ :=
    pairwise_wholePlaces transListed totalListed transAnswered totalAnswered
  have member : ∀ here, here ∈ wholePlaces listed answered first second ↔ here ∈ both first second :=
    fun here => wholePlaces_perm.mem_iff
  have early : (wholePlaces listed answered first second).take limit =
      (wholePlaces listed answered first second).filter fun here =>
        aheadInAnswer listed answered first second here < limit := by
    rw [StableSort.take_eq_filter answeredBefore_irrefl ordered]
    apply List.filter_congr
    intro here _
    rw [aheadInAnswer, wholePlaces_perm.countP_eq]
  have shows : (wholePlaces listed answered first second).Pairwise fun left right =>
      decide (aheadInList listed first second left < limit) = false →
      decide (aheadInList listed first second right < limit) = true →
      value left.item ≠ value right.item := by
    refine ordered.imp_of_mem ?_
    intro left right isLeft isRight before isLate isEarly same
    have kind : left.second = right.second := by
      have leftItem := item_of_both ((member left).mp isLeft)
      have rightItem := item_of_both ((member right).mp isRight)
      cases leftKind : left.second <;> cases rightKind : right.second
      · rfl
      · exact absurd same (apart _ (leftItem.1 leftKind) _ (rightItem.2 rightKind))
      · exact absurd same.symm (apart _ (rightItem.1 rightKind) _ (leftItem.2 leftKind))
      · rfl
    have listedFirst : listedBefore listed left right = true := by
      have answeredFirst := before.1
      unfold answeredBefore at answeredFirst
      rw [alike _ _ same, if_pos kind] at answeredFirst
      exact (Bool.and_eq_true_iff.mp answeredFirst).2
    have noMore : aheadInList listed first second left ≤ aheadInList listed first second right := by
      apply List.countP_mono_left
      intro other _ ahead
      rw [kind, Bool.and_eq_true] at ahead
      rw [Bool.and_eq_true]
      exact ⟨ahead.1, listedBefore_trans transListed ahead.2 listedFirst⟩
    have late : ¬ aheadInList listed first second left < limit := of_decide_eq_false isLate
    have early : aheadInList listed first second right < limit := of_decide_eq_true isEarly
    omega
  rw [limited_eq_take transListed totalListed, ← StableSort.filter_mergeSort
    (byItem_trans transAnswered) (byItem_total totalAnswered), whole_eq, List.map_take, List.map_map,
    List.map_map]
  refine (StableSort.take_filter_map_iff shows limit).trans ?_
  rw [early]
  simp only [List.mem_filter, member, decide_eq_true_eq, and_imp]
  rfl

end Answer

end Order

end LimitedMerge
