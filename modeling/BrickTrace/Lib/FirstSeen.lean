import Mathlib.Data.List.Perm.Basic
import Mathlib.Data.List.Nodup

/-!
# Keeping what is seen for the first time

A list is read in order against a collection of known keys.  An item is fresh
when its key is not known and no earlier item of the list carries it, and
repeated otherwise.
-/

set_option autoImplicit false

namespace FirstSeen

universe u v w

variable {A : Type u} {K : Type v} [DecidableEq K] (key : A → K)

def fresh (known : List K) : List A → List A
  | [] => []
  | item :: rest =>
      if key item ∈ known then fresh known rest
      else item :: fresh (key item :: known) rest

def repeated (known : List K) : List A → List A
  | [] => []
  | item :: rest =>
      if key item ∈ known then item :: repeated known rest
      else repeated (key item :: known) rest

/-- A map that keeps the keys commutes with keeping the fresh items. -/
theorem fresh_map {edit : A → A} (kept : ∀ item, key (edit item) = key item) (known : List K)
    (items : List A) : fresh key known (items.map edit) = (fresh key known items).map edit := by
  induction items generalizing known with
  | nil => rfl
  | cons item rest ih =>
      by_cases seen : key item ∈ known
      · simp only [List.map_cons, fresh, kept, if_pos seen, ih]
      · simp only [List.map_cons, fresh, kept, if_neg seen, ih]

theorem repeated_map {edit : A → A} (kept : ∀ item, key (edit item) = key item) (known : List K)
    (items : List A) : repeated key known (items.map edit) = (repeated key known items).map edit := by
  induction items generalizing known with
  | nil => rfl
  | cons item rest ih =>
      by_cases seen : key item ∈ known
      · simp only [List.map_cons, repeated, kept, if_pos seen, ih]
      · simp only [List.map_cons, repeated, kept, if_neg seen, ih]

theorem fresh_sublist (known : List K) (items : List A) :
    (fresh key known items).Sublist items := by
  induction items generalizing known with
  | nil => exact List.Sublist.refl _
  | cons item rest ih =>
      by_cases seen : key item ∈ known
      · simp only [fresh, if_pos seen]
        exact (ih known).cons _
      · simp only [fresh, if_neg seen]
        exact (ih _).cons_cons _

theorem repeated_sublist (known : List K) (items : List A) :
    (repeated key known items).Sublist items := by
  induction items generalizing known with
  | nil => exact List.Sublist.refl _
  | cons item rest ih =>
      by_cases seen : key item ∈ known
      · simp only [repeated, if_pos seen]
        exact (ih known).cons_cons _
      · simp only [repeated, if_neg seen]
        exact (ih _).cons _

/-- What is fresh depends only on which keys of the list are known. -/
theorem fresh_congr {known other : List K} {items : List A}
    (same : ∀ item ∈ items, key item ∈ known ↔ key item ∈ other) :
    fresh key known items = fresh key other items ∧
      repeated key known items = repeated key other items := by
  induction items generalizing known other with
  | nil => exact ⟨rfl, rfl⟩
  | cons item rest ih =>
      obtain ⟨first, later⟩ := List.forall_mem_cons.mp same
      by_cases seen : key item ∈ known
      · obtain ⟨kept, dropped⟩ := ih later
        simp only [fresh, repeated, if_pos seen, if_pos (first.mp seen), kept, dropped, and_self]
      · have grown : ∀ next ∈ rest, key next ∈ key item :: known ↔ key next ∈ key item :: other := by
          intro next member
          rw [List.mem_cons, List.mem_cons, later next member]
        obtain ⟨kept, dropped⟩ := ih grown
        simp only [fresh, repeated, if_neg seen, if_neg fun member => seen (first.mpr member), kept,
          dropped, and_self]

/-- Every item is either fresh or repeated. -/
theorem fresh_repeated_perm (known : List K) (items : List A) :
    (fresh key known items ++ repeated key known items).Perm items := by
  induction items generalizing known with
  | nil => exact List.Perm.refl _
  | cons item rest ih =>
      by_cases seen : key item ∈ known
      · simp only [fresh, repeated, if_pos seen]
        exact List.perm_middle.trans ((ih known).cons _)
      · simp only [fresh, repeated, if_neg seen, List.cons_append]
        exact (ih _).cons _

theorem key_notMem_of_fresh {known : List K} {items : List A} {item : A}
    (member : item ∈ fresh key known items) : key item ∉ known := by
  induction items generalizing known with
  | nil => simp [fresh] at member
  | cons head rest ih =>
      by_cases seen : key head ∈ known
      · simp only [fresh, if_pos seen] at member
        exact ih member
      · simp only [fresh, if_neg seen, List.mem_cons] at member
        rcases member with rfl | member
        · exact seen
        · exact fun known => ih member (List.mem_cons_of_mem _ known)

theorem nodup_fresh_keys (known : List K) (items : List A) :
    ((fresh key known items).map key).Nodup := by
  induction items generalizing known with
  | nil => simp [fresh]
  | cons item rest ih =>
      by_cases seen : key item ∈ known
      · simp only [fresh, if_pos seen]
        exact ih known
      · simp only [fresh, if_neg seen, List.map_cons, List.nodup_cons]
        refine ⟨?_, ih _⟩
        intro again
        obtain ⟨later, member, same⟩ := List.mem_map.mp again
        exact key_notMem_of_fresh key member (same ▸ List.mem_cons_self ..)

/-- Afterwards every key of the list is known or belongs to a fresh item. -/
theorem key_known_or_fresh (known : List K) {items : List A} {item : A} (member : item ∈ items) :
    key item ∈ known ∨ key item ∈ (fresh key known items).map key := by
  induction items generalizing known with
  | nil => simp at member
  | cons head rest ih =>
      by_cases seen : key head ∈ known
      · simp only [fresh, if_pos seen]
        rcases List.mem_cons.mp member with rfl | member
        · exact Or.inl seen
        · exact ih known member
      · simp only [fresh, if_neg seen, List.map_cons, List.mem_cons]
        rcases List.mem_cons.mp member with rfl | member
        · exact Or.inr (Or.inl rfl)
        · rcases ih (key head :: known) member with known | later
          · rcases List.mem_cons.mp known with same | known
            · exact Or.inr (Or.inl same)
            · exact Or.inl known
          · exact Or.inr (Or.inr later)

theorem fresh_eq_nil {known : List K} {items : List A}
    (all : ∀ item ∈ items, key item ∈ known) : fresh key known items = [] := by
  rw [List.eq_nil_iff_forall_not_mem]
  intro item member
  exact key_notMem_of_fresh key member (all item ((fresh_sublist key known items).subset member))

theorem repeated_eq_self {known : List K} {items : List A}
    (all : ∀ item ∈ items, key item ∈ known) : repeated key known items = items := by
  induction items with
  | nil => rfl
  | cons item rest ih =>
      obtain ⟨first, later⟩ := List.forall_mem_cons.mp all
      simp only [repeated, if_pos first, ih later]

theorem mem_fresh_keys {known : List K} {items : List A} {k : K} :
    k ∈ (fresh key known items).map key ↔ k ∉ known ∧ k ∈ items.map key := by
  constructor
  · intro member
    obtain ⟨item, isFresh, rfl⟩ := List.mem_map.mp member
    exact ⟨key_notMem_of_fresh key isFresh,
      List.mem_map_of_mem ((fresh_sublist key known items).subset isFresh)⟩
  · rintro ⟨unknown, member⟩
    obtain ⟨item, isItem, rfl⟩ := List.mem_map.mp member
    exact (key_known_or_fresh key known isItem).resolve_left unknown

/-- The fresh item with an unknown key is the first one of the list. -/
theorem find?_fresh {known : List K} {items : List A} {k : K} (unknown : k ∉ known) :
    (fresh key known items).find? (fun item => key item == k) =
      items.find? fun item => key item == k := by
  induction items generalizing known with
  | nil => rfl
  | cons item rest ih =>
      by_cases seen : key item ∈ known
      · have other : (key item == k) = false := by
          apply beq_eq_false_iff_ne.mpr
          rintro rfl
          exact unknown seen
        rw [fresh, if_pos seen, ih unknown, List.find?_cons, other]
      · rw [fresh, if_neg seen, List.find?_cons, List.find?_cons]
        cases found : key item == k with
        | true => rfl
        | false =>
            apply ih
            intro member
            rcases List.mem_cons.mp member with rfl | before
            · exact beq_eq_false_iff_ne.mp found rfl
            · exact unknown before

/-- Appending the fresh items to a list with distinct keys keeps the keys distinct. -/
theorem nodup_append_fresh (held items : List A) (distinct : (held.map key).Nodup) :
    ((held ++ fresh key (held.map key) items).map key).Nodup := by
  rw [List.map_append, List.nodup_append]
  refine ⟨distinct, nodup_fresh_keys key _ items, ?_⟩
  rintro k isHeld _ isFresh rfl
  exact ((mem_fresh_keys key).mp isFresh).1 isHeld

/-- Every item is represented by a fresh one that looks alike exactly when items of one
key look alike, for a look that determines the key. -/
theorem fresh_represents_iff {V : Type w} (look : A → V)
    (determines : ∀ left right, look left = look right → key left = key right) (items : List A) :
    (∀ item ∈ items, ∃ kept ∈ fresh key [] items, look kept = look item) ↔
      ∀ left ∈ items, ∀ right ∈ items, key left = key right → look left = look right := by
  constructor
  · intro represented left isLeft right isRight same
    obtain ⟨first, firstKept, firstLooks⟩ := represented left isLeft
    obtain ⟨second, secondKept, secondLooks⟩ := represented right isRight
    have keys : key first = key second :=
      (determines _ _ firstLooks).trans (same.trans (determines _ _ secondLooks).symm)
    have one : first = second :=
      List.inj_on_of_nodup_map (nodup_fresh_keys key [] items) firstKept secondKept keys
    rw [← firstLooks, ← secondLooks, one]
  · intro alike item member
    have known : key item ∈ (fresh key [] items).map key :=
      (mem_fresh_keys key).mpr ⟨List.not_mem_nil, List.mem_map_of_mem member⟩
    obtain ⟨kept, isKept, same⟩ := List.mem_map.mp known
    exact ⟨kept, isKept, alike kept ((fresh_sublist key [] items).subset isKept) item member same⟩

/-! ## Items of several kinds -/

theorem fresh_append (known : List K) (first second : List A) :
    fresh key known (first ++ second) =
      fresh key known first ++ fresh key (first.map key ++ known) second := by
  induction first generalizing known with
  | nil => rfl
  | cons item rest ih =>
      by_cases seen : key item ∈ known
      · have same : fresh key (rest.map key ++ known) second =
            fresh key ((item :: rest).map key ++ known) second := by
          apply (fresh_congr key _).1
          intro other _
          rw [List.map_cons, List.cons_append, List.mem_cons]
          constructor
          · exact Or.inr
          · rintro (same | member)
            · rw [same]
              exact List.mem_append_right _ seen
            · exact member
        rw [List.cons_append, fresh, if_pos seen, fresh, if_pos seen, ih, same]
      · have same : fresh key (rest.map key ++ key item :: known) second =
            fresh key ((item :: rest).map key ++ known) second := by
          apply (fresh_congr key _).1
          intro other _
          rw [List.map_cons, List.cons_append]
          exact List.perm_middle.mem_iff
        rw [List.cons_append, fresh, if_neg seen, fresh, if_neg seen, ih, List.cons_append, same]

/-- What is fresh of two lists in turn, the first one being kept before the second is read. -/
theorem fresh_append_kept (known : List K) (first second : List A) :
    fresh key known (first ++ second) = fresh key known first ++
      fresh key (known ++ (fresh key known first).map key) second := by
  rw [fresh_append]
  refine congrArg _ (fresh_congr key fun item _ => ?_).1
  rw [List.mem_append, List.mem_append, mem_fresh_keys]
  constructor
  · rintro (isFirst | isKnown)
    · by_cases seen : key item ∈ known
      · exact Or.inl seen
      · exact Or.inr ⟨seen, isFirst⟩
    · exact Or.inl isKnown
  · rintro (isKnown | ⟨_, isFirst⟩)
    · exact Or.inr isKnown
    · exact Or.inl isFirst

/-- Of items that are read through a function, those are fresh whose key is so. -/
theorem fresh_map_comp {B : Type w} (read : B → A) (known : List K) (items : List B) :
    fresh key known (items.map read) = (fresh (key ∘ read) known items).map read := by
  induction items generalizing known with
  | nil => rfl
  | cons item rest ih =>
      by_cases seen : key (read item) ∈ known
      · rw [List.map_cons, fresh, if_pos seen, ih, fresh, Function.comp_apply, if_pos seen]
      · rw [List.map_cons, fresh, if_neg seen, ih, fresh, Function.comp_apply, if_neg seen,
          List.map_cons]

/-- Keys that are told apart alike keep the same items. -/
theorem fresh_of_injective {L : Type w} [DecidableEq L] {widen : K → L}
    (injective : Function.Injective widen) (known : List K) (items : List A) :
    fresh (widen ∘ key) (known.map widen) items = fresh key known items := by
  induction items generalizing known with
  | nil => rfl
  | cons item rest ih =>
      have seen : (widen ∘ key) item ∈ known.map widen ↔ key item ∈ known :=
        List.mem_map_of_injective injective
      by_cases isKnown : key item ∈ known
      · rw [fresh, if_pos (seen.mpr isKnown), fresh, if_pos isKnown, ih]
      · rw [fresh, if_neg fun member => isKnown (seen.mp member), fresh, if_neg isKnown]
        exact congrArg (item :: ·) (ih (key item :: known))

/-- Among groups that share no key with each other and with what is known, an item is fresh
exactly when it is fresh in its group. -/
theorem mem_fresh_flatten {known : List K} {groups : List (List A)}
    (apart : groups.Pairwise fun first second => ∀ left ∈ first, ∀ right ∈ second, key left ≠ key right)
    (unknown : ∀ group ∈ groups, ∀ item ∈ group, key item ∉ known) {item : A} :
    item ∈ fresh key known groups.flatten ↔ ∃ group ∈ groups, item ∈ fresh key [] group := by
  induction groups generalizing known with
  | nil => simp [fresh]
  | cons group rest ih =>
      obtain ⟨first, others⟩ := List.pairwise_cons.mp apart
      obtain ⟨groupUnknown, restUnknown⟩ := List.forall_mem_cons.mp unknown
      have alone : fresh key known group = fresh key [] group := by
        apply (fresh_congr key _).1
        intro other member
        exact iff_of_false (groupUnknown other member) (List.not_mem_nil)
      have later : ∀ others ∈ rest, ∀ other ∈ others, key other ∉ group.map key ++ known := by
        intro others member other inOthers seen
        rcases List.mem_append.mp seen with inGroup | isKnown
        · obtain ⟨own, inOwn, same⟩ := List.mem_map.mp inGroup
          exact first others member own inOwn other inOthers same
        · exact restUnknown others member other inOthers isKnown
      rw [List.flatten_cons, fresh_append, List.mem_append, alone, ih others later,
        List.exists_mem_cons_iff]

/-! ## A limit on the items -/

section Limit
variable {items : List A} {limit : Nat}

theorem isPrefix_fresh_take (limit : Nat) (items : List A) :
    fresh key [] (items.take limit) <+: fresh key [] items := by
  have split := fresh_append key [] (items.take limit) (items.drop limit)
  rw [List.take_append_drop] at split
  exact ⟨_, split.symm⟩

theorem fresh_eq_self {known : List K} (distinct : (items.map key).Nodup)
    (unknown : ∀ item ∈ items, key item ∉ known) : fresh key known items = items := by
  induction items generalizing known with
  | nil => rfl
  | cons item rest ih =>
      obtain ⟨itemUnknown, restUnknown⟩ := List.forall_mem_cons.mp unknown
      rw [List.map_cons, List.nodup_cons] at distinct
      rw [fresh, if_neg itemUnknown, ih distinct.2]
      intro other member seen
      rcases List.mem_cons.mp seen with same | isKnown
      · exact distinct.1 (same ▸ List.mem_map_of_mem member)
      · exact restUnknown other member isKnown

theorem length_fresh_take_le :
    (fresh key [] (items.take limit)).length ≤ ((fresh key [] items).take limit).length := by
  have short := (isPrefix_fresh_take key limit items).length_le
  have few := (fresh_sublist key [] (items.take limit)).length_le
  rw [List.length_take] at few ⊢
  omega

/-- The items within a limit have as many keys as the limit lets through exactly when no two
of them share their key or they have every key. -/
theorem length_fresh_take_iff :
    (fresh key [] (items.take limit)).length = ((fresh key [] items).take limit).length ↔
      ((items.take limit).map key).Nodup ∨
        ∀ item ∈ items, ∃ kept ∈ items.take limit, key kept = key item := by
  constructor
  · intro full
    by_cases many : limit ≤ (fresh key [] items).length
    · -- As many keys as items: no item is left out.
      rw [List.length_take, Nat.min_eq_left many] at full
      have all : fresh key [] (items.take limit) = items.take limit := by
        apply (fresh_sublist key [] (items.take limit)).eq_of_length_le
        rw [full]
        exact List.length_take_le limit items
      exact .inl (all ▸ nodup_fresh_keys key [] (items.take limit))
    · have whole : (fresh key [] items).take limit = fresh key [] items :=
        List.take_of_length_le (by omega)
      rw [whole] at full
      have all := (isPrefix_fresh_take key limit items).eq_of_length full
      refine .inr fun item member => ?_
      have keyed := (key_known_or_fresh key [] member).resolve_left List.not_mem_nil
      rw [← all] at keyed
      obtain ⟨kept, isKept, same⟩ := List.mem_map.mp keyed
      exact ⟨kept, (fresh_sublist key [] _).subset isKept, same⟩
  · intro fits
    apply Nat.le_antisymm (length_fresh_take_le key)
    rcases fits with distinct | all
    · rw [fresh_eq_self key distinct (fun _ _ => List.not_mem_nil)]
      have few := (fresh_sublist key [] items).length_le
      rw [List.length_take, List.length_take]
      omega
    · have none : fresh key ((items.take limit).map key) (items.drop limit) = [] := by
        apply fresh_eq_nil
        intro item member
        obtain ⟨kept, isKept, same⟩ := all item (List.mem_of_mem_drop member)
        exact same ▸ List.mem_map_of_mem isKept
      have split := fresh_append key [] (items.take limit) (items.drop limit)
      rw [List.take_append_drop, List.append_nil, none, List.append_nil] at split
      rw [split]
      exact List.length_take_le' ..

variable {L : Type w} [DecidableEq L] {fine : A → L}

/-- An item that is fresh by its key is fresh by what determines the key. -/
theorem fresh_sublist_of_determines {known : List K} {knownFine : List L}
    (determines : ∀ left ∈ items, ∀ right ∈ items, fine left = fine right → key left = key right)
    (seen : ∀ item ∈ items, fine item ∈ knownFine → key item ∈ known) :
    (fresh key known items).Sublist (fresh fine knownFine items) := by
  induction items generalizing known knownFine with
  | nil => exact List.Sublist.refl []
  | cons item rest ih =>
      obtain ⟨itemSeen, restSeen⟩ := List.forall_mem_cons.mp seen
      have restDetermines : ∀ left ∈ rest, ∀ right ∈ rest, fine left = fine right →
          key left = key right := fun left isLeft right isRight =>
        determines left (List.mem_cons_of_mem _ isLeft) right (List.mem_cons_of_mem _ isRight)
      have ofItem : ∀ other ∈ rest, fine other = fine item → key other = key item :=
        fun other member => determines other (List.mem_cons_of_mem _ member) item List.mem_cons_self
      by_cases isKnown : key item ∈ known
      · rw [fresh, if_pos isKnown]
        by_cases isKnownFine : fine item ∈ knownFine
        · rw [fresh, if_pos isKnownFine]
          exact ih restDetermines restSeen
        · rw [fresh, if_neg isKnownFine]
          refine (ih restDetermines fun other member isSeen => ?_).cons item
          rcases List.mem_cons.mp isSeen with same | before
          · exact ofItem other member same ▸ isKnown
          · exact restSeen other member before
      · rw [fresh, if_neg isKnown, fresh, if_neg fun isKnownFine => isKnown (itemSeen isKnownFine)]
        refine (ih restDetermines fun other member isSeen => ?_).cons_cons item
        rcases List.mem_cons.mp isSeen with same | before
        · exact List.mem_cons.mpr (.inl (ofItem other member same))
        · exact List.mem_cons_of_mem _ (restSeen other member before)

variable (determines : ∀ left ∈ items, ∀ right ∈ items, fine left = fine right →
  key left = key right)
include determines

/-- Both keep the same items exactly when the key determines what determines it. -/
theorem fresh_eq_fresh_iff : fresh key [] items = fresh fine [] items ↔
    ∀ left ∈ items, ∀ right ∈ items, key left = key right → fine left = fine right := by
  constructor
  · intro same left isLeft right isRight keys
    obtain ⟨first, isFirst, firstFine⟩ := List.mem_map.mp
      ((key_known_or_fresh fine [] isLeft).resolve_left List.not_mem_nil)
    obtain ⟨second, isSecond, secondFine⟩ := List.mem_map.mp
      ((key_known_or_fresh fine [] isRight).resolve_left List.not_mem_nil)
    have inItems := (fresh_sublist fine [] items).subset
    have firstKey := determines first (inItems isFirst) left isLeft firstFine
    have secondKey := determines second (inItems isSecond) right isRight secondFine
    rw [← same] at isFirst isSecond
    have one := List.inj_on_of_nodup_map (nodup_fresh_keys key [] items) isFirst isSecond
      (firstKey.trans (keys.trans secondKey.symm))
    rw [← firstFine, ← secondFine, one]
  · intro apart
    have absent : ∀ item ∈ items, fine item ∈ ([] : List L) → key item ∈ ([] : List K) :=
      fun _ _ seen => absurd seen List.not_mem_nil
    have absentKey : ∀ item ∈ items, key item ∈ ([] : List K) → fine item ∈ ([] : List L) :=
      fun _ _ seen => absurd seen List.not_mem_nil
    exact (fresh_sublist_of_determines key determines absent).antisymm
      (fresh_sublist_of_determines fine apart absentKey)

/-- The items within a limit, kept by their key, are as many as are kept of all items within
the limit exactly when the key tells them apart and the limit leaves room. -/
theorem length_fresh_take_eq_iff :
    (fresh key [] (items.take limit)).length = ((fresh fine [] items).take limit).length ↔
      (∀ left ∈ items.take limit, ∀ right ∈ items.take limit, key left = key right →
          fine left = fine right) ∧
        (((items.take limit).map fine).Nodup ∨
          ∀ item ∈ items, ∃ kept ∈ items.take limit, fine kept = fine item) := by
  have within : ∀ left ∈ items.take limit, ∀ right ∈ items.take limit, fine left = fine right →
      key left = key right := fun left isLeft right isRight =>
    determines left (List.mem_of_mem_take isLeft) right (List.mem_of_mem_take isRight)
  rw [← fresh_eq_fresh_iff key within, ← length_fresh_take_iff fine]
  constructor
  · intro same
    have kept : (fresh key [] (items.take limit)).Sublist (fresh fine [] (items.take limit)) :=
      fresh_sublist_of_determines key within fun _ _ seen => absurd seen List.not_mem_nil
    have full : (fresh fine [] (items.take limit)).length ≤ ((fresh fine [] items).take limit).length :=
      length_fresh_take_le fine
    have enough := kept.length_le
    rw [same] at enough
    exact ⟨kept.eq_of_length_le (same ▸ full), Nat.le_antisymm full enough⟩
  · rintro ⟨same, full⟩
    rw [same, full]

/-- Then they are the same items. -/
theorem fresh_take_eq_of_length
    (lengths : (fresh key [] (items.take limit)).length = ((fresh fine [] items).take limit).length) :
    fresh key [] (items.take limit) = (fresh fine [] items).take limit := by
  have within : ∀ left ∈ items.take limit, ∀ right ∈ items.take limit, fine left = fine right →
      key left = key right := fun left isLeft right isRight =>
    determines left (List.mem_of_mem_take isLeft) right (List.mem_of_mem_take isRight)
  obtain ⟨apart, room⟩ := (length_fresh_take_eq_iff key determines).mp lengths
  rw [(fresh_eq_fresh_iff key within).mpr apart,
    List.prefix_iff_eq_take.mp (isPrefix_fresh_take fine limit items),
    (length_fresh_take_iff fine).mpr room, List.length_take, ← List.take_take, List.take_length]

end Limit

end FirstSeen
