import Mathlib.Data.List.Nodup
import Mathlib.Data.List.Perm.Basic
import Mathlib.Data.List.Count

/-!
# Items filed under keys

Groups of items come one after another.  A group has a key of its own, and every item of it
carries the key under which it is filed, or none.  When an item is never filed under the key of
a group whose first item is not, what is found under the keys tells whether every item is filed
under the key of its group.
-/

set_option autoImplicit false

namespace FiledItems

universe u v

structure Group (K : Type u) (V : Type v) where
  own : K
  items : List (Option K × V)

variable {K : Type u} {V : Type v}

/-- The items under the keys of their groups. -/
def belonging (groups : List (Group K V)) : List (K × V) :=
  groups.flatMap fun group => group.items.map fun item => (group.own, item.2)

/-- The items under the keys that they carry. -/
def filed (groups : List (Group K V)) : List (K × V) :=
  groups.flatMap fun group => group.items.filterMap fun item => item.1.map fun key => (key, item.2)

def under [DecidableEq K] (key : K) (pairs : List (K × V)) : List V :=
  (pairs.filter fun pair => pair.1 = key).map Prod.snd

theorem belonging_cons (group : Group K V) (rest : List (Group K V)) :
    belonging (group :: rest) = group.items.map (fun item => (group.own, item.2)) ++ belonging rest :=
  List.flatMap_cons

theorem filed_cons (group : Group K V) (rest : List (Group K V)) :
    filed (group :: rest) =
      group.items.filterMap (fun item => item.1.map fun key => (key, item.2)) ++ filed rest :=
  List.flatMap_cons

theorem filed_own {group : Group K V} (right : ∀ item ∈ group.items, item.1 = some group.own) :
    group.items.filterMap (fun item => item.1.map fun key => (key, item.2)) =
      group.items.map fun item => (group.own, item.2) := by
  obtain ⟨own, items⟩ := group
  induction items with
  | nil => rfl
  | cons item rest ih =>
      obtain ⟨here, others⟩ := List.forall_mem_cons.mp right
      rw [List.filterMap_cons, here, List.map_cons, ih others]
      rfl

section Map
universe w
variable {W : Type w}

/-- The group with its items seen in another way. -/
def Group.map (view : V → W) (group : Group K V) : Group K W :=
  ⟨group.own, group.items.map fun item => (item.1, view item.2)⟩

theorem filed_map (view : V → W) (groups : List (Group K V)) :
    filed (groups.map (Group.map view)) = (filed groups).map fun pair => (pair.1, view pair.2) := by
  unfold filed Group.map
  rw [List.flatMap_map, List.map_flatMap]
  refine List.flatMap_congr fun group _ => ?_
  rw [List.filterMap_map, List.map_filterMap]
  congr 1
  funext item
  obtain ⟨key, value⟩ := item
  cases key <;> rfl

theorem belonging_map (view : V → W) (groups : List (Group K V)) :
    belonging (groups.map (Group.map view)) =
      (belonging groups).map fun pair => (pair.1, view pair.2) := by
  unfold belonging Group.map
  rw [List.flatMap_map, List.map_flatMap]
  refine List.flatMap_congr fun group _ => ?_
  rw [List.map_map, List.map_map]
  rfl

theorem under_map [DecidableEq K] (view : V → W) (key : K) (pairs : List (K × V)) :
    under key (pairs.map fun pair => (pair.1, view pair.2)) = (under key pairs).map view := by
  unfold under
  rw [List.filter_map, List.map_map, List.map_map]
  rfl

end Map

section Under
variable [DecidableEq K]

theorem under_append (key : K) (front back : List (K × V)) :
    under key (front ++ back) = under key front ++ under key back := by
  unfold under
  rw [List.filter_append, List.map_append]

theorem mem_under {key : K} {value : V} {pairs : List (K × V)} :
    value ∈ under key pairs ↔ (key, value) ∈ pairs := by
  unfold under
  simp

theorem under_own (group : Group K V) :
    under group.own (group.items.map fun item => (group.own, item.2)) = group.items.map Prod.snd := by
  unfold under
  rw [List.filter_eq_self.mpr, List.map_map]
  · rfl
  · intro pair member
    obtain ⟨item, _, rfl⟩ := List.mem_map.mp member
    exact decide_eq_true rfl

theorem under_other {group : Group K V} {key : K} (other : group.own ≠ key) :
    under key (group.items.map fun item => (group.own, item.2)) = [] := by
  rw [List.eq_nil_iff_forall_not_mem]
  intro value member
  obtain ⟨item, _, same⟩ := List.mem_map.mp (mem_under.mp member)
  exact other (congrArg Prod.fst same)

theorem under_belonging_eq_nil {groups : List (Group K V)} {key : K}
    (absent : ∀ group ∈ groups, group.own ≠ key) : under key (belonging groups) = [] := by
  induction groups with
  | nil => rfl
  | cons group rest ih =>
      obtain ⟨other, others⟩ := List.forall_mem_cons.mp absent
      rw [belonging_cons, under_append, under_other other, ih others]
      rfl

theorem under_belonging {groups : List (Group K V)} (distinct : (groups.map Group.own).Nodup)
    {group : Group K V} (member : group ∈ groups) :
    under group.own (belonging groups) = group.items.map Prod.snd := by
  induction groups with
  | nil => cases member
  | cons first rest ih =>
      rw [List.map_cons, List.nodup_cons] at distinct
      rw [belonging_cons, under_append]
      rcases List.mem_cons.mp member with rfl | later
      · rw [under_own, under_belonging_eq_nil, List.append_nil]
        exact fun other isOther same => distinct.1 (same ▸ List.mem_map_of_mem isOther)
      · rw [under_other, ih distinct.2 later]
        · rfl
        · exact fun same => distinct.1 (same ▸ List.mem_map_of_mem later)

/-- When as much is found under every key, every item carries a key. -/
theorem isSome_of_under_eq {groups : List (Group K V)}
    (same : ∀ key, under key (filed groups) = under key (belonging groups)) :
    ∀ group ∈ groups, ∀ item ∈ group.items, item.1.isSome = true := by
  have counts : ∀ (pairs : List (K × V)) (key : K),
      (pairs.map Prod.fst).count key = (under key pairs).length := by
    intro pairs key
    unfold under
    rw [List.length_map, ← List.countP_eq_length_filter, List.count, List.countP_map]
    exact List.countP_congr fun pair _ => by simp
  have perm : ((filed groups).map Prod.fst).Perm ((belonging groups).map Prod.fst) := by
    rw [List.perm_iff_count]
    intro key
    rw [counts, counts, same]
  have lengths := perm.length_eq
  have filedAll : filed groups =
      (groups.flatMap Group.items).filterMap fun item => item.1.map fun key => (key, item.2) :=
    List.filterMap_flatMap.symm
  have belongingAll : (belonging groups).length = (groups.flatMap Group.items).length := by
    unfold belonging
    simp [List.length_flatMap]
  rw [List.length_map, List.length_map, filedAll, belongingAll, List.length_filterMap_eq_countP]
    at lengths
  intro group member item isItem
  have carries := List.countP_eq_length.mp lengths item
    (List.mem_flatMap.mpr ⟨group, member, isItem⟩)
  rwa [Option.isSome_map] at carries

/-- Under every key is what belongs there exactly if every item carries the key of its group.
An item that is filed under a later group would stand before the first item of that group. -/
theorem under_eq_iff {groups : List (Group K V)} (distinct : (groups.map Group.own).Nodup)
    (apart : ∀ group ∈ groups, (group.items.map Prod.snd).Nodup)
    (heads : ∀ group ∈ groups, ∀ item ∈ group.items, ∀ other ∈ groups, item.1 = some other.own →
      ∀ first ∈ other.items.head?, first.1 = some other.own) :
    (∀ key, under key (filed groups) = under key (belonging groups)) ↔
      ∀ group ∈ groups, ∀ item ∈ group.items, item.1 = some group.own := by
  constructor
  · intro same
    have carries := isSome_of_under_eq same
    induction groups with
    | nil => exact fun group member => nomatch member
    | cons group rest ih =>
        rw [List.map_cons, List.nodup_cons] at distinct
        have right : ∀ item ∈ group.items, item.1 = some group.own := by
          intro item isItem
          obtain ⟨key, carried⟩ :=
            Option.isSome_iff_exists.mp (carries group List.mem_cons_self item isItem)
          by_contra wrong
          have differs : group.own ≠ key := fun own => wrong (own ▸ carried)
          have found := same key
          rw [filed_cons, belonging_cons, under_append, under_append, under_other differs,
            List.nil_append] at found
          have early : item.2 ∈ under key
              (group.items.filterMap fun item => item.1.map fun key => (key, item.2)) :=
            mem_under.mpr (List.mem_filterMap.mpr ⟨item, isItem, by rw [carried]; rfl⟩)
          by_cases known : ∃ other ∈ rest, other.own = key
          · obtain ⟨other, isOther, rfl⟩ := known
            rw [under_belonging distinct.2 isOther] at found
            have once := apart other (List.mem_cons_of_mem _ isOther)
            cases items : other.items with
            | nil =>
                rw [items, List.map_nil, List.append_eq_nil_iff] at found
                rw [found.1] at early
                cases early
            | cons first later =>
                have firstOwn := heads group List.mem_cons_self item isItem other
                  (List.mem_cons_of_mem _ isOther) carried first (by rw [items]; rfl)
                have late : first.2 ∈ under other.own (filed rest) := by
                  refine mem_under.mpr (List.mem_flatMap.mpr ⟨other, isOther, ?_⟩)
                  refine List.mem_filterMap.mpr ⟨first, items ▸ List.mem_cons_self, ?_⟩
                  rw [firstOwn]
                  rfl
                -- the first item of the other group is found twice
                rw [items, List.map_cons] at found once
                cases before : under other.own
                    (group.items.filterMap fun item => item.1.map fun key => (key, item.2)) with
                | nil =>
                    rw [before] at early
                    cases early
                | cons value values =>
                    rw [before, List.cons_append, List.cons.injEq] at found
                    rw [List.nodup_cons, ← found.2] at once
                    exact once.1 (List.mem_append_right _ late)
          · rw [under_belonging_eq_nil fun other isOther own => known ⟨other, isOther, own⟩,
              List.append_eq_nil_iff] at found
            rw [found.1] at early
            cases early
        have rest_same : ∀ key, under key (filed rest) = under key (belonging rest) := by
          intro key
          have whole := same key
          rw [filed_cons, belonging_cons, filed_own right, under_append, under_append] at whole
          exact List.append_cancel_left whole
        have later := ih distinct.2 (fun other member => apart other (List.mem_cons_of_mem _ member))
          (fun other member item isItem another isAnother => heads other
            (List.mem_cons_of_mem _ member) item isItem another (List.mem_cons_of_mem _ isAnother))
          rest_same (fun other member => carries other (List.mem_cons_of_mem _ member))
        exact List.forall_mem_cons.mpr ⟨right, later⟩
  · intro right key
    have whole : filed groups = belonging groups := by
      unfold filed belonging
      exact List.flatMap_congr fun group member => filed_own (right group member)
    rw [whole]

end Under

end FiledItems
