import Mathlib.Data.List.Perm.Basic
import Mathlib.Data.List.Nodup

/-!
# Ordered maps as a store uses them

An ordered map is read by key and changed in three ways: a key is written, a
key is written only when it is absent, or the value under a key is edited
after being created when it is absent.  The lemmas say what a lookup sees after
each change, and what the list of entries becomes up to order.
-/

set_option autoImplicit false

namespace OrderedMap

universe u v w

abbrev Map (K : Type u) (V : Type v) [Ord K] := Std.ExtTreeMap K V compare

abbrev KeySet (K : Type u) [Ord K] := Std.ExtTreeSet K compare

/-- The values, in the order of their keys. -/
def values {K : Type u} {V : Type v} [Ord K] [Std.TransOrd K] (map : Map K V) : List V :=
  map.toList.map Prod.snd

section Lookup
variable {K : Type u} {V : Type v} [Ord K] [Std.TransOrd K] [Std.LawfulEqOrd K]

/-- Create the value under `key` when it is absent, then edit it. -/
def upsert (map : Map K V) (key : K) (fresh : V) (edit : V → V) : Map K V :=
  map.insert key (edit (map[key]?.getD fresh))

/-- Write every pair, in order; the last value of a key stays. -/
def insertAll (map : Map K V) (pairs : List (K × V)) : Map K V :=
  pairs.foldl (fun written pair => written.insert pair.1 pair.2) map

/-- Write every pair whose key is still absent, in order. -/
def bindAll (map : Map K V) (pairs : List (K × V)) : Map K V :=
  pairs.foldl (fun bound pair => bound.insertIfNew pair.1 pair.2) map

variable [DecidableEq K]

theorem getElem?_insert_eq (map : Map K V) (key other : K) (value : V) :
    (map.insert key value)[other]? = if key = other then some value else map[other]? := by
  rw [Std.ExtTreeMap.getElem?_insert]
  simp only [Std.compare_eq_iff_eq]

theorem getElem?_upsert (map : Map K V) (key other : K) (fresh : V) (edit : V → V) :
    (upsert map key fresh edit)[other]? =
      if key = other then some (edit (map[key]?.getD fresh)) else map[other]? :=
  getElem?_insert_eq map key other _

/-- What rows add under their keys, taken together by key. -/
theorem getD_foldl_upsert {Row V : Type*} (key : Row → K) (added : Row → List V)
    (map : Map K (List V)) (rows : List Row) (k : K) :
    (rows.foldl (fun map row => upsert map (key row) [] (· ++ added row)) map)[k]?.getD [] =
      map[k]?.getD [] ++ (rows.filter fun row => key row = k).flatMap added := by
  induction rows generalizing map with
  | nil => simp
  | cons row rest ih =>
      rw [List.foldl_cons, ih, getElem?_upsert]
      by_cases same : key row = k
      · rw [if_pos same, List.filter_cons_of_pos (by simpa using same), List.flatMap_cons, same,
          Option.getD_some, List.append_assoc]
      · rw [if_neg same, List.filter_cons_of_neg (by simpa using same)]

theorem getElem?_modify_eq (map : Map K V) (key other : K) (edit : V → V) :
    (map.modify key edit)[other]? =
      if key = other then map[other]?.map edit else map[other]? := by
  rw [Std.ExtTreeMap.getElem?_modify]
  simp only [Std.compare_eq_iff_eq]
  by_cases same : key = other
  · subst same; simp
  · simp [same]

theorem getElem?_insertIfNew_eq (map : Map K V) (key other : K) (value : V) :
    (map.insertIfNew key value)[other]? =
      map[other]?.or (if key = other then some value else none) := by
  rw [Std.ExtTreeMap.getElem?_insertIfNew]
  simp only [Std.compare_eq_iff_eq]
  by_cases same : key = other
  · subst same
    by_cases held : key ∈ map
    · simp [held]
    · simp [held]
  · simp [same]

omit [Std.LawfulEqOrd K] [DecidableEq K] in
theorem bindAll_nil (map : Map K V) : bindAll map [] = map := rfl

omit [Std.LawfulEqOrd K] [DecidableEq K] in
theorem bindAll_cons (map : Map K V) (pair : K × V) (pairs : List (K × V)) :
    bindAll map (pair :: pairs) = bindAll (map.insertIfNew pair.1 pair.2) pairs := rfl

omit [Std.LawfulEqOrd K] [DecidableEq K] in
theorem bindAll_append (map : Map K V) (left right : List (K × V)) :
    bindAll map (left ++ right) = bindAll (bindAll map left) right :=
  List.foldl_append

/-- A key keeps the value it has; else it gets the first value offered. -/
theorem getElem?_bindAll (map : Map K V) (pairs : List (K × V)) (key : K) :
    (bindAll map pairs)[key]? = map[key]?.or (pairs.lookup key) := by
  induction pairs generalizing map with
  | nil => simp [bindAll_nil]
  | cons pair pairs ih =>
      obtain ⟨bound, value⟩ := pair
      rw [bindAll_cons, ih, getElem?_insertIfNew_eq, Option.or_assoc]
      congr 1
      by_cases same : bound = key
      · subst same
        simp
      · have differs : (key == bound) = false := by
          simpa using fun eq : key = bound => same eq.symm
        simp [same, List.lookup_cons, differs]

theorem bindAll_keeps (map : Map K V) (pairs : List (K × V)) (key : K) (value : V)
    (held : map[key]? = some value) : (bindAll map pairs)[key]? = some value := by
  rw [getElem?_bindAll, held, Option.some_or]

theorem bindAll_bindAll_self (map : Map K V) (pairs : List (K × V)) :
    bindAll (bindAll map pairs) pairs = bindAll map pairs := by
  apply Std.ExtTreeMap.ext_getElem?
  intro key
  rw [getElem?_bindAll, getElem?_bindAll, Option.or_assoc, Option.or_self]

omit [DecidableEq K] in
/-- Offering only keys that are already held changes nothing. -/
theorem bindAll_eq_self (map : Map K V) (pairs : List (K × V))
    (held : ∀ pair ∈ pairs, pair.1 ∈ map) : bindAll map pairs = map := by
  induction pairs with
  | nil => rfl
  | cons pair pairs ih =>
      have present := held pair (List.mem_cons_self ..)
      have unchanged : map.insertIfNew pair.1 pair.2 = map := by
        apply Std.ExtTreeMap.ext_getElem?
        intro key
        rw [Std.ExtTreeMap.getElem?_insertIfNew]
        simp [present]
      rw [bindAll_cons, unchanged]
      exact ih fun later member => held later (List.mem_cons_of_mem _ member)

/-- Every binding of the smaller map is one of the larger map. -/
def Included (small large : Map K V) : Prop :=
  ∀ (key : K) (value : V), small[key]? = some value → large[key]? = some value

omit [Std.LawfulEqOrd K] [DecidableEq K] in
theorem included_refl (map : Map K V) : Included map map := fun _ _ held => held

omit [Std.LawfulEqOrd K] [DecidableEq K] in
theorem Included.trans {first second third : Map K V} (left : Included first second)
    (right : Included second third) : Included first third :=
  fun key value held => right key value (left key value held)

theorem included_bindAll (map : Map K V) (pairs : List (K × V)) : Included map (bindAll map pairs) :=
  fun key value held => bindAll_keeps map pairs key value held

omit [Std.LawfulEqOrd K] [DecidableEq K] in
theorem insertAll_append (map : Map K V) (left right : List (K × V)) :
    insertAll map (left ++ right) = insertAll (insertAll map left) right :=
  List.foldl_append

theorem getElem?_insertAll (map : Map K V) (pairs : List (K × V)) (key : K) :
    (insertAll map pairs)[key]? = (pairs.reverse.lookup key).or map[key]? := by
  induction pairs generalizing map with
  | nil => simp [insertAll]
  | cons pair pairs ih =>
      obtain ⟨bound, value⟩ := pair
      have step : insertAll map ((bound, value) :: pairs) = insertAll (map.insert bound value) pairs :=
        rfl
      rw [step, ih, getElem?_insert_eq, List.reverse_cons, List.lookup_append, Option.or_assoc]
      congr 1
      by_cases same : bound = key
      · subst same
        simp
      · have differs : (key == bound) = false := by
          simpa using fun eq : key = bound => same eq.symm
        simp [same, List.lookup_cons, differs]

end Lookup

section Entries
variable {K : Type u} {V : Type v} [Ord K] [Std.TransOrd K] [Std.LawfulEqOrd K]

theorem mem_toList_iff (map : Map K V) (key : K) (value : V) :
    (key, value) ∈ map.toList ↔ map[key]? = some value :=
  Std.ExtTreeMap.mem_toList_iff_getElem?_eq_some

theorem mem_values_iff (map : Map K V) (value : V) :
    value ∈ values map ↔ ∃ key : K, map[key]? = some value := by
  unfold values
  rw [List.mem_map]
  constructor
  · rintro ⟨entry, member, rfl⟩
    exact ⟨entry.1, (mem_toList_iff map entry.1 entry.2).mp member⟩
  · rintro ⟨key, held⟩
    exact ⟨(key, value), (mem_toList_iff map key value).mpr held, rfl⟩

theorem nodup_keys_toList (map : Map K V) : (map.toList.map Prod.fst).Nodup := by
  rw [List.Nodup, List.pairwise_map]
  exact Std.ExtTreeMap.distinct_keys_toList.imp fun distinct same =>
    distinct (Std.compare_eq_iff_eq.mpr same)

theorem nodup_toList_set (set : KeySet K) : set.toList.Nodup :=
  Std.ExtTreeSet.distinct_toList.imp fun distinct same =>
    distinct (Std.compare_eq_iff_eq.mpr same)

theorem nodup_toList (map : Map K V) : map.toList.Nodup :=
  (nodup_keys_toList map).of_map

variable [DecidableEq K]

/-- Writing a key puts its entry in front of the entries of the other keys. -/
theorem toList_insert_perm (map : Map K V) (key : K) (value : V) :
    (map.insert key value).toList.Perm
      ((key, value) :: map.toList.filter fun entry => key ≠ entry.1) := by
  apply (List.perm_ext_iff_of_nodup (nodup_toList _) ?_).mpr
  · rintro ⟨other, held⟩
    rw [mem_toList_iff, getElem?_insert_eq]
    by_cases same : key = other
    · subst same
      simp [eq_comm]
    · have back : ¬ other = key := fun eq => same eq.symm
      simp [same, back]
  · refine List.nodup_cons.mpr ⟨?_, (nodup_toList map).filter _⟩
    simp

/-- The entries split into the one under a held key and the others. -/
theorem toList_perm_of_held (map : Map K V) (key : K) (value : V)
    (held : map[key]? = some value) :
    map.toList.Perm ((key, value) :: map.toList.filter fun entry => key ≠ entry.1) := by
  have unchanged : map.insert key value = map := by
    apply Std.ExtTreeMap.ext_getElem?
    intro other
    rw [getElem?_insert_eq]
    by_cases same : key = other
    · subst same; simp [held]
    · simp [same]
  have split := toList_insert_perm map key value
  rwa [unchanged] at split

theorem filter_toList_of_absent (map : Map K V) (key : K) (absent : map[key]? = none) :
    (map.toList.filter fun entry => key ≠ entry.1) = map.toList := by
  apply List.filter_eq_self.mpr
  rintro ⟨other, value⟩ member
  have held := (mem_toList_iff map other value).mp member
  have differs : key ≠ other := by
    rintro rfl
    simp [absent] at held
  simpa using differs

/-- Editing the value under a key, seen through any list that is read off each
entry: what the edited value adds is added, the rest is kept up to order. -/
theorem flatMap_upsert_perm {B : Type w} (map : Map K V) (key : K) (fresh : V) (edit : V → V)
    (read : K × V → List B) (added : List B)
    (start : read (key, fresh) = [])
    (grows : ∀ value, (read (key, edit value)).Perm (added ++ read (key, value))) :
    ((upsert map key fresh edit).toList.flatMap read).Perm
      (added ++ map.toList.flatMap read) := by
  have split := (toList_insert_perm map key (edit (map[key]?.getD fresh))).flatMap_right read
  refine split.trans ?_
  rw [List.flatMap_cons]
  cases found : map[key]? with
  | none =>
      rw [Option.getD_none, filter_toList_of_absent map key found]
      have grown := grows fresh
      rw [start, List.append_nil] at grown
      exact grown.append_right _
  | some old =>
      rw [Option.getD_some]
      have rest := (toList_perm_of_held map key old found).flatMap_right read
      rw [List.flatMap_cons] at rest
      refine ((grows old).append_right _).trans ?_
      rw [List.append_assoc]
      exact rest.symm.append_left added

end Entries

/-- The first pair of a key is the only one when keys are distinct. -/
theorem lookup_of_mem {K : Type u} {V : Type v} [DecidableEq K] {pairs : List (K × V)}
    (distinct : (pairs.map Prod.fst).Nodup) {key : K} {value : V} (member : (key, value) ∈ pairs) :
    pairs.lookup key = some value := by
  induction pairs with
  | nil => cases member
  | cons pair pairs ih =>
      obtain ⟨bound, held⟩ := pair
      rw [List.map_cons, List.nodup_cons] at distinct
      rcases List.mem_cons.mp member with same | later
      · cases same
        simp
      · have differs : (key == bound) = false := by
          refine beq_eq_false_iff_ne.mpr ?_
          rintro rfl
          exact distinct.1 (List.mem_map.mpr ⟨(key, value), later, rfl⟩)
        rw [List.lookup_cons, differs]
        exact ih distinct.2 later

theorem mem_of_lookup {K : Type u} {V : Type v} [DecidableEq K] {pairs : List (K × V)}
    {key : K} {value : V} (found : pairs.lookup key = some value) : (key, value) ∈ pairs := by
  induction pairs with
  | nil => simp at found
  | cons pair pairs ih =>
      obtain ⟨bound, held⟩ := pair
      rw [List.lookup_cons] at found
      cases same : key == bound with
      | true =>
          rw [same] at found
          cases found
          rw [eq_of_beq same]
          exact List.mem_cons_self ..
      | false =>
          rw [same] at found
          exact List.mem_cons_of_mem _ (ih found)

section Keyed
variable {K : Type u} {V : Type v} [Ord K] [Std.TransOrd K] [Std.LawfulEqOrd K]
  (idOf : V → K)

/-- Every record is held under its own identifier. -/
def Keyed (map : Map K V) : Prop := ∀ key value, map[key]? = some value → idOf value = key

omit [Std.LawfulEqOrd K] in
theorem keyed_empty : Keyed idOf (∅ : Map K V) := by
  intro key value held
  simp at held

/-- The identifiers of the records of a keyed map are distinct. -/
theorem nodup_ids_of_keyed {map : Map K V} (keyed : Keyed idOf map) :
    ((values map).map idOf).Nodup := by
  have ids : (values map).map idOf = map.toList.map Prod.fst := by
    rw [values, List.map_map]
    apply List.map_congr_left
    intro entry member
    exact keyed entry.1 entry.2 ((mem_toList_iff map entry.1 entry.2).mp member)
  rw [ids]
  exact nodup_keys_toList map

variable [DecidableEq K]
variable {idOf}

theorem Keyed.insert {map : Map K V} (keyed : Keyed idOf map) {key : K} {value : V}
    (own : idOf value = key) : Keyed idOf (map.insert key value) := by
  intro other held found
  rw [getElem?_insert_eq] at found
  split at found
  · rename_i same
    cases found
    exact own.trans same
  · exact keyed other held found

theorem Keyed.upsert {map : Map K V} (keyed : Keyed idOf map) {key : K} {fresh : V}
    {edit : V → V} (own : idOf fresh = key) (kept : ∀ value, idOf (edit value) = idOf value) :
    Keyed idOf (OrderedMap.upsert map key fresh edit) := by
  apply keyed.insert
  rw [kept]
  cases held : map[key]? with
  | none => simpa using own
  | some value => simpa using keyed key value held

theorem Keyed.modify {map : Map K V} (keyed : Keyed idOf map) (key : K) {edit : V → V}
    (kept : ∀ value, idOf (edit value) = idOf value) : Keyed idOf (map.modify key edit) := by
  intro other held found
  rw [getElem?_modify_eq] at found
  split at found
  · obtain ⟨value, present, rfl⟩ := Option.map_eq_some_iff.mp found
    rw [kept]
    exact keyed other value present
  · exact keyed other held found

theorem Keyed.insertAll {map : Map K V} (keyed : Keyed idOf map) {pairs : List (K × V)}
    (own : ∀ pair ∈ pairs, idOf pair.2 = pair.1) : Keyed idOf (insertAll map pairs) := by
  induction pairs generalizing map with
  | nil => exact keyed
  | cons pair pairs ih =>
      exact ih (keyed.insert (own pair (List.mem_cons_self ..)))
        fun later member => own later (List.mem_cons_of_mem _ member)

end Keyed

end OrderedMap
