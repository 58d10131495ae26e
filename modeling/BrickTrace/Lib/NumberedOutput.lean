import Mathlib.Data.List.Nodup

/-!
# Numbered output

Rows are read one after another.  Each of them gives items, which are numbered on from where
the rows before it left off.
-/

set_option autoImplicit false

namespace NumberedOutput

universe u v w

variable {Row : Type u} {Item : Type v} (emit : Nat → Row → List Item)

/-- The items of all rows, from a first number on. -/
def emitted : Nat → List Row → List Item
  | _, [] => []
  | start, row :: rest => emit start row ++ emitted (start + (emit start row).length) rest

variable {emit}

theorem emitted_append (start : Nat) (rows more : List Row) :
    emitted emit start (rows ++ more) = emitted emit start rows ++
      emitted emit (start + (emitted emit start rows).length) more := by
  induction rows generalizing start with
  | nil => rfl
  | cons row rest ih =>
      rw [List.cons_append, emitted, emitted, ih, List.append_assoc, List.length_append,
        Nat.add_assoc]

/-- Later rows change nothing of what earlier ones gave. -/
theorem emitted_prefix (start : Nat) (rows more : List Row) :
    emitted emit start rows <+: emitted emit start (rows ++ more) := by
  rw [emitted_append]
  exact List.prefix_append _ _

theorem forall_mem_emitted {Holds : Item → Prop}
    (each : ∀ start row, ∀ item ∈ emit start row, Holds item) (start : Nat) (rows : List Row) :
    ∀ item ∈ emitted emit start rows, Holds item := by
  induction rows generalizing start with
  | nil => exact nofun
  | cons row rest ih => exact List.forall_mem_append.mpr ⟨each start row, ih _⟩

/-- Rows that give alike items by a view give alike items all together. -/
theorem map_emitted_congr {View : Type w} {other : Nat → Row → List Item} {view : Item → View}
    (alike : ∀ start row, (emit start row).map view = (other start row).map view)
    (start : Nat) (rows : List Row) :
    (emitted emit start rows).map view = (emitted other start rows).map view := by
  induction rows generalizing start with
  | nil => rfl
  | cons row rest ih =>
      have lengths : (emit start row).length = (other start row).length := by
        rw [← List.length_map view, alike, List.length_map]
      rw [emitted, emitted, List.map_append, List.map_append, alike, lengths, ih]

/-- The items of all rows, where a row may fail to give its own. -/
def emittedM {E : Type w} (emit : Nat → Row → Except E (List Item)) :
    Nat → List Row → Except E (List Item)
  | _, [] => .ok []
  | start, row :: rest =>
      match emit start row with
      | .error failure => .error failure
      | .ok items => (emittedM emit (start + items.length) rest).map (items ++ ·)

theorem emittedM_cons_eq_ok {E : Type w} {emit : Nat → Row → Except E (List Item)} {start : Nat}
    {row : Row} {rest : List Row} {all : List Item}
    (done : emittedM emit start (row :: rest) = .ok all) :
    ∃ items others, emit start row = .ok items ∧
      emittedM emit (start + items.length) rest = .ok others ∧ all = items ++ others := by
  rw [emittedM] at done
  cases first : emit start row with
  | error failure =>
      rw [first] at done
      cases done
  | ok items =>
      rw [first] at done
      dsimp only at done
      cases later : emittedM emit (start + items.length) rest with
      | error failure =>
          rw [later] at done
          cases done
      | ok others =>
          rw [later] at done
          cases done
          exact ⟨items, others, rfl, later, rfl⟩

/-- When all rows give their items, the earlier ones gave theirs, which come first. -/
theorem emittedM_prefix {E : Type w} {emit : Nat → Row → Except E (List Item)} {start : Nat}
    {rows more : List Row} {all : List Item} (done : emittedM emit start (rows ++ more) = .ok all) :
    ∃ items, emittedM emit start rows = .ok items ∧ items <+: all := by
  induction rows generalizing start all with
  | nil => exact ⟨[], rfl, List.nil_prefix⟩
  | cons row rest ih =>
      obtain ⟨items, others, here, later, rfl⟩ := emittedM_cons_eq_ok done
      obtain ⟨front, frontDone, isPrefix⟩ := ih later
      refine ⟨items ++ front, ?_, (List.prefix_append_right_inj items).mpr isPrefix⟩
      rw [emittedM, here]
      dsimp only
      rw [frontDone]
      rfl

theorem forall₂_replicate {Shared : Nat → Item → Prop} {start : Nat} {items : List Item}
    (holds : ∀ item ∈ items, Shared start item) :
    List.Forall₂ Shared (List.replicate items.length start) items := by
  induction items with
  | nil => exact .nil
  | cons item rest ih =>
      obtain ⟨first, others⟩ := List.forall_mem_cons.mp holds
      exact .cons first (ih others)

/-- Where the items of a row share what the row began with, the beginnings never fall back, and
none comes after its item. -/
theorem emittedM_starts {E : Type w} {emit : Nat → Row → Except E (List Item)}
    {Shared : Nat → Item → Prop}
    (each : ∀ start row items, emit start row = .ok items → ∀ item ∈ items, Shared start item)
    {start : Nat} {rows : List Row} {all : List Item} (done : emittedM emit start rows = .ok all) :
    ∃ starts : List Nat, starts.Pairwise (· ≤ ·) ∧
      (∀ place first, starts[place]? = some first → start ≤ first ∧ first ≤ start + place) ∧
      List.Forall₂ Shared starts all := by
  induction rows generalizing start all with
  | nil =>
      cases done
      exact ⟨[], .nil, nofun, .nil⟩
  | cons row rest ih =>
      obtain ⟨items, others, here, later, rfl⟩ := emittedM_cons_eq_ok done
      obtain ⟨starts, ordered, within, shared⟩ := ih later
      have own := forall₂_replicate (each start row items here)
      refine ⟨List.replicate items.length start ++ starts, ?_, ?_, List.rel_append own shared⟩
      · refine List.pairwise_append.mpr ⟨?_, ordered, ?_⟩
        · exact List.pairwise_replicate.mpr (.inr (Nat.le_refl start))
        · intro first isFirst second isSecond
          obtain ⟨place, found⟩ := List.mem_iff_getElem?.mp isSecond
          have bound := (within place second found).1
          rw [List.eq_of_mem_replicate isFirst]
          omega
      · intro place first found
        by_cases inside : place < items.length
        · rw [List.getElem?_append_left (by simpa using inside)] at found
          have isStart := List.eq_of_mem_replicate (List.mem_of_getElem? found)
          omega
        · rw [List.getElem?_append_right (by simpa using inside), List.length_replicate] at found
          have bounds := within _ first found
          omega

/-! ## Items that know their number -/

/-- Every item is one of its number. -/
def InPlace (Numbered : Nat → Item → Prop) (start : Nat) (items : List Item) : Prop :=
  ∀ place item, items[place]? = some item → Numbered (start + place) item

variable {Numbered : Nat → Item → Prop} {start : Nat}

theorem inPlace_nil : InPlace Numbered start [] := nofun

theorem inPlace_cons {item : Item} {rest : List Item} :
    InPlace Numbered start (item :: rest) ↔
      Numbered start item ∧ InPlace Numbered (start + 1) rest := by
  constructor
  · intro inPlace
    refine ⟨inPlace 0 item rfl, fun place other found => ?_⟩
    have next := inPlace (place + 1) other found
    rwa [Nat.add_comm place 1, ← Nat.add_assoc] at next
  · rintro ⟨first, inPlace⟩ place other found
    cases place with
    | zero =>
        cases found
        exact first
    | succ place =>
        have next := inPlace place other found
        rwa [Nat.add_assoc, Nat.add_comm 1 place] at next

theorem inPlace_append {front back : List Item} (first : InPlace Numbered start front)
    (second : InPlace Numbered (start + front.length) back) :
    InPlace Numbered start (front ++ back) := by
  induction front generalizing start with
  | nil => exact second
  | cons item rest ih =>
      obtain ⟨here, later⟩ := inPlace_cons.mp first
      refine inPlace_cons.mpr ⟨here, ih later ?_⟩
      rwa [List.length_cons, Nat.add_comm rest.length 1, ← Nat.add_assoc] at second

theorem inPlace_emitted (each : ∀ start row, InPlace Numbered start (emit start row))
    (start : Nat) (rows : List Row) : InPlace Numbered start (emitted emit start rows) := by
  induction rows generalizing start with
  | nil => exact inPlace_nil
  | cons row rest ih => exact inPlace_append (each start row) (ih _)

theorem inPlace_emittedM {E : Type w} {emit : Nat → Row → Except E (List Item)}
    (each : ∀ start row items, emit start row = .ok items → InPlace Numbered start items)
    {start : Nat} {rows : List Row} {all : List Item} (done : emittedM emit start rows = .ok all) :
    InPlace Numbered start all := by
  induction rows generalizing start all with
  | nil =>
      cases done
      exact inPlace_nil
  | cons row rest ih =>
      obtain ⟨items, others, here, later, rfl⟩ := emittedM_cons_eq_ok done
      exact inPlace_append (each start row items here) (ih later)

/-- Items have marks of their own when a mark tells the number. -/
theorem nodup_marks {Mark : Type w} (mark : Item → Mark)
    (tells : ∀ {number other item item'}, Numbered number item → Numbered other item' →
      mark item = mark item' → number = other) {items : List Item}
    (inPlace : InPlace Numbered start items) : (items.map mark).Nodup := by
  apply List.pairwise_iff_getElem.mpr
  intro place other bound bound' before same
  rw [List.length_map] at bound bound'
  rw [List.getElem_map, List.getElem_map] at same
  have equal := tells (inPlace place _ (List.getElem?_eq_getElem bound))
    (inPlace other _ (List.getElem?_eq_getElem bound')) same
  omega

end NumberedOutput
