import Mathlib.Data.List.Induction

/-!
# The last write of a list

Items are read in order and some of them write a value; a later write replaces an
earlier one.  A fold whose steps either write a view of the state or leave it as it
was ends with the last write.
-/

set_option autoImplicit false

namespace LastWrite

universe u v w

variable {I : Type u} {V : Type v} {writes : I → Option V}

def lastWrite (writes : I → Option V) (items : List I) : Option V :=
  items.reverse.findSome? writes

/-- `item` satisfies `writer` and no later item does. -/
def IsLast (writer : I → Prop) (items : List I) (item : I) : Prop :=
  ∃ before after, items = before ++ item :: after ∧ writer item ∧ ∀ later ∈ after, ¬ writer later

theorem IsLast.writer {writer : I → Prop} {items : List I} {item : I}
    (last : IsLast writer items item) : writer item := by
  obtain ⟨_, _, _, writes, _⟩ := last
  exact writes

theorem IsLast.mem {writer : I → Prop} {items : List I} {item : I}
    (last : IsLast writer items item) : item ∈ items := by
  obtain ⟨_, _, rfl, _⟩ := last
  simp

@[simp] theorem lastWrite_nil : lastWrite writes [] = none := rfl

theorem lastWrite_append (left right : List I) :
    lastWrite writes (left ++ right) = (lastWrite writes right).or (lastWrite writes left) := by
  simp [lastWrite, List.findSome?_append]

theorem lastWrite_cons (item : I) (rest : List I) :
    lastWrite writes (item :: rest) = (lastWrite writes rest).or (writes item) := by
  rw [← List.singleton_append, lastWrite_append]
  simp [lastWrite]

theorem lastWrite_eq_none_iff {items : List I} :
    lastWrite writes items = none ↔ ∀ item ∈ items, writes item = none := by
  simp [lastWrite, List.findSome?_eq_none_iff]

theorem isSome_lastWrite_iff {items : List I} :
    (lastWrite writes items).isSome ↔ ∃ item ∈ items, (writes item).isSome := by
  induction items with
  | nil => simp
  | cons item rest ih => simp [lastWrite_cons, ih, or_comm]

theorem lastWrite_eq_some_iff {items : List I} {value : V} :
    lastWrite writes items = some value ↔
      ∃ item, IsLast (fun item => (writes item).isSome) items item ∧ writes item = some value := by
  constructor
  · intro last
    obtain ⟨after, item, before, split, wrote, silent⟩ := List.findSome?_eq_some_iff.mp last
    refine ⟨item, ⟨before.reverse, after.reverse, ?_, by simp [wrote], ?_⟩, wrote⟩
    · simpa using congrArg List.reverse split
    · intro later member
      simp [silent later (List.mem_reverse.mp member)]
  · rintro ⟨item, ⟨before, after, rfl, -, silent⟩, wrote⟩
    have quiet : lastWrite writes after = none :=
      lastWrite_eq_none_iff.mpr fun later member => by simpa using silent later member
    rw [lastWrite_append, lastWrite_cons, quiet, wrote]
    rfl

theorem isLast_congr {left right : I → Prop} (same : ∀ item, left item ↔ right item)
    {items : List I} {item : I} : IsLast left items item ↔ IsLast right items item := by
  simp only [IsLast, same]

theorem isLast_append_singleton_iff {writer : I → Prop} {items : List I} {last item : I} :
    IsLast writer (items ++ [last]) item ↔
      (writer last ∧ item = last) ∨ (¬ writer last ∧ IsLast writer items item) := by
  constructor
  · rintro ⟨before, after, split, wrote, silent⟩
    cases after using List.reverseRecOn with
    | nil =>
        obtain ⟨-, same⟩ := List.append_inj' split rfl
        obtain rfl : last = item := (List.cons.inj same).1
        exact Or.inl ⟨wrote, rfl⟩
    | append_singleton inner final =>
        rw [← List.cons_append, ← List.append_assoc] at split
        obtain ⟨rest, same⟩ := List.append_inj' split rfl
        obtain rfl : last = final := (List.cons.inj same).1
        have quiet := silent last (by simp)
        exact Or.inr ⟨quiet, before, inner, rest, wrote,
          fun later member => silent later (List.mem_append_left _ member)⟩
  · rintro (⟨wrote, rfl⟩ | ⟨quiet, before, after, rfl, wrote, silent⟩)
    · exact ⟨items, [], rfl, wrote, by simp⟩
    · refine ⟨before, after ++ [last], by simp, wrote, ?_⟩
      intro later member
      rcases List.mem_append.mp member with inner | final
      · exact silent later inner
      · rwa [List.mem_singleton.mp final]

theorem IsLast.unique {writer : I → Prop} {items : List I} {first second : I}
    (one : IsLast writer items first) (other : IsLast writer items second) : first = second := by
  induction items using List.reverseRecOn with
  | nil =>
      obtain ⟨before, after, split, -⟩ := one
      simp at split
  | append_singleton items last ih =>
      rcases isLast_append_singleton_iff.mp one with ⟨wrote, rfl⟩ | ⟨quiet, inner⟩
      · rcases isLast_append_singleton_iff.mp other with ⟨-, rfl⟩ | ⟨silent, -⟩
        · rfl
        · exact absurd wrote silent
      · rcases isLast_append_singleton_iff.mp other with ⟨wrote, -⟩ | ⟨-, otherInner⟩
        · exact absurd wrote quiet
        · exact ih inner otherInner

/-- The last writer is not earlier than any other. -/
theorem IsLast.mem_of_writer {writer : I → Prop} {before after : List I} {writing item : I}
    (last : IsLast writer (before ++ writing :: after) item) (wrote : writer writing) :
    item ∈ writing :: after := by
  induction after using List.reverseRecOn with
  | nil =>
      rcases isLast_append_singleton_iff.mp last with ⟨-, rfl⟩ | ⟨quiet, -⟩
      · exact List.mem_singleton_self _
      · exact absurd wrote quiet
  | append_singleton after final ih =>
      rw [← List.cons_append, ← List.append_assoc] at last
      rcases isLast_append_singleton_iff.mp last with ⟨-, rfl⟩ | ⟨-, inner⟩
      · simp
      · exact List.mem_append_left _ (ih inner)

theorem exists_isLast_iff {writer : I → Prop} {items : List I} :
    (∃ item, IsLast writer items item) ↔ ∃ item ∈ items, writer item := by
  classical
  let writes : I → Option I := fun item => if writer item then some item else none
  have writer_iff : ∀ item, (writes item).isSome ↔ writer item := fun item => by simp [writes]
  have some_iff : (lastWrite writes items).isSome ↔ ∃ item ∈ items, writer item := by
    simp only [isSome_lastWrite_iff, writer_iff]
  rw [← some_iff, Option.isSome_iff_exists]
  simp only [lastWrite_eq_some_iff, isLast_congr writer_iff]
  constructor
  · rintro ⟨item, last⟩
    refine ⟨item, item, last, ?_⟩
    obtain ⟨_, _, _, wrote, _⟩ := last
    exact if_pos wrote
  · rintro ⟨_, item, last, _⟩
    exact ⟨item, last⟩

/-- Items read off other items write when the items they are read off do. -/
theorem lastWrite_filterMap {J : Type w} {read : J → Option I} (items : List J) :
    lastWrite writes (items.filterMap read) = lastWrite (fun item => (read item).bind writes) items := by
  induction items with
  | nil => rfl
  | cons item rest ih =>
      cases found : read item with
      | none => simp [lastWrite_cons, found, ih]
      | some inner => simp [lastWrite_cons, found, ih]

/-- A view that each step of a fold writes or leaves alone ends as last written. -/
theorem view_foldl {S : Type w} {step : S → I → S} (view : S → Option V)
    (writing : ∀ state item, view (step state item) = (writes item).or (view state))
    (items : List I) (state : S) :
    view (items.foldl step state) = (lastWrite writes items).or (view state) := by
  induction items generalizing state with
  | nil => simp
  | cons item rest ih => rw [List.foldl_cons, ih, writing, lastWrite_cons, Option.or_assoc]

end LastWrite
