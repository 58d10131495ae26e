import Mathlib.Data.List.Nodup

/-!
# Reading a list by offset, and rows by index

A page is what stands at an offset of a list, at most `size` rows of it.  A reader
asks for the page at the number of rows it has counted so far and stops at the first
page that is not full.  The list may be another one at every request.

`walk_still` says that a list that does not change is read as it is.
`filter_last_iff` is about one that does: of the rows somebody cares for, a reader that
stops has the ones of the list exactly when it skipped no other than it had read.
-/

set_option autoImplicit false

namespace OffsetPages

universe u

variable {A : Type u}

def page (size offset : Nat) (rows : List A) : List A := (rows.drop offset).take size

/-- The list cut into pages. -/
def slices (size : Nat) (rows : List A) : List (List A) :=
  (List.range ((rows.length + size - 1) / size)).map fun index => page size (index * size) rows

/-- What has been read so far, and where the next page starts. -/
structure Reading (A : Type u) where
  rows : List A
  offset : Nat

def Reading.start : Reading A := ⟨[], 0⟩

/-- The reading with one more page, and whether that was the last one. -/
def Reading.extend (size : Nat) (reading : Reading A) (page : List A) : Reading A × Bool :=
  let rows := reading.rows ++ page
  if page.length < size then (⟨rows, reading.offset⟩, true)
  else (⟨rows, reading.offset + page.length⟩, false)

/-- The rows that a number of requests bring, if one of them brings the last page. -/
def walk (size : Nat) (pageAt : Nat → List A) : Nat → Reading A → Option (List A)
  | 0, _ => none
  | requests + 1, reading =>
      match reading.extend size (pageAt reading.offset) with
      | (last, true) => some last.rows
      | (more, false) => walk size pageAt requests more

theorem page_subset (size offset : Nat) (rows : List A) : page size offset rows ⊆ rows :=
  List.Subset.trans (List.take_subset ..) (List.drop_subset ..)

theorem subset_of_mem_slices {size : Nat} {rows slice : List A} (member : slice ∈ slices size rows) :
    slice ⊆ rows := by
  obtain ⟨index, _, rfl⟩ := List.mem_map.mp member
  exact page_subset ..

section Pages
variable {size : Nat} {rows : List A} {reading next : Reading A}

/-- The last page is all there is from its offset on. -/
theorem rows_of_last
    (last : reading.extend size (page size reading.offset rows) = (next, true)) :
    next.rows = reading.rows ++ rows.drop reading.offset := by
  unfold Reading.extend at last
  dsimp only at last
  split at last
  · rename_i short
    cases last
    unfold page at short ⊢
    rw [List.length_take] at short
    have all : (rows.drop reading.offset).length ≤ size := by omega
    rw [List.take_of_length_le all]
  · cases last

theorem length_of_last {pageRows : List A}
    (last : reading.extend size pageRows = (next, true)) : pageRows.length < size := by
  unfold Reading.extend at last
  dsimp only at last
  split at last
  · assumption
  · cases last

/-- A full page moves the offset behind it. -/
theorem reading_of_full
    (full : reading.extend size (page size reading.offset rows) = (next, false)) :
    next.rows = reading.rows ++ (rows.drop reading.offset).take size ∧
      next.offset = reading.offset + size ∧
      size ≤ (rows.drop reading.offset).length := by
  unfold Reading.extend at full
  dsimp only at full
  split at full
  · cases full
  · rename_i long
    cases full
    unfold page at long ⊢
    rw [List.length_take] at long ⊢
    have enough : size ≤ (rows.drop reading.offset).length := by omega
    exact ⟨rfl, congrArg (reading.offset + ·) (Nat.min_eq_left enough), enough⟩

theorem walk_still (positive : 0 < size) {requests : Nat}
    (enough : (rows.drop reading.offset).length < requests) :
    walk size (fun offset => page size offset rows) requests reading =
      some (reading.rows ++ rows.drop reading.offset) := by
  induction requests generalizing reading with
  | zero => exact absurd enough (Nat.not_lt_zero _)
  | succ requests ih =>
      unfold walk
      cases taken : reading.extend size (page size reading.offset rows) with
      | mk next isLast =>
          cases isLast with
          | true => exact congrArg some (rows_of_last taken)
          | false =>
              obtain ⟨read, moved, long⟩ := reading_of_full taken
              have fewer : (rows.drop next.offset).length < requests := by
                rw [List.length_drop] at enough long ⊢
                omega
              dsimp only
              rw [ih fewer, read, moved, ← List.drop_drop, List.append_assoc, List.take_append_drop]

theorem filter_last_iff {cares : A → Bool}
    (last : reading.extend size (page size reading.offset rows) = (next, true)) :
    next.rows.filter cares = rows.filter cares ↔
      reading.rows.filter cares = (rows.take reading.offset).filter cares := by
  have split : rows.filter cares =
      (rows.take reading.offset).filter cares ++ (rows.drop reading.offset).filter cares := by
    rw [← List.filter_append, List.take_append_drop]
  rw [rows_of_last last, List.filter_append, split]
  exact List.append_left_inj _

end Pages

/-! ## Rows in the order of an index -/

section Indexed
variable {B : Type u} {index : A → Nat} {value : A → B}

def Indexed (index : A → Nat) (rows : List A) : Prop :=
  rows.Pairwise fun first second => index first < index second

theorem Indexed.eq_of_perm {first second : List A} (firstIndexed : Indexed index first)
    (secondIndexed : Indexed index second) (perm : first.Perm second) : first = second := by
  refine perm.eq_of_pairwise (fun _ _ _ _ before after => ?_) firstIndexed secondIndexed
  exact absurd (Nat.lt_trans before after) (Nat.lt_irrefl _)

/-- Rows that number some items, none of them missing, hold the items. -/
theorem Indexed.map_eq {rows : List A} {items : List B} (indexed : Indexed index rows)
    (holds : ∀ row ∈ rows, items[index row]? = some (value row))
    (complete : ∀ position < items.length, ∃ row ∈ rows, index row = position) :
    rows.map value = items := by
  have positions : rows.map index = List.range items.length := by
    have increasing : (rows.map index).Pairwise (· < ·) := List.pairwise_map.mpr indexed
    refine List.Perm.eq_of_pairwise (fun _ _ _ _ before after => ?_) increasing
      List.pairwise_lt_range ?_
    · exact absurd (Nat.lt_trans before after) (Nat.lt_irrefl _)
    · refine (List.perm_ext_iff_of_nodup (increasing.imp Nat.ne_of_lt) List.nodup_range).mpr ?_
      intro position
      rw [List.mem_range]
      constructor
      · intro member
        obtain ⟨row, isRow, rfl⟩ := List.mem_map.mp member
        exact (List.getElem?_eq_some_iff.mp (holds row isRow)).1
      · intro within
        obtain ⟨row, isRow, rfl⟩ := complete position within
        exact List.mem_map_of_mem isRow
  have found : rows.map (fun row => items[index row]?) = (rows.map value).map some := by
    rw [List.map_map]
    exact List.map_congr_left holds
  have read : (rows.map index).map (fun position => items[position]?) = items.map some := by
    rw [positions]
    apply List.ext_getElem <;> simp
  rw [List.map_map] at read
  exact List.map_injective_iff.mpr (fun _ _ => Option.some.inj) (found.symm.trans read)

end Indexed

end OffsetPages
