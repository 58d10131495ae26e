import Mathlib.Data.List.Basic
import Mathlib.Data.List.Pairwise

/-!
# Reading a growing list by cursor

Entries carry a position, and positions increase along the list.  A page is the
first `limit` entries after a cursor; it names the cursor of the next page only
when entries remain.  A walk asks for pages until none is named.  The list may
grow at its end between two requests: request number `i` sees `logs i`.

`walk_eq` says what a finished walk has collected, `walk_isPrefix` what any walk has
collected, `walk_covers` when it has collected what was there at its start, and
`walk_finishes` that a walk over a list whose growth is bounded finishes.
-/

set_option autoImplicit false

namespace CursorPages

universe u

variable {A : Type u}

def Increasing (entries : List (Nat × A)) : Prop :=
  entries.Pairwise fun first second => first.1 < second.1

def after (cursor : Nat) (entries : List (Nat × A)) : List (Nat × A) :=
  entries.filter fun entry => cursor < entry.1

def upTo (cursor : Nat) (entries : List (Nat × A)) : List (Nat × A) :=
  entries.filter fun entry => entry.1 ≤ cursor

/-- The items of one page and the cursor of the next page, if there is one. -/
def page (limit cursor : Nat) (entries : List (Nat × A)) : List (Nat × A) × Option Nat :=
  let rest := after cursor entries
  (rest.take limit,
    if limit < rest.length then (rest.take limit).getLast?.map Prod.fst else none)

/-- What a number of requests collect, and whether the last one named no next cursor. -/
def walk (limit : Nat) (logs : Nat → List (Nat × A)) : Nat → Nat → Nat → List (Nat × A) × Bool
  | 0, _, _ => ([], false)
  | requests + 1, request, cursor =>
      match page limit cursor (logs request) with
      | (items, none) => (items, true)
      | (items, some next) =>
          let rest := walk limit logs requests (request + 1) next
          (items ++ rest.1, rest.2)

theorem increasing_after {entries : List (Nat × A)} (increasing : Increasing entries)
    (cursor : Nat) : Increasing (after cursor entries) :=
  List.Pairwise.filter _ increasing

/-- In increasing order the entries up to a later cursor come first. -/
theorem after_split {entries : List (Nat × A)} (increasing : Increasing entries)
    {cursor next : Nat} (later : cursor ≤ next) :
    after cursor entries = upTo next (after cursor entries) ++ after next entries := by
  induction entries with
  | nil => rfl
  | cons entry rest ih =>
      have headBelow := (List.pairwise_cons.mp increasing).1
      have split := ih (List.pairwise_cons.mp increasing).2
      by_cases beyond : next < entry.1
      · -- everything from here on lies beyond the later cursor
        have allBeyond : ∀ other ∈ rest, next < other.1 :=
          fun other member => Nat.lt_trans beyond (headBelow other member)
        have restEmpty : upTo next (after cursor rest) = [] := by
          simp only [upTo, after, List.filter_eq_nil_iff, decide_eq_true_eq, Nat.not_le]
          exact fun other member => allBeyond other (List.mem_filter.mp member).1
        have reached : cursor < entry.1 := Nat.lt_of_le_of_lt later beyond
        rw [restEmpty, List.nil_append] at split
        simp only [after, upTo, List.filter_cons, reached, beyond, decide_true, if_true,
          Nat.not_le.mpr beyond, decide_false] at split restEmpty ⊢
        simp [split]
      · have within : entry.1 ≤ next := Nat.le_of_not_lt beyond
        by_cases reached : cursor < entry.1
        · simp only [after, upTo, List.filter_cons, reached, within, beyond, decide_true, if_true,
            decide_false] at split ⊢
          simpa using split
        · simp only [after, upTo, List.filter_cons, reached, beyond, decide_false] at split ⊢
          simpa using split

/-- A prefix that ends at a position holds exactly the entries up to it. -/
theorem upTo_eq_take {entries : List (Nat × A)} (increasing : Increasing entries)
    (limit : Nat) {last : Nat × A} (ends : (entries.take limit).getLast? = some last) :
    upTo last.1 entries = entries.take limit := by
  have split : entries.take limit ++ entries.drop limit = entries := List.take_append_drop ..
  have ordered : Increasing (entries.take limit ++ entries.drop limit) := by rwa [split]
  obtain ⟨frontOrdered, -, cross⟩ := List.pairwise_append.mp ordered
  obtain ⟨front, shape⟩ := List.getLast?_eq_some_iff.mp ends
  have lastMember : last ∈ entries.take limit := by simp [shape]
  have frontKept : upTo last.1 (entries.take limit) = entries.take limit := by
    apply List.filter_eq_self.mpr
    intro entry member
    rw [shape] at member frontOrdered
    rcases List.mem_append.mp member with member | member
    · have below := (List.pairwise_append.mp frontOrdered).2.2 entry member last (by simp)
      simpa using Nat.le_of_lt below
    · obtain rfl := List.mem_singleton.mp member
      simp
  have backDropped : upTo last.1 (entries.drop limit) = [] := by
    simp only [upTo, List.filter_eq_nil_iff, decide_eq_true_eq, Nat.not_le]
    exact fun entry member => cross last lastMember entry member
  calc upTo last.1 entries = upTo last.1 (entries.take limit ++ entries.drop limit) := by rw [split]
    _ = entries.take limit := by
        rw [upTo, List.filter_append]
        exact (congrArg₂ (· ++ ·) frontKept backDropped).trans (List.append_nil _)

/-- A page that names a next cursor holds exactly the entries between the two
cursors, and moves the cursor forward over at least one entry. -/
theorem page_some {limit cursor next : Nat} {entries items : List (Nat × A)}
    (increasing : Increasing entries) (result : page limit cursor entries = (items, some next)) :
    items = upTo next (after cursor entries) ∧ cursor < next ∧ items ≠ [] ∧
      ∃ value, (next, value) ∈ entries := by
  simp only [page, Prod.mk.injEq] at result
  obtain ⟨rfl, named⟩ := result
  split at named
  · obtain ⟨last, ends, rfl⟩ := Option.map_eq_some_iff.mp named
    have member : last ∈ after cursor entries :=
      List.mem_of_mem_take (List.mem_of_getLast? ends)
    have parts := List.mem_filter.mp member
    refine ⟨(upTo_eq_take (increasing_after increasing cursor) limit ends).symm, ?_, ?_,
      last.2, parts.1⟩
    · simpa using parts.2
    · intro empty
      simp [empty] at ends
  · cases named

theorem page_none {limit cursor : Nat} {entries items : List (Nat × A)} (positive : 0 < limit)
    (result : page limit cursor entries = (items, none)) : items = after cursor entries := by
  simp only [page, Prod.mk.injEq] at result
  obtain ⟨rfl, named⟩ := result
  split at named
  · rename_i more
    have nonempty : (after cursor entries).take limit ≠ [] := by
      intro empty
      rcases List.take_eq_nil_iff.mp empty with zero | none
      · omega
      · simp [none] at more
    simp [List.getLast?_eq_some_getLast nonempty] at named
  · rename_i fits
    exact List.take_of_length_le (Nat.le_of_not_lt fits)

section Walk
variable (logs : Nat → List (Nat × A))
  (increasing : ∀ request, Increasing (logs request))
  (grows : ∀ request, logs request <+: logs (request + 1))

include grows in
theorem prefix_of_le {first second : Nat} (order : first ≤ second) :
    logs first <+: logs second := by
  induction order with
  | refl => exact List.prefix_refl _
  | step _ ih => exact ih.trans (grows _)

include increasing grows in
/-- Growth adds nothing below a position that is already there. -/
theorem upTo_stable {first second next : Nat} {value : A} (order : first ≤ second)
    (present : (next, value) ∈ logs first) (cursor : Nat) :
    upTo next (after cursor (logs second)) = upTo next (after cursor (logs first)) := by
  obtain ⟨added, shape⟩ := prefix_of_le logs grows order
  have ordered := increasing second
  rw [← shape] at ordered ⊢
  have beyond : ∀ entry ∈ added, next < entry.1 := fun entry member =>
    (List.pairwise_append.mp ordered).2.2 _ present entry member
  have addedDropped : upTo next (after cursor added) = [] := by
    simp only [upTo, List.filter_eq_nil_iff, decide_eq_true_eq, Nat.not_le]
    exact fun entry member => beyond entry (List.mem_filter.mp member).1
  simp only [upTo, after, List.filter_append] at addedDropped ⊢
  rw [addedDropped, List.append_nil]

include increasing grows in
/-- A finished walk has collected what its last request saw after the first cursor. -/
theorem walk_eq {limit : Nat} (positive : 0 < limit) {requests request cursor : Nat}
    (finished : (walk limit logs requests request cursor).2 = true) :
    ∃ last, request ≤ last ∧
      (walk limit logs requests request cursor).1 = after cursor (logs last) := by
  induction requests generalizing request cursor with
  | zero => simp [walk] at finished
  | succ requests ih =>
      rw [walk] at finished ⊢
      cases result : page limit cursor (logs request) with
      | mk items named =>
          cases named with
          | none => exact ⟨request, Nat.le_refl _, page_none positive result⟩
          | some next =>
              simp only [result] at finished
              obtain ⟨last, order, collected⟩ := ih finished
              obtain ⟨rfl, forward, -, value, present⟩ := page_some (increasing request) result
              have earlier : request ≤ last := Nat.le_of_succ_le order
              refine ⟨last, earlier, ?_⟩
              rw [after_split (increasing last) (Nat.le_of_lt forward),
                upTo_stable logs increasing grows earlier present, ← collected]

include increasing grows in
/-- Whatever a walk has collected stands in front of what a later log has to offer. -/
theorem walk_isPrefix {limit : Nat} (positive : 0 < limit) (requests request cursor : Nat) :
    (walk limit logs requests request cursor).1 <+: after cursor (logs (request + requests)) := by
  induction requests generalizing request cursor with
  | zero => exact List.nil_prefix ..
  | succ requests ih =>
      rw [walk]
      cases result : page limit cursor (logs request) with
      | mk items named =>
          cases named with
          | none =>
              rw [page_none positive result]
              exact (prefix_of_le logs grows (Nat.le_add_right ..)).filter _
          | some next =>
              obtain ⟨rfl, forward, -, value, present⟩ := page_some (increasing request) result
              have later := ih (request + 1) next
              rw [Nat.add_right_comm, Nat.add_assoc] at later
              rw [after_split (increasing (request + (requests + 1))) (Nat.le_of_lt forward),
                upTo_stable logs increasing grows (Nat.le_add_right ..) present]
              exact (List.prefix_append_right_inj _).mpr later

include increasing in
/-- Every request that does not finish the walk brings at least one item. -/
theorem le_length_walk {limit : Nat} {requests request cursor : Nat}
    (unfinished : (walk limit logs requests request cursor).2 = false) :
    requests ≤ (walk limit logs requests request cursor).1.length := by
  induction requests generalizing request cursor with
  | zero => exact Nat.zero_le _
  | succ requests ih =>
      rw [walk] at unfinished ⊢
      cases result : page limit cursor (logs request) with
      | mk items named =>
          cases named with
          | none => simp [result] at unfinished
          | some next =>
              simp only [result] at unfinished
              obtain ⟨-, -, nonempty, -⟩ := page_some (increasing request) result
              have rest := ih unfinished
              have first := List.length_pos_iff.mpr nonempty
              simp only [List.length_append]
              omega

include increasing grows in
/-- A walk that has finished, or has made as many requests as there were items at
its start, has collected all of these. -/
theorem walk_covers {limit : Nat} (positive : 0 < limit) {requests request cursor : Nat}
    (enough : (walk limit logs requests request cursor).2 = true ∨
      (after cursor (logs request)).length ≤ requests) :
    after cursor (logs request) <+: (walk limit logs requests request cursor).1 := by
  cases finished : (walk limit logs requests request cursor).2 with
  | true =>
      obtain ⟨last, order, collected⟩ := walk_eq logs increasing grows positive finished
      rw [collected]
      exact (prefix_of_le logs grows order).filter _
  | false =>
      have counted := enough.resolve_left (by simp [finished])
      have longer := le_length_walk logs increasing finished
      have collected := walk_isPrefix logs increasing grows positive requests request cursor
      have started : after cursor (logs request) <+: after cursor (logs (request + requests)) :=
        (prefix_of_le logs grows (Nat.le_add_right ..)).filter _
      exact List.prefix_of_prefix_length_le started collected (Nat.le_trans counted longer)

theorem length_upTo_mono (entries : List (Nat × A)) {cursor next : Nat} (later : cursor ≤ next) :
    (upTo next (after cursor entries)).length + (upTo cursor entries).length ≤
      (upTo next entries).length := by
  induction entries with
  | nil => simp [upTo, after]
  | cons entry rest ih =>
      simp only [upTo, after, List.filter_cons] at ih ⊢
      by_cases reached : cursor < entry.1
      · by_cases within : entry.1 ≤ next
        · simp [reached, within, Nat.not_le.mpr reached] at ih ⊢
          omega
        · simp [reached, within, Nat.not_le.mpr reached] at ih ⊢
          omega
      · have below : entry.1 ≤ cursor := Nat.le_of_not_lt reached
        simp [below, Nat.le_trans below later, reached] at ih ⊢
        omega

include increasing grows in
/-- A walk over a list that never outgrows a bound finishes. -/
theorem walk_finishes (limit : Nat) (bound : Nat)
    (bounded : ∀ request, (logs request).length ≤ bound) (requests request cursor : Nat)
    (enough : bound < requests + (upTo cursor (logs request)).length) :
    (walk limit logs requests request cursor).2 = true := by
  induction requests generalizing request cursor with
  | zero =>
      have held : (upTo cursor (logs request)).length ≤ (logs request).length :=
        List.length_filter_le ..
      have := bounded request
      omega
  | succ requests ih =>
      rw [walk]
      cases result : page limit cursor (logs request) with
      | mk first named =>
          cases named with
          | none => rfl
          | some next =>
              obtain ⟨rfl, forward, nonempty, -⟩ := page_some (increasing request) result
              have moved : 0 < (upTo next (after cursor (logs request))).length :=
                List.length_pos_iff.mpr nonempty
              have counted := length_upTo_mono (logs request) (Nat.le_of_lt forward)
              have kept : (upTo next (logs request)).length ≤
                  (upTo next (logs (request + 1))).length := by
                obtain ⟨added, shape⟩ := grows request
                rw [← shape]
                simp [upTo, List.filter_append]
              exact ih (request + 1) next (by omega)

end Walk

end CursorPages
