import Mathlib.Data.List.Basic

/-!
# Walking a tree for the first few leaves

A walk keeps a stack of the branches that it has seen and not entered.  It takes a branch
from the stack, goes through its children in their order, puts the branches among them
on the stack and visits the leaves it accepts, and it stops where it has found as many
as it may.  So it finds the first leaves of an order that the tree has: the leaves of a
branch, then what is below its branches, the last branch first.
-/

set_option autoImplicit false

namespace TreeWalk

universe u v

variable {F : Type u} {S : Type v}

inductive Node (F : Type u) where
  | leaf (item : F)
  | branch (children : List (Node F))

/-! ## The order of a tree -/

def leavesOf : List (Node F) → List F
  | [] => []
  | .leaf item :: rest => item :: leavesOf rest
  | .branch _ :: rest => leavesOf rest

def branchesOf : List (Node F) → List (List (Node F))
  | [] => []
  | .leaf _ :: rest => branchesOf rest
  | .branch children :: rest => children :: branchesOf rest

mutual

/-- What is below a node. -/
def Node.under : Node F → List F
  | .leaf _ => []
  | .branch children => leavesOf children ++ underAll children

def underAll : List (Node F) → List F
  | [] => []
  | node :: rest => underAll rest ++ node.under

end

/-- The leaves below a branch, in the order of a walk. -/
def order (children : List (Node F)) : List F := leavesOf children ++ underAll children

mutual

def Node.branchCount : Node F → Nat
  | .leaf _ => 0
  | .branch children => branchCountAll children + 1

def branchCountAll : List (Node F) → Nat
  | [] => 0
  | node :: rest => node.branchCount + branchCountAll rest

end

/-- The branches on a stack and below them. -/
def pending : List (List (Node F)) → Nat
  | [] => 0
  | children :: rest => branchCountAll children + 1 + pending rest

theorem pending_cons (children : List (Node F)) (rest : List (List (Node F))) :
    pending (children :: rest) = branchCountAll children + 1 + pending rest := rfl

theorem pending_append (first second : List (List (Node F))) :
    pending (first ++ second) = pending first + pending second := by
  induction first with
  | nil => exact (Nat.zero_add _).symm
  | cons children rest ih =>
      rw [List.cons_append, pending_cons, pending_cons, ih]
      omega

theorem pending_branchesOf (children : List (Node F)) :
    pending (branchesOf children).reverse = branchCountAll children := by
  induction children with
  | nil => rfl
  | cons node rest ih =>
      cases node with
      | leaf item =>
          unfold branchesOf branchCountAll Node.branchCount
          omega
      | branch inner =>
          unfold branchesOf branchCountAll Node.branchCount
          rw [List.reverse_cons, pending_append, ih, pending_cons, pending]
          omega

theorem underAll_eq (children : List (Node F)) :
    underAll children = (branchesOf children).reverse.flatMap order := by
  induction children with
  | nil => rfl
  | cons node rest ih =>
      unfold underAll
      cases node with
      | leaf item =>
          unfold Node.under branchesOf
          rw [List.append_nil]
          exact ih
      | branch inner =>
          unfold Node.under branchesOf
          rw [ih, List.reverse_cons, List.flatMap_append, List.flatMap_singleton]
          rfl

/-- A branch with leaves only is walked in the order of its leaves. -/
theorem order_leaves (items : List F) : order (items.map Node.leaf) = items := by
  have under : ∀ items : List F, underAll (items.map Node.leaf) = [] := by
    intro items
    induction items with
    | nil => rfl
    | cons item rest ih =>
        rw [List.map_cons, underAll, ih]
        rfl
  unfold order
  rw [under, List.append_nil]
  induction items with
  | nil => rfl
  | cons item rest ih => exact congrArg (item :: ·) ih

/-! ## The walk -/

section Walk
variable (accept : F → Bool) (visit : F → Option S) (limit : Option Nat)

def hasRoom (found : List S) : Bool := limit.all fun most => found.length < most

/-- Goes through the children of a branch.  Without a stack, the walk is over. -/
def scan : List (Node F) → List (List (Node F)) → List S →
    Option (List S × Option (List (List (Node F))))
  | [], stack, found => some (found, some stack)
  | .branch children :: rest, stack, found => scan rest (children :: stack) found
  | .leaf item :: rest, stack, found =>
      if accept item then
        match visit item with
        | none => none
        | some result =>
            if hasRoom limit (found ++ [result]) then scan rest stack (found ++ [result])
            else some (found ++ [result], none)
      else scan rest stack found

/-- Enters at most as many branches as it is told to. -/
def walk : Nat → List (List (Node F)) → List S → Option (List S)
  | 0, _, found => some found
  | _ + 1, [], found => some found
  | entries + 1, children :: rest, found =>
      match scan accept visit limit children rest found with
      | none => none
      | some (grown, none) => some grown
      | some (grown, some stack) => walk entries stack grown

/-- The results of the first leaves that are accepted, as many as there is room for. -/
def gather : List S → List F → Option (List S)
  | found, [] => some found
  | found, item :: rest =>
      if hasRoom limit found && accept item then
        match visit item with
        | none => none
        | some result => gather (found ++ [result]) rest
      else gather found rest

variable {accept visit limit}

theorem gather_cons (found : List S) (item : F) (rest : List F) :
    gather accept visit limit found (item :: rest) =
      if hasRoom limit found && accept item then
        (visit item).bind fun result => gather accept visit limit (found ++ [result]) rest
      else gather accept visit limit found rest := by
  rw [gather]
  split
  · cases visit item <;> rfl
  · rfl

theorem gather_of_full {found : List S} (full : hasRoom limit found = false) (items : List F) :
    gather accept visit limit found items = some found := by
  induction items with
  | nil => rfl
  | cons item rest ih =>
      rw [gather_cons, full]
      exact ih

theorem gather_append (found : List S) (first second : List F) :
    gather accept visit limit found (first ++ second) =
      (gather accept visit limit found first).bind fun grown =>
        gather accept visit limit grown second := by
  induction first generalizing found with
  | nil => rfl
  | cons item rest ih =>
      rw [List.cons_append, gather_cons, gather_cons]
      split
      · cases visit item with
        | none => rfl
        | some result => exact ih (found ++ [result])
      · exact ih found

theorem scan_eq (children : List (Node F)) (stack : List (List (Node F))) {found : List S}
    (room : hasRoom limit found = true) :
    scan accept visit limit children stack found =
      (gather accept visit limit found (leavesOf children)).map fun grown =>
        (grown, if hasRoom limit grown then some ((branchesOf children).reverse ++ stack)
          else none) := by
  induction children generalizing stack found with
  | nil =>
      unfold scan leavesOf gather
      rw [Option.map_some, if_pos room]
      rfl
  | cons node rest ih =>
      cases node with
      | branch inner =>
          unfold scan leavesOf branchesOf
          rw [ih (inner :: stack) room, List.reverse_cons]
          simp only [List.append_assoc, List.singleton_append]
      | leaf item =>
          unfold scan leavesOf branchesOf
          rw [gather_cons, room, Bool.true_and]
          by_cases accepted : accept item = true
          · rw [if_pos accepted, if_pos accepted]
            cases visit item with
            | none => rfl
            | some result =>
                dsimp only
                cases more : hasRoom limit (found ++ [result]) with
                | true => exact ih stack more
                | false =>
                    rw [Option.bind_some, gather_of_full more, Option.map_some, more]
                    rfl
          · rw [if_neg accepted, if_neg accepted]
            exact ih stack room

/-- With as many entries as there are branches, a walk gathers what the tree has in its order. -/
theorem walk_eq {entries : Nat} {stack : List (List (Node F))} {found : List S}
    (room : hasRoom limit found = true) (enough : pending stack ≤ entries) :
    walk accept visit limit entries stack found =
      gather accept visit limit found (stack.flatMap order) := by
  induction entries generalizing stack found with
  | zero =>
      cases stack with
      | nil => rfl
      | cons children rest =>
          unfold pending at enough
          omega
  | succ entries ih =>
      cases stack with
      | nil => rfl
      | cons children rest =>
          unfold walk
          rw [scan_eq children rest room, List.flatMap_cons, order, List.append_assoc, gather_append]
          cases gather accept visit limit found (leavesOf children) with
          | none => rfl
          | some grown =>
              rw [Option.map_some, Option.bind_some]
              cases more : hasRoom limit grown with
              | false => exact (gather_of_full more _).symm
              | true =>
                  have left : pending ((branchesOf children).reverse ++ rest) ≤ entries := by
                    rw [pending_append, pending_branchesOf]
                    unfold pending at enough
                    omega
                  have later := ih more left
                  rw [List.flatMap_append, ← underAll_eq] at later
                  exact later

theorem gather_take (most : Nat) (found : List S) (items : List F) :
    gather accept visit (some most) found items =
      (((items.filter accept).take (most - found.length)).mapM visit).map fun results =>
        found ++ results := by
  induction items generalizing found with
  | nil =>
      rw [List.filter_nil, List.take_nil]
      exact congrArg some (List.append_nil found).symm
  | cons item rest ih =>
      rw [gather_cons]
      by_cases room : found.length < most
      · have hasOne : hasRoom (some most) found = true := decide_eq_true room
        rw [hasOne, Bool.true_and]
        by_cases accepted : accept item = true
        · obtain ⟨left, more⟩ : ∃ left, most - found.length = left + 1 := ⟨most - found.length - 1, by omega⟩
          have next : most - (found.length + 1) = left := by omega
          rw [if_pos accepted, List.filter_cons_of_pos accepted, more, List.take_succ_cons,
            List.mapM_cons]
          cases visit item with
          | none => rfl
          | some result =>
              rw [Option.bind_some, ih, List.length_append, List.length_singleton, next]
              cases ((rest.filter accept).take left).mapM visit with
              | none => rfl
              | some results => exact congrArg some (List.append_assoc ..)
        · rw [if_neg accepted, List.filter_cons_of_neg accepted]
          exact ih found
      · have full : hasRoom (some most) found = false := decide_eq_false room
        have none_left : most - found.length = 0 := by omega
        rw [full, if_neg (by simp), gather_of_full full, none_left, List.take_zero]
        exact congrArg some (List.append_nil found).symm

/-- What is gathered are the results of the first accepted leaves. -/
theorem gather_eq (most : Nat) (items : List F) :
    gather accept visit (some most) ([] : List S) items =
      ((items.filter accept).take most).mapM visit := by
  rw [gather_take]
  exact Option.map_id'

/-- Without a limit, the results of all accepted leaves are gathered. -/
theorem gather_none (found : List S) (items : List F) :
    gather accept visit none found items =
      ((items.filter accept).mapM visit).map fun results => found ++ results := by
  induction items generalizing found with
  | nil => exact congrArg some (List.append_nil found).symm
  | cons item rest ih =>
      have room : hasRoom none found = true := rfl
      rw [gather_cons, room, Bool.true_and]
      by_cases accepted : accept item = true
      · rw [if_pos accepted, List.filter_cons_of_pos accepted, List.mapM_cons]
        cases visit item with
        | none => rfl
        | some result =>
            rw [Option.bind_some, ih]
            cases (rest.filter accept).mapM visit with
            | none => rfl
            | some results => exact congrArg some (List.append_assoc ..)
      · rw [if_neg accepted, List.filter_cons_of_neg accepted]
        exact ih found

/-- A walk with no room at all still finds one leaf, for it looks at its room after a find. -/
theorem walk_zero (entries : Nat) (stack : List (List (Node F))) :
    walk accept visit (some 0) entries stack ([] : List S) =
      walk accept visit (some 1) entries stack [] := by
  have full : ∀ limit result, limit ≤ 1 → hasRoom (some limit) [(result : S)] = false :=
    fun limit result small => decide_eq_false (Nat.not_lt.mpr small)
  have scans : ∀ (children : List (Node F)) (stack : List (List (Node F))),
      scan accept visit (some 0) children stack ([] : List S) =
        scan accept visit (some 1) children stack [] := by
    intro children
    induction children with
    | nil => exact fun _ => rfl
    | cons node rest ih =>
        intro stack
        cases node with
        | branch inner => exact ih (inner :: stack)
        | leaf item =>
            rw [scan, scan, ih stack]
            cases visit item with
            | none => rfl
            | some result =>
                simp only [List.nil_append, full 0 result (Nat.zero_le 1),
                  full 1 result (Nat.le_refl 1), Bool.false_eq_true, if_false]
  induction entries generalizing stack with
  | zero => rfl
  | succ entries ih =>
      cases stack with
      | nil => rfl
      | cons children rest =>
          rw [walk, walk, scans]
          -- where the walk goes on, nothing has been found
          have room : hasRoom (some 1) ([] : List S) = true := decide_eq_true Nat.zero_lt_one
          have isScanned := @scan_eq _ _ accept visit _ children rest _ room
          cases scanned : scan accept visit (some 1) children rest ([] : List S) with
          | none => rfl
          | some reached =>
              obtain ⟨grown, next⟩ := reached
              cases next with
              | none => rfl
              | some stack =>
                  rw [scanned] at isScanned
                  obtain ⟨gathered, _, same⟩ := Option.map_eq_some_iff.mp isScanned.symm
                  obtain ⟨rfl, goesOn⟩ := Prod.mk.injEq .. ▸ same
                  have empty : gathered = [] := by
                    by_contra nonempty
                    have noRoom : hasRoom (some 1) gathered = false :=
                      decide_eq_false (Nat.not_lt.mpr (List.length_pos_iff.mpr nonempty))
                    rw [noRoom] at goesOn
                    cases goesOn
                  subst empty
                  exact ih stack

end Walk

end TreeWalk
