import Mathlib.Data.List.Basic

/-!
# Frames of a stream

A stream is cut into frames after each end mark.  What follows the last mark is one more
frame, without a mark, unless nothing does.
-/

set_option autoImplicit false

namespace LineFrames

universe u

variable {A : Type u} [DecidableEq A] (mark : A)

/-- The items of a frame, and whether a mark ends it. -/
def readFrames (current : List A) : List A → List (List A × Bool)
  | [] => if current.isEmpty then [] else [(current.reverse, false)]
  | item :: rest =>
      if item = mark then (current.reverse, true) :: readFrames [] rest
      else readFrames (item :: current) rest

def frames (stream : List A) : List (List A × Bool) := readFrames mark [] stream

/-- Each frame with a mark after it. -/
def write (contents : List (List A)) : List A := contents.flatMap fun content => content ++ [mark]

variable {mark}

theorem readFrames_append_mark {current content : List A} (unmarked : mark ∉ content)
    (rest : List A) :
    readFrames mark current (content ++ mark :: rest) =
      (current.reverse ++ content, true) :: frames mark rest := by
  induction content generalizing current with
  | nil =>
      rw [List.nil_append, readFrames, if_pos rfl, List.append_nil]
      rfl
  | cons item items ih =>
      rw [List.mem_cons, not_or] at unmarked
      obtain ⟨notMark, others⟩ := unmarked
      rw [List.cons_append, readFrames, if_neg (Ne.symm notMark), ih others, List.reverse_cons,
        List.append_assoc, List.singleton_append]

/-- Contents without a mark are read as they were written. -/
theorem frames_write {contents : List (List A)} (unmarked : ∀ content ∈ contents, mark ∉ content) :
    frames mark (write mark contents) = contents.map fun content => (content, true) := by
  induction contents with
  | nil => rfl
  | cons content rest ih =>
      obtain ⟨here, others⟩ := List.forall_mem_cons.mp unmarked
      have written : write mark (content :: rest) = content ++ mark :: write mark rest := by
        unfold write
        rw [List.flatMap_cons, List.append_assoc, List.singleton_append]
      rw [written, frames, readFrames_append_mark here, ih others]
      rfl

end LineFrames
