import BrickTrace.Core.Liveness

/-!
# The lines at the end of a file

What is read of the end of a file are the lines that begin after the first byte of the
window, or all lines of a file that fits into it.  A line that begins with the window is
complete, but it is dropped like the fragments that the window may begin with.
-/

set_option autoImplicit false

namespace BrickTrace

open NulFields (bytes)

/-! ## Lines of a text -/

/-- The lines of a text that end in a line feed, without it. -/
def endedLines (text : String) : List String :=
  (text.toList.splitOn '\n').dropLast.map String.ofList

/-- The bytes of a line with its line feed. -/
def lineSize (line : String) : Nat := (bytes line).length + 1

/-- Lines with the bytes at which they begin. -/
def placed (place : Nat) : List String → List (Nat × String)
  | [] => []
  | line :: rest => (place, line) :: placed (place + lineSize line) rest

/-- A line as it is read: a carriage return goes with the line feed. -/
def strippedLine (line : String) : String := String.ofList (lineContent line.toList)

/-- The lines that lie within the last bytes of a text. -/
def linesInTail (text : String) : List String :=
  ((placed 0 (endedLines text)).filter fun line => (bytes text).length - tailBytes ≤ line.1).map
    fun line => strippedLine line.2

theorem endedLines_of_free {text : String} (free : '\n' ∉ text.toList) : endedLines text = [] := by
  unfold endedLines
  rw [List.splitOn_eq_singleton free]
  rfl

theorem endedLines_append {line : String} (free : '\n' ∉ line.toList) (rest : String) :
    endedLines (line ++ "\n" ++ rest) = line :: endedLines rest := by
  have chars : (line ++ "\n" ++ rest).toList = line.toList ++ '\n' :: rest.toList := by simp
  unfold endedLines
  rw [chars, List.splitOn_append_cons_self_of_not_mem free,
    List.dropLast_cons_of_ne_nil (List.splitOn_ne_nil _ _), List.map_cons, String.ofList_toList]

/-- A text is a last line, or a line with its line feed and a text. -/
theorem line_induction {P : String → Prop} (last : ∀ text, '\n' ∉ text.toList → P text)
    (line : ∀ line rest, '\n' ∉ line.toList → P rest → P (line ++ "\n" ++ rest)) (text : String) :
    P text := by
  have chars : ∀ (count : Nat) (text : List Char), text.length ≤ count → P (String.ofList text) := by
    intro count
    induction count with
    | zero =>
        intro text short
        rw [List.length_eq_zero_iff.mp (Nat.le_zero.mp short)]
        exact last _ (by simp)
    | succ count ih =>
        intro text short
        by_cases ended : '\n' ∈ text
        · obtain ⟨front, rest, rfl, free⟩ := List.eq_append_cons_of_mem ended
          have smaller : rest.length ≤ count := by
            rw [List.length_append, List.length_cons] at short
            omega
          have whole : String.ofList (front ++ '\n' :: rest) =
              String.ofList front ++ "\n" ++ String.ofList rest := by
            apply String.toList_injective
            simp
          rw [whole]
          exact line _ _ (by rwa [String.toList_ofList]) (ih rest smaller)
        · exact last _ (by rwa [String.toList_ofList])
  have whole := chars text.toList.length text.toList (Nat.le_refl _)
  rwa [String.ofList_toList] at whole

theorem bytes_line_append (line rest : String) :
    bytes (line ++ "\n" ++ rest) = bytes line ++ 10 :: bytes rest := by
  rw [NulFields.bytes_append, NulFields.bytes_append, List.append_assoc]
  rfl

/-! ## Reading a buffer -/

/-- The lines that are read of a buffer; what stands after the last line feed is none. -/
def completeLines (buffer : List UInt8) : List String :=
  if buffer.getLast? ≠ some 10 then (fileLines buffer).dropLast else fileLines buffer

theorem readLines_ne_nil {current text : List Char} (nonempty : current ≠ [] ∨ text ≠ []) :
    readLines current text ≠ [] := by
  induction text generalizing current with
  | nil =>
      have held : current ≠ [] := nonempty.resolve_right fun none => none rfl
      rw [readLines, if_neg (by simpa using held)]
      exact List.cons_ne_nil _ _
  | cons char rest ih =>
      by_cases isNewline : char = '\n'
      · rw [isNewline, readLines]
        exact List.cons_ne_nil _ _
      · rw [readLines]
        · exact ih (Or.inl (List.cons_ne_nil _ _))
        · exact isNewline

theorem dropLast_readLines {text : List Char} (free : '\n' ∉ text) (current : List Char) :
    (readLines current text).dropLast = [] := by
  induction text generalizing current with
  | nil =>
      rw [readLines]
      split <;> rfl
  | cons char rest ih =>
      rw [List.mem_cons, not_or] at free
      rw [readLines]
      · exact ih free.2 _
      · exact fun isNewline => free.1 isNewline.symm

theorem fileLines_ne_nil {buffer : List UInt8} (nonempty : buffer ≠ []) : fileLines buffer ≠ [] := by
  have read : LossyText.decode buffer ≠ [] := by
    cases buffer with
    | nil => exact absurd rfl nonempty
    | cons byte rest =>
        unfold LossyText.decode LossyText.decodeAfter
        split <;> exact List.cons_ne_nil _ _
  unfold fileLines textLines
  rw [String.toList_ofList]
  exact readLines_ne_nil (Or.inr read)

theorem completeLines_of_free {buffer : List UInt8} (free : 10 ∉ buffer) :
    completeLines buffer = [] := by
  have last : buffer.getLast? ≠ some 10 := fun isLast => free (List.mem_of_getLast? isLast)
  unfold completeLines fileLines textLines
  rw [if_pos last, String.toList_ofList]
  exact dropLast_readLines (fun member => free (LossyText.newline_of_mem_decode member)) []

/-- What stands before the first line feed is one line. -/
theorem completeLines_append {front rest : List UInt8} {text : List Char} (free : '\n' ∉ text)
    (decoded : LossyText.decode (front ++ 10 :: rest) = text ++ '\n' :: LossyText.decode rest) :
    completeLines (front ++ 10 :: rest) =
      String.ofList (lineContent text) :: completeLines rest := by
  have read : fileLines (front ++ 10 :: rest) =
      String.ofList (lineContent text) :: fileLines rest := by
    unfold fileLines
    rw [decoded, textLines, String.toList_ofList, readLines_append_newline free]
    unfold textLines
    rw [String.toList_ofList]
    rfl
  unfold completeLines
  rw [read]
  by_cases empty : rest = []
  · rw [empty, List.getLast?_concat]
    rfl
  · have last : (front ++ 10 :: rest).getLast? = rest.getLast? := by
      rw [List.getLast?_append_of_ne_nil _ (List.cons_ne_nil _ _), List.getLast?_cons_of_ne_nil empty]
    rw [last, List.dropLast_cons_of_ne_nil (fileLines_ne_nil empty)]
    split <;> rfl

theorem completeLines_of_text (text : String) :
    completeLines (bytes text) = (endedLines text).map strippedLine := by
  induction text using line_induction with
  | last text free =>
      rw [completeLines_of_free (LossyText.newline_notMem_bytes free), endedLines_of_free free]
      rfl
  | line line rest free ih =>
      have decoded : LossyText.decode (bytes line ++ 10 :: bytes rest) =
          line.toList ++ '\n' :: LossyText.decode (bytes rest) := by
        rw [LossyText.decode_bytes_append]
        exact congrArg (line.toList ++ ·) (LossyText.decode_append '\n' (bytes rest))
      rw [bytes_line_append, completeLines_append free decoded, ih, endedLines_append free]
      rfl

/-! ## Reading from within the file -/

theorem le_of_mem_placed {place : Nat} {lines : List String} {line : Nat × String}
    (member : line ∈ placed place lines) : place ≤ line.1 := by
  induction lines generalizing place with
  | nil => cases member
  | cons first rest ih =>
      rcases List.mem_cons.mp member with rfl | later
      · exact Nat.le_refl _
      · exact (Nat.le_add_right _ _).trans (ih later)

theorem map_placed (place : Nat) (lines : List String) :
    (placed place lines).map Prod.snd = lines := by
  induction lines generalizing place with
  | nil => rfl
  | cons line rest ih => exact congrArg (List.cons line) (ih _)

/-- The lines that are read of the end of a text, the first one excepted, begin after the
first byte there. -/
theorem tail_completeLines_drop (text : String) (place skip : Nat) :
    (completeLines ((bytes text).drop skip)).tail =
      ((placed place (endedLines text)).filter fun line => place + skip < line.1).map
        fun line => strippedLine line.2 := by
  induction text using line_induction generalizing place skip with
  | last text free =>
      have unmarked : 10 ∉ (bytes text).drop skip := fun member =>
        LossyText.newline_notMem_bytes free (List.mem_of_mem_drop member)
      rw [completeLines_of_free unmarked, endedLines_of_free free]
      rfl
  | line line rest free ih =>
      have unmarked := LossyText.newline_notMem_bytes free
      rw [endedLines_append free, placed, List.filter_cons_of_neg (by simp),
        bytes_line_append]
      by_cases within : skip ≤ (bytes line).length
      · have buffer : (bytes line ++ 10 :: bytes rest).drop skip =
            (bytes line).drop skip ++ 10 :: bytes rest :=
          List.drop_append_of_le_length within
        obtain ⟨text, marked, decoded⟩ := decode_line ((bytes line).drop skip) (bytes rest)
        have noNewline : '\n' ∉ text := fun member => unmarked (List.mem_of_mem_drop (marked member))
        rw [buffer, completeLines_append noNewline decoded, List.tail_cons, completeLines_of_text]
        have all : ∀ later ∈ placed (place + lineSize line) (endedLines rest),
            decide (place + skip < later.1) = true := by
          intro later member
          have := le_of_mem_placed member
          unfold lineSize at this
          exact decide_eq_true (by omega)
        rw [List.filter_eq_self.mpr all]
        conv_lhs => rw [← map_placed (place + lineSize line) (endedLines rest), List.map_map]
        rfl
      · have buffer : (bytes line ++ 10 :: bytes rest).drop skip =
            (bytes rest).drop (skip - lineSize line) := by
          unfold lineSize
          rw [List.drop_append, List.drop_eq_nil_of_le (by omega), List.nil_append]
          have : skip - (bytes line).length = (skip - ((bytes line).length + 1)) + 1 := by omega
          rw [this, List.drop_succ_cons]
        have places : place + skip = place + lineSize line + (skip - lineSize line) := by
          unfold lineSize
          omega
        rw [buffer, ih (place + lineSize line), places]

/-! ## What is read -/

theorem tailLines_eq_completeLines (file : List UInt8) :
    tailLines file =
      if 0 < file.length - tailBytes then
        (completeLines (file.drop (file.length - tailBytes))).tail
      else completeLines (file.drop (file.length - tailBytes)) := by
  unfold tailLines completeLines fileLines
  dsimp only
  by_cases long : 0 < file.length - tailBytes
  · rw [if_pos long, if_pos long]
    split
    · exact List.tail_dropLast.symm
    · rfl
  · rw [if_neg long, if_neg long]

/-- A line of the text begins at the first byte of the window. -/
def BeginsWithWindow (text : String) : Prop :=
  ∃ line, ((bytes text).length - tailBytes, line) ∈ placed 0 (endedLines text)

/-- The lines that begin after the first byte of the window are those that lie in it exactly
when none begins with it. -/
theorem lines_after_eq_iff (text : String) :
    ((placed 0 (endedLines text)).filter fun line => (bytes text).length - tailBytes < line.1).map
        (fun line => strippedLine line.2) = linesInTail text ↔ ¬ BeginsWithWindow text := by
  have part : ((placed 0 (endedLines text)).filter fun line =>
      decide ((bytes text).length - tailBytes < line.1)).Sublist
        ((placed 0 (endedLines text)).filter fun line =>
          decide ((bytes text).length - tailBytes ≤ line.1)) :=
    List.monotone_filter_right _ fun line after =>
      decide_eq_true (Nat.le_of_lt (of_decide_eq_true after))
  unfold linesInTail BeginsWithWindow
  constructor
  · rintro same ⟨line, begins⟩
    have lengths := congrArg List.length same
    rw [List.length_map, List.length_map] at lengths
    have whole := part.eq_of_length lengths
    have inWindow : ((bytes text).length - tailBytes, line) ∈ (placed 0 (endedLines text)).filter
        fun line => decide ((bytes text).length - tailBytes ≤ line.1) :=
      List.mem_filter.mpr ⟨begins, decide_eq_true (Nat.le_refl _)⟩
    rw [← whole] at inWindow
    exact absurd (of_decide_eq_true (List.mem_filter.mp inWindow).2) (Nat.lt_irrefl _)
  · intro none
    refine congrArg (List.map _) (List.filter_congr fun line member => decide_eq_decide.mpr ?_)
    have differs : line.1 ≠ (bytes text).length - tailBytes := fun same =>
      none ⟨line.2, same ▸ member⟩
    omega

/-- What is read of a text that does not fit into the window. -/
theorem tailLines_of_long {text : String} (long : tailBytes < (bytes text).length) :
    tailLines (bytes text) = ((placed 0 (endedLines text)).filter fun line =>
      (bytes text).length - tailBytes < line.1).map fun line => strippedLine line.2 := by
  have after := tail_completeLines_drop text 0 ((bytes text).length - tailBytes)
  rw [Nat.zero_add] at after
  rw [tailLines_eq_completeLines, if_pos (Nat.sub_pos_of_lt long), after]

theorem tailLines_of_short {text : String} (short : (bytes text).length ≤ tailBytes) :
    tailLines (bytes text) = (endedLines text).map strippedLine := by
  rw [tailLines_eq_completeLines, Nat.sub_eq_zero_of_le short, if_neg (Nat.lt_irrefl 0),
    List.drop_zero, completeLines_of_text]

/-- The lines that lie within the last bytes of a text, but for one that begins with the
window of a longer text. -/
def linesPastStart (text : String) : List String :=
  ((placed 0 (endedLines text)).filter fun line =>
    (bytes text).length ≤ tailBytes ∨ (bytes text).length - tailBytes < line.1).map
      fun line => strippedLine line.2

/-- Whatever the window begins with, the lines that begin after its first byte are read. -/
theorem tailLines_bytes_eq (text : String) : tailLines (bytes text) = linesPastStart text := by
  unfold linesPastStart
  by_cases short : (bytes text).length ≤ tailBytes
  · have all : ∀ line ∈ placed 0 (endedLines text), decide ((bytes text).length ≤ tailBytes ∨
        (bytes text).length - tailBytes < line.1) = true :=
      fun line _ => decide_eq_true (Or.inl short)
    rw [tailLines_of_short short, List.filter_eq_self.mpr all]
    conv_lhs => rw [← map_placed 0 (endedLines text), List.map_map]
    rfl
  · rw [tailLines_of_long (Nat.lt_of_not_le short)]
    refine congrArg (List.map _) (List.filter_congr fun line _ => decide_eq_decide.mpr ?_)
    exact (or_iff_right short).symm

/-! ## A line that begins with the window -/

/-- A line that is as long as the window. -/
def windowLine : String := String.ofList (List.replicate 16383 'a')

/-- An empty line and the long one. -/
def emptyThenLong : String := "" ++ "\n" ++ (windowLine ++ "\n" ++ "")

theorem length_bytes_replicate (count : Nat) :
    (bytes (String.ofList (List.replicate count 'a'))).length = count := by
  unfold bytes
  have size : 'a'.utf8Size = 1 := by decide
  rw [String.toList_ofList, List.flatMap_replicate]
  simp [size]

theorem long_line_dropped : tailLines (bytes emptyThenLong) ≠ linesInTail emptyThenLong := by
  have free : '\n' ∉ windowLine.toList := by
    unfold windowLine
    rw [String.toList_ofList]
    exact fun member => absurd (List.mem_replicate.mp member).2 (by decide)
  have length : (bytes emptyThenLong).length = 16385 := by
    have long : (bytes windowLine).length = 16383 := length_bytes_replicate 16383
    unfold emptyThenLong
    rw [bytes_line_append, bytes_line_append, List.length_append, List.length_cons,
      List.length_append, List.length_cons, long]
    rfl
  have begins : BeginsWithWindow emptyThenLong := by
    refine ⟨windowLine, ?_⟩
    unfold emptyThenLong at length ⊢
    rw [length, endedLines_append List.not_mem_nil, endedLines_append free]
    exact List.mem_cons_of_mem _ List.mem_cons_self
  rw [tailLines_of_long (by rw [length]; decide)]
  exact fun same => (lines_after_eq_iff emptyThenLong).mp same begins

end BrickTrace
