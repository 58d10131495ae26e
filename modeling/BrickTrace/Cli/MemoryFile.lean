import BrickTrace.Lib.MarkedBlocks
import BrickTrace.Lib.Phrases
import BrickTrace.Protocol.Text

/-!
# The managed block of an agent's memory file

Installing puts a block between two markers into a text, or brings the block that is there up
to date.  Uninstalling takes the first block out.
-/

set_option autoImplicit false

namespace BrickTrace.MemoryFile

open MarkedBlocks (Markers FirstBlock find pieces outside)

/-! ## The managed block -/

def templateVersion : Nat := 12

def blockStartPrefix : List Char := "<!-- brick:managed:start".toList

def blockEnd : List Char := "<!-- brick:managed:end -->".toList

def blockLines : List String := [
    "## Brick — causal memory of this codebase",
    "",
    "Brick answers WHY code looks the way it does, across every AI tool that has",
    "touched this repo. It is the history layer git does not have: for any file it",
    "returns the timeline of AI sessions that changed it, newest first, each with a",
    "transcript pointer.",
    "",
    "### When you investigate WHY — a bug, an issue, any \"how did this happen\"",
    "",
    "The moment a task is about CAUSE or HISTORY — investigating what caused a bug or",
    "issue, explaining why some behavior exists, tracing what introduced a change, or",
    "reviewing code before you touch it — your FIRST move is `explain`, BEFORE grep,",
    "`git log`, reading files top-to-bottom, or fetching the issue tracker:",
    "",
    "`brick explain <path>:<line>`",
    "",
    "Do NOT spend your opening moves on code_search / read_file / web search and only",
    "reach for `explain` if reminded — for a \"why\"/\"how was this caused\" question,",
    "`explain` is the first tool, not the last. It returns a `causal_chain`: a",
    "newest-first timeline of the sessions that touched the anchor — who changed it,",
    "WHEN, the `mission_title` they did it under, and whether another session is",
    "editing the file right now. depth 0 is the most recent change; higher depth is",
    "older. To understand a whole block at once, pass a line range:",
    "`brick explain <path>:<start>-<end>` (e.g. `src/auth.rs:10-20`). The anchor can",
    "also be a whole file, an artifact, mission, or event id.",
    "",
    "**What counts as a real Brick record.** A timeline step carrying an `actor_id`, a",
    "`mission_title`, or `confidence: explicit` IS provenance — treat it as useful",
    "history even when its `note` is null or shallow. If `causal_chain` is non-empty,",
    "Brick succeeded: do NOT call it useless just because the top-level note says",
    "file-level fallback or no exact line-level record. Only fall back to git/grep",
    "when `explain` returns an empty `causal_chain` or an explicit \"No Brick record\"",
    "note.",
    "",
    "**Follow `next_action` and go deeper than the `note`.** A step's `note` is only",
    "that turn's CLOSING narration (an `observed` summary), which is often NOT the",
    "root cause. When `explain` returns `next_action.kind = \"read_transcript\"`, run",
    "its bounded preview `command` before concluding WHY; use `full_command` only when",
    "the preview is insufficient. If there is no `next_action` but the note doesn't",
    "answer your question, run the step's `transcript.read_session` command and read",
    "the original tool calls, errors, and reasoning end-to-end. The real cause lives",
    "in that deep read, not in the one-line note.",
    "",
    "",
    "**Prefer `explain` over `grep` and `git log` for understanding existing code.**",
    "git log / git blame / grep are a FALLBACK, used only when `explain` truly has no",
    "record for that code. `explain` is read-only — there is nothing to record after",
    "you change code; the next agent recovers your WHY from the session transcript",
    "automatically."]

def blockBody : List Char := Phrases.joined '\n' (blockLines.map String.toList)

/-- The rendered block, with its version. -/
def managedBlock : List Char :=
  blockStartPrefix ++ " v=".toList ++ (toString templateVersion).toList ++ " -->\n".toList ++
    trimEndChars blockBody ++ '\n' :: blockEnd

/-! ## Installing and uninstalling -/

/-- Where the managed block begins and where it ends. -/
def findBlock (content : List Char) : Option (Nat × Nat) := do
  let start ← find content blockStartPrefix
  let endMarker ← (find (content.drop start) blockEnd).map (· + start)
  return (start, endMarker + blockEnd.length)

def appendBlock (existing block : List Char) : List Char :=
  if trimChars existing = [] then block ++ ['\n']
  else trimEndChars existing ++ "\n\n".toList ++ block ++ ['\n']

/-- The content after a call, and the action that is reported. -/
def install (force : Bool) (existing : List Char) : List Char × String :=
  match findBlock existing with
  | some (start, stop) =>
      if force = false ∧ (existing.take stop).drop start = managedBlock then (existing, "unchanged")
      else (existing.take start ++ managedBlock ++ existing.drop stop, "updated")
  | none => (appendBlock existing managedBlock, "installed")

def uninstall (existing : List Char) : List Char × String :=
  match findBlock existing with
  | none => (existing, "absent")
  | some (spanStart, spanStop) =>
      let start := if "\n\n".toList <:+ existing.take spanStart then spanStart - 1 else spanStart
      let stop := if (existing.drop spanStop).head? = some '\n' then spanStop + 1 else spanStop
      let updated := existing.take start ++ existing.drop stop
      (if trimChars updated = [] then [] else updated, "removed")

def status (existing : List Char) : String :=
  match findBlock existing with
  | some (start, stop) =>
      if (existing.take stop).drop start = managedBlock then "present" else "stale"
  | none => "absent"

inductive Call where
  | install (force : Bool)
  | uninstall

def Call.run (content : List Char) : Call → List Char × String
  | .install force => MemoryFile.install force content
  | .uninstall => MemoryFile.uninstall content

def afterCalls (content : List Char) (calls : List Call) : List Char :=
  calls.foldl (fun content call => (call.run content).1) content

theorem afterCalls_cons (content : List Char) (call : Call) (rest : List Call) :
    afterCalls content (call :: rest) = afterCalls (call.run content).1 rest := rfl

/-! ## The markers -/

def managed : Markers Char where
  letter := '<'
  opening := "!-- brick:managed:start".toList
  closing := "!-- brick:managed:end -->".toList
  inOpening := by decide
  inClosing := by decide
  apart := by decide +kernel

theorem findBlock_eq (content : List Char) :
    findBlock content = MarkedBlocks.span managed content := by
  have opening : blockStartPrefix = managed.start := by decide
  have closing : blockEnd = managed.stop := by decide
  unfold findBlock MarkedBlocks.span
  rw [opening, closing]
  cases find content managed.start with
  | none => rfl
  | some start =>
      cases found : find (content.drop start) managed.stop with
      | none => simp [found]
      | some closing => simp [found]

theorem notMem_joined {char mark : Char} (other : char ≠ mark) {parts : List (List Char)}
    (absent : ∀ part ∈ parts, char ∉ part) : char ∉ Phrases.joined mark parts := by
  induction parts with
  | nil => exact List.not_mem_nil
  | cons part rest ih =>
      obtain ⟨here, later⟩ := List.forall_mem_cons.mp absent
      cases rest with
      | nil => exact here
      | cons next more =>
          rw [show Phrases.joined mark (part :: next :: more) =
            part ++ mark :: Phrases.joined mark (next :: more) from rfl, List.mem_append,
            List.mem_cons, not_or, not_or]
          exact ⟨here, other, ih later⟩

/-- A literal is its letters; nothing is decoded to see which are in it. -/
theorem notMem_ofList {letters chars : List Char}
    (absent : letters.all (fun char => !chars.contains char) = true) :
    ∀ char ∈ letters, char ∉ (String.ofList chars).toList := by
  rw [String.toList_ofList]
  intro char one
  simpa using List.all_eq_true.mp absent char one

theorem notMem_blockLines : ∀ line ∈ blockLines, ∀ char ∈ ['!', 'Z'], char ∉ line.toList := by
  unfold blockLines
  repeat' refine List.forall_mem_cons.mpr ⟨notMem_ofList (by decide), ?_⟩
  exact fun line member => absurd member List.not_mem_nil

theorem notMem_blockBody {char : Char} (one : char ∈ ['!', 'Z']) :
    char ∉ trimEndChars blockBody := by
  have other : char ≠ '\n' := by
    rintro rfl
    exact absurd one (by decide)
  have whole : char ∉ blockBody := by
    refine notMem_joined other fun part inParts => ?_
    obtain ⟨line, inLines, rfl⟩ := List.mem_map.mp inParts
    exact notMem_blockLines line inLines char one
  obtain ⟨blanks, _, split⟩ := trimEndChars_append_blanks blockBody
  intro member
  exact whole (split ▸ List.mem_append_left blanks member)

/-- The end marker's second letter stands nowhere between the markers. -/
theorem managedBlock_eq :
    ∃ inner, managedBlock = managed.start ++ inner ++ managed.stop ∧ ¬ managed.stop <:+: inner := by
  have opening : blockStartPrefix = managed.start := by decide
  have closing : blockEnd = managed.stop := by decide
  refine ⟨" v=".toList ++ (toString templateVersion).toList ++ " -->\n".toList ++
    trimEndChars blockBody ++ ['\n'], ?_, fun occurs => ?_⟩
  · unfold managedBlock
    rw [opening, closing]
    simp only [List.append_assoc, List.singleton_append]
  · have member : '!' ∈ managed.stop := by decide
    have inFront : '!' ∉ " v=".toList ++ (toString templateVersion).toList ++ " -->\n".toList := by
      decide +kernel
    rcases List.mem_append.mp (occurs.subset member) with inside | newline
    · rcases List.mem_append.mp inside with front | body
      · exact inFront front
      · exact notMem_blockBody (by decide) body
    · exact absurd newline (by decide)

theorem firstBlock_managedBlock {before : List Char} (free : ¬ managed.start <:+: before)
    (after : List Char) :
    ∃ inner, FirstBlock managed (before ++ managedBlock ++ after) before inner after := by
  obtain ⟨inner, block, notInner⟩ := managedBlock_eq
  exact ⟨inner, by rw [block], free, notInner⟩

/-! ## What each call does -/

/-- What `append_block` puts before the block. -/
def lead (existing : List Char) : List Char :=
  if trimChars existing = [] then [] else trimEndChars existing ++ "\n\n".toList

/-- A text that does without a second line feed at its end. -/
def dropBlankLine (before : List Char) : List Char :=
  if "\n\n".toList <:+ before then before.dropLast else before

def dropNewline (after : List Char) : List Char :=
  if after.head? = some '\n' then after.tail else after

def cleared (content : List Char) : List Char := if trimChars content = [] then [] else content

theorem appendBlock_eq (existing block : List Char) :
    appendBlock existing block = lead existing ++ block ++ ['\n'] := by
  unfold appendBlock lead
  split
  · rw [List.nil_append]
  · rfl

theorem install_of_free {content : List Char} (free : ¬ managed.start <:+: content) (force : Bool) :
    install force content = (lead content ++ managedBlock ++ ['\n'], "installed") := by
  unfold install
  rw [findBlock_eq, MarkedBlocks.span_eq_none_of_free free, appendBlock_eq]

theorem uninstall_of_free {content : List Char} (free : ¬ managed.start <:+: content) :
    uninstall content = (content, "absent") := by
  unfold uninstall
  rw [findBlock_eq, MarkedBlocks.span_eq_none_of_free free]

theorem install_of_block {content before inner after : List Char}
    (block : FirstBlock managed content before inner after) (force : Bool) :
    install force content = (before ++ managedBlock ++ after,
      if force = false ∧ managed.start ++ inner ++ managed.stop = managedBlock then "unchanged"
      else "updated") := by
  unfold install
  rw [findBlock_eq, block.span_eq]
  dsimp only
  rw [block.take_block, block.take_before, block.drop_block]
  split
  · rename_i same
    rw [block.whole, same.2]
  · rfl

theorem uninstall_of_block {content before inner after : List Char}
    (block : FirstBlock managed content before inner after) :
    uninstall content = (cleared (dropBlankLine before ++ dropNewline after), "removed") := by
  have start : content.take
      (if "\n\n".toList <:+ before then before.length - 1 else before.length) =
        dropBlankLine before := by
    unfold dropBlankLine
    split
    · have shorter : before.length - 1 ≤ before.length := Nat.sub_le _ _
      calc content.take (before.length - 1) =
            (content.take before.length).take (before.length - 1) := by
            rw [List.take_take, Nat.min_eq_left shorter]
        _ = before.dropLast := by rw [block.take_before, List.dropLast_eq_take]
    · exact block.take_before
  have stop : content.drop (if after.head? = some '\n' then
        before.length + (managed.start ++ inner ++ managed.stop).length + 1
      else before.length + (managed.start ++ inner ++ managed.stop).length) =
        dropNewline after := by
    unfold dropNewline
    split
    · rw [← List.drop_drop, block.drop_block, List.drop_one]
    · exact block.drop_block
  unfold uninstall
  rw [findBlock_eq, block.span_eq]
  dsimp only
  rw [block.take_before, block.drop_block, start, stop]
  rfl

/-! ## Installing again -/

theorem install_again {before : List Char} (free : ¬ managed.start <:+: before) (after : List Char)
    (force : Bool) :
    install force (before ++ managedBlock ++ after) =
      (before ++ managedBlock ++ after, if force then "updated" else "unchanged") := by
  obtain ⟨inner, block, notInner⟩ := managedBlock_eq
  have here : FirstBlock managed (before ++ managedBlock ++ after) before inner after :=
    ⟨by rw [block], free, notInner⟩
  rw [install_of_block here, ← block]
  cases force <;> simp

/-- White space next to a marker is not part of it. -/
theorem start_infix_newline_iff {front back : List Char} :
    managed.start <:+: front ++ '\n' :: back ↔
      managed.start <:+: front ∨ managed.start <:+: back :=
  Phrases.infix_mark_iff (by decide)

theorem free_lead {content : List Char} (free : ¬ managed.start <:+: content) :
    ¬ managed.start <:+: lead content := by
  unfold lead
  split
  · exact fun occurs => managed.start_ne_nil (List.infix_nil.mp occurs)
  · obtain ⟨blanks, _, split⟩ := trimEndChars_append_blanks content
    rw [show "\n\n".toList = ['\n', '\n'] by decide, start_infix_newline_iff, not_or]
    refine ⟨fun occurs => free ?_, by decide⟩
    rw [split]
    exact occurs.trans (List.prefix_append _ _).isInfix

/-- After an install the first block is the managed one. -/
theorem install_shape {content : List Char} (force : Bool)
    (known : ¬ managed.start <:+: content ∨
      ∃ before inner after, FirstBlock managed content before inner after) :
    ∃ before after, (install force content).1 = before ++ managedBlock ++ after ∧
      ¬ managed.start <:+: before := by
  rcases known with free | ⟨before, inner, after, block⟩
  · rw [install_of_free free]
    exact ⟨lead content, ['\n'], rfl, free_lead free⟩
  · rw [install_of_block block]
    exact ⟨before, after, rfl, block.notBefore⟩

/-! ## The text outside the blocks -/

/-- What is left of a text without its white space. -/
def ink (content : List Char) : List Char := content.filter fun char => !isWhiteSpace char

/-- What is left when all complete blocks are taken out, and the line feed after each. -/
def leftover (content : List Char) : List Char :=
  (pieces managed content).1 ++ ((pieces managed content).2.map dropNewline).flatten

theorem ink_append (front back : List Char) : ink (front ++ back) = ink front ++ ink back :=
  List.filter_append _ _

theorem ink_blank {content : List Char} (blank : ∀ char ∈ content, isWhiteSpace char = true) :
    ink content = [] := by
  unfold ink
  rw [List.filter_eq_nil_iff]
  intro char member
  simp [blank char member]

theorem trimChars_eq_nil_iff {chars : List Char} :
    trimChars chars = [] ↔ ∀ char ∈ chars, isWhiteSpace char = true := by
  have swap : trimChars chars = trimEndChars (chars.dropWhile isWhiteSpace) := rfl
  rw [swap]
  constructor
  · intro empty
    have blank := trimEndChars_eq_nil empty
    cases rest : chars.dropWhile isWhiteSpace with
    | nil => exact List.dropWhile_eq_nil_iff.mp rest
    | cons char more =>
        have kept : chars.dropWhile isWhiteSpace ≠ [] := by simp [rest]
        have solid := List.head_dropWhile_not isWhiteSpace kept
        simp only [rest, List.head_cons] at solid
        rw [rest] at blank
        rw [blank char List.mem_cons_self] at solid
        cases solid
  · intro blank
    rw [List.dropWhile_eq_nil_iff.mpr blank]
    rfl

theorem ink_lead (content : List Char) : ink (lead content) = ink content := by
  unfold lead
  split
  · rename_i empty
    exact (ink_blank (trimChars_eq_nil_iff.mp empty)).symm
  · obtain ⟨blanks, blank, split⟩ := trimEndChars_append_blanks content
    conv_rhs => rw [split]
    rw [ink_append, ink_append, ink_blank blank]
    rfl

theorem dropNewline_cases (after : List Char) :
    dropNewline after = after ∨ after = '\n' :: dropNewline after := by
  unfold dropNewline
  cases after with
  | nil => exact Or.inl rfl
  | cons char rest =>
      by_cases newline : char = '\n'
      · subst newline
        exact Or.inr rfl
      · rw [List.head?_cons, if_neg (by simpa using newline)]
        exact Or.inl rfl

theorem dropBlankLine_cases (before : List Char) :
    dropBlankLine before = before ∨
      ∃ front, before = front ++ ['\n', '\n'] ∧ dropBlankLine before = front ++ ['\n'] := by
  unfold dropBlankLine
  split
  · rename_i ends
    obtain ⟨front, rfl⟩ := ends
    refine Or.inr ⟨front, rfl, ?_⟩
    rw [show "\n\n".toList = ['\n'] ++ ['\n'] by decide, ← List.append_assoc, List.dropLast_concat]
  · exact Or.inl rfl

theorem ink_dropNewline (after : List Char) : ink (dropNewline after) = ink after := by
  rcases dropNewline_cases after with same | split
  · rw [same]
  · conv_rhs => rw [split]
    rfl

theorem ink_dropBlankLine (before : List Char) : ink (dropBlankLine before) = ink before := by
  rcases dropBlankLine_cases before with same | ⟨front, split, shorter⟩
  · rw [same]
  · rw [shorter, split, ink_append, ink_append]
    rfl

theorem start_infix_dropBlankLine_iff (before rest : List Char) :
    managed.start <:+: dropBlankLine before ++ rest → managed.start <:+: before ++ rest := by
  intro occurs
  rcases dropBlankLine_cases before with same | ⟨front, split, shorter⟩
  · rwa [same] at occurs
  · rw [shorter, List.append_assoc] at occurs
    rw [split, List.append_assoc]
    rcases start_infix_newline_iff.mp occurs with inFront | inRest
    · exact start_infix_newline_iff.mpr (Or.inl inFront)
    · exact start_infix_newline_iff.mpr (Or.inr (inRest.trans (List.suffix_cons _ _).isInfix))

theorem pieces_dropNewline (after : List Char) :
    pieces managed (dropNewline after) =
      (dropNewline (pieces managed after).1, (pieces managed after).2) := by
  by_cases newline : after.head? = some '\n'
  · obtain ⟨rest, rfl⟩ := List.head?_eq_some_iff.mp newline
    rw [MarkedBlocks.pieces_cons (by decide)]
    rfl
  · have first : (pieces managed after).1.head? ≠ some '\n' := by
      intro starts
      obtain ⟨rest, whole⟩ := MarkedBlocks.pieces_prefix managed after
      apply newline
      rw [← whole, List.head?_append, starts]
      rfl
    unfold dropNewline
    rw [if_neg newline, if_neg first]

/-! ## One call -/

/-- No opening marker comes about when blocks are taken out, and none stands alone. -/
def Clean (content : List Char) : Prop := ¬ managed.start <:+: leftover content

theorem free_of_clean {content : List Char} (clean : Clean content)
    (absent : MarkedBlocks.span managed content = none) : ¬ managed.start <:+: content := by
  unfold Clean leftover at clean
  rw [MarkedBlocks.pieces_of_none absent] at clean
  simpa using clean

theorem clean_of_free {content : List Char} (free : ¬ managed.start <:+: content) :
    Clean content := by
  unfold Clean leftover
  rw [MarkedBlocks.pieces_of_none (MarkedBlocks.span_eq_none_of_free free)]
  simpa using free

theorem known_of_clean {content : List Char} (clean : Clean content) :
    ¬ managed.start <:+: content ∨
      ∃ before inner after, FirstBlock managed content before inner after := by
  rcases MarkedBlocks.span_cases managed content with absent | block
  · exact Or.inl (free_of_clean clean absent)
  · exact Or.inr block

theorem outside_of_free {content : List Char} (free : ¬ managed.start <:+: content) :
    outside managed content = content := by
  unfold outside
  rw [MarkedBlocks.pieces_of_none (MarkedBlocks.span_eq_none_of_free free)]
  exact List.append_nil _

theorem pieces_managedBlock {before : List Char} (free : ¬ managed.start <:+: before)
    (after : List Char) :
    pieces managed (before ++ managedBlock ++ after) =
      (before, (pieces managed after).1 :: (pieces managed after).2) := by
  obtain ⟨inner, block⟩ := firstBlock_managedBlock free after
  exact block.pieces_eq

theorem install_keeps {content : List Char} (clean : Clean content) (force : Bool) :
    Clean (install force content).1 ∧
      ink (outside managed (install force content).1) = ink (outside managed content) := by
  rcases known_of_clean clean with free | ⟨before, inner, after, block⟩
  · have alone : pieces managed ['\n'] = (['\n'], []) :=
      MarkedBlocks.pieces_of_none (MarkedBlocks.span_eq_none_of_free (by decide))
    rw [install_of_free free]
    unfold Clean leftover
    rw [outside_of_free free, outside, pieces_managedBlock (free_lead free), alone]
    constructor
    · simpa [dropNewline] using free_lead free
    · dsimp only
      rw [ink_append, ink_lead]
      exact List.append_nil _
  · rw [install_of_block block]
    unfold Clean leftover at clean ⊢
    rw [outside, outside, pieces_managedBlock block.notBefore]
    rw [block.pieces_eq] at clean ⊢
    exact ⟨clean, rfl⟩

theorem cleared_keeps {content : List Char} (clean : Clean content) :
    Clean (cleared content) ∧
      ink (outside managed (cleared content)) = ink (outside managed content) := by
  unfold cleared
  split
  · rename_i empty
    have blank := trimChars_eq_nil_iff.mp empty
    have free : ¬ managed.start <:+: content := by
      intro occurs
      have solid : isWhiteSpace managed.letter = false := by decide
      rw [blank _ (occurs.subset List.mem_cons_self)] at solid
      cases solid
    have nothing : ¬ managed.start <:+: [] := by decide
    rw [outside_of_free free, outside_of_free nothing, ink_blank blank]
    exact ⟨clean_of_free nothing, rfl⟩
  · exact ⟨clean, rfl⟩

theorem uninstall_keeps {content : List Char} (clean : Clean content) :
    Clean (uninstall content).1 ∧
      ink (outside managed (uninstall content).1) = ink (outside managed content) := by
  rcases known_of_clean clean with free | ⟨before, inner, after, block⟩
  · rw [uninstall_of_free free]
    exact ⟨clean, rfl⟩
  · rw [uninstall_of_block block]
    unfold Clean leftover at clean
    rw [block.pieces_eq] at clean
    dsimp only at clean
    rw [List.map_cons, List.flatten_cons] at clean
    have joined : ¬ managed.start <:+:
        dropBlankLine before ++ (pieces managed (dropNewline after)).1 := by
      rw [pieces_dropNewline]
      intro occurs
      refine clean ((start_infix_dropBlankLine_iff _ _ occurs).trans ?_)
      rw [← List.append_assoc]
      exact (List.prefix_append _ _).isInfix
    have whole : pieces managed (dropBlankLine before ++ dropNewline after) =
        (dropBlankLine before ++ dropNewline (pieces managed after).1,
          (pieces managed after).2) := by
      rw [MarkedBlocks.pieces_append joined, pieces_dropNewline]
    have kept : Clean (dropBlankLine before ++ dropNewline after) := by
      unfold Clean leftover
      rw [whole, List.append_assoc]
      exact fun occurs => clean (start_infix_dropBlankLine_iff _ _ occurs)
    obtain ⟨clean, same⟩ := cleared_keeps kept
    refine ⟨clean, same.trans ?_⟩
    rw [outside, outside, whole, block.pieces_eq]
    dsimp only
    rw [List.flatten_cons, ink_append, ink_append, ink_append, ink_append, ink_dropBlankLine,
      ink_dropNewline, List.append_assoc]

theorem call_keeps {content : List Char} (clean : Clean content) (call : Call) :
    Clean (call.run content).1 ∧
      ink (outside managed (call.run content).1) = ink (outside managed content) := by
  cases call with
  | install force => exact install_keeps clean force
  | uninstall => exact uninstall_keeps clean

/-! ## Many calls -/

theorem calls_keep {content : List Char} (clean : Clean content) (calls : List Call) :
    Clean (afterCalls content calls) ∧
      ink (outside managed (afterCalls content calls)) = ink (outside managed content) := by
  induction calls generalizing content with
  | nil => exact ⟨clean, rfl⟩
  | cons call rest ih =>
      obtain ⟨kept, same⟩ := call_keeps clean call
      obtain ⟨later, sameLater⟩ := ih kept
      exact ⟨later, sameLater.trans same⟩

theorem status_install {content : List Char} (clean : Clean content) (force : Bool) :
    status (install force content).1 = "present" := by
  obtain ⟨before, after, shape, free⟩ := install_shape force (known_of_clean clean)
  obtain ⟨inner, block, notInner⟩ := managedBlock_eq
  have here : FirstBlock managed (before ++ managedBlock ++ after) before inner after :=
    ⟨by rw [block], free, notInner⟩
  unfold status
  rw [shape, findBlock_eq, here.span_eq]
  dsimp only
  rw [here.take_block, ← block, if_pos rfl]

def staleFile : List Char :=
  "# Top\n\n".toList ++ (managed.start ++ " v=0 -->\nold instructions\n".toList ++ managed.stop) ++
    "\n\n## Bottom\n".toList

theorem clean_staleFile : Clean staleFile := by
  have block : FirstBlock managed staleFile "# Top\n\n".toList " v=0 -->\nold instructions\n".toList
      "\n\n## Bottom\n".toList := ⟨rfl, by decide +kernel, by decide +kernel⟩
  have rest : pieces managed "\n\n## Bottom\n".toList = ("\n\n## Bottom\n".toList, []) :=
    MarkedBlocks.pieces_of_none (MarkedBlocks.span_eq_none_of_free (by decide +kernel))
  unfold Clean leftover
  rw [block.pieces_eq, rest]
  decide +kernel

/-- A text in which a start marker was left behind. -/
def openedFile : List Char := managed.start ++ " v=11 -->\nBuild with Zig.".toList

theorem reinstall_openedFile :
    afterCalls openedFile [.install false, .install false] = managedBlock ++ ['\n'] := by
  have absent : MarkedBlocks.span managed openedFile = none := by decide +kernel
  obtain ⟨inner, block, notInner⟩ := managedBlock_eq
  have first : (install false openedFile).1 =
      openedFile ++ "\n\n".toList ++ managedBlock ++ ['\n'] := by
    have trimmed : lead openedFile = openedFile ++ "\n\n".toList := by decide +kernel
    unfold install
    rw [findBlock_eq, absent]
    dsimp only
    rw [appendBlock_eq, trimmed]
  -- the block now begins at the marker that was left behind
  have swallowed : FirstBlock managed (openedFile ++ "\n\n".toList ++ managedBlock ++ ['\n']) []
      (" v=11 -->\nBuild with Zig.\n\n".toList ++ (managed.start ++ inner)) ['\n'] := by
    refine ⟨?_, by decide, ?_⟩
    · have joined : openedFile ++ "\n\n".toList =
          managed.start ++ " v=11 -->\nBuild with Zig.\n\n".toList := by decide +kernel
      rw [joined, block]
      simp only [List.append_assoc, List.nil_append]
    · intro occurs
      have parts := (MarkedBlocks.infix_append_letter_iff managed.inClosing).mp occurs
      rcases parts with inText | inBlock
      · exact absurd inText (by decide +kernel)
      · exact notInner (managed.stop_infix_start_append_iff.mp inBlock)
  have again := congrArg Prod.fst (install_of_block swallowed false)
  rw [List.nil_append] at again
  rw [afterCalls_cons, Call.run, first, afterCalls_cons, Call.run, again, afterCalls,
    List.foldl_nil]

theorem installs_of_free {content : List Char} (free : ¬ managed.start <:+: content) (force : Bool)
    (forces : List Bool) :
    afterCalls content ((force :: forces).map Call.install) =
      lead content ++ managedBlock ++ ['\n'] := by
  have stays : afterCalls (lead content ++ managedBlock ++ ['\n']) (forces.map Call.install) =
      lead content ++ managedBlock ++ ['\n'] := by
    induction forces with
    | nil => rfl
    | cons next rest ih =>
        rw [List.map_cons, afterCalls_cons, Call.run, install_again (free_lead free), ih]
  rw [List.map_cons, afterCalls_cons, Call.run, install_of_free free, stays]

/-- What a removal leaves of a text that had no block before the first install. -/
theorem uninstall_installs {content : List Char} (free : ¬ managed.start <:+: content)
    (force : Bool) (forces : List Bool) :
    (uninstall (afterCalls content ((force :: forces).map Call.install))).1 =
      if trimChars content = [] then [] else trimEndChars content ++ ['\n'] := by
  obtain ⟨inner, block⟩ := firstBlock_managedBlock (free_lead free) ['\n']
  rw [installs_of_free free, uninstall_of_block block]
  unfold lead
  split
  · rfl
  · rename_i solid
    have shorter : dropBlankLine (trimEndChars content ++ "\n\n".toList) =
        trimEndChars content ++ ['\n'] := by
      unfold dropBlankLine
      rw [if_pos (List.suffix_append _ _), show "\n\n".toList = ['\n'] ++ ['\n'] by decide,
        ← List.append_assoc, List.dropLast_concat]
    have kept : ¬ trimChars (trimEndChars content ++ ['\n']) = [] := by
      rw [trimChars_eq_nil_iff] at solid ⊢
      intro blank
      obtain ⟨blanks, blankEnd, split⟩ := trimEndChars_append_blanks content
      refine solid fun char member => ?_
      rw [split] at member
      rcases List.mem_append.mp member with inFront | inBlanks
      · exact blank char (List.mem_append_left _ inFront)
      · exact blankEnd char inBlanks
    have nothing : dropNewline ['\n'] = [] := rfl
    dsimp only
    rw [shorter, nothing, List.append_nil, cleared, if_neg kept]

theorem trimEndChars_concat {front : List Char} {last : Char} (solid : isWhiteSpace last = false) :
    trimEndChars (front ++ [last]) = front ++ [last] := by
  unfold trimEndChars
  rw [List.reverse_append, List.reverse_singleton, List.singleton_append,
    List.dropWhile_cons_of_neg (by simp [solid]), List.reverse_cons, List.reverse_reverse]

theorem trimEndChars_cases (chars : List Char) :
    trimEndChars chars = [] ∨
      ∃ front last, isWhiteSpace last = false ∧ trimEndChars chars = front ++ [last] := by
  cases kept : chars.reverse.dropWhile isWhiteSpace with
  | nil =>
      left
      unfold trimEndChars
      rw [kept]
      rfl
  | cons last before =>
      have nonempty : chars.reverse.dropWhile isWhiteSpace ≠ [] := by simp [kept]
      have solid := List.head_dropWhile_not isWhiteSpace nonempty
      simp only [kept, List.head_cons] at solid
      refine Or.inr ⟨before.reverse, last, solid, ?_⟩
      unfold trimEndChars
      rw [kept, List.reverse_cons]

/-- A removal gives back exactly the empty text and the texts that end in one line feed after
something that is not white space. -/
theorem removal_inverts_append_iff {content : List Char} (free : ¬ managed.start <:+: content) :
    (∀ forces : List Bool,
      (uninstall (afterCalls content (forces.map Call.install))).1 = content) ↔
      content = [] ∨
        ∃ front last, isWhiteSpace last = false ∧ content = front ++ [last, '\n'] := by
  constructor
  · intro inverse
    have once := inverse [false]
    rw [uninstall_installs free] at once
    split at once
    · exact Or.inl once.symm
    · rename_i solid
      rcases trimEndChars_cases content with empty | ⟨front, last, notBlank, whole⟩
      · exact absurd (trimChars_eq_nil_iff.mpr (trimEndChars_eq_nil empty)) solid
      · rw [whole, List.append_assoc] at once
        exact Or.inr ⟨front, last, notBlank, once.symm⟩
  · intro ending forces
    cases forces with
    | nil => exact congrArg Prod.fst (uninstall_of_free free)
    | cons force rest =>
        rw [uninstall_installs free]
        rcases ending with rfl | ⟨front, last, notBlank, rfl⟩
        · rfl
        · have solid : ¬ trimChars (front ++ [last, '\n']) = [] := by
            intro empty
            have blank := trimChars_eq_nil_iff.mp empty last (by simp)
            rw [blank] at notBlank
            cases notBlank
          have newline : ∀ char ∈ ['\n'], isWhiteSpace char = true :=
            List.forall_mem_singleton.mpr (by decide)
          have trimmed : trimEndChars (front ++ [last, '\n']) = front ++ [last] := by
            rw [List.append_cons, trimEndChars_append_of_blanks newline,
              trimEndChars_concat notBlank]
          rw [if_neg solid, trimmed, List.append_assoc]
          rfl

theorem houseRules_given_back :
    ¬ managed.start <:+: "# House rules\n".toList ∧ ∀ forces : List Bool,
      (uninstall (afterCalls "# House rules\n".toList (forces.map Call.install))).1 =
        "# House rules\n".toList := by
  have free : ¬ managed.start <:+: "# House rules\n".toList := by decide +kernel
  refine ⟨free, (removal_inverts_append_iff free).mpr (Or.inr ?_)⟩
  exact ⟨"# House rule".toList, 's', by decide, by decide⟩

/-- A text without a line feed at its end gets one; the blank lines of a blank text go. -/
theorem endings_not_given_back :
    (uninstall (install false "Use tabs.".toList).1).1 = "Use tabs.\n".toList ∧
      (uninstall (install false "Use tabs.\n\n".toList).1).1 = "Use tabs.\n".toList ∧
      (uninstall (install false "\n".toList).1).1 = [] := by
  have given (content : List Char) (free : ¬ managed.start <:+: content) :=
    uninstall_installs free false []
  refine ⟨(given _ (by decide +kernel)).trans (by decide +kernel),
    (given _ (by decide +kernel)).trans (by decide +kernel),
    (given _ (by decide +kernel)).trans (by decide +kernel)⟩

end BrickTrace.MemoryFile
