import BrickTrace.Lib.LastWrite
import BrickTrace.Core.DiffNumstat

/-!
# The summary of a diff

`git diff -z --summary` tells which paths are created, deleted, renamed, copied or get another
mode.  The summary is cut at zero bytes only; of each piece the first word or two tell what
happens, and the last word tells to which path.  A summary whose entries stand on lines is one
piece, so it is read as its first entry with the last word of its last one.
-/

set_option autoImplicit false

namespace BrickTrace

/-! ## Applying a summary -/

def lastWord (value : String) : Option String :=
  (splitWhitespace [] value.toList).getLast?.map String.ofList

def setKind (changes : List DiffFileChange) (path : String) (kind : DiffFileChangeKind) :
    List DiffFileChange :=
  match changes with
  | [] => []
  | change :: rest =>
      if change.path = path then { change with changeKind := kind } :: rest
      else change :: setKind rest path kind

/-- The kind of every change that has an old path. -/
def setMovedKinds (changes : List DiffFileChange) (kind : DiffFileChangeKind) :
    List DiffFileChange :=
  changes.map fun change =>
    if change.oldPath.isSome then { change with changeKind := kind } else change

def applySummaryField (changes : List DiffFileChange) (field : String) : List DiffFileChange :=
  let trimmed := trim field
  match (stripStart trimmed "create mode ").bind lastWord with
  | some path => setKind changes path .added
  | none =>
      match (stripStart trimmed "delete mode ").bind lastWord with
      | some path => setKind changes path .deleted
      | none =>
          if startsWith trimmed "rename " then setMovedKinds changes .renamed
          else if startsWith trimmed "copy " then setMovedKinds changes .copied
          else
            match (stripStart trimmed "mode change ").bind lastWord with
            | some path => setKind changes path .typeChanged
            | none => changes

def applySummary (changes : List DiffFileChange) (output : List UInt8) : List DiffFileChange :=
  match NulFields.fields output with
  | none => changes
  | some fields => fields.foldl applySummaryField changes

/-! ## What git prints -/

/-- How git prints a path and a pair of paths in a summary.  It quotes what is not printable. -/
structure SummaryPrinter where
  path : String → String
  pair : String → String → String
  path_nulFree : ∀ gitPath : GitPath, '\x00' ∉ (path gitPath.text).toList
  pair_nulFree : ∀ oldPath gitPath : GitPath, '\x00' ∉ (pair oldPath.text gitPath.text).toList

inductive FileMode where
  | regular
  | executable
  | symlink
  | submodule

def FileMode.text : FileMode → String
  | .regular => "100644"
  | .executable => "100755"
  | .symlink => "120000"
  | .submodule => "160000"

/-- What a diff does to a path.  A file that moves may get another mode also. -/
inductive DeltaKind where
  | edited
  | created (mode : FileMode)
  | deleted (mode : FileMode)
  | renamed (oldPath : GitPath) (similarity : Nat) (modes : Option (FileMode × FileMode))
  | copied (oldPath : GitPath) (similarity : Nat) (modes : Option (FileMode × FileMode))
  | modeChanged (oldMode newMode : FileMode)

structure FileDelta where
  path : GitPath
  counts : NumstatCounts
  kind : DeltaKind

def DeltaKind.oldPath : DeltaKind → Option GitPath
  | .renamed oldPath _ _ => some oldPath
  | .copied oldPath _ _ => some oldPath
  | _ => none

/-- The change as its line counts tell it. -/
def FileDelta.change (delta : FileDelta) : DiffFileChange :=
  numstatChange (delta.kind.oldPath.map GitPath.text) delta.path.text delta.counts.additions
    delta.counts.deletions

inductive SummaryVerb where
  | createMode
  | deleteMode
  | rename
  | copy
  | modeChange
deriving DecidableEq

namespace SummaryVerb

def text : SummaryVerb → String
  | .createMode => "create mode "
  | .deleteMode => "delete mode "
  | .rename => "rename "
  | .copy => "copy "
  | .modeChange => "mode change "

def kind : SummaryVerb → DiffFileChangeKind
  | .createMode => .added
  | .deleteMode => .deleted
  | .rename => .renamed
  | .copy => .copied
  | .modeChange => .typeChanged

def moves : SummaryVerb → Bool
  | .rename => true
  | .copy => true
  | _ => false

end SummaryVerb

structure SummaryEntry where
  verb : SummaryVerb
  body : String

def SummaryEntry.text (entry : SummaryEntry) : String := " " ++ (entry.verb.text ++ entry.body)

def modesText (modes : FileMode × FileMode) : String := modes.1.text ++ " => " ++ modes.2.text

def similarityText (similarity : Nat) : String := "(" ++ similarity.repr ++ "%)"

section Printer
variable (printer : SummaryPrinter)

/-- The entries of a file that moves; the one about its mode does not name it. -/
def movedEntries (verb : SummaryVerb) (oldPath path : GitPath) (similarity : Nat)
    (modes : Option (FileMode × FileMode)) : List SummaryEntry :=
  ⟨verb, printer.pair oldPath.text path.text ++ " " ++ similarityText similarity⟩ ::
    (modes.map fun modes => ⟨.modeChange, modesText modes⟩).toList

def FileDelta.entries (delta : FileDelta) : List SummaryEntry :=
  match delta.kind with
  | .edited => []
  | .created mode => [⟨.createMode, mode.text ++ " " ++ printer.path delta.path.text⟩]
  | .deleted mode => [⟨.deleteMode, mode.text ++ " " ++ printer.path delta.path.text⟩]
  | .renamed oldPath similarity modes => movedEntries printer .rename oldPath delta.path similarity modes
  | .copied oldPath similarity modes => movedEntries printer .copy oldPath delta.path similarity modes
  | .modeChanged oldMode newMode =>
      [⟨.modeChange, modesText (oldMode, newMode) ++ " " ++ printer.path delta.path.text⟩]

end Printer

inductive SummaryForm where
  | lines
  | nulFields

def summaryText (entries : List SummaryEntry) : String :=
  String.join (entries.map fun entry => entry.text ++ "\n")

def summaryOutput (form : SummaryForm) (entries : List SummaryEntry) : List UInt8 :=
  match form with
  | .lines => NulFields.bytes (summaryText entries)
  | .nulFields => NulFields.written (entries.map SummaryEntry.text)

/-! ## How a summary is read -/

/-- What happens, and the word that is taken for a path. -/
structure SummaryReading where
  verb : SummaryVerb
  word : String

namespace SummaryReading

def apply (reading : SummaryReading) (changes : List DiffFileChange) : List DiffFileChange :=
  if reading.verb.moves then setMovedKinds changes reading.verb.kind
  else setKind changes reading.word reading.verb.kind

/-- Moves concern every file that moved, anything else concerns the path that is its last word. -/
def concerns (reading : SummaryReading) (change : DiffFileChange) : Bool :=
  if reading.verb.moves then change.oldPath.isSome else change.path == reading.word

def tells (change : DiffFileChange) (reading : SummaryReading) : Option SummaryVerb :=
  if reading.concerns change then some reading.verb else none

end SummaryReading

def SummaryEntry.word (entry : SummaryEntry) : String := (lastWord entry.body).getD ""

def summaryReadings (form : SummaryForm) (entries : List SummaryEntry) : List SummaryReading :=
  match form with
  | .nulFields => entries.map fun entry => ⟨entry.verb, entry.word⟩
  | .lines =>
      match entries with
      | [] => []
      | first :: rest => [⟨first.verb, ((first :: rest).getLast (List.cons_ne_nil _ _)).word⟩]

/-! ## Whether the kinds fit -/

/-- The kind that the change of a path is to have; a change of the mode may show or not. -/
def FileDelta.Fits (delta : FileDelta) (kind : DiffFileChangeKind) : Prop :=
  match delta.kind with
  | .edited => kind = .modified
  | .created _ => kind = .added
  | .deleted _ => kind = .deleted
  | .renamed _ _ _ => kind = .renamed
  | .copied _ _ _ => kind = .copied
  | .modeChanged _ _ => kind = .modified ∨ kind = .typeChanged

/-- Every change has the kind of its path, and nothing else of it is different. -/
def SummaryFits (deltas : List FileDelta) (changes : List DiffFileChange) : Prop :=
  List.Forall₂ (fun delta change =>
    delta.Fits change.changeKind ∧
      change = { delta.change with changeKind := change.changeKind }) deltas changes

/-- The verb of the entry for a path. -/
def FileDelta.verb (delta : FileDelta) : Option SummaryVerb :=
  match delta.kind with
  | .edited => none
  | .created _ => some .createMode
  | .deleted _ => some .deleteMode
  | .renamed _ _ _ => some .rename
  | .copied _ _ _ => some .copy
  | .modeChanged _ _ => some .modeChange

/-- The last reading that concerns a path has the verb of the path.  A path that is edited has
none, one that is renamed or gets another mode may have none. -/
def ToldRight (readings : List SummaryReading) (delta : FileDelta) : Prop :=
  match LastWrite.lastWrite (SummaryReading.tells delta.change) readings with
  | some verb => delta.verb = some verb
  | none => delta.verb = none ∨ delta.verb = some .rename ∨ delta.verb = some .modeChange

/-! ## Reading an entry -/

theorem lastWord_append_blank {char : Char} (blank : isWhiteSpace char = true) (front back : String) :
    lastWord (front ++ (String.singleton char ++ back)) = (lastWord back).or (lastWord front) := by
  have chars : (front ++ (String.singleton char ++ back)).toList =
      front.toList ++ char :: back.toList := by simp
  unfold lastWord
  rw [chars, splitWhitespace_append_blank blank, List.getLast?_append, Option.map_or]

theorem lastWord_trimEndChars (chars : List Char) :
    lastWord (String.ofList (trimEndChars chars)) = lastWord (String.ofList chars) := by
  unfold lastWord
  rw [String.toList_ofList, String.toList_ofList, splitWhitespace_trimEndChars]

theorem trimEndChars_ne_nil_of_lastWord {text word : String} (found : lastWord text = some word) :
    trimEndChars text.toList ≠ [] := by
  intro empty
  have same := lastWord_trimEndChars text.toList
  rw [empty, String.ofList_toList, found] at same
  cases same

/-- Blanks around a field do not matter. -/
theorem trim_field {verb rest word : String} {first : Char} {others : List Char}
    (start : verb.toList = first :: others) (solid : isWhiteSpace first = false)
    (found : lastWord rest = some word) :
    trim (" " ++ (verb ++ rest)) = verb ++ String.ofList (trimEndChars rest.toList) := by
  have chars : (" " ++ (verb ++ rest)).toList.dropWhile isWhiteSpace = verb.toList ++ rest.toList := by
    rw [String.toList_append, String.toList_append, start]
    change ((' ' :: ((first :: others) ++ rest.toList)).dropWhile isWhiteSpace) = _
    rw [List.dropWhile_cons_of_pos (by decide), List.cons_append,
      List.dropWhile_cons_of_neg (by rw [solid]; decide)]
  have trimmed : trimChars (" " ++ (verb ++ rest)).toList =
      verb.toList ++ trimEndChars rest.toList := by
    change trimEndChars ((" " ++ (verb ++ rest)).toList.dropWhile isWhiteSpace) = _
    rw [chars, trimEndChars_append (trimEndChars_ne_nil_of_lastWord found)]
  unfold trim
  rw [trimmed, String.ofList_append, String.ofList_toList]

/-- A field is read as the verb it starts with and its last word. -/
theorem applySummaryField_text {verb : SummaryVerb} {rest word : String}
    (found : lastWord rest = some word) (changes : List DiffFileChange) :
    applySummaryField changes (" " ++ (verb.text ++ rest)) = SummaryReading.apply ⟨verb, word⟩ changes := by
  have solid : ∃ first others, verb.text.toList = first :: others ∧ isWhiteSpace first = false := by
    cases verb <;> exact ⟨_, _, rfl, by decide⟩
  obtain ⟨first, others, start, solid⟩ := solid
  have last : lastWord (String.ofList (trimEndChars rest.toList)) = some word := by
    rw [lastWord_trimEndChars, String.ofList_toList, found]
  unfold applySummaryField
  rw [trim_field start solid found]
  generalize String.ofList (trimEndChars rest.toList) = body at last
  have named : (stripStart (verb.text ++ body) verb.text).bind lastWord = some word := by
    rw [stripStart_append, Option.bind_some, last]
  have starts : ∀ start : String, startsWith (verb.text ++ body) start =
      start.toList.isPrefixOf (verb.text.toList ++ body.toList) := by
    intro start
    unfold startsWith
    rw [String.toList_append]
  have other : ∀ start : String, start.toList.isPrefixOf (verb.text.toList ++ body.toList) = false →
      (stripStart (verb.text ++ body) start).bind lastWord = none := by
    intro start differs
    rw [stripStart_eq_none ((starts start).trans differs)]
    rfl
  dsimp only
  cases verb with
  | createMode =>
      have create := named
      change (stripStart _ "create mode ").bind lastWord = _ at create
      rw [create]
      rfl
  | deleteMode =>
      have delete := named
      change (stripStart _ "delete mode ").bind lastWord = _ at delete
      rw [other "create mode " rfl, delete]
      rfl
  | rename =>
      rw [other "create mode " rfl, other "delete mode " rfl]
      exact if_pos ((starts "rename ").trans rfl)
  | copy =>
      rw [other "create mode " rfl, other "delete mode " rfl]
      dsimp only
      rw [if_neg (by rw [starts]; exact Bool.false_ne_true)]
      exact if_pos ((starts "copy ").trans rfl)
  | modeChange =>
      have modeChange := named
      change (stripStart _ "mode change ").bind lastWord = _ at modeChange
      rw [other "create mode " rfl, other "delete mode " rfl]
      dsimp only
      rw [if_neg (by rw [starts]; exact Bool.false_ne_true),
        if_neg (by rw [starts]; exact Bool.false_ne_true), modeChange]
      rfl

/-! ## Reading a summary -/

theorem splitWhitespace_ne_nil {chars : List Char} (solid : ∃ char ∈ chars, isWhiteSpace char = false)
    (current : List Char) : splitWhitespace current chars ≠ [] := by
  induction chars generalizing current with
  | nil =>
      obtain ⟨char, member, _⟩ := solid
      cases member
  | cons first rest ih =>
      have held : ∀ (chars current : List Char), current ≠ [] → splitWhitespace current chars ≠ [] := by
        intro chars
        induction chars with
        | nil =>
            intro current nonempty
            rw [splitWhitespace, if_neg (by simpa using nonempty)]
            exact List.cons_ne_nil _ _
        | cons char rest ih =>
            intro current nonempty
            rw [splitWhitespace]
            split
            · rw [if_neg (by simpa using nonempty)]
              exact List.cons_ne_nil _ _
            · exact ih _ (by simp)
      rw [splitWhitespace]
      split
      · rename_i blank
        split
        · obtain ⟨char, member, notBlank⟩ := solid
          rcases List.mem_cons.mp member with rfl | later
          · rw [blank] at notBlank
            cases notBlank
          · exact ih ⟨char, later, notBlank⟩ []
        · exact List.cons_ne_nil _ _
      · exact held rest _ (by simp)

theorem lastWord_eq_some {text : String} {char : Char} (member : char ∈ text.toList)
    (solid : isWhiteSpace char = false) : lastWord text = some ((lastWord text).getD "") := by
  have some : (lastWord text).isSome = true := by
    unfold lastWord
    rw [Option.isSome_map, List.getLast?_isSome]
    exact splitWhitespace_ne_nil ⟨char, member, solid⟩ []
  obtain ⟨word, found⟩ := Option.isSome_iff_exists.mp some
  rw [found]
  rfl

/-- An entry that can be printed: there is a word in it, and no zero character. -/
def SummaryEntry.Printable (entry : SummaryEntry) : Prop :=
  lastWord entry.body = some entry.word ∧ '\x00' ∉ entry.body.toList

theorem SummaryVerb.nul_notMem_text (verb : SummaryVerb) : '\x00' ∉ verb.text.toList := by
  cases verb <;> decide

theorem SummaryEntry.Printable.nul_notMem_text {entry : SummaryEntry} (printable : entry.Printable) :
    '\x00' ∉ entry.text.toList := by
  unfold SummaryEntry.text
  simp only [String.toList_append, List.mem_append, not_or]
  exact ⟨by decide, entry.verb.nul_notMem_text, printable.2⟩

theorem SummaryEntry.text_ne_empty (entry : SummaryEntry) : entry.text ≠ "" := by
  intro empty
  have chars := congrArg String.toList empty
  unfold SummaryEntry.text at chars
  simp at chars

theorem foldl_applySummaryField {entries : List SummaryEntry}
    (printable : ∀ entry ∈ entries, entry.Printable) (changes : List DiffFileChange) :
    (entries.map SummaryEntry.text).foldl applySummaryField changes =
      (entries.map fun entry => SummaryReading.mk entry.verb entry.word).foldl
        (fun changes reading => reading.apply changes) changes := by
  induction entries generalizing changes with
  | nil => rfl
  | cons entry rest ih =>
      rw [List.map_cons, List.map_cons, List.foldl_cons, List.foldl_cons, SummaryEntry.text,
        applySummaryField_text (printable entry List.mem_cons_self).1]
      exact ih (fun other member => printable other (List.mem_cons_of_mem _ member)) _

theorem applySummary_of_fields {output : List UInt8} {fields : List String}
    (read : NulFields.fields output = some fields) (changes : List DiffFileChange) :
    applySummary changes output = fields.foldl applySummaryField changes := by
  unfold applySummary
  rw [read]

/-- Entries that end in a zero byte are read one by one. -/
theorem applySummary_nulFields {entries : List SummaryEntry}
    (printable : ∀ entry ∈ entries, entry.Printable) (changes : List DiffFileChange) :
    applySummary changes (summaryOutput .nulFields entries) =
      (summaryReadings .nulFields entries).foldl (fun changes reading => reading.apply changes)
        changes := by
  have nulFree : ∀ text ∈ entries.map SummaryEntry.text, '\x00' ∉ text.toList := by
    intro text member
    obtain ⟨entry, isEntry, rfl⟩ := List.mem_map.mp member
    exact (printable entry isEntry).nul_notMem_text
  have allKept : (entries.map SummaryEntry.text).filter (· ≠ "") = entries.map SummaryEntry.text := by
    rw [List.filter_eq_self]
    intro text member
    obtain ⟨entry, _, rfl⟩ := List.mem_map.mp member
    exact decide_eq_true entry.text_ne_empty
  have read := NulFields.fields_written nulFree
  rw [allKept] at read
  exact (applySummary_of_fields read changes).trans (foldl_applySummaryField printable changes)

theorem SummaryEntry.Printable.lastWord_text {entry : SummaryEntry} (printable : entry.Printable) :
    lastWord entry.text = some entry.word := by
  have front : ∃ front, " " ++ entry.verb.text = front ++ String.singleton ' ' := by
    cases entry.verb with
    | createMode => exact ⟨" create mode", rfl⟩
    | deleteMode => exact ⟨" delete mode", rfl⟩
    | rename => exact ⟨" rename", rfl⟩
    | copy => exact ⟨" copy", rfl⟩
    | modeChange => exact ⟨" mode change", rfl⟩
  obtain ⟨front, shape⟩ := front
  unfold SummaryEntry.text
  rw [← String.append_assoc, shape, String.append_assoc, lastWord_append_blank (by decide),
    printable.1]
  rfl

theorem summaryText_cons (entry : SummaryEntry) (rest : List SummaryEntry) :
    summaryText (entry :: rest) = entry.text ++ (String.singleton '\n' ++ summaryText rest) := by
  unfold summaryText
  rw [List.map_cons, String.join_cons, String.append_assoc]
  rfl

/-- The last word of entries on lines is that of the last entry. -/
theorem lastWord_summaryText {entries : List SummaryEntry}
    (printable : ∀ entry ∈ entries, entry.Printable) :
    lastWord (summaryText entries) = entries.getLast?.map SummaryEntry.word := by
  induction entries with
  | nil => rfl
  | cons entry rest ih =>
      rw [summaryText_cons, lastWord_append_blank (by decide),
        (printable entry List.mem_cons_self).lastWord_text,
        ih fun other member => printable other (List.mem_cons_of_mem _ member), List.getLast?_cons]
      cases rest.getLast? <;> rfl

theorem nul_notMem_summaryText {entries : List SummaryEntry}
    (printable : ∀ entry ∈ entries, entry.Printable) : '\x00' ∉ (summaryText entries).toList := by
  induction entries with
  | nil => exact List.not_mem_nil
  | cons entry rest ih =>
      rw [summaryText_cons]
      simp only [String.toList_append, List.mem_append, not_or]
      exact ⟨(printable entry List.mem_cons_self).nul_notMem_text, by decide,
        ih fun other member => printable other (List.mem_cons_of_mem _ member)⟩

/-- Entries on lines are read as one. -/
theorem applySummary_lines {entries : List SummaryEntry}
    (printable : ∀ entry ∈ entries, entry.Printable) (changes : List DiffFileChange) :
    applySummary changes (summaryOutput .lines entries) =
      (summaryReadings .lines entries).foldl (fun changes reading => reading.apply changes)
        changes := by
  have read := NulFields.fields_bytes (nul_notMem_summaryText printable)
  refine (applySummary_of_fields read changes).trans ?_
  cases entries with
  | nil => rfl
  | cons first rest =>
      have shape : summaryText (first :: rest) = " " ++ (first.verb.text ++
          (first.body ++ (String.singleton '\n' ++ summaryText rest))) := by
        rw [summaryText_cons, SummaryEntry.text, String.append_assoc, String.append_assoc]
      have nonempty : summaryText (first :: rest) ≠ "" := by
        intro empty
        rw [shape] at empty
        have chars := congrArg String.toList empty
        simp at chars
      have last : lastWord (first.body ++ (String.singleton '\n' ++ summaryText rest)) =
          some ((first :: rest).getLast (List.cons_ne_nil _ _)).word := by
        rw [lastWord_append_blank (by decide), (printable first List.mem_cons_self).1,
          lastWord_summaryText fun other member => printable other (List.mem_cons_of_mem _ member)]
        cases rest with
        | nil => rfl
        | cons second others =>
            rw [List.getLast?_eq_some_getLast (List.cons_ne_nil second others),
              List.getLast_cons (List.cons_ne_nil second others)]
            rfl
      rw [List.filter_cons_of_pos (by simpa using nonempty), List.filter_nil, List.foldl_cons,
        List.foldl_nil, shape, applySummaryField_text last]
      rfl

theorem applySummary_summaryOutput (form : SummaryForm) {entries : List SummaryEntry}
    (printable : ∀ entry ∈ entries, entry.Printable) (changes : List DiffFileChange) :
    applySummary changes (summaryOutput form entries) =
      (summaryReadings form entries).foldl (fun changes reading => reading.apply changes) changes := by
  cases form with
  | lines => exact applySummary_lines printable changes
  | nulFields => exact applySummary_nulFields printable changes

/-! ## The entries of a path -/

theorem FileMode.one_mem_text (mode : FileMode) : '1' ∈ mode.text.toList := by
  cases mode <;> decide

theorem FileMode.nul_notMem_text (mode : FileMode) : '\x00' ∉ mode.text.toList := by
  cases mode <;> decide

theorem nul_notMem_similarityText (similarity : Nat) : '\x00' ∉ (similarityText similarity).toList := by
  unfold similarityText
  simp only [String.toList_append, List.mem_append, not_or]
  refine ⟨⟨by decide, fun member => ?_⟩, by decide⟩
  rw [Nat.toList_repr] at member
  exact absurd (Nat.isDigit_of_mem_toDigits (by decide) (by decide) member) (by decide)

/-- An entry is printable if it has a character that is not blank. -/
theorem printable_of_mem {verb : SummaryVerb} {body : String} (char : Char)
    (member : char ∈ body.toList) (solid : isWhiteSpace char = false)
    (nulFree : '\x00' ∉ body.toList) : (SummaryEntry.mk verb body).Printable :=
  ⟨lastWord_eq_some member solid, nulFree⟩

theorem printable_movedEntries (printer : SummaryPrinter) {verb : SummaryVerb} {oldPath path : GitPath}
    {similarity : Nat} {modes : Option (FileMode × FileMode)} :
    ∀ entry ∈ movedEntries printer verb oldPath path similarity modes, entry.Printable := by
  intro entry member
  rcases List.mem_cons.mp member with rfl | mode
  · refine printable_of_mem '%' ?_ (by decide) ?_
    · simp [similarityText]
    · simp only [String.toList_append, List.mem_append, not_or]
      exact ⟨⟨printer.pair_nulFree oldPath path, by decide⟩, nul_notMem_similarityText similarity⟩
  · obtain ⟨pair, _, rfl⟩ := List.mem_map.mp (Option.toList_map ▸ mode)
    refine printable_of_mem '1' ?_ (by decide) ?_
    · simp [modesText, FileMode.one_mem_text]
    · simp [modesText, FileMode.nul_notMem_text]

theorem FileDelta.printable_entries (printer : SummaryPrinter) (delta : FileDelta) :
    ∀ entry ∈ delta.entries printer, entry.Printable := by
  intro entry member
  have named : ∀ mode : FileMode, '\x00' ∉ (mode.text ++ " " ++ printer.path delta.path.text).toList := by
    intro mode
    simp [FileMode.nul_notMem_text, printer.path_nulFree]
  unfold entries at member
  split at member
  · cases member
  · rw [List.mem_singleton.mp member]
    exact printable_of_mem '1' (by simp [FileMode.one_mem_text]) (by decide) (named _)
  · rw [List.mem_singleton.mp member]
    exact printable_of_mem '1' (by simp [FileMode.one_mem_text]) (by decide) (named _)
  · exact printable_movedEntries printer entry member
  · exact printable_movedEntries printer entry member
  · rw [List.mem_singleton.mp member]
    refine printable_of_mem '1' (by simp [modesText, FileMode.one_mem_text]) (by decide) ?_
    simp [modesText, FileMode.nul_notMem_text, printer.path_nulFree]

/-! ## The kinds after a summary -/

/-- The change once a reading that concerns it is applied. -/
def SummaryReading.mark (reading : SummaryReading) (change : DiffFileChange) : DiffFileChange :=
  if reading.concerns change then { change with changeKind := reading.verb.kind } else change

theorem setKind_eq_map {changes : List DiffFileChange}
    (distinct : (changes.map DiffFileChange.path).Nodup) (path : String) (kind : DiffFileChangeKind) :
    setKind changes path kind = changes.map fun change =>
      if change.path = path then { change with changeKind := kind } else change := by
  induction changes with
  | nil => rfl
  | cons change rest ih =>
      rw [List.map_cons, List.nodup_cons] at distinct
      rw [setKind, List.map_cons]
      split
      · rename_i named
        have others : ∀ other ∈ rest, other.path ≠ path := fun other member same =>
          distinct.1 (named ▸ same ▸ List.mem_map_of_mem member)
        congr 1
        refine (List.map_id' rest).symm.trans (List.map_congr_left fun other member => ?_)
        exact (if_neg (others other member)).symm
      · rw [ih distinct.2]

/-- Among changes with paths of their own a reading marks each that it concerns. -/
theorem SummaryReading.apply_eq_map (reading : SummaryReading) {changes : List DiffFileChange}
    (distinct : (changes.map DiffFileChange.path).Nodup) :
    reading.apply changes = changes.map reading.mark := by
  unfold apply
  split
  · rename_i moves
    refine List.map_congr_left fun change _ => ?_
    unfold mark concerns
    rw [if_pos moves]
  · rename_i stays
    rw [setKind_eq_map distinct]
    refine List.map_congr_left fun change _ => ?_
    unfold mark concerns
    rw [if_neg stays]
    by_cases named : change.path = reading.word
    · rw [if_pos named, if_pos (beq_iff_eq.mpr named)]
    · rw [if_neg named, if_neg fun same => named (beq_iff_eq.mp same)]

theorem SummaryReading.path_mark (reading : SummaryReading) (change : DiffFileChange) :
    (reading.mark change).path = change.path := by
  unfold mark
  split <;> rfl

/-- Marking a change does not alter which readings concern it. -/
theorem SummaryReading.tells_mark (first : SummaryReading) (change : DiffFileChange) :
    tells (first.mark change) = tells change := by
  funext reading
  unfold mark
  split <;> rfl

/-- The change once the last reading that concerns it is applied. -/
def finalChange (readings : List SummaryReading) (change : DiffFileChange) : DiffFileChange :=
  match LastWrite.lastWrite (SummaryReading.tells change) readings with
  | some verb => { change with changeKind := verb.kind }
  | none => change

theorem finalChange_cons (reading : SummaryReading) (rest : List SummaryReading)
    (change : DiffFileChange) :
    finalChange (reading :: rest) change = finalChange rest (reading.mark change) := by
  unfold finalChange
  rw [LastWrite.lastWrite_cons, SummaryReading.tells_mark]
  cases LastWrite.lastWrite (SummaryReading.tells change) rest with
  | some verb =>
      rw [Option.some_or]
      dsimp only
      unfold SummaryReading.mark
      split <;> rfl
  | none =>
      rw [Option.none_or]
      unfold SummaryReading.tells SummaryReading.mark
      cases reading.concerns change <;> rfl

theorem foldl_apply {changes : List DiffFileChange}
    (distinct : (changes.map DiffFileChange.path).Nodup) (readings : List SummaryReading) :
    readings.foldl (fun changes reading => reading.apply changes) changes =
      changes.map (finalChange readings) := by
  induction readings generalizing changes with
  | nil => exact (List.map_id' changes).symm
  | cons reading rest ih =>
      have samePaths : ((changes.map reading.mark).map DiffFileChange.path) =
          changes.map DiffFileChange.path := by
        rw [List.map_map]
        exact List.map_congr_left fun change _ => reading.path_mark change
      rw [List.foldl_cons, reading.apply_eq_map distinct, ih (samePaths ▸ distinct), List.map_map]
      exact List.map_congr_left fun change _ => (finalChange_cons reading rest change).symm

/-! ## Summaries that fit -/

/-- A verb is the right one exactly if its kind is. -/
theorem FileDelta.fits_kind_iff (delta : FileDelta) (verb : SummaryVerb) :
    delta.Fits verb.kind ↔ delta.verb = some verb := by
  unfold Fits FileDelta.verb
  cases delta.kind <;> cases verb <;> simp [SummaryVerb.kind]

/-- The kind that the line counts tell is right for a path that keeps its own or is renamed. -/
theorem FileDelta.fits_change_iff (delta : FileDelta) :
    delta.Fits delta.change.changeKind ↔
      delta.verb = none ∨ delta.verb = some .rename ∨ delta.verb = some .modeChange := by
  unfold Fits FileDelta.verb FileDelta.change DeltaKind.oldPath numstatChange
  cases delta.kind <;> simp

theorem finalChange_fits_iff (readings : List SummaryReading) (delta : FileDelta) :
    (delta.Fits (finalChange readings delta.change).changeKind ∧
      finalChange readings delta.change =
        { delta.change with changeKind := (finalChange readings delta.change).changeKind }) ↔
      ToldRight readings delta := by
  unfold finalChange ToldRight
  cases LastWrite.lastWrite (SummaryReading.tells delta.change) readings with
  | some verb => exact Iff.trans (and_iff_left rfl) (delta.fits_kind_iff verb)
  | none => exact Iff.trans (and_iff_left rfl) delta.fits_change_iff

/-- The kinds fit after the summary exactly if every path is told right. -/
theorem applySummary_fits_iff (printer : SummaryPrinter) (form : SummaryForm)
    (deltas : List FileDelta) (distinct : (deltas.map fun delta => delta.path.text).Nodup) :
    SummaryFits deltas (applySummary (deltas.map FileDelta.change)
        (summaryOutput form (deltas.flatMap (FileDelta.entries printer)))) ↔
      ∀ delta ∈ deltas,
        ToldRight (summaryReadings form (deltas.flatMap (FileDelta.entries printer))) delta := by
  have printable : ∀ entry ∈ deltas.flatMap (FileDelta.entries printer), entry.Printable := by
    intro entry member
    obtain ⟨delta, _, ofDelta⟩ := List.mem_flatMap.mp member
    exact delta.printable_entries printer entry ofDelta
  have distinctPaths : ((deltas.map FileDelta.change).map DiffFileChange.path).Nodup := by
    rw [List.map_map]
    exact distinct
  unfold SummaryFits
  rw [applySummary_summaryOutput form printable, foldl_apply distinctPaths, List.map_map,
    List.forall₂_map_right_iff, List.forall₂_same]
  exact forall₂_congr fun delta _ => finalChange_fits_iff _ delta

/-! ## Two created files -/

/-- Paths that need no quotes, as git prints them. -/
def plainPrinter : SummaryPrinter where
  path := id
  pair oldPath path := oldPath ++ " => " ++ path
  path_nulFree gitPath := gitPath.nulFree
  pair_nulFree oldPath path := by
    simp only [String.toList_append, List.mem_append, not_or]
    exact ⟨⟨oldPath.nulFree, by decide⟩, path.nulFree⟩

def createdFile (path : GitPath) : FileDelta := ⟨path, .lines 1 0, .created .regular⟩

def newFiles : List FileDelta :=
  [createdFile ⟨"a.txt", by decide, by decide⟩, createdFile ⟨"b.txt", by decide, by decide⟩]

theorem newFiles_in_nulFields : SummaryFits newFiles (applySummary (newFiles.map FileDelta.change)
    (summaryOutput .nulFields (newFiles.flatMap (FileDelta.entries plainPrinter)))) := by
  refine (applySummary_fits_iff plainPrinter .nulFields newFiles (by decide)).mpr ?_
  intro delta member
  rcases List.mem_pair.mp member with rfl | rfl <;> rfl

/-- Only the last of two files on lines is known to be new. -/
theorem newFiles_on_lines : (newFiles.map fun delta => delta.path.text).Nodup ∧
    ¬ SummaryFits newFiles (applySummary (newFiles.map FileDelta.change)
      (summaryOutput .lines (newFiles.flatMap (FileDelta.entries plainPrinter)))) := by
  refine ⟨by decide, fun fits => ?_⟩
  have printable : ∀ entry ∈ newFiles.flatMap (FileDelta.entries plainPrinter), entry.Printable := by
    intro entry member
    obtain ⟨delta, _, ofDelta⟩ := List.mem_flatMap.mp member
    exact delta.printable_entries plainPrinter entry ofDelta
  rw [applySummary_summaryOutput .lines printable] at fits
  have first : DiffFileChangeKind.modified = .added := (List.forall₂_cons.mp fits).1.1
  cases first

end BrickTrace
