import BrickTrace.Lib.ShellWords

/-!
# The simple commands of a shell text

A text is read character by character.  Quotation marks and backslashes decide whether a blank
or an operator is one; an operator ends a simple command or redirects it, and a word is an
argument of its command, the target of an output redirect or the source of an input redirect.
The commands of a group and of a substitution are simple commands of their own.  Reserved
words, here-documents and the expressions of an expansion are not read.
-/

set_option autoImplicit false

namespace ShellCommands

open ShellWords

deriving instance DecidableEq for Quoting

/-- What is known of a simple command: its program with its arguments, and the files it writes
its output to. -/
structure Command where
  words : List (List Char)
  targets : List (List Char)

/-- A word that has begun; `plain` while nothing before its first equals sign is quoted. -/
structure Word where
  chars : List Char
  plain : Bool
deriving DecidableEq

def isName : List Char → Bool
  | [] => false
  | first :: rest =>
      (first.isAlpha || first == '_') && rest.all fun char => char.isAlphanum || char == '_'

def Word.isAssignment (word : Word) : Bool :=
  word.plain && ('=' ∈ word.chars && isName (word.chars.takeWhile (· != '=')))

def Word.isNumber (word : Word) : Bool :=
  word.plain && (!word.chars.isEmpty && word.chars.all Char.isDigit)

inductive Role where
  | argument
  | target
  | source
deriving DecidableEq

/-- A command with one more word.  Assignments stand before the program. -/
def Command.add (command : Command) (role : Role) (word : Word) : Command :=
  match role with
  | .argument =>
      if command.words = [] ∧ word.isAssignment = true then command
      else { command with words := command.words ++ [word.chars] }
  | .target => { command with targets := command.targets ++ [word.chars] }
  | .source => command

/-- What is read of a text: the word that has begun, what it is to its command, the redirect
right before, the command that it belongs to, and the commands before that one. -/
structure Reading where
  quoting : Quoting
  comment : Bool
  word : Option Word
  role : Role
  last : Option Char
  command : Command
  commands : List Command

def start : Reading := ⟨.unquoted, false, none, .argument, none, ⟨[], []⟩, []⟩

/-! ## Words -/

def extend (word : Option Word) (char : Char) : Option Word :=
  let begun := word.getD ⟨[], true⟩
  some { begun with chars := begun.chars ++ [char] }

def quoted (word : Option Word) : Option Word :=
  let begun := word.getD ⟨[], true⟩
  some { begun with plain := begun.plain && '=' ∈ begun.chars }

def wordStep : Quoting → Option Word → Char → Quoting × Option Word
  | .unquoted, word, char =>
      if char = doubleQuote then (.double, quoted word)
      else if char = singleQuote then (.single, quoted word)
      else if char = backslash then (.escaped, word)
      else (.unquoted, extend word char)
  | .escaped, word, char => (.unquoted, if char = '\n' then word else extend (quoted word) char)
  | .single, word, char =>
      if char = singleQuote then (.unquoted, word) else (.single, extend word char)
  | .double, word, char =>
      if char = doubleQuote then (.unquoted, word)
      else if char = backslash then (.doubleEscaped, word)
      else (.double, extend word char)
  | .doubleEscaped, word, char =>
      (.double,
        if char = '\n' then word
        else if char ∈ escapable then extend word char
        else extend (extend word backslash) char)

/-! ## Operators -/

def Reading.endWord (reading : Reading) : Reading :=
  match reading.word with
  | none => reading
  | some word =>
      { reading with
        word := none, role := .argument, command := reading.command.add reading.role word }

def Reading.endCommand (reading : Reading) : Reading :=
  let ended := reading.endWord
  { ended with role := .argument, command := ⟨[], []⟩, commands := ended.commands ++ [ended.command] }

/-- A number right before a redirect is a file descriptor and no argument. -/
def Reading.redirect (reading : Reading) (role : Role) (operator : Char) : Reading :=
  let ended :=
    if reading.word.any Word.isNumber then { reading with word := none } else reading.endWord
  { ended with role := role, last := some operator }

/-- What ends a simple command by itself. -/
def terminators : List Char := ['\n', ';', '(', ')', backquote]

def operators : List Char := blank ++ terminators ++ ['|', '&', '<', '>']

/-- A character outside of quotations. -/
def Reading.operate (reading : Reading) (char : Char) : Reading :=
  if char ∈ blank then { reading.endWord with last := none }
  else if char ∈ terminators then { reading.endCommand with last := none }
  else if char = '|' then
    -- `>|` is a redirect.
    if reading.last = some '>' then { reading with last := none }
    else { reading.endCommand with last := none }
  else if char = '&' then
    -- `>&` and `<&` are redirects.
    if reading.last = some '>' ∨ reading.last = some '<' then { reading with last := none }
    else { reading.endCommand with last := none }
  else if char = '<' then reading.redirect .source char
  -- `<>` opens a file to be read.
  else if reading.last = some '<' then { reading with last := none }
  else reading.redirect .target char

def step (reading : Reading) (char : Char) : Reading :=
  if reading.comment = true then
    if char = '\n' then { reading.endCommand with comment := false, last := none } else reading
  else if reading.quoting = .unquoted ∧ char ∈ operators then reading.operate char
  else if reading.quoting = .unquoted ∧ char = '#' ∧ reading.word = none then
    { reading with comment := true, last := none }
  else
    let (quoting, word) := wordStep reading.quoting reading.word char
    { reading with quoting := quoting, word := word, last := none }

def read (reading : Reading) (text : List Char) : Reading := text.foldl step reading

/-- The commands of a text from within a reading. -/
def commandsFrom (reading : Reading) (text : List Char) : List Command :=
  (read reading text).endCommand.commands

def commandsOf (text : List Char) : List Command := commandsFrom start text

theorem read_append (reading : Reading) (first second : List Char) :
    read reading (first ++ second) = read (read reading first) second :=
  List.foldl_append

theorem commandsFrom_append (reading : Reading) (first second : List Char) :
    commandsFrom reading (first ++ second) = commandsFrom (read reading first) second := by
  unfold commandsFrom
  rw [read_append]

theorem commandsFrom_cons (reading : Reading) (char : Char) (rest : List Char) :
    commandsFrom reading (char :: rest) = commandsFrom (step reading char) rest :=
  rfl

/-! ## What stays -/

/-- A command that may have got more words and targets. -/
def Command.Within (command later : Command) : Prop :=
  command.words <+: later.words ∧ command.targets <+: later.targets

theorem Command.Within.refl (command : Command) : command.Within command :=
  ⟨List.prefix_refl _, List.prefix_refl _⟩

theorem Command.Within.trans {first second third : Command} (before : first.Within second)
    (after : second.Within third) : first.Within third :=
  ⟨before.1.trans after.1, before.2.trans after.2⟩

theorem Command.within_add (command : Command) (role : Role) (word : Word) :
    command.Within (command.add role word) := by
  cases role with
  | argument =>
      simp only [Command.add]
      split
      · exact Within.refl command
      · exact ⟨List.prefix_append _ _, List.prefix_refl _⟩
  | target => exact ⟨List.prefix_refl command.words, List.prefix_append _ _⟩
  | source => exact Within.refl command

@[simp] theorem Reading.commands_endWord (reading : Reading) :
    reading.endWord.commands = reading.commands := by
  unfold Reading.endWord
  split <;> rfl

theorem Reading.within_endWord (reading : Reading) :
    reading.command.Within reading.endWord.command := by
  unfold Reading.endWord
  split
  · exact Command.Within.refl _
  · exact Command.within_add _ _ _

@[simp] theorem Reading.commands_endCommand (reading : Reading) :
    reading.endCommand.commands = reading.commands ++ [reading.endWord.command] := by
  simp [Reading.endCommand]

/-- A character adds to the command or ends it. -/
def Reading.Grows (reading later : Reading) : Prop :=
  (reading.command.Within later.command ∧ later.commands = reading.commands) ∨
    ∃ ended, reading.command.Within ended ∧ later.commands = reading.commands ++ [ended]

theorem Reading.grows_endCommand {reading later : Reading}
    (same : later.commands = reading.endCommand.commands) : reading.Grows later :=
  Or.inr ⟨reading.endWord.command, reading.within_endWord,
    same.trans reading.commands_endCommand⟩

theorem Reading.grows_redirect (reading : Reading) (role : Role) (operator : Char) :
    reading.Grows (reading.redirect role operator) := by
  unfold Reading.redirect
  split
  · exact Or.inl ⟨Command.Within.refl _, rfl⟩
  · exact Or.inl ⟨reading.within_endWord, reading.commands_endWord⟩

theorem Reading.grows_operate (reading : Reading) (char : Char) :
    reading.Grows (reading.operate char) := by
  have same : reading.Grows { reading with last := none } :=
    Or.inl ⟨Command.Within.refl _, rfl⟩
  unfold Reading.operate
  split
  · exact Or.inl ⟨reading.within_endWord, reading.commands_endWord⟩
  split
  · exact Reading.grows_endCommand rfl
  split
  · split
    · exact same
    · exact Reading.grows_endCommand rfl
  split
  · split
    · exact same
    · exact Reading.grows_endCommand rfl
  split
  · exact reading.grows_redirect _ _
  split
  · exact same
  · exact reading.grows_redirect _ _

theorem grows_step (reading : Reading) (char : Char) : reading.Grows (step reading char) := by
  unfold step
  split
  · split
    · exact Reading.grows_endCommand rfl
    · exact Or.inl ⟨Command.Within.refl _, rfl⟩
  split
  · exact reading.grows_operate char
  split
  · exact Or.inl ⟨Command.Within.refl _, rfl⟩
  · exact Or.inl ⟨Command.Within.refl _, rfl⟩

theorem commands_prefix_commandsFrom (reading : Reading) (text : List Char) :
    reading.commands <+: commandsFrom reading text := by
  induction text generalizing reading with
  | nil =>
      unfold commandsFrom
      rw [Reading.commands_endCommand]
      exact List.prefix_append _ _
  | cons char rest ih =>
      rw [commandsFrom_cons]
      have later := ih (step reading char)
      rcases grows_step reading char with ⟨_, same⟩ | ⟨ended, _, grown⟩
      · rwa [same] at later
      · rw [grown] at later
        exact (List.prefix_append _ _).trans later

/-- The command that is being read is the next one of the text. -/
theorem within_commandsFrom (reading : Reading) (text : List Char) :
    ∃ whole, (commandsFrom reading text)[reading.commands.length]? = some whole ∧
      reading.command.Within whole := by
  induction text generalizing reading with
  | nil =>
      refine ⟨reading.endWord.command, ?_, reading.within_endWord⟩
      unfold commandsFrom
      rw [Reading.commands_endCommand]
      exact List.getElem?_concat_length
  | cons char rest ih =>
      rw [commandsFrom_cons]
      rcases grows_step reading char with ⟨within, same⟩ | ⟨ended, within, grown⟩
      · obtain ⟨whole, found, later⟩ := ih (step reading char)
        rw [same] at found
        exact ⟨whole, found, within.trans later⟩
      · refine ⟨ended, ?_, within⟩
        have already := commands_prefix_commandsFrom (step reading char) rest
        rw [grown] at already
        obtain ⟨others, isWhole⟩ := already
        rw [← isWhole, List.append_assoc, List.getElem?_append_right (Nat.le_refl _), Nat.sub_self]
        rfl

/-! ## Words that stand by themselves -/

/-- A text that is one word from its beginning to its end. -/
def wordFrom : Quoting → Option Word → List Char → Option Word
  | quoting, word, [] => if quoting = .unquoted then word else none
  | quoting, word, char :: rest =>
      if quoting = .unquoted ∧ char ∈ operators then none
      else if quoting = .unquoted ∧ char = '#' ∧ word = none then none
      else wordFrom (wordStep quoting word char).1 (wordStep quoting word char).2 rest

def wordOf (text : List Char) : Option Word := wordFrom .unquoted none text

theorem read_of_wordFrom (reading : Reading) {text : List Char} {word : Word}
    (outside : reading.comment = false)
    (isWord : wordFrom reading.quoting reading.word text = some word) :
    ∃ last, read reading text =
      { reading with quoting := .unquoted, word := some word, last := last } ∧
        (text ≠ [] → last = none) := by
  induction text generalizing reading with
  | nil =>
      unfold wordFrom at isWord
      split at isWord
      · rename_i unquoted
        refine ⟨reading.last, ?_, fun notNil => absurd rfl notNil⟩
        rw [← unquoted, ← isWord]
        rfl
      · cases isWord
  | cons char rest ih =>
      unfold wordFrom at isWord
      split at isWord
      · cases isWord
      rename_i noOperator
      split at isWord
      · cases isWord
      rename_i noComment
      have stepped : step reading char =
          { reading with
            quoting := (wordStep reading.quoting reading.word char).1
            word := (wordStep reading.quoting reading.word char).2
            last := none } := by
        unfold step
        rw [if_neg (by simp [outside]), if_neg noOperator, if_neg noComment]
      obtain ⟨last, isRead, nothing⟩ := ih (step reading char) (by rw [stepped]; exact outside)
        (by rw [stepped]; exact isWord)
      refine ⟨none, ?_, fun _ => rfl⟩
      have isLast : last = none ∨ rest = [] := by
        by_cases empty : rest = []
        · exact Or.inr empty
        · exact Or.inl (nothing empty)
      have cons : read reading (char :: rest) = read (step reading char) rest := rfl
      rcases isLast with isNone | empty
      · rw [cons, isRead, isNone, stepped]
      · subst empty
        have same : (read (step reading char) []).last = (step reading char).last := rfl
        rw [isRead, stepped] at same
        rw [cons, isRead, stepped]
        simpa using same

theorem step_operator {reading : Reading} {char : Char} (unquoted : reading.quoting = .unquoted)
    (outside : reading.comment = false) (isOperator : char ∈ operators) :
    step reading char = reading.operate char := by
  unfold step
  rw [if_neg (by simp [outside]), if_pos ⟨unquoted, isOperator⟩]

/-- What may come after a word. -/
def wordEnds : List Char := blank ++ ['\n', ';', '|', '&']

/-- A word that ends is in its command. -/
theorem add_within_commandsFrom {reading : Reading} {word : Word} {after : List Char}
    (unquoted : reading.quoting = .unquoted) (outside : reading.comment = false)
    (noRedirect : reading.last = none) (begun : reading.word = some word)
    (ends : ∀ char ∈ after.head?, char ∈ wordEnds) :
    ∃ whole, (commandsFrom reading after)[reading.commands.length]? = some whole ∧
      (reading.command.add reading.role word).Within whole := by
  have ended : reading.endWord =
      { reading with
        word := none, role := .argument, command := reading.command.add reading.role word } := by
    unfold Reading.endWord
    rw [begun]
  -- Once the command ends, it stays what it is.
  have finished : ∀ commands, reading.endCommand.commands <+: commands →
      ∃ whole, commands[reading.commands.length]? = some whole ∧
        (reading.command.add reading.role word).Within whole := by
    intro commands kept
    rw [Reading.commands_endCommand, ended] at kept
    obtain ⟨others, rfl⟩ := kept
    refine ⟨_, ?_, Command.Within.refl _⟩
    rw [List.append_assoc, List.getElem?_append_right (Nat.le_refl _), Nat.sub_self]
    rfl
  cases after with
  | nil => exact finished _ (List.prefix_refl _)
  | cons char rest =>
      rw [commandsFrom_cons]
      have isEnd := ends char rfl
      have isOperator : char ∈ operators := by
        simp only [wordEnds, blank, List.cons_append, List.nil_append, List.mem_cons,
          List.not_mem_nil, or_false] at isEnd
        rcases isEnd with rfl | rfl | rfl | rfl | rfl | rfl <;> decide
      rw [step_operator unquoted outside isOperator]
      by_cases isBlank : char ∈ blank
      · have operated : reading.operate char = { reading.endWord with last := none } := by
          unfold Reading.operate
          rw [if_pos isBlank]
        have inCommand := within_commandsFrom (reading.operate char) rest
        rw [operated, ended] at inCommand ⊢
        exact inCommand
      · apply finished
        have operated : (reading.operate char).commands = reading.endCommand.commands := by
          unfold Reading.operate
          rw [if_neg isBlank, noRedirect]
          simp only [wordEnds, List.mem_append, isBlank, false_or, List.mem_cons] at isEnd
          rcases isEnd with rfl | rfl | rfl | rfl | none
          · rfl
          · rfl
          · rfl
          · rfl
          · cases none
        rw [← operated]
        exact commands_prefix_commandsFrom _ rest

/-- A text that is one word, wherever a word may begin, is a word of its command. -/
theorem add_within_of_wordOf (reading : Reading) {text after : List Char} {word : Word}
    (unquoted : reading.quoting = .unquoted) (outside : reading.comment = false)
    (between : reading.word = none) (isWord : wordOf text = some word)
    (ends : ∀ char ∈ after.head?, char ∈ wordEnds) :
    ∃ whole, (commandsFrom reading (text ++ after))[reading.commands.length]? = some whole ∧
      (reading.command.add reading.role word).Within whole := by
  have notNil : text ≠ [] := by
    rintro rfl
    cases isWord
  rw [wordOf, ← unquoted, ← between] at isWord
  obtain ⟨last, isRead, nothing⟩ := read_of_wordFrom reading outside isWord
  rw [commandsFrom_append, isRead]
  exact add_within_commandsFrom rfl outside (nothing notNil) rfl ends

/-! ## Redirects -/

/-- Where a word may begin. -/
def Reading.between (reading : Reading) : Bool :=
  reading.quoting = .unquoted && (!reading.comment && (reading.word.isNone && reading.last.isNone))

theorem Reading.between_iff {reading : Reading} : reading.between = true ↔
    reading.quoting = .unquoted ∧ reading.comment = false ∧ reading.word = none ∧
      reading.last = none := by
  simp [Reading.between]

/-- One or two signs of an output redirect. -/
theorem read_redirect (reading : Reading) {marks : List Char}
    (unquoted : reading.quoting = .unquoted) (outside : reading.comment = false)
    (noWord : reading.word = none) (noInput : reading.last ≠ some '<') (notNil : marks ≠ [])
    (areMarks : ∀ mark ∈ marks, mark = '>') :
    read reading marks = { reading with role := .target, last := some '>' } := by
  induction marks generalizing reading with
  | nil => exact absurd rfl notNil
  | cons mark rest ih =>
      obtain ⟨rfl, others⟩ := List.forall_mem_cons.mp areMarks
      have stepped : step reading '>' = { reading with role := .target, last := some '>' } := by
        rw [step_operator unquoted outside (by decide)]
        unfold Reading.operate
        rw [if_neg (by decide), if_neg (by decide), if_neg (by decide), if_neg (by decide),
          if_neg (by decide), if_neg noInput]
        simp [Reading.redirect, Reading.endWord, noWord]
      have cons : read reading ('>' :: rest) = read (step reading '>') rest := rfl
      rw [cons, stepped]
      by_cases empty : rest = []
      · rw [empty]
        rfl
      · exact ih { reading with role := .target, last := some '>' } unquoted outside noWord (by simp)
          empty others

theorem read_blanks (reading : Reading) {blanks : List Char}
    (unquoted : reading.quoting = .unquoted) (outside : reading.comment = false)
    (noWord : reading.word = none) (notNil : blanks ≠ [])
    (areBlanks : ∀ char ∈ blanks, char ∈ blank) :
    read reading blanks = { reading with last := none } := by
  induction blanks generalizing reading with
  | nil => exact absurd rfl notNil
  | cons char rest ih =>
      obtain ⟨isBlank, others⟩ := List.forall_mem_cons.mp areBlanks
      have stepped : step reading char = { reading with last := none } := by
        have isOperator : char ∈ operators := by simp [operators, isBlank]
        rw [step_operator unquoted outside isOperator]
        simp [Reading.operate, isBlank, Reading.endWord, noWord]
      have cons : read reading (char :: rest) = read (step reading char) rest := rfl
      rw [cons, stepped]
      by_cases empty : rest = []
      · rw [empty]
        rfl
      · exact ih { reading with last := none } unquoted outside noWord empty others

end ShellCommands
