import BrickTrace.Lib.ShellCommands
import BrickTrace.Core.ShellEdits

/-!
# What a shell writes of the files taken from a command

A shell reads the quotation marks of a command before it takes the command apart; the split
into segments and tokens does not.  Each segment and each token is placed in the shell's
reading of the command, and a file is the shell's own where its token stands for a word there.
-/

set_option autoImplicit false

namespace BrickTrace

open ShellCommands (Command Reading Word commandsOf commandsFrom wordOf)

/-! ## Written files -/

/-- Whether the operands of a simple command are files that it writes. -/
def writesOperands (command : Command) : Bool :=
  match command.words with
  | [] => false
  | program :: arguments =>
      let name := fileName (String.ofList program)
      ["tee", "touch", "cp", "mv", "install"].contains name ||
        (["sed", "perl"].contains name &&
          arguments.any fun argument => startsWith (String.ofList argument) "-i")

def operandsOf (command : Command) : List (List Char) :=
  command.words.tail.filter fun word => word.head? != some '-'

/-- A path is the target of an output redirect or an operand of a command that writes its
operands. -/
def WrittenByShell (command path : String) : Prop :=
  ∃ simple ∈ commandsOf command.toList, path.toList ∈ simple.targets ∨
    (writesOperands simple = true ∧ path.toList ∈ operandsOf simple)

instance (command path : String) : Decidable (WrittenByShell command path) :=
  inferInstanceAs (Decidable (∃ simple ∈ commandsOf command.toList, _))

/-! ## Places -/

/-- A piece of a text, with the shell's reading of everything before it. -/
structure Placed where
  before : Reading
  text : List Char

def Placed.token (placed : Placed) : String := trimQuotes (String.ofList placed.text)

/-- `splitSegments` with the place of each segment. -/
def placeSegments (before : Reading) (current : List Char) : List Char → List Placed
  | [] => [⟨before, current.reverse⟩]
  | '&' :: '&' :: rest =>
      ⟨before, current.reverse⟩ ::
        placeSegments (ShellCommands.read before (current.reverse ++ ['&', '&'])) [] rest
  | '|' :: '|' :: rest =>
      ⟨before, current.reverse⟩ ::
        placeSegments (ShellCommands.read before (current.reverse ++ ['|', '|'])) [] rest
  | char :: rest =>
      if char = ';' ∨ char = '|' ∨ char = '\n' then
        ⟨before, current.reverse⟩ ::
          placeSegments (ShellCommands.read before (current.reverse ++ [char])) [] rest
      else placeSegments before (char :: current) rest

/-- The pieces between white space with the place of each, after a piece that has begun. -/
def placePieces (before : Reading) (piece : List Char) : List Char → List Placed
  | [] => if piece = [] then [] else [⟨before, piece⟩]
  | char :: rest =>
      if isWhiteSpace char = true then
        (if piece = [] then [] else [⟨before, piece⟩]) ++
          placePieces (ShellCommands.read before (piece ++ [char])) [] rest
      else placePieces before (piece ++ [char]) rest

def Placed.pieces (segment : Placed) : List Placed := placePieces segment.before [] segment.text

theorem splitSegments_eq (before : Reading) (current input : List Char) :
    splitSegments current input = (placeSegments before current input).map Placed.text := by
  induction current, input using splitSegments.induct generalizing before with
  | case1 current => rfl
  | case2 current rest ih =>
      rw [splitSegments, placeSegments, List.map_cons, ← ih]
  | case3 current rest ih =>
      rw [splitSegments, placeSegments, List.map_cons, ← ih]
  | case4 current char rest noAnd noOr ends ih =>
      rw [splitSegments, placeSegments, if_pos ends, if_pos ends, List.map_cons, ← ih]
      · exact noAnd
      · exact noOr
      · exact noAnd
      · exact noOr
  | case5 current char rest noAnd noOr goesOn ih =>
      rw [splitSegments, placeSegments, if_neg goesOn, if_neg goesOn, ← ih]
      · exact noAnd
      · exact noOr
      · exact noAnd
      · exact noOr

/-- What may come after a segment. -/
def segmentEnds : List Char := [';', '|', '\n', '&']

/-- A segment is where it is placed. -/
def Placed.In (placed : Placed) (before : Reading) (text : List Char) (ends : Char → Prop) : Prop :=
  ∃ front after, text = front ++ (placed.text ++ after) ∧
    placed.before = ShellCommands.read before front ∧ ∀ char ∈ after.head?, ends char

theorem Placed.in_self {placed : Placed} {after : List Char} {ends : Char → Prop}
    (ending : ∀ char ∈ after.head?, ends char) :
    placed.In placed.before (placed.text ++ after) ends :=
  ⟨[], after, rfl, rfl, ending⟩

theorem Placed.in_append {placed : Placed} {before : Reading} {front text : List Char}
    {ends : Char → Prop} (isIn : placed.In (ShellCommands.read before front) text ends) :
    placed.In before (front ++ text) ends := by
  obtain ⟨others, after, rfl, isBefore, ending⟩ := isIn
  refine ⟨front ++ others, after, ?_, ?_, ending⟩
  · rw [List.append_assoc]
  · rw [isBefore, ShellCommands.read_append]

/-- A piece that ends here, or one after the separator. -/
theorem Placed.in_of_cons {placed : Placed} {others : List Placed} {before : Reading}
    {piece rest : List Char} {ends : Char → Prop} (separator : List Char)
    (ending : ∀ char ∈ (separator ++ rest).head?, ends char)
    (later : placed ∈ others →
      placed.In (ShellCommands.read before (piece ++ separator)) rest ends)
    (member : placed ∈ ⟨before, piece⟩ :: others) :
    placed.In before (piece ++ (separator ++ rest)) ends := by
  rcases List.mem_cons.mp member with rfl | member
  · exact Placed.in_self ending
  · rw [← List.append_assoc]
    exact Placed.in_append (later member)

theorem in_of_placeSegments {before : Reading} {current input : List Char} {segment : Placed}
    (member : segment ∈ placeSegments before current input) :
    segment.In before (current.reverse ++ input) (· ∈ segmentEnds) := by
  induction before, current, input using placeSegments.induct with
  | case1 before current =>
      rw [placeSegments, List.mem_singleton] at member
      subst member
      exact Placed.in_self (by simp)
  | case2 before current rest ih =>
      rw [placeSegments] at member
      exact Placed.in_of_cons ['&', '&'] (by simp [segmentEnds]) ih member
  | case3 before current rest ih =>
      rw [placeSegments] at member
      exact Placed.in_of_cons ['|', '|'] (by simp [segmentEnds]) ih member
  | case4 before current char rest noAnd noOr ends ih =>
      rw [placeSegments, if_pos ends] at member
      · refine Placed.in_of_cons [char] ?_ ih member
        rcases ends with rfl | rfl | rfl <;> simp [segmentEnds]
      · exact noAnd
      · exact noOr
  | case5 before current char rest noAnd noOr goesOn ih =>
      rw [placeSegments, if_neg goesOn] at member
      · have later := ih member
        rwa [List.reverse_cons, List.append_assoc] at later
      · exact noAnd
      · exact noOr

theorem in_of_placePieces {before : Reading} {piece text : List Char} {placed : Placed}
    (member : placed ∈ placePieces before piece text) :
    placed.In before (piece ++ text) (isWhiteSpace · = true) := by
  induction text generalizing before piece with
  | nil =>
      rw [placePieces] at member
      split at member
      · cases member
      · rw [List.mem_singleton.mp member]
        exact Placed.in_self (by simp)
  | cons char rest ih =>
      rw [placePieces] at member
      split at member
      · rename_i white
        have later : placed ∈ placePieces (ShellCommands.read before (piece ++ [char])) [] rest →
            placed.In (ShellCommands.read before (piece ++ [char])) rest (isWhiteSpace · = true) := ih
        refine Placed.in_of_cons [char] (by simpa using white) later ?_
        split at member
        · exact List.mem_cons_of_mem _ member
        · exact member
      · have later := ih member
        rwa [List.append_assoc] at later

theorem before_of_head_of_begun {before : Reading} {piece text : List Char} {first : Placed}
    (begun : piece ≠ []) (isFirst : (placePieces before piece text).head? = some first) :
    first.before = before := by
  induction text generalizing piece with
  | nil =>
      rw [placePieces, if_neg begun] at isFirst
      cases isFirst
      rfl
  | cons char rest ih =>
      rw [placePieces, if_neg begun] at isFirst
      split at isFirst
      · cases isFirst
        rfl
      · exact ih (by simp) isFirst

theorem before_of_head {before : Reading} {text : List Char} {first : Placed}
    (isFirst : (placePieces before [] text).head? = some first) :
    ∃ gap, (∀ char ∈ gap, char ∈ text ∧ isWhiteSpace char = true) ∧
      first.before = ShellCommands.read before gap := by
  induction text generalizing before with
  | nil => cases isFirst
  | cons char rest ih =>
      rw [placePieces] at isFirst
      split at isFirst
      · rename_i white
        obtain ⟨gap, areWhite, isBefore⟩ := ih isFirst
        refine ⟨char :: gap, ?_, isBefore⟩
        rintro other (_ | ⟨_, member⟩)
        · exact ⟨List.mem_cons_self, white⟩
        · exact ⟨List.mem_cons_of_mem _ (areWhite other member).1, (areWhite other member).2⟩
      · exact ⟨[], by simp, before_of_head_of_begun (by simp) isFirst⟩

/-- The piece right after another is placed after the white space between. -/
theorem before_of_next {before : Reading} {piece text : List Char} {first second : Placed}
    {later : List Placed} (isNext : first :: second :: later <:+ placePieces before piece text) :
    ∃ gap, gap ≠ [] ∧ (∀ char ∈ gap, char ∈ text ∧ isWhiteSpace char = true) ∧
      second.before = ShellCommands.read first.before (first.text ++ gap) := by
  induction text generalizing before piece with
  | nil =>
      have few : (placePieces before piece []).length ≤ 1 := by
        rw [placePieces]
        split <;> simp
      have many := isNext.length_le
      simp only [List.length_cons] at many
      omega
  | cons char rest ih =>
      have widen : (∃ gap, gap ≠ [] ∧ (∀ char ∈ gap, char ∈ rest ∧ isWhiteSpace char = true) ∧
          second.before = ShellCommands.read first.before (first.text ++ gap)) →
          ∃ gap, gap ≠ [] ∧ (∀ other ∈ gap, other ∈ char :: rest ∧ isWhiteSpace other = true) ∧
            second.before = ShellCommands.read first.before (first.text ++ gap) := by
        rintro ⟨gap, notNil, areWhite, isBefore⟩
        exact ⟨gap, notNil, fun other member =>
          ⟨List.mem_cons_of_mem _ (areWhite other member).1, (areWhite other member).2⟩, isBefore⟩
      rw [placePieces] at isNext
      split at isNext
      · rename_i white
        split at isNext
        · exact widen (ih isNext)
        · rcases List.suffix_cons_iff.mp isNext with here | inLater
          · obtain ⟨rfl, next⟩ := List.cons.inj here
            have isHead : (placePieces (ShellCommands.read before (piece ++ [char])) [] rest).head? =
                some second := congrArg List.head? next.symm
            obtain ⟨gap, areWhite, isBefore⟩ := before_of_head isHead
            refine ⟨char :: gap, List.cons_ne_nil _ _, ?_, ?_⟩
            · rintro other (_ | ⟨_, member⟩)
              · exact ⟨List.mem_cons_self, white⟩
              · exact ⟨List.mem_cons_of_mem _ (areWhite other member).1, (areWhite other member).2⟩
            · rw [isBefore, ← ShellCommands.read_append, List.append_assoc]
              rfl
          · exact widen (ih inLater)
      · exact widen (ih isNext)

theorem modifyHead_nil_append (words : List (List Char)) :
    words.modifyHead (fun word => [] ++ word) = words := by
  cases words <;> rfl

theorem placePieces_text (before : Reading) (piece text : List Char) :
    (placePieces before piece text).map Placed.text =
      ((text.splitOnP isWhiteSpace).modifyHead (piece ++ ·)).filter fun word => !word.isEmpty := by
  induction text generalizing before piece with
  | nil =>
      rw [placePieces]
      by_cases empty : piece = []
      · simp [empty]
      · simp [empty]
  | cons char rest ih =>
      rw [placePieces, List.splitOnP_cons_eq_if_modifyHead]
      cases white : isWhiteSpace char with
      | true =>
          rw [if_pos rfl, if_pos rfl, List.map_append, ih, modifyHead_nil_append]
          by_cases empty : piece = []
          · simp [empty]
          · simp [empty]
      | false =>
          rw [if_neg Bool.false_ne_true, if_neg Bool.false_ne_true, ih, List.modifyHead_modifyHead]
          congr 2
          funext word
          simp

theorem text_ne_nil {segment piece : Placed} (member : piece ∈ segment.pieces) : piece.text ≠ [] := by
  have inTexts := List.mem_map_of_mem (f := Placed.text) member
  rw [Placed.pieces, placePieces_text] at inTexts
  have notEmpty := (List.mem_filter.mp inTexts).2
  rintro empty
  rw [empty] at notEmpty
  cases notEmpty

theorem tokenize_eq (segment : Placed) :
    tokenize segment.text = (segment.pieces.map Placed.token).filter (· != "") := by
  have pieces := placePieces_text segment.before [] segment.text
  rw [modifyHead_nil_append] at pieces
  unfold tokenize whitespaceWords
  rw [String.toList_ofList, ← pieces, List.map_map, List.map_map]
  rfl

/-! ## Taken tokens -/

def Placed.isOperand (placed : Placed) : Bool := !isFlag placed.token

/-- Which of its arguments a program writes. -/
inductive Writes where
  | operands
  | lastInPlace
  | lastOperand
  | nothing
deriving DecidableEq

def writesOf (name : String) : Writes :=
  if ["tee", "touch"].contains name then .operands
  else if ["sed", "perl"].contains name then .lastInPlace
  else if ["cp", "mv", "install"].contains name then .lastOperand
  else .nothing

/-- What `scanCommands` takes for files. -/
def takenByCommand : List Placed → List Placed
  | [] => []
  | program :: arguments =>
      match writesOf (fileName program.token) with
      | .operands => arguments.filter Placed.isOperand
      | .lastInPlace =>
          if (program :: arguments).any fun argument => startsWith argument.token "-i" then
            ((program :: arguments).getLast?.filter Placed.isOperand).toList
          else []
      | .lastOperand => (arguments.reverse.find? Placed.isOperand).toList
      | .nothing => []

theorem scanCommands_tokens (tokens : List Placed) :
    scanCommands (tokens.map Placed.token) =
      (takenByCommand tokens).filterMap fun argument => pushPath argument.token := by
  cases tokens with
  | nil => rfl
  | cons program arguments =>
      have operand : Placed.isOperand = (!isFlag ·) ∘ Placed.token := by
        funext argument
        simp only [Placed.isOperand, Function.comp_apply]
      have pushed := (Function.comp_def pushPath Placed.token).symm
      have one : ∀ argument : Option Placed, ((argument.map Placed.token).bind pushPath).toList =
          argument.toList.filterMap (pushPath ∘ Placed.token) := by
        intro argument
        cases argument with
        | none => rfl
        | some argument =>
            cases isPushed : pushPath argument.token <;> simp [isPushed]
      have many : ((arguments.map Placed.token).filter (!isFlag ·)).filterMap pushPath =
          (arguments.filter ((!isFlag ·) ∘ Placed.token)).filterMap (pushPath ∘ Placed.token) := by
        rw [List.filter_map, List.filterMap_map]
      have last : (((program.token :: arguments.map Placed.token).getLast?.filter (!isFlag ·)).bind
          pushPath).toList = ((program :: arguments).getLast?.filter
            ((!isFlag ·) ∘ Placed.token)).toList.filterMap (pushPath ∘ Placed.token) := by
        rw [← one, ← List.map_cons, List.getLast?_map, Option.filter_map]
      have found : (((arguments.map Placed.token).reverse.find? (!isFlag ·)).bind pushPath).toList =
          (arguments.reverse.find? ((!isFlag ·) ∘ Placed.token)).toList.filterMap
            (pushPath ∘ Placed.token) := by
        rw [← one, ← List.map_reverse, List.find?_map]
      have inPlace : (program.token :: arguments.map Placed.token).any (startsWith · "-i") =
          (program :: arguments).any fun argument => startsWith argument.token "-i" := by
        simp only [List.any_cons, List.any_map, Function.comp_def]
      rw [List.map_cons, pushed]
      unfold takenByCommand
      rw [operand]
      simp only [scanCommands]
      split
      · rename_i isName
        have writes : writesOf (fileName program.token) = .operands := by rw [isName]; decide
        rw [writes]
        exact many
      · rename_i isName
        have writes : writesOf (fileName program.token) = .lastInPlace := by rw [isName]; decide
        rw [writes, inPlace]
        dsimp only
        split
        · exact last
        · rfl
      · rename_i isName
        have writes : writesOf (fileName program.token) = .lastInPlace := by rw [isName]; decide
        rw [writes, inPlace]
        dsimp only
        split
        · exact last
        · rfl
      · rename_i isName
        have writes : writesOf (fileName program.token) = .operands := by rw [isName]; decide
        rw [writes]
        exact many
      · rename_i isName
        have writes : writesOf (fileName program.token) = .lastOperand := by rw [isName]; decide
        rw [writes]
        exact found
      · rename_i isName
        have writes : writesOf (fileName program.token) = .lastOperand := by rw [isName]; decide
        rw [writes]
        exact found
      · rename_i isName
        have writes : writesOf (fileName program.token) = .lastOperand := by rw [isName]; decide
        rw [writes]
        exact found
      · rename_i noTee noSed noPerl noTouch noCp noMv noInstall
        have writes : writesOf (fileName program.token) = .nothing := by
          simp only [writesOf, List.contains_cons, List.contains_nil, Bool.or_false, Bool.or_eq_true,
            beq_iff_eq]
          rw [if_neg (not_or.mpr ⟨noTee, noTouch⟩), if_neg (not_or.mpr ⟨noSed, noPerl⟩),
            if_neg (not_or.mpr ⟨noCp, not_or.mpr ⟨noMv, noInstall⟩⟩)]
        rw [writes]
        rfl

theorem mem_scanRedirects {tokens : List String} {file : String} (found : file ∈ scanRedirects tokens) :
    (∃ token target later, token :: target :: later <:+ tokens ∧ (token = ">" ∨ token = ">>") ∧
        pushPath target = some file) ∨
      ∃ token ∈ tokens, gluedTarget token = some file := by
  induction tokens using scanRedirects.induct with
  | case1 => cases found
  | case2 token => exact Or.inr ⟨token, List.mem_singleton.mpr rfl, Option.mem_toList.mp found⟩
  | case3 token target rest isRedirect ih =>
      unfold scanRedirects at found
      rw [if_pos isRedirect] at found
      rcases List.mem_append.mp found with isTarget | later
      · have pushed := Option.mem_toList.mp isTarget
        exact Or.inl ⟨token, target, rest, List.suffix_refl _, isRedirect, pushed⟩
      · rcases ih later with ⟨other, next, others, isSuffix, marks⟩ | ⟨other, member, glued⟩
        · have further := isSuffix.trans (List.suffix_append [token, target] rest)
          exact Or.inl ⟨other, next, others, further, marks⟩
        · exact Or.inr ⟨other, List.mem_cons_of_mem _ (List.mem_cons_of_mem _ member), glued⟩
  | case4 token target rest notRedirect ih =>
      unfold scanRedirects at found
      rw [if_neg notRedirect] at found
      rcases List.mem_append.mp found with isGlued | later
      · exact Or.inr ⟨token, List.mem_cons_self, Option.mem_toList.mp isGlued⟩
      · rcases ih later with ⟨other, next, others, isSuffix, marks⟩ | ⟨other, member, glued⟩
        · exact Or.inl ⟨other, next, others, isSuffix.trans (List.suffix_cons _ _), marks⟩
        · exact Or.inr ⟨other, List.mem_cons_of_mem _ member, glued⟩

/-! ## Commands that are taken apart as a shell does -/

/-- A piece is one word to the shell, which stands for this text. -/
def Placed.standsFor (placed : Placed) (text : String) : Bool :=
  placed.before.between && (wordOf placed.text).map (·.chars) == some text.toList

/-- White space that a shell takes for blanks. -/
def onlyBlanks (text : List Char) : Bool :=
  text.all fun char => !isWhiteSpace char || ShellWords.blank.contains char

/-- What is taken after a redirect's sign, or with it, is the word after an unquoted sign. -/
def redirectRight (segment token : Placed) (later : List Placed) : Bool :=
  if token.token = ">" ∨ token.token = ">>" then
    (later.find? (·.token != "")).all fun target =>
      (pushPath target.token).all fun path =>
        onlyBlanks segment.text && (token.before.between && (token.text.all (· == '>') &&
          (later.head?.any (·.token != "") && target.standsFor path)))
  else
    (gluedTarget token.token).all fun path =>
      onlyBlanks segment.text && (token.before.between && (token.text.head? == some '>' &&
        (wordOf (token.text.dropWhile (· == '>'))).map (·.chars) == some path.toList))

/-- A piece stands where a shell begins a simple command, and names its program. -/
def Placed.startsCommand (program : Placed) : Bool :=
  program.standsFor program.token && (!program.token.toList.contains '=' &&
    (program.before.role == .argument && program.before.command.words.isEmpty))

/-- A piece stands after the program of the same simple command. -/
def Placed.isAfter (argument program : Placed) : Bool :=
  argument.before.commands.length == program.before.commands.length &&
    !argument.before.command.words.isEmpty

def Placed.isInPlaceFlag (flag program : Placed) : Bool :=
  startsWith flag.token "-i" && (flag.standsFor flag.token &&
    (flag.before.role == .argument && flag.isAfter program))

/-- What is taken of a program's arguments is one of its words, and no source of its input. -/
def operandRight (segment program : Placed) (arguments : List Placed) (argument : Placed)
    (path : String) : Bool :=
  onlyBlanks segment.text && (program.startsCommand && (argument.standsFor path &&
    (argument.before.role != .source && (argument.isAfter program &&
      (writesOf (fileName program.token) != .lastInPlace ||
        arguments.any (·.isInPlaceFlag program))))))

def Placed.redirectsRight (segment : Placed) : Bool :=
  segment.pieces.tails.all fun pieces =>
    match pieces with
    | [] => true
    | token :: later => redirectRight segment token later

def Placed.tokens (segment : Placed) : List Placed := segment.pieces.filter (·.token != "")

def Placed.commandRight (segment : Placed) : Bool :=
  match segment.tokens with
  | [] => true
  | program :: arguments =>
      (takenByCommand (program :: arguments)).all fun argument =>
        (pushPath argument.token).all (operandRight segment program arguments argument)

/-- Signs of what is not read here: here-documents, conditional and arithmetic expressions. -/
def unreadMarks : List String := ["<<", "[[", "(("]

def readsAsShell (command : String) : Bool :=
  unreadMarks.all (!containsText command ·) &&
    (placeSegments ShellCommands.start [] command.toList).all fun segment =>
      segment.redirectsRight && segment.commandRight

theorem tokenize_tokens (segment : Placed) :
    tokenize segment.text = segment.tokens.map Placed.token := by
  rw [tokenize_eq, Placed.tokens, List.filter_map]
  rfl

section Segments

variable {command : String} {segment : Placed}
  (isSegment : segment ∈ placeSegments ShellCommands.start [] command.toList)
  (blanks : onlyBlanks segment.text = true)

include isSegment blanks

theorem commandsOf_at {piece : Placed} (member : piece ∈ segment.pieces) :
    ∃ after, commandsOf command.toList = commandsFrom piece.before (piece.text ++ after) ∧
      ∀ char ∈ after.head?, char ∈ ShellCommands.wordEnds := by
  obtain ⟨front, after, isText, isBefore, ends⟩ := in_of_placeSegments isSegment
  obtain ⟨inner, rest, isInner, isPlaced, white⟩ := in_of_placePieces member
  rw [List.nil_append] at isInner
  refine ⟨rest ++ after, ?_, ?_⟩
  · rw [List.reverse_nil, List.nil_append] at isText
    rw [commandsOf, isText, ShellCommands.commandsFrom_append, ← isBefore, isInner,
      List.append_assoc, ShellCommands.commandsFrom_append, ← isPlaced, List.append_assoc]
  · intro char isNext
    cases rest with
    | nil =>
        have isEnd := ends char isNext
        simp only [segmentEnds, List.mem_cons, List.not_mem_nil, or_false] at isEnd
        rcases isEnd with rfl | rfl | rfl | rfl <;> decide
    | cons next others =>
        cases isNext
        have inText : char ∈ segment.text := by
          rw [isInner]
          simp
        have blank := List.all_eq_true.mp blanks char inText
        rw [white char rfl] at blank
        have isBlank : char ∈ ShellWords.blank := by simpa using blank
        exact List.mem_append_left _ isBlank

theorem word_of_standsFor {piece : Placed} {text : String} (member : piece ∈ segment.pieces)
    (stands : piece.standsFor text = true) :
    ∃ whole word, (commandsOf command.toList)[piece.before.commands.length]? = some whole ∧
      word.chars = text.toList ∧ (piece.before.command.add piece.before.role word).Within whole := by
  rw [Placed.standsFor, Bool.and_eq_true, beq_iff_eq] at stands
  obtain ⟨between, isText⟩ := stands
  obtain ⟨word, isWord, isChars⟩ := Option.map_eq_some_iff.mp isText
  obtain ⟨unquoted, outside, noWord, _⟩ := Reading.between_iff.mp between
  obtain ⟨after, isCommands, ends⟩ := commandsOf_at isSegment blanks member
  obtain ⟨whole, found, within⟩ :=
    ShellCommands.add_within_of_wordOf piece.before unquoted outside noWord isWord ends
  exact ⟨whole, word, by rw [isCommands, found], isChars, within⟩

/-- A piece that is taken after a redirect's sign is a target. -/
theorem target_of_redirect {token target : Placed} {later : List Placed} {path : String}
    (isNext : token :: target :: later <:+ segment.pieces) (between : token.before.between = true)
    (signs : ∀ sign ∈ token.text, sign = '>') (stands : target.standsFor path = true) :
    ∃ simple ∈ commandsOf command.toList, path.toList ∈ simple.targets := by
  have tokenIn : token ∈ segment.pieces := isNext.subset List.mem_cons_self
  have targetIn : target ∈ segment.pieces :=
    isNext.subset (List.mem_cons_of_mem _ List.mem_cons_self)
  obtain ⟨unquoted, outside, noWord, noLast⟩ := Reading.between_iff.mp between
  obtain ⟨gap, notNil, areWhite, isBefore⟩ := before_of_next isNext
  have areBlanks : ∀ char ∈ gap, char ∈ ShellWords.blank := by
    intro char member
    obtain ⟨inText, white⟩ := areWhite char member
    have blank := List.all_eq_true.mp blanks char inText
    rw [white] at blank
    simpa using blank
  have isTarget : target.before.role = .target := by
    rw [isBefore, ShellCommands.read_append, ShellCommands.read_redirect _ unquoted outside noWord
        (by simp [noLast]) (text_ne_nil tokenIn) signs,
      ShellCommands.read_blanks { token.before with role := .target, last := some '>' } unquoted
        outside noWord notNil areBlanks]
  obtain ⟨whole, word, found, isChars, within⟩ := word_of_standsFor isSegment blanks targetIn stands
  refine ⟨whole, List.mem_of_getElem? found, within.2.subset ?_⟩
  rw [isTarget, ← isChars]
  exact List.mem_append_right _ List.mem_cons_self

theorem target_of_glued {token : Placed} {path : String} (member : token ∈ segment.pieces)
    (between : token.before.between = true) (isSign : token.text.head? = some '>')
    (stands : (wordOf (token.text.dropWhile (· == '>'))).map (·.chars) = some path.toList) :
    ∃ simple ∈ commandsOf command.toList, path.toList ∈ simple.targets := by
  obtain ⟨unquoted, outside, noWord, noLast⟩ := Reading.between_iff.mp between
  obtain ⟨after, isCommands, ends⟩ := commandsOf_at isSegment blanks member
  obtain ⟨word, isWord, isChars⟩ := Option.map_eq_some_iff.mp stands
  have signs : token.text.takeWhile (· == '>') ≠ [] := by
    intro none
    cases isText : token.text with
    | nil =>
        rw [isText] at isSign
        cases isSign
    | cons sign rest =>
        rw [isText] at isSign none
        cases isSign
        simp at none
  have areSigns : ∀ sign ∈ token.text.takeWhile (· == '>'), sign = '>' := by
    intro sign inSigns
    simpa using List.mem_takeWhile_imp inSigns
  have isRead :=
    ShellCommands.read_redirect _ unquoted outside noWord (by simp [noLast]) signs areSigns
  obtain ⟨whole, found, within⟩ := ShellCommands.add_within_of_wordOf
    { token.before with role := .target, last := some '>' } unquoted outside noWord isWord ends
  rw [← isRead, ← ShellCommands.commandsFrom_append, ← List.append_assoc,
    List.takeWhile_append_dropWhile, ← isCommands] at found
  refine ⟨whole, List.mem_of_getElem? found, within.2.subset ?_⟩
  rw [← isChars]
  exact List.mem_append_right _ List.mem_cons_self

/-- A word that is no assignment and not the first one is an argument. -/
theorem argument_of_isAfter {program argument : Placed} {text : String} {whole : Command}
    (member : argument ∈ segment.pieces) (stands : argument.standsFor text = true)
    (isArgument : argument.before.role = .argument) (isAfter : argument.isAfter program = true)
    (found : (commandsOf command.toList)[program.before.commands.length]? = some whole) :
    text.toList ∈ whole.words.tail := by
  obtain ⟨same, word, foundHere, isChars, within⟩ := word_of_standsFor isSegment blanks member stands
  simp only [Placed.isAfter, Bool.and_eq_true, beq_iff_eq, Bool.not_eq_true',
    List.isEmpty_eq_false_iff] at isAfter
  obtain ⟨sameCommand, notFirst⟩ := isAfter
  rw [sameCommand, found] at foundHere
  cases foundHere
  have added : (argument.before.command.add argument.before.role word).words =
      argument.before.command.words ++ [word.chars] := by
    rw [isArgument]
    simp only [Command.add]
    rw [if_neg fun first => notFirst first.1]
  rw [← isChars]
  obtain ⟨others, isWhole⟩ := within.1
  rw [added] at isWhole
  rw [← isWhole]
  cases isWords : argument.before.command.words with
  | nil => exact absurd isWords notFirst
  | cons first rest => simp

/-- The program of the simple command that a piece starts. -/
theorem words_of_startsCommand {program : Placed} (member : program ∈ segment.pieces)
    (starts : program.startsCommand = true) :
    ∃ whole rest, (commandsOf command.toList)[program.before.commands.length]? = some whole ∧
      whole.words = program.token.toList :: rest := by
  simp only [Placed.startsCommand, Bool.and_eq_true, beq_iff_eq, List.isEmpty_iff,
    Bool.not_eq_true'] at starts
  obtain ⟨stands, noSign, isArgument, isFirst⟩ := starts
  obtain ⟨whole, word, found, isChars, within⟩ := word_of_standsFor isSegment blanks member stands
  have noAssignment : word.isAssignment = false := by
    rw [← isChars] at noSign
    simp only [Word.isAssignment, Bool.and_eq_false_iff, decide_eq_false_iff_not]
    exact Or.inr (Or.inl (by simpa using noSign))
  have added : (program.before.command.add program.before.role word).words = [word.chars] := by
    rw [isArgument]
    simp only [Command.add]
    rw [if_neg (by simp [noAssignment]), isFirst]
    rfl
  obtain ⟨others, isWhole⟩ := within.1
  rw [added, isChars] at isWhole
  exact ⟨whole, others, found, isWhole.symm⟩

end Segments

theorem mem_tokens_of_takenByCommand {tokens : List Placed} {argument : Placed}
    (member : argument ∈ takenByCommand tokens) : argument ∈ tokens := by
  cases tokens with
  | nil => cases member
  | cons program arguments =>
      rw [takenByCommand] at member
      split at member
      · exact List.mem_cons_of_mem _ (List.mem_of_mem_filter member)
      · split at member
        · have isLast := (Option.filter_eq_some_iff.mp (Option.mem_toList.mp member)).1
          exact List.mem_of_getLast? isLast
        · cases member
      · have isFound := List.mem_of_find?_eq_some (Option.mem_toList.mp member)
        exact List.mem_cons_of_mem _ (List.mem_reverse.mp isFound)
      · cases member

theorem writesOf_ne_nothing {program argument : Placed} {arguments : List Placed}
    (member : argument ∈ takenByCommand (program :: arguments)) :
    writesOf (fileName program.token) ≠ .nothing := by
  intro nothing
  rw [takenByCommand, nothing] at member
  cases member

theorem contains_of_writesOf {name : String} (writes : writesOf name ≠ .nothing) :
    ["tee", "touch", "cp", "mv", "install"].contains name = true ∨
      (writesOf name = .lastInPlace ∧ ["sed", "perl"].contains name = true) := by
  unfold writesOf at writes ⊢
  by_cases operands : ["tee", "touch"].contains name = true
  · left
    revert operands
    simp only [List.contains_cons, List.contains_nil, Bool.or_eq_true]
    tauto
  · rw [if_neg operands] at writes ⊢
    by_cases inPlace : ["sed", "perl"].contains name = true
    · exact Or.inr ⟨if_pos inPlace, inPlace⟩
    · rw [if_neg inPlace] at writes ⊢
      by_cases lastOperand : ["cp", "mv", "install"].contains name = true
      · left
        revert lastOperand
        simp only [List.contains_cons, List.contains_nil, Bool.or_eq_true]
        tauto
      · rw [if_neg lastOperand] at writes
        exact absurd rfl writes

theorem any_of_flag {flag start : String} {words : List (List Char)} (member : flag.toList ∈ words)
    (begins : startsWith flag start = true) :
    (words.any fun argument => startsWith (String.ofList argument) start) = true := by
  apply List.any_eq_true.mpr
  refine ⟨flag.toList, member, ?_⟩
  rw [String.ofList_toList]
  exact begins

/-- What is taken of a program's arguments is written. -/
theorem written_of_operandRight {command path : String} {segment program argument : Placed}
    {arguments : List Placed}
    (isSegment : segment ∈ placeSegments ShellCommands.start [] command.toList)
    (isTokens : segment.tokens = program :: arguments)
    (member : argument ∈ takenByCommand (program :: arguments))
    (isPath : isShellPath path = true)
    (right : operandRight segment program arguments argument path = true) :
    WrittenByShell command path := by
  have inPieces : ∀ token ∈ program :: arguments, token ∈ segment.pieces := by
    intro token inTokens
    rw [← isTokens] at inTokens
    exact List.mem_of_mem_filter inTokens
  have argumentIn := inPieces argument (mem_tokens_of_takenByCommand member)
  simp only [operandRight, Bool.and_eq_true, bne_iff_ne, ne_eq] at right
  obtain ⟨blanks, starts, stands, notSource, isAfter, inPlace⟩ := right
  obtain ⟨whole, rest, found, isWords⟩ :=
    words_of_startsCommand isSegment blanks (inPieces program List.mem_cons_self) starts
  refine ⟨whole, List.mem_of_getElem? found, ?_⟩
  cases isRole : argument.before.role with
  | source => exact absurd isRole notSource
  | target =>
      left
      obtain ⟨same, word, foundHere, isChars, within⟩ :=
        word_of_standsFor isSegment blanks argumentIn stands
      simp only [Placed.isAfter, Bool.and_eq_true, beq_iff_eq] at isAfter
      rw [isAfter.1, found] at foundHere
      cases foundHere
      apply within.2.subset
      rw [isRole, ← isChars]
      exact List.mem_append_right _ List.mem_cons_self
  | argument =>
      right
      have inTail := argument_of_isAfter isSegment blanks argumentIn stands isRole isAfter found
      constructor
      · unfold writesOperands
        rw [isWords]
        simp only [String.ofList_toList, Bool.or_eq_true, Bool.and_eq_true]
        rcases contains_of_writesOf (writesOf_ne_nothing member) with operands | ⟨lastInPlace, isSed⟩
        · exact Or.inl operands
        · right
          refine ⟨isSed, ?_⟩
          rw [lastInPlace] at inPlace
          simp only [bne_self_eq_false, Bool.false_or, List.any_eq_true] at inPlace
          obtain ⟨flag, flagIn, isFlagged⟩ := inPlace
          simp only [Placed.isInPlaceFlag, Bool.and_eq_true, beq_iff_eq] at isFlagged
          obtain ⟨begins, flagStands, flagRole, flagAfter⟩ := isFlagged
          have flagInPieces := inPieces flag (List.mem_cons_of_mem _ flagIn)
          have flagInTail :=
            argument_of_isAfter isSegment blanks flagInPieces flagStands flagRole flagAfter found
          rw [isWords] at flagInTail
          exact any_of_flag flagInTail begins
      · apply List.mem_filter.mpr
        refine ⟨inTail, ?_⟩
        simp only [isShellPath, Bool.and_eq_true] at isPath
        exact isPath.1.1.1.1.1.1.2

theorem suffix_of_map_filter {α β : Type} {keeps : α → Bool} {text : α → β} {first : β}
    {others : List β} {items : List α} (isSuffix : first :: others <:+ (items.filter keeps).map text) :
    ∃ item later, item :: later <:+ items ∧ text item = first ∧
      (later.filter keeps).map text = others := by
  induction items with
  | nil => cases List.suffix_nil.mp isSuffix
  | cons item later ih =>
      by_cases kept : keeps item = true
      · rw [List.filter_cons_of_pos kept, List.map_cons] at isSuffix
        rcases List.suffix_cons_iff.mp isSuffix with here | inLater
        · obtain ⟨isFirst, areOthers⟩ := List.cons.inj here
          exact ⟨item, later, List.suffix_refl _, isFirst.symm, areOthers.symm⟩
        · obtain ⟨found, rest, isRest, texts⟩ := ih inLater
          exact ⟨found, rest, isRest.trans (List.suffix_cons _ _), texts⟩
      · rw [List.filter_cons_of_neg kept] at isSuffix
        obtain ⟨found, rest, isRest, texts⟩ := ih isSuffix
        exact ⟨found, rest, isRest.trans (List.suffix_cons _ _), texts⟩

theorem redirectRight_of_suffix {segment token : Placed} {later : List Placed}
    (right : segment.redirectsRight = true) (isSuffix : token :: later <:+ segment.pieces) :
    redirectRight segment token later = true :=
  List.all_eq_true.mp right _ ((List.mem_tails _ _).mpr isSuffix)

/-- What is taken by a redirect is its target. -/
theorem target_of_redirectsRight {command path : String} {segment : Placed}
    (isSegment : segment ∈ placeSegments ShellCommands.start [] command.toList)
    (right : segment.redirectsRight = true) (found : path ∈ scanRedirects (tokenize segment.text)) :
    ∃ simple ∈ commandsOf command.toList, path.toList ∈ simple.targets := by
  rw [tokenize_tokens] at found
  rcases mem_scanRedirects found with
    ⟨sign, next, later, isSuffix, isSign, pushed⟩ | ⟨sign, inTokens, glued⟩
  · obtain ⟨token, pieces, inPieces, rfl, others⟩ := suffix_of_map_filter isSuffix
    obtain ⟨target, targets, isTarget, rfl, _⟩ := List.map_eq_cons_iff.mp others
    have isFound : pieces.find? (·.token != "") = some target := by
      rw [← List.head?_filter, isTarget]
      rfl
    have here := redirectRight_of_suffix right inPieces
    rw [redirectRight, if_pos isSign, isFound, Option.all_some, pushed, Option.all_some] at here
    simp only [Bool.and_eq_true] at here
    obtain ⟨blanks, between, signs, isNext, stands⟩ := here
    cases pieces with
    | nil => cases isFound
    | cons head rest =>
        rw [List.head?_cons, Option.any_some] at isNext
        rw [List.find?_cons_of_pos (p := fun piece : Placed => piece.token != "") isNext] at isFound
        cases isFound
        exact target_of_redirect isSegment blanks inPieces between (by simpa using signs) stands
  · obtain ⟨token, member, rfl⟩ := List.mem_map.mp inTokens
    have inPieces : token ∈ segment.pieces := List.mem_of_mem_filter member
    obtain ⟨front, pieces, isPieces⟩ := List.append_of_mem inPieces
    have here := redirectRight_of_suffix right ⟨front, isPieces.symm⟩
    have notAlone : ¬(token.token = ">" ∨ token.token = ">>") := by
      rintro (alone | alone)
      · have nothing : gluedTarget ">" = none := by decide
        rw [alone, nothing] at glued
        cases glued
      · have nothing : gluedTarget ">>" = none := by decide
        rw [alone, nothing] at glued
        cases glued
    rw [redirectRight, if_neg notAlone, glued, Option.all_some] at here
    simp only [Bool.and_eq_true, beq_iff_eq] at here
    obtain ⟨blanks, between, isSign, stands⟩ := here
    exact target_of_glued isSegment blanks inPieces between isSign stands

theorem written_of_commandRight {command path : String} {segment : Placed}
    (isSegment : segment ∈ placeSegments ShellCommands.start [] command.toList)
    (right : segment.commandRight = true) (found : path ∈ scanCommands (tokenize segment.text)) :
    WrittenByShell command path := by
  rw [tokenize_tokens, scanCommands_tokens] at found
  obtain ⟨argument, member, pushed⟩ := List.mem_filterMap.mp found
  cases isTokens : segment.tokens with
  | nil =>
      rw [isTokens] at member
      cases member
  | cons program arguments =>
      rw [isTokens] at member
      rw [Placed.commandRight, isTokens] at right
      have here := List.all_eq_true.mp right argument member
      rw [pushed, Option.all_some] at here
      exact written_of_operandRight isSegment isTokens member (isShellPath_of_pushPath pushed) here

end BrickTrace
