import Mathlib.Data.List.Sort
import BrickTrace.Lib.Distinct
import BrickTrace.Protocol.Text

/-!
# The files that a shell command writes

A command is split where a simple command ends, and only the patterns that surely write a
file are taken from each part.  A patch in the command is read as a patch instead.
-/

set_option autoImplicit false

namespace BrickTrace

/-- The texts in order, each of them once. -/
def sortedTexts (texts : List String) : List String :=
  (texts.insertionSort (· ≤ ·)).destutter (· ≠ ·)

theorem mem_sortedTexts {texts : List String} {text : String} :
    text ∈ sortedTexts texts ↔ text ∈ texts := by
  unfold sortedTexts
  rw [Distinct.mem_destutter fun _ _ _ _ same => not_not.mp same]
  exact List.mem_insertionSort _

/-- The words between blanks. -/
def whitespaceWords (text : String) : List String :=
  ((text.toList.splitOnP isWhiteSpace).filter fun word => !word.isEmpty).map String.ofList

def trimQuotes (text : String) : String :=
  let isQuote := fun char => char == '\x22' || char == '\x27'
  String.ofList ((text.toList.dropWhile isQuote).reverse.dropWhile isQuote).reverse

/-! ## Patches -/

def patchMarkers : List String := ["Add File:", "Update File:", "Delete File:", "Move to:"]

def applyPatchTargets (command : String) : List String :=
  sortedTexts ((textLines command).flatMap fun line =>
    patchMarkers.filterMap fun marker =>
      ((stripStart (trimStart line) ("*** " ++ marker)).map fun path => trimQuotes (trim path)).filter
        (· != ""))

/-! ## Commands -/

/-- The parts of a command, with what is read of the current one in reverse. -/
def splitSegments (current : List Char) : List Char → List (List Char)
  | [] => [current.reverse]
  | '&' :: '&' :: rest => current.reverse :: splitSegments [] rest
  | '|' :: '|' :: rest => current.reverse :: splitSegments [] rest
  | char :: rest =>
      if char = ';' ∨ char = '|' ∨ char = '\n' then current.reverse :: splitSegments [] rest
      else splitSegments (char :: current) rest

def tokenize (segment : List Char) : List String :=
  ((whitespaceWords (String.ofList segment)).map trimQuotes).filter (· != "")

/-- What is no flag, no variable, no number and no piece of shell syntax. -/
def isShellPath (text : String) : Bool :=
  let chars := text.toList
  let noise := ['&', '=', '\x7b', '\x7d', '(', ')', ';', '\x60', '<', '>', '|', '\x5c']
  !chars.isEmpty && chars.head? != some '-' && chars.head? != some '$' && text != "/dev/null" &&
    !chars.contains '*' && !chars.all Char.isDigit && !(chars.any noise.contains) &&
      chars.any Char.isAlphanum

def pushPath (token : String) : Option String := some (trimQuotes token) |>.filter isShellPath

/-- `>file` and `>>file`. -/
def gluedTarget (token : String) : Option String :=
  (((stripStart token ">>").or (stripStart token ">")).filter fun rest =>
    rest != "" && !rest.toList.contains '&').bind pushPath

def scanRedirects : List String → List String
  | [] => []
  | [token] => (gluedTarget token).toList
  | token :: target :: rest =>
      if token = ">" ∨ token = ">>" then (pushPath target).toList ++ scanRedirects rest
      else (gluedTarget token).toList ++ scanRedirects (target :: rest)

def isFlag (token : String) : Bool := startsWith token "-"

def scanCommands : List String → List String
  | [] => []
  | program :: arguments =>
      match fileName program with
      | "tee" => (arguments.filter (!isFlag ·)).filterMap pushPath
      | "sed" | "perl" =>
          if (program :: arguments).any (startsWith · "-i") then
            (((program :: arguments).getLast?.filter (!isFlag ·)).bind pushPath).toList
          else []
      | "touch" => (arguments.filter (!isFlag ·)).filterMap pushPath
      | "cp" | "mv" | "install" => ((arguments.reverse.find? (!isFlag ·)).bind pushPath).toList
      | _ => []

def shellEditTargets (command : String) : List String :=
  if containsText command "*** Begin Patch" then applyPatchTargets command
  else
    sortedTexts ((splitSegments [] command.toList).flatMap fun segment =>
      scanRedirects (tokenize segment) ++ scanCommands (tokenize segment))

/-! ## What is taken for a file -/

theorem isShellPath_of_pushPath {token file : String} (pushed : pushPath token = some file) :
    isShellPath file = true :=
  (Option.filter_eq_some_iff.mp pushed).2

theorem isShellPath_of_gluedTarget {token file : String} (found : gluedTarget token = some file) :
    isShellPath file = true := by
  obtain ⟨_, _, pushed⟩ := Option.bind_eq_some_iff.mp found
  exact isShellPath_of_pushPath pushed

theorem isShellPath_of_scanRedirects {tokens : List String} {file : String}
    (found : file ∈ scanRedirects tokens) : isShellPath file = true := by
  induction tokens using scanRedirects.induct with
  | case1 => cases found
  | case2 token => exact isShellPath_of_gluedTarget (Option.mem_toList.mp found)
  | case3 token target rest isRedirect ih =>
      unfold scanRedirects at found
      rw [if_pos isRedirect] at found
      rcases List.mem_append.mp found with isTarget | later
      · exact isShellPath_of_pushPath (Option.mem_toList.mp isTarget)
      · exact ih later
  | case4 token target rest notRedirect ih =>
      unfold scanRedirects at found
      rw [if_neg notRedirect] at found
      rcases List.mem_append.mp found with isGlued | later
      · exact isShellPath_of_gluedTarget (Option.mem_toList.mp isGlued)
      · exact ih later

theorem isShellPath_of_scanCommands {tokens : List String} {file : String}
    (found : file ∈ scanCommands tokens) : isShellPath file = true := by
  have ofMany : ∀ arguments : List String, file ∈ arguments.filterMap pushPath →
      isShellPath file = true := by
    intro arguments member
    obtain ⟨_, _, pushed⟩ := List.mem_filterMap.mp member
    exact isShellPath_of_pushPath pushed
  have ofOne : ∀ argument : Option String, file ∈ (argument.bind pushPath).toList →
      isShellPath file = true := by
    intro argument member
    obtain ⟨_, _, pushed⟩ := Option.bind_eq_some_iff.mp (Option.mem_toList.mp member)
    exact isShellPath_of_pushPath pushed
  cases tokens with
  | nil => cases found
  | cons program arguments =>
      simp only [scanCommands] at found
      split at found
      · exact ofMany _ found
      · split at found
        · exact ofOne _ found
        · cases found
      · split at found
        · exact ofOne _ found
        · cases found
      · exact ofMany _ found
      · exact ofOne _ found
      · exact ofOne _ found
      · exact ofOne _ found
      · cases found

/-- Outside of patches only what looks like a path is taken for a file. -/
theorem isShellPath_of_shellEditTargets {command file : String}
    (noPatch : containsText command "*** Begin Patch" = false)
    (found : file ∈ shellEditTargets command) : isShellPath file = true := by
  unfold shellEditTargets at found
  rw [noPatch, if_neg Bool.false_ne_true, mem_sortedTexts] at found
  obtain ⟨segment, _, scanned⟩ := List.mem_flatMap.mp found
  rcases List.mem_append.mp scanned with redirect | command
  · exact isShellPath_of_scanRedirects redirect
  · exact isShellPath_of_scanCommands command

example : shellEditTargets "mkdir -p d && echo x > d/f.txt && cat d/f.txt" = ["d/f.txt"] := by
  decide +kernel

end BrickTrace
