import BrickTrace.Lib.JsonFields
import BrickTrace.Protocol.Text

/-!
# Evidence for lines of a file

The texts of a tool call tell which lines of a file it wrote.  A call is evidence for a
selection of lines when a text of its arguments or of its output contains the selection,
or enough of its lines.  A path that a session recorded is compared with the path that is
asked for, whichever of them is relative.
-/

set_option autoImplicit false

namespace BrickTrace

open Json

/-! ## Kinds of evidence -/

inductive EvidenceKind where
  | exactEditHunk
  | exactDiffHunk
deriving DecidableEq

def EvidenceKind.name : EvidenceKind → String
  | .exactEditHunk => "exact_edit_hunk"
  | .exactDiffHunk => "exact_diff_hunk"

def provenanceRank (kind : String) : Nat :=
  if kind = "exact_edit_hunk" then 0
  else if kind = "exact_diff_hunk" then 1
  else if kind = "text_match_edit_tool" then 2
  else if kind = "text_match_diff_output" then 3
  else 4

/-! ## Texts -/

mutual

/-- The texts in a value, in the order of the value. -/
def collectJsonStrings : Json → List String
  | .string text => [text]
  | .array items => collectItemStrings items
  | .object entries => collectEntryStrings entries
  | _ => []

def collectItemStrings : List Json → List String
  | [] => []
  | item :: rest => collectJsonStrings item ++ collectItemStrings rest

def collectEntryStrings : List (String × Json) → List String
  | [] => []
  | (_, value) :: rest => collectJsonStrings value ++ collectEntryStrings rest

end

def normalizeLineText (text : String) : String := trim text

def normalizeMatchText (text : String) : String :=
  String.intercalate "\n" (((textLines text).map trim).filter (· ≠ ""))

def matchLines (text : String) : List String :=
  ((textLines text).map trim).filter fun line => 6 ≤ line.utf8ByteSize

def matchedLines (candidate : String) (selected : List String) : List String :=
  selected.filter (containsText candidate)

def enoughLineOverlapCount (matched selected : Nat) : Bool :=
  2 ≤ selected && 2 ≤ matched && (selected * 2 ≤ matched * 5 || 4 ≤ matched)

def encodeCount (count : Nat) : Json := encodeU64 (UInt64.ofNat count)

/-- The fields of the evidence that a text is for a selection. -/
def matchEvidence (kind : EvidenceKind) (matched selected : List String) : List (String × Json) :=
  [("kind", .string kind.name), ("matched_line_count", encodeCount matched.length),
    ("selected_line_count", encodeCount selected.length),
    ("matched_preview", .string (String.intercalate "\n" (matched.take 8)))].foldl
      (fun entries field => insertEntry field.1 field.2 entries) []

/-- The first text that contains the selection or enough of its lines. -/
def textEvidenceFromStrings (strings : List String) (text : String) (kind : EvidenceKind) :
    Option (List (String × Json)) :=
  let selected := matchLines text
  strings.findSome? fun candidate =>
    let candidate := normalizeMatchText candidate
    let matched := matchedLines candidate selected
    if containsText candidate text || enoughLineOverlapCount matched.length selected.length then
      some (matchEvidence kind matched selected)
    else none

/-- The arguments that hold what a tool wrote. -/
def writtenArguments : List String := ["new_string", "content", "new_content", "patch", "input"]

def chunkTextEvidence (args result raw : Json) (text : String) : Option (List (String × Json)) :=
  let arguments := writtenArguments.flatMap fun name => ((args.get name).map collectJsonStrings).getD []
  let outputs := collectJsonStrings result ++ collectJsonStrings raw
  (textEvidenceFromStrings arguments text .exactEditHunk).or
    (textEvidenceFromStrings outputs text .exactDiffHunk)

/-- Evidence counts the lines of one text that matched. -/
theorem exists_of_chunkTextEvidence {args result raw : Json} {text : String}
    {evidence : List (String × Json)} (found : chunkTextEvidence args result raw text = some evidence) :
    ∃ kind matched, evidence = matchEvidence kind matched (matchLines text) := by
  have ofTexts : ∀ strings kind, textEvidenceFromStrings strings text kind = some evidence →
      ∃ kind matched, evidence = matchEvidence kind matched (matchLines text) := by
    intro strings kind isFound
    obtain ⟨candidate, _, counted⟩ := List.exists_of_findSome?_eq_some isFound
    dsimp only at counted
    split at counted
    · exact ⟨kind, _, (Option.some.inj counted).symm⟩
    · cases counted
  rcases Option.or_eq_some_iff.mp found with inArguments | ⟨_, inOutputs⟩
  · exact ofTexts _ _ inArguments
  · exact ofTexts _ _ inOutputs

theorem lookup_kind_matchEvidence (kind : EvidenceKind) (matched selected : List String) :
    (matchEvidence kind matched selected).lookup "kind" = some (.string kind.name) := by
  unfold matchEvidence
  rw [List.foldl_cons, lookup_foldl_insertEntry_of_notMem (by simp), lookup_insertEntry_self]

/-- Evidence for a selection names no line. -/
theorem lookup_lineNo_matchEvidence (kind : EvidenceKind) (matched selected : List String) :
    (matchEvidence kind matched selected).lookup "line_no" = none := by
  unfold matchEvidence
  rw [lookup_foldl_insertEntry_of_notMem (by simp)]
  rfl

def isFileMutationTool (function : String) : Bool :=
  function ∈ ["edit_file", "write_file", "delete_file", "run_shell", "create_file", "apply_patch",
    "edit_file_by_replace"]

/-! ## Paths -/

def joinRepoPath (repo path : String) : String :=
  if startsWith path "/" then path else trimEndOf '/' repo ++ "/" ++ path

def pathSuffixMatches (full suffix : String) : Bool :=
  full = suffix || (stripEnd full suffix).any (endsWith · "/")

def pathPrefixMatches (filePath directory : String) : Bool :=
  let directory := trimEndOf '/' directory
  directory ≠ "" && filePath ≠ directory && (stripStart filePath directory).any (startsWith · "/")

def blamePathMatches (query stored : String) (repoPath : Option String) : Bool :=
  query = stored ||
    (repoPath.any fun repo =>
      joinRepoPath repo stored = query || joinRepoPath repo query = stored ||
        pathPrefixMatches (joinRepoPath repo stored) (joinRepoPath repo query)) ||
    pathSuffixMatches query stored || pathSuffixMatches stored query ||
    pathPrefixMatches stored query

/-- Whether a tool call wrote the file: a mutation with the path among its texts. -/
def chunkMentionsFile (raw : Json) (filePath : String) (repoPath : Option String) : Bool :=
  ((raw.get "function").bind decodeString).any isFileMutationTool &&
    (collectJsonStrings raw).any (blamePathMatches filePath · repoPath)

end BrickTrace
