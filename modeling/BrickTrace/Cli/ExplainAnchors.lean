import BrickTrace.Lib.Numerals
import BrickTrace.Core.LineProvenance

/-!
# Anchors of an explanation

The command line and the server resolve an anchor each in its own way: a line or a range
of lines of a file, a file, or the id of an event, an artifact or a mission.  The command
looks in the repository of the working directory, the server in that of the anchor.
-/

set_option autoImplicit false

namespace BrickTrace

/-! ## Paths

A repeated slash, a slash at the end and a dot between slashes are no components; what is
left of a path once components are taken off keeps its text, without those at either end. -/

namespace PathText

def isAbsolute (path : String) : Bool := path.toList.head? = some '/'

/-- The texts between slashes. -/
def pieces (path : String) : List (List Char) := path.toList.splitOn '/'

/-- Whether a piece is no component. -/
def isSilent (piece : List Char) : Bool := piece.isEmpty || piece == ['.']

/-- The components of an absolute path. -/
def components (path : String) : List (List Char) := (pieces path).filter fun piece => !isSilent piece

def ofPieces (read : List (List Char)) : String := String.ofList (List.intercalate ['/'] read)

/-- The pieces that follow the components, in a path that starts with them. -/
def dropComponents : List (List Char) → List (List Char) → Option (List (List Char))
  | [], read => some ((read.dropWhile isSilent).reverse.dropWhile isSilent).reverse
  | _ :: _, [] => none
  | component :: others, piece :: rest =>
      if isSilent piece then dropComponents (component :: others) rest
      else if piece = component then dropComponents others rest
      else none

/-- What follows an absolute root in a path. -/
def stripRoot (root path : String) : Option String :=
  if isAbsolute path then (dropComponents (components root) (pieces path)).map ofPieces else none

/-- An absolute path without its last component. -/
def parent (path : String) : Option String :=
  match (pieces path).reverse.dropWhile isSilent with
  | [] => none
  | _ :: before =>
      match before.dropWhile isSilent with
      | [] => some "/"
      | kept => some (ofPieces kept.reverse)

def join (root path : String) : String :=
  if isAbsolute path then path
  else if root = "" ∨ endsWith root "/" then root ++ path
  else root ++ "/" ++ path

example : stripRoot "/repo" "/repo//src/./a.rs/" = some "src/./a.rs" ∧
    stripRoot "/repo" "/repository/a.rs" = none ∧ parent "/repo/src//a.rs" = some "/repo/src" := by
  decide +kernel

end PathText

/-! ## The machine -/

/-- A checkout of a repository, seen from a directory in it.  A repository has its own
events, and git has its own lines and history for every file of it. -/
structure Checkout where
  cwd : String
  root : String
  discoverRepoRoot : String → Option String
  isDir : String → Bool
  readToString : String → Option String
  events : String → List TraceEvent
  lineCount : String → String → UInt64
  history : String → String → FileHistory
  metadataDb : Option LineProvenanceDb
  cwd_found : discoverRepoRoot cwd = some root
  root_found : discoverRepoRoot root = some root

inductive ExplainFailure where
  | error (message : String)
  | panic (panic : BlamePanic)
deriving DecidableEq

def noRepository : ExplainFailure := .error "no git repository found"

/-! ## What an anchor looks like -/

def parseFileLine (input : String) : Option (String × UInt64) := do
  let (path, line) ← rsplitOnce ':' input
  let line ← parseU64 (trim line)
  if path = "" then none else some (path, line)

def parseFileRange (input : String) : Option (String × UInt64 × UInt64) := do
  let (path, span) ← rsplitOnce ':' input
  if path = "" then none
  else
    let (first, last) ← splitOnce '-' (trim span)
    let first ← parseU64 (trim first)
    let last ← parseU64 (trim last)
    some (path, first, last)

/-- `isUuid` tells whether a text is a UUID. -/
def looksLikePath (isUuid : String → Bool) (input : String) : Bool :=
  let text := trim input
  text ≠ "" && !(["artifact_", "mission_", "session_", "org_", "project_"].any (startsWith text)) &&
    !isUuid text && ('/' ∈ text.toList || '.' ∈ text.toList)

/-! The command has copies of its own. -/

def parseAnchorFileLine (input : String) : Option (String × UInt64) := parseFileLine input

def parseAnchorFileRange (input : String) : Option (String × UInt64 × UInt64) := parseFileRange input

def anchorLooksLikePath (isUuid : String → Bool) (input : String) : Bool := looksLikePath isUuid input

/-! ## The selection -/

/-- The path with what stands before the repository taken off. -/
def normalizeRepoRelative (root path : String) : String :=
  (PathText.stripRoot root path).getD (String.ofList (trimDotSlashes path.toList))

/-- The lines of the selection that are not blank. -/
def readLineSelection (readToString : String → Option String) (root relPath : String)
    (lineStart lineEnd : UInt64) : Option String :=
  let lo := if lineStart ≤ lineEnd then lineStart else lineEnd
  let hi := if lineStart ≤ lineEnd then lineEnd else lineStart
  (readToString (PathText.join root relPath)).bind fun content =>
    let selected := ((textLines content).zipIdx.filterMap fun entry =>
      let lineNo := min (entry.2 + 1) (2 ^ 64 - 1)
      if entry.2 < 2 ^ 64 ∧ lo.toNat ≤ lineNo ∧ lineNo ≤ hi.toNat then some (trim entry.1)
      else none).filter (· ≠ "")
    unlessEmpty (String.intercalate "\n" selected)

/-! ## Resolving -/

section Resolve
variable (mode : OverflowMode) (rfc3339 : DateTime → String) (isUuid : String → Bool) (here : Checkout)

def Checkout.resolveLine (root relPath : String) (line : UInt64) :
    Except ExplainFailure ExplainAnchor :=
  (resolveFileLineAnchor mode rfc3339 (here.events root) (here.lineCount root relPath)
    (here.history root relPath) relPath line).mapError .panic

def Checkout.resolveRange (root relPath : String) (lineStart lineEnd : UInt64) :
    Except ExplainFailure ExplainAnchor :=
  (resolveFileRangeAnchor mode rfc3339 (here.events root) (here.lineCount root relPath)
    (here.history root relPath) relPath lineStart lineEnd).mapError .panic

/-- The repository of the working directory. -/
def Checkout.discoverHere : Except ExplainFailure String :=
  match here.discoverRepoRoot here.cwd with
  | some root => .ok root
  | none => .error noRepository

/-- An anchor as the command resolves it. -/
structure CliAnchor where
  anchor : ExplainAnchor
  anchoredPath : Option String
  isFileLine : Bool
  selectedText : Option String

/-- An anchor as the server resolves it. -/
structure McpAnchor extends CliAnchor where
  lineNumber : Option UInt64

def resolveCliAnchor (anchor : String) : Except ExplainFailure CliAnchor :=
  match parseAnchorFileRange anchor with
  | some (path, first, last) => do
      let root ← here.discoverHere
      let rel := normalizeRepoRelative root path
      let resolved ← here.resolveRange mode rfc3339 root rel first last
      return ⟨resolved, some rel, true, readLineSelection here.readToString root rel first last⟩
  | none =>
      match parseAnchorFileLine anchor with
      | some (path, line) => do
          let root ← here.discoverHere
          let rel := normalizeRepoRelative root path
          let resolved ← here.resolveLine mode rfc3339 root rel line
          return ⟨resolved, some rel, true, readLineSelection here.readToString root rel line line⟩
      | none =>
          if anchorLooksLikePath isUuid anchor then
            let rel := match here.discoverRepoRoot here.cwd with
              | some root => normalizeRepoRelative root anchor
              | none => String.ofList (trimDotSlashes anchor.toList)
            return ⟨resolveFileAnchor (here.events here.root) rel, some rel, false, none⟩
          else return ⟨resolveDirectAnchor (here.events here.root) anchor, none, false, none⟩

/-- `root` is the root of the store that the server took for the anchor. -/
def resolveMcpAnchor (root anchor : String) : Except ExplainFailure McpAnchor :=
  match parseFileRange anchor with
  | some (path, first, last) => do
      let rel := normalizeRepoRelative root path
      let resolved ← here.resolveRange mode rfc3339 root rel first last
      return ⟨⟨resolved, some rel, true, readLineSelection here.readToString root rel first last⟩,
        some first⟩
  | none =>
      match parseFileLine anchor with
      | some (path, line) => do
          let rel := normalizeRepoRelative root path
          let resolved ← here.resolveLine mode rfc3339 root rel line
          return ⟨⟨resolved, some rel, true, readLineSelection here.readToString root rel line line⟩,
            some line⟩
      | none =>
          if looksLikePath isUuid anchor then
            let rel := normalizeRepoRelative root anchor
            return ⟨⟨resolveFileAnchor (here.events root) rel, some rel, false, none⟩, none⟩
          else return ⟨⟨resolveDirectAnchor (here.events root) anchor, none, false, none⟩, none⟩

/-- The root of the store that the server takes for an anchor: for an absolute path the
repository it lies in, and its own for any other anchor. -/
def storeForAnchor (anchor : String) : Option String :=
  let path := ((parseFileLine anchor).map Prod.fst).getD anchor
  if PathText.isAbsolute path then
    here.discoverRepoRoot (if here.isDir path then path else (PathText.parent path).getD path)
  else if (here.discoverRepoRoot here.root).isSome then some here.root
  else none

/-- The server takes the store of the checkout for the anchor. -/
structure InsideRepository (anchor : String) : Prop where
  nonempty : anchor ≠ ""
  store : storeForAnchor here anchor = some here.root

variable {mode rfc3339 isUuid here}

/-- In the checkout both resolve an anchor to the same events, path and selection. -/
theorem resolveMcpAnchor_root (anchor : String) :
    (resolveMcpAnchor mode rfc3339 isUuid here here.root anchor).map McpAnchor.toCliAnchor =
      resolveCliAnchor mode rfc3339 isUuid here anchor := by
  have found : here.discoverHere = .ok here.root := by
    unfold Checkout.discoverHere
    rw [here.cwd_found]
  unfold resolveMcpAnchor resolveCliAnchor parseAnchorFileRange parseAnchorFileLine
    anchorLooksLikePath
  rw [found, here.cwd_found]
  cases parseFileRange anchor with
  | some range =>
      obtain ⟨path, first, last⟩ := range
      dsimp only [bind, Except.bind]
      cases here.resolveRange mode rfc3339 here.root (normalizeRepoRelative here.root path) first
          last with
      | ok _ => rfl
      | error _ => rfl
  | none =>
      cases parseFileLine anchor with
      | some numbered =>
          obtain ⟨path, line⟩ := numbered
          dsimp only [bind, Except.bind]
          cases here.resolveLine mode rfc3339 here.root (normalizeRepoRelative here.root path)
              line with
          | ok _ => rfl
          | error _ => rfl
      | none =>
          dsimp only
          split
          · rfl
          · rfl

/-! ## Anchors of lines -/

theorem resolveLine_confidence {root relPath : String} {line : UInt64} {resolved : ExplainAnchor}
    (done : here.resolveLine mode rfc3339 root relPath line = .ok resolved) {text : String}
    (shown : resolved.blameConfidence = some text) : ∃ confidence : BlameConfidence,
      text = confidence.name := by
  unfold Checkout.resolveLine resolveFileLineAnchor at done
  cases blamed : blameFile mode rfc3339 (here.events root) (here.lineCount root relPath)
      (here.history root relPath) relPath with
  | error _ =>
      rw [blamed] at done
      cases done
  | ok lines =>
      rw [blamed] at done
      cases done
      obtain ⟨line, _, rfl⟩ := Option.map_eq_some_iff.mp shown
      exact ⟨line.confidence, rfl⟩

theorem resolveRange_confidence {root relPath : String} {lineStart lineEnd : UInt64}
    {resolved : ExplainAnchor}
    (done : here.resolveRange mode rfc3339 root relPath lineStart lineEnd = .ok resolved)
    {text : String} (shown : resolved.blameConfidence = some text) :
    ∃ confidence : BlameConfidence, text = confidence.name := by
  have strongest : ∀ (lines : List BlameLine) (best : Nat × Option String),
      (∀ text, best.2 = some text → ∃ confidence : BlameConfidence, text = confidence.name) →
      ∀ text, (lines.foldl strongerConfidence best).2 = some text →
        ∃ confidence : BlameConfidence, text = confidence.name := by
    intro lines
    induction lines with
    | nil => exact fun _ named => named
    | cons line rest ih =>
        intro best named
        apply ih
        intro text isText
        unfold strongerConfidence at isText
        split at isText
        · exact ⟨line.confidence, (Option.some.inj isText).symm⟩
        · exact named text isText
  unfold Checkout.resolveRange resolveFileRangeAnchor at done
  cases blamed : blameFile mode rfc3339 (here.events root) (here.lineCount root relPath)
      (here.history root relPath) relPath with
  | error _ =>
      rw [blamed] at done
      cases done
  | ok lines =>
      rw [blamed] at done
      cases done
      unfold fileRangeAnchor at shown
      exact strongest _ (0, none) (fun _ absent => nomatch absent) text shown

/-- The anchor of a line has its number, and no confidence but one of blame. -/
theorem line_of_resolveMcpAnchor {root anchor : String} {reading : McpAnchor}
    (done : resolveMcpAnchor mode rfc3339 isUuid here root anchor = .ok reading)
    (isLine : reading.isFileLine = true) :
    (∃ number, reading.lineNumber = some number) ∧
      ∀ text, reading.anchor.blameConfidence = some text →
        ∃ confidence : BlameConfidence, text = confidence.name := by
  unfold resolveMcpAnchor at done
  split at done
  · obtain ⟨resolved, isResolved, rest⟩ := Fallible.bind_eq_ok_iff.mp done
    cases rest
    exact ⟨⟨_, rfl⟩, fun _ shown => resolveRange_confidence isResolved shown⟩
  · split at done
    · obtain ⟨resolved, isResolved, rest⟩ := Fallible.bind_eq_ok_iff.mp done
      cases rest
      exact ⟨⟨_, rfl⟩, fun _ shown => resolveLine_confidence isResolved shown⟩
    · split at done
      · rw [← Except.ok.inj done] at isLine
        exact absurd isLine Bool.false_ne_true
      · rw [← Except.ok.inj done] at isLine
        exact absurd isLine Bool.false_ne_true

end Resolve

end BrickTrace
