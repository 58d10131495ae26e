import BrickTrace.Core.FileAnchors
import BrickTrace.Core.Liveness
import BrickTrace.Cli.ExplainAnchors
import BrickTrace.Cli.History

/-!
# Telling of other sessions at work

An explanation of a file also tells which active sessions changed the same file, or work in
the project that it lies in.  Files are told apart by their names, and the path of the file
is compared with scopes as it stands, from the root of the repository.
-/

set_option autoImplicit false

namespace BrickTrace

namespace PathText

/-- The components of a path; a dot that a relative path starts with is one. -/
def spelled (path : String) : List (List Char) :=
  match pieces path with
  | ['.'] :: rest => ['.'] :: rest.filter fun piece => !isSilent piece
  | read => read.filter fun piece => !isSilent piece

/-- The components, with the root of an absolute path. -/
def parts (path : String) : List (List Char) :=
  (if isAbsolute path then [['/']] else []) ++ spelled path

/-- The last component, when it names a file. -/
def lastName (path : String) : Option (List Char) :=
  (spelled path).getLast?.bind fun piece => if piece = ['.'] ∨ piece = ['.', '.'] then none else some piece

def startsWithPath (path base : String) : Bool := (parts base).isPrefixOf (parts path)

end PathText

/-! ## Live sessions -/

/-- A session with what is probed when it is listed. -/
structure ProbedSession extends NativeSourceSession where
  cwd : Option String
  liveness : Liveness
  lastActivity : Option DateTime

def ProbedSession.isActive (session : ProbedSession) : Bool := session.liveness = .active

/-- `home` is the home directory. -/
def isTooShallow (home : Option String) (path : String) : Bool :=
  (home.any fun home => PathText.parts path == PathText.parts home) ||
    (PathText.spelled path).length < 2

def workScope (home : Option String) (session : ProbedSession) : Option String :=
  (session.repoPath.or session.cwd).bind fun candidate =>
    if isTooShallow home candidate then none else some candidate

/-- A session without a time comes last. -/
def activeLater (left right : ProbedSession) : Bool :=
  match right.lastActivity, left.lastActivity with
  | none, _ => true
  | some _, none => false
  | some other, some own => other.nanoseconds ≤ own.nanoseconds

/-- The active sessions, those that were active last first; a source that cannot be listed
is left out. -/
def collectLiveSessions (listSourceSessions : SourceProfile → Option Nat → Option (List ProbedSession))
    (profiles : List SourceProfile) (limit : Nat) : List ProbedSession :=
  ((profiles.flatMap fun profile =>
    ((listSourceSessions profile (some (max limit 50))).getD []).filter
      ProbedSession.isActive).mergeSort activeLater).take limit

structure LiveSessionRow where
  sourceId : String
  appId : String
  externalSessionId : String
  title : Option String
  path : String
  workScope : Option String
  repoPath : Option String
  branch : Option String
  lastActivity : Option String
  touchedFiles : List String
deriving DecidableEq

structure LiveBroadcast where
  tier : String
  message : String
  sessions : List LiveSessionRow
deriving DecidableEq

def describeSessions (rows : List LiveSessionRow) : String :=
  String.intercalate "; " ((rows.take 3).map fun row =>
    row.appId ++ " \"" ++ row.title.getD "(no title)" ++ "\"")

/-- The sessions that changed the file are told of before those at work around it. -/
def broadcastOf (fileHits scopeHits : List LiveSessionRow) : Option LiveBroadcast :=
  if fileHits ≠ [] then
    some
      { tier := "file"
        message := "⚠️ " ++ toString fileHits.length ++
          " active session(s) recently changed this same file: " ++ describeSessions fileHits ++
          ". Coordinate or re-check the file before editing."
        sessions := fileHits }
  else if scopeHits ≠ [] then
    some
      { tier := "scope"
        message := "ℹ️ " ++ toString scopeHits.length ++
          " active session(s) are working in this same project right now: " ++
          describeSessions scopeHits ++ ". Your view of the code here may change under you."
        sessions := scopeHits }
  else none

section Broadcast
variable (rfc3339 : DateTime → String) (home : Option String)

def liveSessionRow (session : ProbedSession) : LiveSessionRow where
  sourceId := session.sourceAppId
  appId := session.sourceAppId
  externalSessionId := session.externalSessionId
  title := session.title
  path := session.path
  workScope := workScope home session
  repoPath := session.repoPath
  branch := session.branch
  lastActivity := session.lastActivity.map rfc3339
  touchedFiles := session.touchedFiles

def isOwn (selfPath : Option String) (session : ProbedSession) : Bool :=
  selfPath.any fun own => own == session.path

/-- Whether a session touched a file of the name. -/
def touchedSame (targetPath : String) (touchedFiles : List String) : Bool :=
  touchedFiles.any fun touched =>
    touched == targetPath || PathText.lastName touched == PathText.lastName targetPath

def scopeHolds (targetPath : String) (scope : Option String) : Bool :=
  scope.any (PathText.startsWithPath targetPath)

/-- What is told of the live sessions. -/
def broadcastAmong (live : List ProbedSession) (targetPath : String) (selfPath : Option String) :
    Option LiveBroadcast :=
  let others := live.filter fun session => !isOwn selfPath session
  let fileHits := others.filter fun session => touchedSame targetPath session.touchedFiles
  let scopeHits := others.filter fun session =>
    !touchedSame targetPath session.touchedFiles && scopeHolds targetPath (workScope home session)
  broadcastOf (fileHits.map (liveSessionRow rfc3339 home)) (scopeHits.map (liveSessionRow rfc3339 home))

def buildLiveBroadcast
    (listSourceSessions : SourceProfile → Option Nat → Option (List ProbedSession))
    (profiles : List SourceProfile) (targetPath : String) (selfPath : Option String) :
    Option LiveBroadcast :=
  broadcastAmong rfc3339 home (collectLiveSessions listSourceSessions profiles 50) targetPath selfPath

end Broadcast

/-! ## What is to be told -/

/-- A file of a repository, by its path from the root. -/
structure RepoTarget where
  root : String
  path : String
  absoluteRoot : PathText.isAbsolute root = true
  relative : PathText.isAbsolute path = false

namespace RepoTarget

/-- Where a path leads from the root of the repository. -/
def placed (target : RepoTarget) (path : String) : List (List Char) :=
  PathText.components (PathText.join target.root path)

def denotedBy (target : RepoTarget) (touched : String) : Bool :=
  touched == target.path || target.placed touched == target.placed target.path

def touchedBy (target : RepoTarget) (touchedFiles : List String) : Bool :=
  touchedFiles.any target.denotedBy

/-- Whether the target lies in the scope. -/
def within (target : RepoTarget) (scope : Option String) : Bool :=
  scope.any fun scope => (target.placed scope).isPrefixOf (target.placed target.path)

end RepoTarget

section Exact
variable (rfc3339 : DateTime → String) (home : Option String) (live : List ProbedSession)
  (target : RepoTarget) (selfPath : Option String)

def otherSessions : List ProbedSession := live.filter fun session => !isOwn selfPath session

def exactBroadcast : Option LiveBroadcast :=
  broadcastOf
    (((otherSessions live selfPath).filter fun session => target.touchedBy session.touchedFiles).map
      (liveSessionRow rfc3339 home))
    (((otherSessions live selfPath).filter fun session => target.within (workScope home session)).map
      (liveSessionRow rfc3339 home))

/-- The sessions that are told of are those that touched the file, or else those whose scope
it lies in. -/
def BroadcastIsExact : Prop :=
  broadcastAmong rfc3339 home live target.path selfPath =
    exactBroadcast rfc3339 home live target selfPath

/-- Names tell the touched files apart, and scopes are written as the target is. -/
structure NamesTellApart : Prop where
  name : ∀ session ∈ otherSessions live selfPath,
    touchedSame target.path session.touchedFiles = true → target.touchedBy session.touchedFiles = true
  whole : PathText.components target.path = [] → ∀ session ∈ otherSessions live selfPath,
    target.touchedBy session.touchedFiles = true → touchedSame target.path session.touchedFiles = true
  scope : (∀ session ∈ otherSessions live selfPath,
      touchedSame target.path session.touchedFiles = false) →
    ∀ session ∈ otherSessions live selfPath, target.within (workScope home session) = true →
      scopeHolds target.path (workScope home session) = true

end Exact

/-! ## Paths from the root -/

namespace PathText

theorem pieces_append_slash (left right : String) :
    pieces (left ++ "/" ++ right) = pieces left ++ pieces right := by
  unfold pieces
  rw [String.toList_append, String.toList_append, List.append_assoc]
  exact List.splitOn_append_cons_self _ _

theorem components_append_slash (left right : String) :
    components (left ++ "/" ++ right) = components left ++ components right := by
  unfold components
  rw [pieces_append_slash, List.filter_append]

theorem components_join {root path : String} (absoluteRoot : isAbsolute root = true)
    (relative : isAbsolute path = false) :
    components (join root path) = components root ++ components path := by
  unfold join
  rw [if_neg (by rw [relative]; decide)]
  split
  · rename_i bare
    rcases bare with rfl | slash
    · cases absoluteRoot
    · obtain ⟨head, rfl⟩ := endsWith_iff.mp slash
      have trailing : components (head ++ "/") = components head := by
        have split := components_append_slash head ""
        rw [String.append_empty] at split
        rw [split]
        exact List.append_nil _
      rw [components_append_slash, trailing]
  · exact components_append_slash root path

theorem spelled_cases (path : String) :
    spelled path = components path ∨ spelled path = ['.'] :: components path := by
  unfold spelled components
  split
  · rename_i rest isRead
    rw [isRead, List.filter_cons_of_neg (by decide)]
    exact .inr rfl
  · exact .inl rfl

theorem not_silent_of_mem_components {path : String} {piece : List Char}
    (member : piece ∈ components path) : piece ≠ ['.'] := by
  rintro rfl
  have spoken := (List.mem_filter.mp member).2
  revert spoken
  decide

theorem components_eq_filter_spelled (path : String) :
    components path = (spelled path).filter fun piece => !isSilent piece := by
  have kept : (components path).filter (fun piece => !isSilent piece) = components path := by
    unfold components
    rw [List.filter_filter]
    simp only [Bool.and_self]
  rcases spelled_cases path with same | dotted
  · rw [same, kept]
  · rw [dotted, List.filter_cons_of_neg (by decide), kept]

/-- The name of a file is told by the components without dots. -/
theorem lastName_eq (path : String) :
    lastName path = (components path).getLast?.bind fun piece =>
      if piece = ['.', '.'] then none else some piece := by
  have named : ∀ piece, (components path).getLast? = some piece → piece ≠ ['.'] :=
    fun piece last => not_silent_of_mem_components (List.mem_of_getLast? last)
  have sameLast : lastName path = (components path).getLast?.bind fun piece =>
      if piece = ['.'] ∨ piece = ['.', '.'] then none else some piece := by
    unfold lastName
    rcases spelled_cases path with same | dotted
    · rw [same]
    · rw [dotted]
      cases read : components path with
      | nil => rfl
      | cons first rest => rw [List.getLast?_cons_cons]
  rw [sameLast]
  cases last : (components path).getLast? with
  | none => rfl
  | some piece => simp only [Option.bind_some, named piece last, false_or]

theorem slash_notMem_of_mem_pieces {chars piece : List Char} (member : piece ∈ chars.splitOn '/') :
    '/' ∉ piece := by
  induction chars generalizing piece with
  | nil =>
      rw [List.splitOn_nil, List.mem_singleton] at member
      rw [member]
      exact List.not_mem_nil
  | cons char rest ih =>
      rw [List.splitOn_cons_eq_if_modifyHead] at member
      split at member
      · rcases List.mem_cons.mp member with rfl | later
        · exact List.not_mem_nil
        · exact ih later
      · rename_i other
        cases read : rest.splitOn '/' with
        | nil => exact absurd read (List.splitOn_ne_nil '/' rest)
        | cons first others =>
            rw [read] at member ih
            rcases List.mem_cons.mp member with rfl | later
            · intro slash
              rcases List.mem_cons.mp slash with same | inFirst
              · exact other (beq_iff_eq.mpr same.symm)
              · exact ih List.mem_cons_self inFirst
            · exact ih (List.mem_cons_of_mem _ later)

theorem slash_notMem_spelled (path : String) : ['/'] ∉ spelled path := by
  intro member
  have inComponents : ['/'] ∈ components path := by
    rw [components_eq_filter_spelled]
    exact List.mem_filter.mpr ⟨member, by decide⟩
  exact slash_notMem_of_mem_pieces (List.mem_of_mem_filter inComponents) (List.mem_singleton_self _)

/-- A relative path starts with relative paths only. -/
theorem relative_of_startsWithPath {path base : String} (relative : isAbsolute path = false)
    (starts : startsWithPath path base = true) : isAbsolute base = false := by
  cases absolute : isAbsolute base with
  | false => rfl
  | true =>
      have isPrefix := List.isPrefixOf_iff_prefix.mp starts
      unfold parts at isPrefix
      rw [absolute, relative] at isPrefix
      exact absurd (isPrefix.subset (List.mem_cons_self ..)) (slash_notMem_spelled path)

theorem components_prefix_of_startsWithPath {path base : String} (relative : isAbsolute path = false)
    (starts : startsWithPath path base = true) : components base <+: components path := by
  have relativeBase := relative_of_startsWithPath relative starts
  have isPrefix := List.isPrefixOf_iff_prefix.mp starts
  unfold parts at isPrefix
  rw [relative, relativeBase] at isPrefix
  rw [components_eq_filter_spelled path, components_eq_filter_spelled base]
  exact isPrefix.filter _

end PathText

/-! ## Sessions that touched a file -/

namespace RepoTarget
variable {target : RepoTarget}

theorem placed_target : target.placed target.path =
    PathText.components target.root ++ PathText.components target.path :=
  PathText.components_join target.absoluteRoot target.relative

/-- A touched path that leads to the target has its name. -/
theorem lastName_eq_of_denotedBy (named : PathText.components target.path ≠ []) {touched : String}
    (denoted : target.denotedBy touched = true) :
    PathText.lastName touched = PathText.lastName target.path := by
  unfold denotedBy at denoted
  rw [Bool.or_eq_true, beq_iff_eq, beq_iff_eq] at denoted
  rcases denoted with rfl | samePlace
  · rfl
  · rw [placed_target] at samePlace
    unfold placed at samePlace
    cases absolute : PathText.isAbsolute touched with
    | true =>
        unfold PathText.join at samePlace
        rw [if_pos absolute] at samePlace
        rw [PathText.lastName_eq, PathText.lastName_eq, samePlace,
          List.getLast?_append_of_ne_nil _ named]
    | false =>
        rw [PathText.components_join target.absoluteRoot absolute] at samePlace
        rw [PathText.lastName_eq, PathText.lastName_eq, List.append_cancel_left samePlace]

theorem touchedSame_of_touchedBy (named : PathText.components target.path ≠ [])
    {touchedFiles : List String} (touched : target.touchedBy touchedFiles = true) :
    touchedSame target.path touchedFiles = true := by
  obtain ⟨path, member, denoted⟩ := List.any_eq_true.mp touched
  refine List.any_eq_true.mpr ⟨path, member, ?_⟩
  rw [lastName_eq_of_denotedBy named denoted, beq_self_eq_true, Bool.or_true]

/-- A scope that the target starts with holds it. -/
theorem within_of_scopeHolds {scope : Option String}
    (holds : scopeHolds target.path scope = true) : target.within scope = true := by
  obtain ⟨base, isScope, starts⟩ := (Option.any_eq_true _ _).mp holds
  refine (Option.any_eq_true _ _).mpr ⟨base, isScope, List.isPrefixOf_iff_prefix.mpr ?_⟩
  rw [placed_target]
  unfold placed
  rw [PathText.components_join target.absoluteRoot
    (PathText.relative_of_startsWithPath target.relative starts)]
  exact (List.prefix_append_right_inj _).mpr
    (PathText.components_prefix_of_startsWithPath target.relative starts)

/-- No absolute scope is found to hold the target. -/
theorem scopeHolds_absolute {scope : String} (absolute : PathText.isAbsolute scope = true) :
    scopeHolds target.path (some scope) = false := by
  rw [← Bool.not_eq_true]
  intro holds
  have relative := PathText.relative_of_startsWithPath target.relative holds
  rw [absolute] at relative
  cases relative

end RepoTarget

/-! ## What is told -/

theorem sessions_of_broadcastOf (fileHits scopeHits : List LiveSessionRow) :
    (broadcastOf fileHits scopeHits).map (fun told => (told.tier, told.sessions)) =
      if fileHits ≠ [] then some ("file", fileHits)
      else if scopeHits ≠ [] then some ("scope", scopeHits) else none := by
  unfold broadcastOf
  split
  · rfl
  · split
    · rfl
    · rfl

/-- What is told names its tier and its sessions. -/
theorem broadcastOf_eq_iff {fileHits scopeHits otherFileHits otherScopeHits : List LiveSessionRow} :
    broadcastOf fileHits scopeHits = broadcastOf otherFileHits otherScopeHits ↔
      fileHits = otherFileHits ∧ (fileHits = [] → scopeHits = otherScopeHits) := by
  constructor
  · intro same
    have told := congrArg (Option.map fun told => (told.tier, told.sessions)) same
    rw [sessions_of_broadcastOf, sessions_of_broadcastOf] at told
    by_cases noFile : fileHits = [] <;> by_cases noOther : otherFileHits = []
    · refine ⟨noFile.trans noOther.symm, fun _ => ?_⟩
      rw [if_neg (not_not_intro noFile), if_neg (not_not_intro noOther)] at told
      by_cases noScope : scopeHits = [] <;> by_cases noOtherScope : otherScopeHits = []
      · exact noScope.trans noOtherScope.symm
      · simp [noScope, noOtherScope] at told
      · simp [noScope, noOtherScope] at told
      · simpa [noScope, noOtherScope] using told
    · by_cases noScope : scopeHits = []
      · simp [noFile, noOther, noScope] at told
      · simp [noFile, noOther, noScope] at told
    · by_cases noOtherScope : otherScopeHits = []
      · simp [noFile, noOther, noOtherScope] at told
      · simp [noFile, noOther, noOtherScope] at told
    · rw [if_pos noFile, if_pos noOther] at told
      exact ⟨congrArg Prod.snd (Option.some.inj told), fun none => absurd none noFile⟩
  · rintro ⟨rfl, sameScope⟩
    by_cases noFile : fileHits = []
    · rw [sameScope noFile]
    · unfold broadcastOf
      rw [if_pos noFile, if_pos noFile]

/-- Two choices of items show the same exactly when they agree, where what is shown tells. -/
theorem map_filter_eq_iff {A B : Type} (display : A → B) (left right : B → Bool) {items : List A} :
    (items.filter fun item => left (display item)).map display =
        (items.filter fun item => right (display item)).map display ↔
      ∀ item ∈ items, left (display item) = right (display item) := by
  constructor
  · intro same item member
    have selected : ∀ test : B → Bool, test (display item) = true ↔
        display item ∈ (items.filter fun item => test (display item)).map display := by
      intro test
      constructor
      · intro chosen
        exact List.mem_map_of_mem (List.mem_filter.mpr ⟨member, chosen⟩)
      · intro shown
        obtain ⟨other, isChosen, sameShown⟩ := List.mem_map.mp shown
        exact sameShown ▸ (List.mem_filter.mp isChosen).2
    rw [Bool.eq_iff_iff, selected left, same, ← selected right]
  · intro agree
    rw [List.filter_congr agree]

section Told
variable {rfc3339 : DateTime → String} {home : Option String} {live : List ProbedSession}
  {target : RepoTarget} {selfPath : Option String}

theorem broadcastAmong_eq : broadcastAmong rfc3339 home live target.path selfPath =
    broadcastOf
      (((otherSessions live selfPath).filter fun session =>
        touchedSame target.path session.touchedFiles).map (liveSessionRow rfc3339 home))
      (((otherSessions live selfPath).filter fun session =>
        !touchedSame target.path session.touchedFiles &&
          scopeHolds target.path (workScope home session)).map (liveSessionRow rfc3339 home)) := rfl

theorem fileHits_eq_iff :
    ((otherSessions live selfPath).filter fun session =>
          touchedSame target.path session.touchedFiles).map (liveSessionRow rfc3339 home) =
        ((otherSessions live selfPath).filter fun session =>
          target.touchedBy session.touchedFiles).map (liveSessionRow rfc3339 home) ↔
      ∀ session ∈ otherSessions live selfPath,
        touchedSame target.path session.touchedFiles = target.touchedBy session.touchedFiles :=
  map_filter_eq_iff (liveSessionRow rfc3339 home)
    (fun row => touchedSame target.path row.touchedFiles)
    (fun row => target.touchedBy row.touchedFiles)

theorem fileHits_eq_nil_iff :
    ((otherSessions live selfPath).filter fun session =>
          touchedSame target.path session.touchedFiles).map (liveSessionRow rfc3339 home) = [] ↔
      ∀ session ∈ otherSessions live selfPath,
        touchedSame target.path session.touchedFiles = false := by
  rw [List.map_eq_nil_iff, List.filter_eq_nil_iff]
  simp only [Bool.not_eq_true]

/-- Where no file of the name was touched, the scopes decide. -/
theorem scopeHits_eq_iff (untouched : ∀ session ∈ otherSessions live selfPath,
    touchedSame target.path session.touchedFiles = false) :
    ((otherSessions live selfPath).filter fun session =>
          !touchedSame target.path session.touchedFiles &&
            scopeHolds target.path (workScope home session)).map (liveSessionRow rfc3339 home) =
        ((otherSessions live selfPath).filter fun session =>
          target.within (workScope home session)).map (liveSessionRow rfc3339 home) ↔
      ∀ session ∈ otherSessions live selfPath,
        scopeHolds target.path (workScope home session) = target.within (workScope home session) := by
  have scopes : (otherSessions live selfPath).filter (fun session =>
      !touchedSame target.path session.touchedFiles &&
        scopeHolds target.path (workScope home session)) =
      (otherSessions live selfPath).filter fun session =>
        scopeHolds target.path (workScope home session) := by
    apply List.filter_congr
    intro session member
    rw [untouched session member]
    rfl
  rw [scopes]
  exact map_filter_eq_iff (liveSessionRow rfc3339 home)
    (fun row => scopeHolds target.path row.workScope) (fun row => target.within row.workScope)

end Told

/-- What is told is exact exactly when names tell the touched files apart and, where none of
the name was touched, the scopes that hold the target are written as it is. -/
theorem broadcast_is_exact_iff (rfc3339 : DateTime → String) (home : Option String)
    (live : List ProbedSession) (target : RepoTarget) (selfPath : Option String) :
    BroadcastIsExact rfc3339 home live target selfPath ↔
      NamesTellApart home live target selfPath := by
  unfold BroadcastIsExact exactBroadcast
  rw [broadcastAmong_eq, broadcastOf_eq_iff, fileHits_eq_iff, fileHits_eq_nil_iff]
  constructor
  · rintro ⟨agree, scopes⟩
    refine ⟨fun session member touched => ?_, fun _ session member touched => ?_,
      fun untouched session member within => ?_⟩
    · rw [← agree session member]
      exact touched
    · rw [agree session member]
      exact touched
    · rw [(scopeHits_eq_iff untouched).mp (scopes untouched) session member]
      exact within
  · intro apart
    constructor
    · intro session member
      rw [Bool.eq_iff_iff]
      refine ⟨apart.name session member, fun touched => ?_⟩
      by_cases named : PathText.components target.path = []
      · exact apart.whole named session member touched
      · exact RepoTarget.touchedSame_of_touchedBy named touched
    · intro untouched
      refine (scopeHits_eq_iff untouched).mpr fun session member => ?_
      rw [Bool.eq_iff_iff]
      exact ⟨RepoTarget.within_of_scopeHolds, apart.scope untouched session member⟩

/-! ## A file of the same name -/

/-- An active session of another repository that touched a file. -/
def sessionElsewhere (touched : String) : ProbedSession where
  externalSessionId := "session-1"
  sourceAppId := "codex_app"
  title := some "Docs"
  path := "/home/dev/.codex/session-1.jsonl"
  sizeBytes := 0
  modifiedAt := none
  parserVersion := "1"
  sessionCreatedAt := none
  sessionUpdatedAt := none
  model := none
  inputTokens := none
  outputTokens := none
  repoPath := some "/home/dev/other"
  branch := none
  filesChanged := none
  linesAdded := none
  linesRemoved := none
  touchedFiles := [touched]
  listable := true
  metadataJson := none
  cwd := none
  liveness := .active
  lastActivity := none

def readmeTarget : RepoTarget := ⟨"/home/dev/repo", "README.md", by decide, by decide⟩

/-- The readme of another repository is told of as this one. -/
theorem other_readme_told :
    ¬ BroadcastIsExact (fun _ => "") (some "/home/dev")
      [sessionElsewhere "/home/dev/other/README.md"] readmeTarget none := by
  unfold BroadcastIsExact
  decide +kernel

end BrickTrace
