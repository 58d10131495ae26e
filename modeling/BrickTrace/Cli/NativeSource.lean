import BrickTrace.Lib.Distinct
import BrickTrace.Lib.Fallible
import BrickTrace.Lib.TreeWalk
import BrickTrace.Protocol.Text
import BrickTrace.Cli.History

/-!
# The session files of a source

A source whose sessions are files is listed by walking the directories of its roots, in
whatever order they have their entries.  Files that were not modified after the watermark are
left out, and the walk stops where it has as many sessions as it may list; only then are
they put in order.
-/

set_option autoImplicit false

namespace BrickTrace

open TreeWalk (Node)

/-! ## Files -/

/-- What a provider reads in a session file. -/
structure NativeSessionMetadata where
  title : Option String
  parserVersion : Option String
  sessionCreatedAt : Option DateTime
  sessionUpdatedAt : Option DateTime
  model : Option String
  inputTokens : Option UInt64
  outputTokens : Option UInt64
  repoPath : Option String
  branch : Option String
  filesChanged : Option UInt64
  linesAdded : Option UInt64
  linesRemoved : Option UInt64
  touchedFiles : List String
  listable : Bool
  metadataJson : Option Json

/-- A file as it is on disk, with what its provider reads in it, unless that fails. -/
structure NativeFile where
  path : String
  modifiedAt : DateTime
  sizeBytes : UInt64
  metadata : Option NativeSessionMetadata

/-- The name of a file without what follows its last dot; a dot in front is part of the name. -/
def fileStem (path : String) : String :=
  let name := (fileName path).toList
  match name.reverse.dropWhile (· ≠ '.') with
  | [] => .ofList name
  | _ :: before => if before.isEmpty then .ofList name else .ofList before.reverse

def genericNativeFileParserVersion : String := "native-file-v1"

def externalSessionIdOf (path : String) : String :=
  if (fileStem path).isEmpty then "session" else fileStem path

def sessionFromPath (appId : String) (file : NativeFile) : Option NativeSourceSession :=
  file.metadata.map fun extracted => {
    externalSessionId := externalSessionIdOf file.path
    sourceAppId := appId
    title := some (extracted.title.getD (externalSessionIdOf file.path))
    path := file.path
    sizeBytes := file.sizeBytes
    modifiedAt := some file.modifiedAt
    parserVersion := extracted.parserVersion.getD genericNativeFileParserVersion
    sessionCreatedAt := extracted.sessionCreatedAt
    sessionUpdatedAt := extracted.sessionUpdatedAt
    model := extracted.model
    inputTokens := extracted.inputTokens
    outputTokens := extracted.outputTokens
    repoPath := extracted.repoPath
    branch := extracted.branch
    filesChanged := extracted.filesChanged
    linesAdded := extracted.linesAdded
    linesRemoved := extracted.linesRemoved
    touchedFiles := extracted.touchedFiles
    listable := extracted.listable
    metadataJson := extracted.metadataJson }

/-! ## The listing -/

/-- Whether a file was not modified after the watermark. -/
def skipByMtime (file : NativeFile) : Option DateTime → Bool
  | none => false
  | some since => file.modifiedAt.nanoseconds ≤ since.nanoseconds

/-- Later sessions stand first; one without a time stands last. -/
def NativeSourceSession.mayPrecede (first second : NativeSourceSession) : Bool :=
  match first.modifiedAt, second.modifiedAt with
  | _, none => true
  | none, some _ => false
  | some firstTime, some secondTime => secondTime.nanoseconds ≤ firstTime.nanoseconds

section Listing
variable (includes : String → Bool) (profile : SourceProfile) (since : Option DateTime)
  (limit : Option Nat)

def isCandidate (file : NativeFile) : Bool := includes file.path && !skipByMtime file since

def sourceAppId : String := profile.appId.getD profile.name

/-- A root may be missing, a file or a directory. -/
def collectSessionFiles (found : List NativeSourceSession) :
    Option (Node NativeFile) → Option (List NativeSourceSession)
  | none => some found
  | some (.leaf file) =>
      if isCandidate includes since file then
        (sessionFromPath (sourceAppId profile) file).map fun session => found ++ [session]
      else some found
  | some (.branch entries) =>
      TreeWalk.walk (isCandidate includes since) (sessionFromPath (sourceAppId profile)) limit
        (TreeWalk.pending [entries]) [entries] found

def collectRoots (found : List NativeSourceSession) :
    List (Option (Node NativeFile)) → Option (List NativeSourceSession)
  | [] => some found
  | root :: rest =>
      match collectSessionFiles includes profile since limit found root with
      | none => none
      | some grown =>
          if limit.any fun most => most ≤ grown.length then some grown else collectRoots grown rest

/-- Sorted by the times of the files, without a path that repeats the one before it. -/
def orderSessions (sessions : List NativeSourceSession) : List NativeSourceSession :=
  (sessions.insertionSort fun first second => first.mayPrecede second = true).destutter
    fun first second => first.path ≠ second.path

/-- The roots of a profile, by what `tree` finds at a path. -/
def rootsOf (tree : String → Option (Node NativeFile)) : List (Option (Node NativeFile)) :=
  (profile.sessionLogPath.toList ++ profile.evidenceRoot.toList).map tree

def listFileSourceSessions (tree : String → Option (Node NativeFile)) :
    Option (List NativeSourceSession) :=
  (collectRoots includes profile since limit [] (rootsOf profile tree)).map fun sessions =>
    match limit with
    | none => orderSessions sessions
    | some most => (orderSessions sessions).take most

end Listing

/-! ## What is listed -/

/-- The files at a root, in the order of a walk. -/
def filesAt : Option (Node NativeFile) → List NativeFile
  | none => []
  | some (.leaf file) => [file]
  | some (.branch entries) => TreeWalk.order entries

/-- The files of a profile, in the order of a walk. -/
def walkedFiles (profile : SourceProfile) (tree : String → Option (Node NativeFile)) :
    List NativeFile :=
  (rootsOf profile tree).flatMap filesAt

section Listed
variable {includes : String → Bool} {profile : SourceProfile} {since : Option DateTime}

theorem collectSessionFiles_eq {limit : Option Nat} {found : List NativeSourceSession}
    (room : TreeWalk.hasRoom limit found = true) (root : Option (Node NativeFile)) :
    collectSessionFiles includes profile since limit found root =
      TreeWalk.gather (isCandidate includes since) (sessionFromPath (sourceAppId profile)) limit
        found (filesAt root) := by
  unfold collectSessionFiles filesAt
  match root with
  | none => rfl
  | some (.leaf file) =>
      dsimp only
      rw [TreeWalk.gather_cons, room, Bool.true_and]
      split
      · cases sessionFromPath (sourceAppId profile) file <;> rfl
      · rfl
  | some (.branch entries) =>
      dsimp only
      rw [TreeWalk.walk_eq room (Nat.le_refl _), List.flatMap_singleton]

theorem collectRoots_eq {limit : Option Nat} {found : List NativeSourceSession}
    (room : TreeWalk.hasRoom limit found = true) (roots : List (Option (Node NativeFile))) :
    collectRoots includes profile since limit found roots =
      TreeWalk.gather (isCandidate includes since) (sessionFromPath (sourceAppId profile)) limit
        found (roots.flatMap filesAt) := by
  induction roots generalizing found with
  | nil => rfl
  | cons root rest ih =>
      unfold collectRoots
      rw [collectSessionFiles_eq room, List.flatMap_cons, TreeWalk.gather_append]
      cases TreeWalk.gather (isCandidate includes since) (sessionFromPath (sourceAppId profile)) limit
          found (filesAt root) with
      | none => rfl
      | some grown =>
          dsimp only [Option.bind_some]
          have full : (limit.any fun most => most ≤ grown.length) = !TreeWalk.hasRoom limit grown := by
            cases limit with
            | none => rfl
            | some most =>
                change decide (most ≤ grown.length) = !decide (grown.length < most)
                rw [← decide_not]
                exact decide_eq_decide.mpr Nat.not_lt.symm
          rw [full]
          cases more : TreeWalk.hasRoom limit grown with
          | true => exact ih more
          | false => exact (TreeWalk.gather_of_full more _).symm

/-- The files that a walk lists. -/
def listedFiles (includes : String → Bool) (profile : SourceProfile) (since : Option DateTime)
    (most : Nat) (tree : String → Option (Node NativeFile)) : List NativeFile :=
  ((walkedFiles profile tree).filter (isCandidate includes since)).take most

/-- A listing is what the first candidates in the order of the walk give. -/
theorem listFileSourceSessions_eq {most : Nat} (positive : 0 < most)
    (tree : String → Option (Node NativeFile)) :
    listFileSourceSessions includes profile since (some most) tree =
      ((listedFiles includes profile since most tree).mapM
        (sessionFromPath (sourceAppId profile))).map fun sessions =>
          (orderSessions sessions).take most := by
  have room : TreeWalk.hasRoom (some most) ([] : List NativeSourceSession) = true :=
    decide_eq_true positive
  unfold listFileSourceSessions
  rw [collectRoots_eq room, TreeWalk.gather_eq]
  rfl

theorem path_of_sessionFromPath {appId : String} {file : NativeFile} {session : NativeSourceSession}
    (read : sessionFromPath appId file = some session) : session.path = file.path := by
  obtain ⟨extracted, _, rfl⟩ := Option.map_eq_some_iff.mp read
  rfl

theorem externalSessionId_of_sessionFromPath {appId : String} {file : NativeFile}
    {session : NativeSourceSession} (read : sessionFromPath appId file = some session) :
    session.externalSessionId = externalSessionIdOf file.path := by
  obtain ⟨extracted, _, built⟩ := Option.map_eq_some_iff.mp read
  rw [← built]

/-- Where a path names one session, putting sessions in order drops none. -/
theorem mem_orderSessions {collected : List NativeSourceSession}
    (alike : ∀ first ∈ collected, ∀ second ∈ collected, first.path = second.path → first = second)
    (session : NativeSourceSession) : session ∈ orderSessions collected ↔ session ∈ collected := by
  unfold orderSessions
  rw [Distinct.mem_destutter]
  · exact List.mem_insertionSort _
  · intro first isFirst second isSecond same
    exact alike first ((List.mem_insertionSort _).mp isFirst) second
      ((List.mem_insertionSort _).mp isSecond) (not_not.mp same)

/-- Sessions read from files that their paths tell apart are told apart by their paths. -/
theorem eq_of_path_of_read {appId : String} {files : List NativeFile}
    (paths : ∀ first ∈ files, ∀ second ∈ files, first.path = second.path → first = second)
    {collected : List NativeSourceSession}
    (members : ∀ session, session ∈ collected ↔
      ∃ file ∈ files, sessionFromPath appId file = some session) :
    ∀ first ∈ collected, ∀ second ∈ collected, first.path = second.path → first = second := by
  intro first isFirst second isSecond same
  obtain ⟨firstFile, firstListed, firstRead⟩ := (members first).mp isFirst
  obtain ⟨secondFile, secondListed, secondRead⟩ := (members second).mp isSecond
  rw [path_of_sessionFromPath firstRead, path_of_sessionFromPath secondRead] at same
  rw [paths _ firstListed _ secondListed same] at firstRead
  exact Option.some.inj (firstRead.symm.trans secondRead)

/-- Where a path names one file, the sessions of a listing are those of the files that it lists. -/
theorem mem_listFileSourceSessions {most : Nat} (positive : 0 < most)
    {tree : String → Option (Node NativeFile)}
    (paths : ∀ first ∈ walkedFiles profile tree, ∀ second ∈ walkedFiles profile tree,
      first.path = second.path → first = second)
    {sessions : List NativeSourceSession}
    (listed : listFileSourceSessions includes profile since (some most) tree = some sessions)
    (session : NativeSourceSession) :
    session ∈ sessions ↔ ∃ file ∈ listedFiles includes profile since most tree,
      sessionFromPath (sourceAppId profile) file = some session := by
  rw [listFileSourceSessions_eq positive] at listed
  obtain ⟨collected, read, rfl⟩ := Option.map_eq_some_iff.mp listed
  obtain ⟨lengths, members⟩ := Fallible.mem_of_mapM_option read
  have fits : (orderSessions collected).length ≤ most := by
    have shorter := (List.destutter_sublist (fun first second : NativeSourceSession =>
      first.path ≠ second.path) (collected.insertionSort fun first second =>
        first.mayPrecede second = true)).length_le
    rw [List.length_insertionSort, lengths] at shorter
    exact shorter.trans (List.length_take_le _ _)
  have walked : ∀ file ∈ listedFiles includes profile since most tree,
      file ∈ walkedFiles profile tree :=
    fun file member => (List.mem_filter.mp (List.mem_of_mem_take member)).1
  have alike := eq_of_path_of_read
    (fun first isFirst second isSecond =>
      paths first (walked first isFirst) second (walked second isSecond)) members
  rw [List.take_of_length_le fits, ← members, mem_orderSessions alike]

/-- Without a watermark and a limit, every file that is included is listed. -/
theorem mem_listFileSourceSessions_all {tree : String → Option (Node NativeFile)}
    (paths : ∀ first ∈ walkedFiles profile tree, ∀ second ∈ walkedFiles profile tree,
      first.path = second.path → first = second)
    {sessions : List NativeSourceSession}
    (listed : listFileSourceSessions includes profile none none tree = some sessions) :
    (∀ session, session ∈ sessions ↔
      ∃ file ∈ (walkedFiles profile tree).filter fun file => includes file.path,
        sessionFromPath (sourceAppId profile) file = some session) ∧
    ∀ file ∈ (walkedFiles profile tree).filter fun file => includes file.path,
      ∃ session, sessionFromPath (sourceAppId profile) file = some session := by
  have accepts : isCandidate includes none = fun file => includes file.path := by
    funext file
    simp [isCandidate, skipByMtime]
  unfold listFileSourceSessions at listed
  rw [collectRoots_eq rfl, TreeWalk.gather_none, accepts] at listed
  obtain ⟨gathered, mapped, rfl⟩ := Option.map_eq_some_iff.mp listed
  obtain ⟨collected, read, rfl⟩ := Option.map_eq_some_iff.mp mapped
  obtain ⟨-, members⟩ := Fallible.mem_of_mapM_option read
  have alike := eq_of_path_of_read
    (fun first isFirst second isSecond => paths first (List.mem_filter.mp isFirst).1 second
      (List.mem_filter.mp isSecond).1) members
  refine ⟨fun session => ?_, Fallible.exists_of_mapM_option read⟩
  dsimp only
  rw [List.nil_append, mem_orderSessions alike, members]
  rfl

/-- Every listed file could be read. -/
theorem read_of_listed {most : Nat} (positive : 0 < most) {tree : String → Option (Node NativeFile)}
    {sessions : List NativeSourceSession}
    (listed : listFileSourceSessions includes profile since (some most) tree = some sessions) :
    ∀ file ∈ listedFiles includes profile since most tree,
      ∃ session, sessionFromPath (sourceAppId profile) file = some session := by
  rw [listFileSourceSessions_eq positive] at listed
  obtain ⟨collected, read, _⟩ := Option.map_eq_some_iff.mp listed
  exact Fallible.exists_of_mapM_option read

end Listed

end BrickTrace
