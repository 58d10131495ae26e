import Mathlib.Data.List.Dedup
import Mathlib.Order.WithBot
import BrickTrace.Lib.StableSort
import BrickTrace.Cli.NativeSource

/-!
# The newest session files

A listing with a limit is meant to be of the newest files.  The walk that collects it stops where
it has found enough, in whatever order the directories have their entries, and of a file that it
meets twice only a repetition next to the first is dropped.
-/

set_option autoImplicit false

namespace BrickTrace

open TreeWalk (Node)

section Newest
variable (includes : String → Bool) (profile : SourceProfile) (limit : Option Nat)
  (tree : String → Option (Node NativeFile))

/-- The files that a profile has, in the order of a walk. -/
def includedFiles : List NativeFile :=
  (walkedFiles profile tree).filter fun file => includes file.path

/-- How many of `found` are to be listed. -/
def wantedCount : Option Nat → Nat → Nat
  | none, found => found
  | some most, found => min most found

/-- What a listing is meant to be: the newest files, the newest first, and none of them twice. -/
structure ListsNewest (sessions : List NativeSourceSession) : Prop where
  included : ∀ session ∈ sessions, ∃ file ∈ includedFiles includes profile tree,
    sessionFromPath (sourceAppId profile) file = some session
  newestFirst : sessions.Pairwise fun first second => first.mayPrecede second = true
  once : (sessions.map (·.path)).Nodup
  count : sessions.length =
    wantedCount limit ((includedFiles includes profile tree).map (·.path)).dedup.length
  newest : ∀ file ∈ includedFiles includes profile tree, file.path ∉ sessions.map (·.path) →
    ∀ session ∈ sessions, ∀ time ∈ session.modifiedAt,
      file.modifiedAt.nanoseconds ≤ time.nanoseconds

/-- The files that a listing may show: the first ones of a walk. -/
def firstFiles : List NativeFile :=
  match limit with
  | none => includedFiles includes profile tree
  | some most => (includedFiles includes profile tree).take most

/-- The files that are read.  With a limit of none, that is still the first one of the first root. -/
def filesRead : List NativeFile :=
  match limit with
  | some 0 =>
      (((rootsOf profile tree).take 1).flatMap filesAt |>.filter fun file => includes file.path).take 1
  | _ => firstFiles includes profile limit tree

/-- The first files of a walk are the newest ones, and no other file of the same time stands
between two places at which a walk meets one of them. -/
structure NewestFoundFirst : Prop where
  readable : ∀ file ∈ filesRead includes profile limit tree, file.metadata.isSome = true
  count : ((firstFiles includes profile limit tree).map (·.path)).dedup.length =
    wantedCount limit ((includedFiles includes profile tree).map (·.path)).dedup.length
  newest : ∀ file ∈ includedFiles includes profile tree,
    file ∉ firstFiles includes profile limit tree →
      ∀ other ∈ firstFiles includes profile limit tree,
        file.modifiedAt.nanoseconds ≤ other.modifiedAt.nanoseconds
  together : ∀ file other, [file, other, file].Sublist (firstFiles includes profile limit tree) →
    other.modifiedAt = file.modifiedAt → other = file

end Newest

/-! ## What is collected -/

section Collected
variable {includes : String → Bool} {profile : SourceProfile}
  {tree : String → Option (Node NativeFile)}

theorem isCandidate_without_watermark :
    isCandidate includes none = fun file => includes file.path := by
  funext file
  simp [isCandidate, skipByMtime]

/-- With a limit of none, one file of the first root is read and nothing is listed. -/
theorem listFileSourceSessions_zero :
    listFileSourceSessions includes profile none (some 0) tree =
      ((filesRead includes profile (some 0) tree).mapM
        (sessionFromPath (sourceAppId profile))).map fun _ => [] := by
  unfold listFileSourceSessions filesRead
  dsimp only
  cases rootsOf profile tree with
  | nil => rfl
  | cons root rest =>
      rw [List.take_succ_cons, List.take_zero, List.flatMap_singleton, collectRoots]
      have collected : collectSessionFiles includes profile none (some 0) [] root =
          (((filesAt root).filter fun file => includes file.path).take 1).mapM
            (sessionFromPath (sourceAppId profile)) := by
        have room : TreeWalk.hasRoom (some 1) ([] : List NativeSourceSession) = true :=
          decide_eq_true Nat.zero_lt_one
        have one := @collectSessionFiles_eq includes profile none _ _ room root
        rw [TreeWalk.gather_eq, isCandidate_without_watermark] at one
        rw [← one]
        cases root with
        | none => rfl
        | some node =>
            cases node with
            | leaf file => rfl
            | branch entries => exact TreeWalk.walk_zero _ _
      rw [collected]
      cases (((filesAt root).filter fun file => includes file.path).take 1).mapM
          (sessionFromPath (sourceAppId profile)) with
      | none => rfl
      | some sessions => simp

theorem firstFiles_of_positive {limit : Option Nat} (positive : limit ≠ some 0) :
    filesRead includes profile limit tree = firstFiles includes profile limit tree := by
  unfold filesRead
  split
  · exact absurd rfl positive
  · rfl

/-- Otherwise the listing is made of all files that are read. -/
theorem listFileSourceSessions_positive {limit : Option Nat} (positive : limit ≠ some 0) :
    listFileSourceSessions includes profile none limit tree =
      ((firstFiles includes profile limit tree).mapM
        (sessionFromPath (sourceAppId profile))).map orderSessions := by
  cases limit with
  | none =>
      unfold listFileSourceSessions
      rw [collectRoots_eq rfl, TreeWalk.gather_none, isCandidate_without_watermark, Option.map_map]
      rfl
  | some most =>
      have some_left : 0 < most := Nat.pos_of_ne_zero fun none_left => positive (by rw [none_left])
      rw [listFileSourceSessions_eq some_left]
      unfold listedFiles
      rw [isCandidate_without_watermark]
      change Option.map _ ((firstFiles includes profile (some most) tree).mapM _) = _
      cases read : (firstFiles includes profile (some most) tree).mapM
          (sessionFromPath (sourceAppId profile)) with
      | none => rfl
      | some collected =>
          have lengths := (Fallible.mem_of_mapM_option read).1
          have few : collected.length ≤ most := by
            rw [lengths]
            exact List.length_take_le _ _
          have fits : (orderSessions collected).length ≤ most := by
            have shorter := (List.destutter_sublist (fun first second : NativeSourceSession =>
              first.path ≠ second.path) (collected.insertionSort fun first second =>
                first.mayPrecede second = true)).length_le
            rw [List.length_insertionSort] at shorter
            exact shorter.trans few
          exact congrArg some (List.take_of_length_le fits)

end Collected

/-! ## Putting in order -/

/-- The time of a session, below all times if it has none. -/
def NativeSourceSession.fileTime (session : NativeSourceSession) : WithBot Int :=
  session.modifiedAt.map (·.nanoseconds)

/-- What the order of a listing depends on. -/
def NativeSourceSession.stamp (session : NativeSourceSession) : String × WithBot Int :=
  (session.path, session.fileTime)

def NativeFile.stamp (file : NativeFile) : String × WithBot Int :=
  (file.path, (file.modifiedAt.nanoseconds : Int))

theorem mayPrecede_eq (first second : NativeSourceSession) :
    first.mayPrecede second = StableSort.larger NativeSourceSession.fileTime first second := by
  unfold NativeSourceSession.mayPrecede StableSort.larger NativeSourceSession.fileTime
  cases first.modifiedAt with
  | none => cases second.modifiedAt <;> rfl
  | some firstTime =>
      cases second.modifiedAt with
      | none => rfl
      | some secondTime => exact decide_eq_decide.mpr WithBot.coe_le_coe.symm

theorem orderSessions_eq (sessions : List NativeSourceSession) :
    orderSessions sessions =
      (StableSort.largestFirst NativeSourceSession.fileTime sessions).destutter
        fun first second => first.path ≠ second.path := by
  unfold orderSessions
  rw [StableSort.insertionSort_eq_largestFirst fun first second => by rw [mayPrecede_eq]]

theorem pairwise_orderSessions (sessions : List NativeSourceSession) :
    (orderSessions sessions).Pairwise fun first second => first.mayPrecede second = true := by
  rw [orderSessions_eq]
  have within := List.destutter_sublist (fun first second : NativeSourceSession =>
    first.path ≠ second.path) (StableSort.largestFirst NativeSourceSession.fileTime sessions)
  refine (StableSort.pairwise_largestFirst.sublist within).imp fun later => ?_
  rw [mayPrecede_eq]
  exact decide_eq_true later

theorem stamp_of_sessionFromPath {appId : String} (file : NativeFile) (session : NativeSourceSession)
    (read : sessionFromPath appId file = some session) : session.stamp = file.stamp := by
  obtain ⟨extracted, _, rfl⟩ := Option.map_eq_some_iff.mp read
  rfl

section Ordered
variable {appId : String} {files : List NativeFile} {collected : List NativeSourceSession}
  (paths : ∀ first ∈ files, ∀ second ∈ files, first.path = second.path → first = second)
  (read : files.mapM (sessionFromPath appId) = some collected)
include read

theorem paths_orderSessions :
    (orderSessions collected).map (·.path) =
      ((StableSort.largestFirst Prod.snd (files.map NativeFile.stamp)).map Prod.fst).destutter
        (· ≠ ·) := by
  have sorted : (StableSort.largestFirst NativeSourceSession.fileTime collected).map
      NativeSourceSession.stamp = StableSort.largestFirst Prod.snd (files.map NativeFile.stamp) := by
    rw [← Fallible.map_of_mapM_option stamp_of_sessionFromPath read]
    exact List.map_mergeSort fun _ _ _ _ => rfl
  rw [orderSessions_eq, ← sorted, List.map_map]
  exact List.map_destutter fun _ _ _ _ => Iff.rfl

include paths

/-- A path is listed once exactly if no other file of its time stands between two places of it. -/
theorem nodup_orderSessions_iff :
    ((orderSessions collected).map (·.path)).Nodup ↔
      ∀ file other, [file, other, file].Sublist files → other.modifiedAt = file.modifiedAt →
        other = file := by
  rw [paths_orderSessions read, Distinct.nodup_destutter_iff]
  constructor
  · intro between file other within sameTime
    have stamped : [file.stamp, other.stamp, file.stamp].Sublist
        (StableSort.largestFirst Prod.snd (files.map NativeFile.stamp)) := by
      refine StableSort.between_largestFirst_iff.mpr ⟨within.map NativeFile.stamp, ?_⟩
      unfold NativeFile.stamp
      rw [sameTime]
    exact paths other (within.subset (by simp)) file (within.subset (by simp))
      (between file.path other.path (stamped.map Prod.fst))
  · intro between path otherPath within
    obtain ⟨first, second, third, inSorted, isFirst, isSecond, isThird⟩ :=
      Distinct.exists_of_three_sublist_map within
    have ofFile : ∀ stamp ∈ [first, second, third], ∃ file ∈ files, file.stamp = stamp := by
      intro stamp member
      exact List.mem_map.mp (StableSort.largestFirst_perm.mem_iff.mp (inSorted.subset member))
    obtain ⟨file, isFile, rfl⟩ := ofFile first (by simp)
    obtain ⟨lastFile, isLast, rfl⟩ := ofFile third (by simp)
    rw [paths lastFile isLast file isFile (isThird.trans isFirst.symm),
      StableSort.between_largestFirst_iff] at inSorted
    obtain ⟨inStamps, sameTime⟩ := inSorted
    obtain ⟨left, other, right, inFiles, isLeft, isOther, isRight⟩ :=
      Distinct.exists_of_three_sublist_map inStamps
    have sameFile : ∀ same ∈ files, same.stamp = file.stamp → same = file :=
      fun same isSame stamps => paths same isSame file isFile (congrArg Prod.fst stamps)
    rw [sameFile left (inFiles.subset (by simp)) isLeft,
      sameFile right (inFiles.subset (by simp)) isRight] at inFiles
    rw [← isOther] at sameTime isSecond
    have found := between file other inFiles (congrArg DateTime.mk (WithBot.coe_injective sameTime))
    rw [← isSecond, ← isFirst, found]

/-- The paths that are listed are those of the files. -/
theorem mem_paths_orderSessions (path : String) :
    path ∈ (orderSessions collected).map (·.path) ↔ path ∈ files.map (·.path) := by
  obtain ⟨_, members⟩ := Fallible.mem_of_mapM_option read
  have alike := eq_of_path_of_read paths members
  have samePath : ∀ file session, sessionFromPath appId file = some session →
      NativeSourceSession.path session = file.path := fun _ _ isRead => path_of_sessionFromPath isRead
  rw [← Fallible.map_of_mapM_option samePath read]
  simp only [List.mem_map, mem_orderSessions alike]

theorem length_orderSessions (once : ((orderSessions collected).map (·.path)).Nodup) :
    (orderSessions collected).length = (files.map (·.path)).dedup.length := by
  rw [← List.length_map (fun session : NativeSourceSession => session.path)]
  refine ((List.perm_ext_iff_of_nodup once (List.nodup_dedup _)).mpr fun path => ?_).length_eq
  rw [mem_paths_orderSessions paths read, List.mem_dedup]

end Ordered

section Newest
variable {includes : String → Bool} {profile : SourceProfile}
  {tree : String → Option (Node NativeFile)}

theorem mem_included_of_firstFiles {limit : Option Nat} {file : NativeFile}
    (first : file ∈ firstFiles includes profile limit tree) :
    file ∈ includedFiles includes profile tree := by
  cases limit with
  | none => exact first
  | some most => exact List.mem_of_mem_take first

variable (paths : ∀ first ∈ walkedFiles profile tree, ∀ second ∈ walkedFiles profile tree,
  first.path = second.path → first = second)
include paths

/-- The sessions of the first files are the newest ones if the files are. -/
theorem listsNewest_orderSessions_iff {limit : Option Nat} {collected : List NativeSourceSession}
    (read : (firstFiles includes profile limit tree).mapM
      (sessionFromPath (sourceAppId profile)) = some collected)
    (readable : ∀ file ∈ filesRead includes profile limit tree, file.metadata.isSome = true) :
    ListsNewest includes profile limit tree (orderSessions collected) ↔
      NewestFoundFirst includes profile limit tree := by
  have walked : ∀ file ∈ includedFiles includes profile tree, file ∈ walkedFiles profile tree :=
    fun file member => (List.mem_filter.mp member).1
  have included : ∀ file ∈ firstFiles includes profile limit tree,
      file ∈ includedFiles includes profile tree := fun file => mem_included_of_firstFiles
  have firstPaths : ∀ first ∈ firstFiles includes profile limit tree,
      ∀ second ∈ firstFiles includes profile limit tree, first.path = second.path → first = second :=
    fun first isFirst second isSecond =>
      paths first (walked _ (included _ isFirst)) second (walked _ (included _ isSecond))
  obtain ⟨_, members⟩ := Fallible.mem_of_mapM_option read
  have mem_sessions := mem_orderSessions (eq_of_path_of_read firstPaths members)
  have once_iff := nodup_orderSessions_iff firstPaths read
  have pathMember : ∀ file ∈ includedFiles includes profile tree,
      (file.path ∈ (orderSessions collected).map (·.path) ↔
        file ∈ firstFiles includes profile limit tree) := by
    intro file isIncluded
    rw [mem_paths_orderSessions firstPaths read, List.mem_map]
    constructor
    · rintro ⟨other, isFirst, same⟩
      rw [← paths other (walked _ (included _ isFirst)) file (walked _ isIncluded) same]
      exact isFirst
    · exact fun isFirst => ⟨file, isFirst, rfl⟩
  constructor
  · intro lists
    refine ⟨readable, ?_, ?_, once_iff.mp lists.once⟩
    · rw [← lists.count, length_orderSessions firstPaths read lists.once]
    · intro file isIncluded notFirst other isFirst
      obtain ⟨session, isRead⟩ := Fallible.exists_of_mapM_option read other isFirst
      have isListed := (mem_sessions session).mpr ((members session).mpr ⟨other, isFirst, isRead⟩)
      obtain ⟨extracted, _, rfl⟩ := Option.map_eq_some_iff.mp isRead
      exact lists.newest file isIncluded (fun listed => notFirst ((pathMember file isIncluded).mp listed))
        _ isListed other.modifiedAt rfl
  · intro found
    have once := once_iff.mpr found.together
    refine ⟨?_, pairwise_orderSessions collected, once, ?_, ?_⟩
    · intro session isListed
      obtain ⟨file, isFirst, isRead⟩ := (members session).mp ((mem_sessions session).mp isListed)
      exact ⟨file, included file isFirst, isRead⟩
    · rw [length_orderSessions firstPaths read once, found.count]
    · intro file isIncluded notListed session isListed time isTime
      obtain ⟨other, isFirst, isRead⟩ := (members session).mp ((mem_sessions session).mp isListed)
      obtain ⟨extracted, _, rfl⟩ := Option.map_eq_some_iff.mp isRead
      cases isTime
      exact found.newest file isIncluded
        (fun first => notListed ((pathMember file isIncluded).mpr first)) other isFirst

/-- A listing is of the newest files exactly if they are the first ones that the walk finds. -/
theorem listsNewest_iff (limit : Option Nat) :
    (∃ sessions, listFileSourceSessions includes profile none limit tree = some sessions ∧
      ListsNewest includes profile limit tree sessions) ↔
        NewestFoundFirst includes profile limit tree := by
  have canRead : ∀ file : NativeFile,
      (sessionFromPath (sourceAppId profile) file).isSome = file.metadata.isSome :=
    fun file => Option.isSome_map
  have allRead : ∀ {files : List NativeFile} {results : List NativeSourceSession},
      files.mapM (sessionFromPath (sourceAppId profile)) = some results →
        ∀ file ∈ files, file.metadata.isSome = true := by
    intro files results read file member
    obtain ⟨session, isRead⟩ := Fallible.exists_of_mapM_option read file member
    rw [← canRead, isRead]
    rfl
  have reads : ∀ {files : List NativeFile}, (∀ file ∈ files, file.metadata.isSome = true) →
      ∃ results, files.mapM (sessionFromPath (sourceAppId profile)) = some results :=
    fun readable => Fallible.mapM_option_of_forall fun file member =>
      (canRead file).trans (readable file member)
  by_cases isZero : limit = some 0
  · subst isZero
    rw [listFileSourceSessions_zero]
    constructor
    · rintro ⟨sessions, listed, _⟩
      obtain ⟨collected, read, _⟩ := Option.map_eq_some_iff.mp listed
      refine ⟨allRead read, ?_, fun _ _ _ _ isFirst => ?_, fun _ _ within _ => ?_⟩
      · simp [firstFiles, wantedCount]
      · cases isFirst
      · cases within
    · intro found
      obtain ⟨collected, read⟩ := reads found.readable
      refine ⟨[], by rw [read]; rfl, ?_⟩
      constructor <;> simp [wantedCount]
  · rw [listFileSourceSessions_positive isZero]
    constructor
    · rintro ⟨sessions, listed, lists⟩
      obtain ⟨collected, read, rfl⟩ := Option.map_eq_some_iff.mp listed
      have readable := allRead read
      rw [← firstFiles_of_positive isZero] at readable
      exact (listsNewest_orderSessions_iff paths read readable).mp lists
    · intro found
      have readable := found.readable
      rw [firstFiles_of_positive isZero] at readable
      obtain ⟨collected, read⟩ := reads readable
      exact ⟨orderSessions collected, by rw [read]; rfl,
        (listsNewest_orderSessions_iff paths read found.readable).mpr found⟩

end Newest

/-! ## Two logs in one directory -/

def NativeSessionMetadata.default : NativeSessionMetadata where
  title := none
  parserVersion := none
  sessionCreatedAt := none
  sessionUpdatedAt := none
  model := none
  inputTokens := none
  outputTokens := none
  repoPath := none
  branch := none
  filesChanged := none
  linesAdded := none
  linesRemoved := none
  touchedFiles := []
  listable := true
  metadataJson := none

def sessionLog (path : String) (second : Int) : NativeFile :=
  ⟨path, ⟨second * 1000000000⟩, 10, some .default⟩

/-- A discovered source, whose log root is its evidence root too. -/
def discoveredLogs : SourceProfile where
  name := "codex-app"
  appId := some "codex_app"
  actorId := none
  actorType := none
  sessionDbPath := none
  sessionLogPath := some "/logs"
  evidenceRoot := some "/logs"
  cursorStateDbPath := none

/-- The directory of the logs, with its entries in an order of its own. -/
def logsAt (first second : NativeFile) (_path : String) : Option (Node NativeFile) :=
  some (.branch [.leaf first, .leaf second])

theorem newest_entry_listed :
    ∃ sessions, listFileSourceSessions (fun _ => true) discoveredLogs none (some 1)
        (logsAt (sessionLog "/logs/b.jsonl" 20) (sessionLog "/logs/a.jsonl" 10)) = some sessions ∧
      ListsNewest (fun _ => true) discoveredLogs (some 1)
        (logsAt (sessionLog "/logs/b.jsonl" 20) (sessionLog "/logs/a.jsonl" 10)) sessions := by
  have walked : walkedFiles discoveredLogs
      (logsAt (sessionLog "/logs/b.jsonl" 20) (sessionLog "/logs/a.jsonl" 10)) =
        [sessionLog "/logs/b.jsonl" 20, sessionLog "/logs/a.jsonl" 10,
          sessionLog "/logs/b.jsonl" 20, sessionLog "/logs/a.jsonl" 10] := rfl
  refine (listsNewest_iff ?_ (some 1)).mpr ⟨?_, by decide +kernel, ?_, ?_⟩
  · rw [walked]
    simp [sessionLog]
  · intro file isRead
    obtain rfl := List.mem_singleton.mp
      (show file ∈ [sessionLog "/logs/b.jsonl" 20] from isRead)
    rfl
  · intro file isIncluded _ other isFirst
    obtain rfl := List.mem_singleton.mp
      (show other ∈ [sessionLog "/logs/b.jsonl" 20] from isFirst)
    have isWalked := (List.mem_filter.mp isIncluded).1
    rw [walked] at isWalked
    simp only [List.mem_cons, List.not_mem_nil, or_false] at isWalked
    rcases isWalked with rfl | rfl | rfl | rfl <;> decide
  · intro file other within
    have short : 3 ≤ 1 := within.length_le
    omega

/-- A listing of one session is of the older file if the directory has it first. -/
theorem newest_entry_missed :
    ¬∃ sessions, listFileSourceSessions (fun _ => true) discoveredLogs none (some 1)
        (logsAt (sessionLog "/logs/a.jsonl" 10) (sessionLog "/logs/b.jsonl" 20)) = some sessions ∧
      ListsNewest (fun _ => true) discoveredLogs (some 1)
        (logsAt (sessionLog "/logs/a.jsonl" 10) (sessionLog "/logs/b.jsonl" 20)) sessions := by
  rintro ⟨sessions, listed, lists⟩
  have isListed : ∃ session, listFileSourceSessions (fun _ => true) discoveredLogs none (some 1)
      (logsAt (sessionLog "/logs/a.jsonl" 10) (sessionLog "/logs/b.jsonl" 20)) = some [session] ∧
        session.path = "/logs/a.jsonl" ∧ session.modifiedAt = some ⟨10000000000⟩ :=
    ⟨_, rfl, rfl, rfl⟩
  obtain ⟨session, same, path, modified⟩ := isListed
  rw [same, Option.some.injEq] at listed
  subst listed
  have isIncluded : sessionLog "/logs/b.jsonl" 20 ∈ includedFiles (fun _ => true) discoveredLogs
      (logsAt (sessionLog "/logs/a.jsonl" 10) (sessionLog "/logs/b.jsonl" 20)) :=
    List.mem_cons_of_mem _ List.mem_cons_self
  have later := lists.newest _ isIncluded (by simp [path, sessionLog]) session (by simp) _ modified
  exact absurd later (by decide)

end BrickTrace
