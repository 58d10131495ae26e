import BrickTrace.Cli.NativeSource
import BrickTrace.Cli.RefreshWatermark

/-!
# Files that refreshes keep in sight

Between refreshes, files are created and changed, each later than the refreshes before.  No
file should get lost: it is indexed as it is, or was modified after the mark, so that a
later refresh looks at it.  A mark that is taken from what is written in the listed files
may come to lie after a file that the walk did not get to, or that does not exist yet.
-/

set_option autoImplicit false

namespace BrickTrace

open TreeWalk (Node)

/-! ## Indexed files -/

section Sight
variable (rfc3339 : DateTime → String) (readTime : String → Option DateTime)
  (profile : SourceProfile)

def sessionFingerprint (session : NativeSourceSession) : Option String :=
  session.modifiedAt.map fun mtime =>
    rfc3339 mtime ++ ":" ++ session.sizeBytes.toNat.repr ++ ":" ++ session.parserVersion

/-- A session is on record with its fingerprint. -/
def RecordedAs (db : MetadataDb) (session : NativeSourceSession) : Prop :=
  ∃ record, db.getSourceSession profile.name session.externalSessionId = some record ∧
    record.sourceFingerprint = sessionFingerprint rfc3339 session

/-- A file is indexed with the fingerprint of its content. -/
def FileIndexed (db : MetadataDb) (file : NativeFile) : Prop :=
  ∃ session, sessionFromPath (sourceAppId profile) file = some session ∧
    RecordedAs rfc3339 profile db session

/-- A file was modified after the mark, or there is none that can be read. -/
def AboveMark (db : MetadataDb) (file : NativeFile) : Prop :=
  ∀ mark, (db.lastIndexedUpdatedAt profile.name).bind readTime = some mark →
    mark.nanoseconds < file.modifiedAt.nanoseconds

/-- The databases, with the files at the last refresh and the times of the refreshes. -/
structure ScannedHistory where
  history : HistoryState
  files : List NativeFile
  times : List DateTime

def ScannedHistory.InSight (state : ScannedHistory) : Prop :=
  ∀ file ∈ state.files, FileIndexed rfc3339 profile state.history.metadataDb file ∨
    AboveMark readTime profile state.history.metadataDb file

/-- The mark is not after every refresh. -/
def ScannedHistory.MarkReached (state : ScannedHistory) : Prop :=
  ∀ mark, (state.history.metadataDb.lastIndexedUpdatedAt profile.name).bind readTime = some mark →
    ∃ time ∈ state.times, mark.nanoseconds ≤ time.nanoseconds

end Sight

/-! ## Refreshes that scan files -/

/-- A refresh, with the files that it finds at the roots of a profile. -/
structure FileScan (includes : String → Bool) (readTime : String → Option DateTime)
    (profile : SourceProfile) where
  run : RefreshRun
  tree : String → Option (Node NativeFile)
  lists : ∀ other limit since, other.name = profile.name →
    run.env.listSourceSessions other limit since =
      listFileSourceSessions includes profile (since.bind readTime) limit tree
  paths : ∀ first ∈ walkedFiles profile tree, ∀ second ∈ walkedFiles profile tree,
    first.path = second.path → first = second

namespace FileScan
variable {includes : String → Bool} {readTime : String → Option DateTime} {profile : SourceProfile}

section Scan
variable (rfc3339 : DateTime → String) (newV5 : String → Uuid)

/-- The session files of the profile. -/
def files (scan : FileScan includes readTime profile) : List NativeFile :=
  (walkedFiles profile scan.tree).filter fun file => includes file.path

def next (state : ScannedHistory) (scan : FileScan includes readTime profile) : ScannedHistory where
  history := nextHistory rfc3339 newV5 state.history scan.run
  files := scan.files
  times := state.times ++ [scan.run.env.now]

/-- The refresh succeeds, and what changed since the last one is later than all of them. -/
structure Follows (state : ScannedHistory) (scan : FileScan includes readTime profile) : Prop where
  succeeds : (scan.run.refresh rfc3339 newV5 state.history).1 = .ok ()
  changes : ∀ file ∈ scan.files, file ∈ state.files ∨
    ∀ time ∈ state.times, time.nanoseconds < file.modifiedAt.nanoseconds

/-- From where the source is listed. -/
def since (scan : FileScan includes readTime profile) (db : MetadataDb) : Option DateTime :=
  (sinceWatermark db profile
    ((scan.run.env.listSourceSessions profile (some 1) none).getD [])).bind readTime

/-- The files that are not skipped, in the order of the walk. -/
def candidates (scan : FileScan includes readTime profile) (db : MetadataDb) : List NativeFile :=
  (walkedFiles profile scan.tree).filter (isCandidate includes (scan.since db))

/-- The files that the source lists. -/
def listed (scan : FileScan includes readTime profile) (db : MetadataDb) : List NativeFile :=
  (scan.candidates db).take sourceIndexRefreshLimit

/-- The walk of a source stops before no file that it should have seen: no listed file tells of
a time after the refresh, and each candidate beyond the limit is indexed as it is or was
modified after all the times that the listed files tell. -/
structure LeavesNoneBehind (scan : FileScan includes readTime profile) (db : MetadataDb) :
    Prop where
  told : ∀ file ∈ scan.listed db, ∀ extracted ∈ file.metadata,
    ∀ updated ∈ extracted.sessionUpdatedAt, updated.nanoseconds ≤ scan.run.env.now.nanoseconds
  beyond : ∀ file ∈ (scan.candidates db).drop sourceIndexRefreshLimit,
    FileIndexed rfc3339 profile db file ∨
      ∀ other ∈ scan.listed db, ∀ extracted ∈ other.metadata,
        ∀ updated ∈ extracted.sessionUpdatedAt, updated.nanoseconds < file.modifiedAt.nanoseconds

/-- No two session files have one external id, and the source leaves none behind when it is
scanned. -/
structure Complete (state : ScannedHistory) (scan : FileScan includes readTime profile) : Prop where
  distinct : ∀ first ∈ scan.files, ∀ second ∈ scan.files,
    externalSessionIdOf first.path = externalSessionIdOf second.path → first = second
  visits : Loops.Visits
    (refreshProfile rfc3339 newV5 scan.run.env scan.run.repoId (some sourceIndexRefreshLimit))
    (fun progress other => other.name = profile.name →
      scan.LeavesNoneBehind rfc3339 progress.metadataDb)
    (.start state.history) (scan.run.scannedProfiles state.history)

end Scan

end FileScan

/-! ## The records of listed sessions -/

section Records
variable {rfc3339 : DateTime → String} {newV5 : String → Uuid} {env : RefreshEnv} {repoId : String}
  {profile other : SourceProfile} {sessions : List NativeSourceSession}
  {session : NativeSourceSession}

theorem recordedAs_of_sessions {first second : MetadataDb} (same : first.sessions = second.sessions)
    (recorded : RecordedAs rfc3339 profile first session) :
    RecordedAs rfc3339 profile second session := by
  obtain ⟨record, found, fingerprint⟩ := recorded
  exact ⟨record, (getSourceSession_of_sessions same _ _).symm.trans found, fingerprint⟩

theorem recordedAs_refreshSession (named : other.name = profile.name) {progress : ProfileRefresh}
    (succeeded : (refreshSession rfc3339 newV5 env repoId other progress session).1 = .ok ()) :
    RecordedAs rfc3339 profile
      (refreshSession rfc3339 newV5 env repoId other progress session).2.metadataDb session := by
  obtain ⟨record, _, indexed, found, _⟩ := refreshSession_of_ok succeeded
  refine ⟨record, ?_, indexed.fingerprint⟩
  rw [← named]
  exact found

/-- A turn keeps a session on record, unless it is of another session with its id. -/
theorem RecordedAs.refreshSession {kept : NativeSourceSession} {progress : ProfileRefresh}
    (recorded : RecordedAs rfc3339 profile progress.metadataDb kept)
    (apart : other.name = profile.name →
      session.externalSessionId = kept.externalSessionId → session = kept)
    (succeeded : (refreshSession rfc3339 newV5 env repoId other progress session).1 = .ok ()) :
    RecordedAs rfc3339 profile
      (refreshSession rfc3339 newV5 env repoId other progress session).2.metadataDb kept := by
  by_cases same : (profile.name, kept.externalSessionId) = (other.name, session.externalSessionId)
  · obtain ⟨named, ids⟩ := Prod.mk.inj same
    cases apart named.symm ids.symm
    exact recordedAs_refreshSession named.symm succeeded
  · obtain ⟨record, found, fingerprint⟩ := recorded
    exact ⟨record, (getSourceSession_refreshSession_of_ne same).trans found, fingerprint⟩

section Turns
variable {state : HistoryState}
  (completed : (Loops.forEach (refreshSession rfc3339 newV5 env repoId other) (.start state)
    sessions).1 = .ok ())
include completed

theorem recordedAs_kept {kept : NativeSourceSession}
    (recorded : RecordedAs rfc3339 profile state.metadataDb kept)
    (apart : other.name = profile.name → ∀ session ∈ sessions,
      session.externalSessionId = kept.externalSessionId → session = kept) :
    RecordedAs rfc3339 profile (Loops.forEach (refreshSession rfc3339 newV5 env repoId other)
      (.start state) sessions).2.metadataDb kept := by
  have visits : Loops.Visits (refreshSession rfc3339 newV5 env repoId other)
      (fun _ session => session ∈ sessions) (.start state) sessions :=
    Loops.visits_of_mem fun _ member _ => member
  refine Loops.forEach_ok (fun reached => RecordedAs rfc3339 profile reached.metadataDb kept) ?_
    recorded visits completed
  intro progress session held member succeeded
  exact held.refreshSession (fun named => apart named session member) succeeded

/-- After the turns of sessions with distinct ids, each of them is on record. -/
theorem recordedAs_listed (named : other.name = profile.name)
    (distinct : ∀ first ∈ sessions, ∀ second ∈ sessions,
      first.externalSessionId = second.externalSessionId → first = second)
    (member : session ∈ sessions) :
    RecordedAs rfc3339 profile (Loops.forEach (refreshSession rfc3339 newV5 env repoId other)
      (.start state) sessions).2.metadataDb session := by
  have visits : Loops.Visits (refreshSession rfc3339 newV5 env repoId other)
      (fun _ session => session ∈ sessions) (.start state) sessions :=
    Loops.visits_of_mem fun _ member _ => member
  obtain ⟨reached, taken⟩ : ∃ reached, Loops.Reaches (refreshSession rfc3339 newV5 env repoId other)
      (.start state) sessions reached session := Loops.reaches_of_mem member
  refine (Loops.forEach_done (fun _ done (state : ProfileRefresh) =>
    done ∈ sessions ∧ RecordedAs rfc3339 profile state.metadataDb done) ?_ ?_ visits completed
      taken).2
  · intro progress turn inList succeeded
    exact ⟨inList, recordedAs_refreshSession named succeeded⟩
  · intro _ done progress turn held inList succeeded
    refine ⟨held.1, held.2.refreshSession ?_ succeeded⟩
    exact fun _ => distinct turn inList done held.1

end Turns

end Records

/-! ## A turn of the source -/

namespace FileScan
variable {includes : String → Bool} {readTime : String → Option DateTime} {profile : SourceProfile}
  {rfc3339 : DateTime → String} {newV5 : String → Uuid} {scan : FileScan includes readTime profile}

/-- What holds of the files of a refresh before and after each of its sources. -/
structure FilesKept (rfc3339 : DateTime → String) (scan : FileScan includes readTime profile)
    (times : List DateTime) (db : MetadataDb) : Prop where
  inSight : ∀ file ∈ scan.files,
    FileIndexed rfc3339 profile db file ∨ AboveMark readTime profile db file
  reached : ∀ mark, (db.lastIndexedUpdatedAt profile.name).bind readTime = some mark →
    ∃ time ∈ times, mark.nanoseconds ≤ time.nanoseconds

theorem listed_of_scanned {progress : RefreshProgress} {other : SourceProfile}
    (named : other.name = profile.name) {sessions : List NativeSourceSession}
    (scanned : scannedSessions scan.run.env progress other = some sessions) :
    listFileSourceSessions includes profile (scan.since progress.metadataDb)
      (some sourceIndexRefreshLimit) scan.tree = some sessions := by
  unfold scannedSessions at scanned
  obtain ⟨newest, first, scanned⟩ := Option.bind_eq_some_iff.mp scanned
  have since : scan.since progress.metadataDb =
      (sinceWatermark progress.metadataDb other newest).bind readTime := by
    rw [scan.lists other _ _ named] at first
    unfold FileScan.since sinceWatermark
    rw [scan.lists profile _ _ rfl, first, named]
    rfl
  rw [scan.lists other _ _ named, ← since] at scanned
  exact scanned

theorem mem_files_of_candidate {db : MetadataDb} {file : NativeFile}
    (candidate : file ∈ scan.candidates db) : file ∈ scan.files := by
  obtain ⟨walked, accepted⟩ := List.mem_filter.mp candidate
  exact List.mem_filter.mpr ⟨walked, (Bool.and_eq_true_iff.mp accepted).1⟩

theorem mem_files_of_listed {db : MetadataDb} {file : NativeFile} (member : file ∈ scan.listed db) :
    file ∈ scan.files := mem_files_of_candidate (List.mem_of_mem_take member)

theorem updatedAt_of_sessionFromPath {appId : String} {file : NativeFile}
    {session : NativeSourceSession} (read : sessionFromPath appId file = some session) :
    ∃ extracted ∈ file.metadata, session.sessionUpdatedAt = extracted.sessionUpdatedAt := by
  obtain ⟨extracted, held, rfl⟩ := Option.map_eq_some_iff.mp read
  exact ⟨extracted, held, rfl⟩

/-- A candidate that is not in sight was not modified after the mark that it was listed from. -/
theorem indexed_or_above_of_not_candidate {db : MetadataDb} {file : NativeFile}
    (inSight : FileIndexed rfc3339 profile db file ∨ AboveMark readTime profile db file)
    (member : file ∈ scan.files) (skipped : file ∉ scan.candidates db) :
    FileIndexed rfc3339 profile db file := by
  obtain ⟨walked, included⟩ := List.mem_filter.mp member
  refine inSight.resolve_right fun above => skipped (List.mem_filter.mpr ⟨walked, ?_⟩)
  have unskipped : skipByMtime file (scan.since db) = false := by
    unfold FileScan.since sinceWatermark
    dsimp only
    split
    · rfl
    · unfold skipByMtime
      cases mark : ((db.getSourceWatermark profile.name).bind (·.lastIndexedUpdatedAt)).bind readTime with
      | none => rfl
      | some time => exact decide_eq_false (not_le_of_gt (above time mark))
  unfold isCandidate
  rw [unskipped]
  exact Bool.and_eq_true_iff.mpr ⟨included, rfl⟩

theorem indexedFile_setSourceWatermark {db : MetadataDb} {file : NativeFile} (sourceId : String)
    (mark : Option String) (now : DateTime) (indexed : FileIndexed rfc3339 profile db file) :
    FileIndexed rfc3339 profile (db.setSourceWatermark sourceId mark now) file := by
  obtain ⟨session, read, recorded⟩ := indexed
  exact ⟨session, read, recordedAs_of_sessions rfl recorded⟩

/-! ### After the turns of its sessions -/

section Listed
variable {progress : RefreshProgress} {other : SourceProfile} {sessions : List NativeSourceSession}
  (listing : listFileSourceSessions includes profile (scan.since progress.metadataDb)
    (some sourceIndexRefreshLimit) scan.tree = some sessions)
include listing

theorem mem_sessions_iff (session : NativeSourceSession) :
    session ∈ sessions ↔ ∃ file ∈ scan.listed progress.metadataDb,
      sessionFromPath (sourceAppId profile) file = some session :=
  mem_listFileSourceSessions (by decide) scan.paths listing session

variable (distinct : ∀ first ∈ scan.files, ∀ second ∈ scan.files,
  externalSessionIdOf first.path = externalSessionIdOf second.path → first = second)
include distinct

/-- A listed session with the id of a file is the session of that file. -/
theorem eq_session_of_id {file : NativeFile} (member : file ∈ scan.files)
    {session : NativeSourceSession} (read : sessionFromPath (sourceAppId profile) file = some session)
    {turn : NativeSourceSession} (isListed : turn ∈ sessions)
    (ids : turn.externalSessionId = session.externalSessionId) : turn = session := by
  obtain ⟨turnFile, turnListed, turnRead⟩ := (mem_sessions_iff listing turn).mp isListed
  rw [externalSessionId_of_sessionFromPath turnRead, externalSessionId_of_sessionFromPath read] at ids
  cases distinct turnFile (mem_files_of_listed turnListed) file member ids
  exact Option.some.inj (turnRead.symm.trans read)

variable (completed : (Loops.forEach (refreshSession rfc3339 newV5 scan.run.env scan.run.repoId other)
  (.start progress.toHistoryState) sessions).1 = .ok ())
include completed

theorem indexedFile_kept {file : NativeFile} (member : file ∈ scan.files)
    (indexed : FileIndexed rfc3339 profile progress.metadataDb file) :
    FileIndexed rfc3339 profile (Loops.forEach (refreshSession rfc3339 newV5 scan.run.env
      scan.run.repoId other) (.start progress.toHistoryState) sessions).2.metadataDb file := by
  obtain ⟨session, read, recorded⟩ := indexed
  refine ⟨session, read, recordedAs_kept completed recorded ?_⟩
  intro _ turn isListed ids
  exact eq_session_of_id listing distinct member read isListed ids

theorem indexedFile_listed (named : other.name = profile.name) {file : NativeFile}
    (isListed : file ∈ scan.listed progress.metadataDb) :
    FileIndexed rfc3339 profile (Loops.forEach (refreshSession rfc3339 newV5 scan.run.env
      scan.run.repoId other) (.start progress.toHistoryState) sessions).2.metadataDb file := by
  obtain ⟨session, read⟩ := read_of_listed (by decide) listing file isListed
  have member := (mem_sessions_iff listing session).mpr ⟨file, isListed, read⟩
  refine ⟨session, read, recordedAs_listed completed named ?_ member⟩
  intro first isFirst second isSecond ids
  obtain ⟨secondFile, secondListed, secondRead⟩ := (mem_sessions_iff listing second).mp isSecond
  exact eq_session_of_id listing distinct (mem_files_of_listed secondListed) secondRead isFirst ids

omit distinct completed in
/-- The mark after a turn is a time that a listed file tells, or the mark before. -/
theorem mark_told (reads : ∀ time read, readTime (rfc3339 time) = some read → read = time)
    {held : Option String} {mark : DateTime}
    (marked : ((updateTexts rfc3339 sessions).max?.or held).bind readTime = some mark) :
    held.bind readTime = some mark ∨ ∃ file ∈ scan.listed progress.metadataDb,
      ∃ extracted ∈ file.metadata, mark ∈ extracted.sessionUpdatedAt := by
  cases latest : (updateTexts rfc3339 sessions).max? with
  | none =>
      rw [latest] at marked
      exact Or.inl marked
  | some text =>
      rw [latest] at marked
      have told := (List.max?_eq_some_iff.mp latest).1
      obtain ⟨session, isListed, written⟩ := List.mem_filterMap.mp told
      obtain ⟨updated, isUpdated, rfl⟩ := Option.map_eq_some_iff.mp written
      cases reads updated mark marked
      obtain ⟨file, fileListed, read⟩ := (mem_sessions_iff listing session).mp isListed
      obtain ⟨extracted, held, same⟩ := updatedAt_of_sessionFromPath read
      exact Or.inr ⟨file, fileListed, extracted, held, same ▸ isUpdated⟩

end Listed

section Turn
variable {times : List DateTime} {progress : RefreshProgress} {other : SourceProfile}
  (kept : FilesKept rfc3339 scan times progress.metadataDb)
  (succeeded : (refreshProfile rfc3339 newV5 scan.run.env scan.run.repoId
    (some sourceIndexRefreshLimit) progress other).1 = .ok ())
include kept succeeded

theorem filesKept_turn (reads : ∀ time read, readTime (rfc3339 time) = some read → read = time)
    (distinct : ∀ first ∈ scan.files, ∀ second ∈ scan.files,
      externalSessionIdOf first.path = externalSessionIdOf second.path → first = second)
    (now : scan.run.env.now ∈ times) (named : other.name = profile.name)
    (complete : scan.LeavesNoneBehind rfc3339 progress.metadataDb) :
    FilesKept rfc3339 scan times (refreshProfile rfc3339 newV5 scan.run.env scan.run.repoId
      (some sourceIndexRefreshLimit) progress other).2.metadataDb := by
  rcases refreshProfile_sets rfc3339 newV5 scan.run.env scan.run.repoId progress other with
    ⟨failure, failed, _⟩ | ⟨sessions, scanned, _, turns, sets⟩
  · rw [failed] at succeeded
    cases succeeded
  have listing := listed_of_scanned named scanned
  have marked : ∀ mark, ((refreshProfile rfc3339 newV5 scan.run.env scan.run.repoId
      (some sourceIndexRefreshLimit) progress other).2.metadataDb.lastIndexedUpdatedAt
        profile.name).bind readTime = some mark →
      (progress.metadataDb.lastIndexedUpdatedAt profile.name).bind readTime = some mark ∨
        ∃ file ∈ scan.listed progress.metadataDb, ∃ extracted ∈ file.metadata,
          mark ∈ extracted.sessionUpdatedAt := by
    intro mark isMark
    rw [sets, ← named, lastIndexedUpdatedAt_set_self,
      lastIndexedUpdatedAt_of_watermarks (watermarks_forEach ..)] at isMark
    rw [← named]
    exact mark_told listing reads isMark
  rw [sets] at marked ⊢
  have indexed : ∀ file ∈ scan.files, FileIndexed rfc3339 profile progress.metadataDb file →
      FileIndexed rfc3339 profile _ file := fun file member before =>
    indexedFile_setSourceWatermark other.name (updateTexts rfc3339 sessions).max? scan.run.env.now
      (indexedFile_kept listing distinct turns member before)
  constructor
  · intro file member
    by_cases candidate : file ∈ scan.candidates progress.metadataDb
    · rw [← List.take_append_drop sourceIndexRefreshLimit (scan.candidates progress.metadataDb)] at candidate
      rcases List.mem_append.mp candidate with isListed | passed
      · exact Or.inl (indexedFile_setSourceWatermark _ _ _
          (indexedFile_listed listing distinct turns named isListed))
      · rcases complete.beyond file passed with before | later
        · exact Or.inl (indexed file member before)
        · rcases kept.inSight file member with before | above
          · exact Or.inl (indexed file member before)
          · refine Or.inr fun mark isMark => ?_
            rcases marked mark isMark with before | ⟨teller, isListed, extracted, held, told⟩
            · exact above mark before
            · exact later teller isListed extracted held mark told
    · exact Or.inl (indexed file member
        (indexed_or_above_of_not_candidate (kept.inSight file member) member candidate))
  · intro mark isMark
    rcases marked mark isMark with before | ⟨teller, isListed, extracted, held, told⟩
    · exact kept.reached mark before
    · exact ⟨_, now, complete.told teller isListed extracted held mark told⟩

/-- A turn of another source leaves the files as they are known. -/
theorem filesKept_other_turn (differs : other.name ≠ profile.name) :
    FilesKept rfc3339 scan times (refreshProfile rfc3339 newV5 scan.run.env scan.run.repoId
      (some sourceIndexRefreshLimit) progress other).2.metadataDb := by
  rcases refreshProfile_sets rfc3339 newV5 scan.run.env scan.run.repoId progress other with
    ⟨failure, failed, _⟩ | ⟨sessions, _, _, turns, sets⟩
  · rw [failed] at succeeded
    cases succeeded
  have mark : (refreshProfile rfc3339 newV5 scan.run.env scan.run.repoId
      (some sourceIndexRefreshLimit) progress other).2.metadataDb.lastIndexedUpdatedAt profile.name =
        progress.metadataDb.lastIndexedUpdatedAt profile.name := by
    rw [sets, lastIndexedUpdatedAt_set_of_ne _ _ _ differs.symm,
      lastIndexedUpdatedAt_of_watermarks (watermarks_forEach ..)]
  constructor
  · intro file member
    rcases kept.inSight file member with ⟨session, read, recorded⟩ | above
    · rw [sets]
      refine Or.inl (indexedFile_setSourceWatermark _ _ _ ⟨session, read, ?_⟩)
      exact recordedAs_kept turns recorded fun named => absurd named differs
    · refine Or.inr ?_
      unfold AboveMark
      rw [mark]
      exact above
  · rw [mark]
    exact kept.reached

end Turn

/-! ## Sequences of refreshes -/

section Run
variable {state : ScannedHistory}

/-- What changed since the last refresh is after the mark, whatever was in sight. -/
theorem Follows.filesKept (follows : scan.Follows rfc3339 newV5 state)
    (inSight : state.InSight rfc3339 readTime profile) (reached : state.MarkReached readTime profile) :
    FilesKept rfc3339 scan (state.times ++ [scan.run.env.now]) state.history.metadataDb := by
  constructor
  · intro file member
    rcases follows.changes file member with before | later
    · exact inSight file before
    · refine Or.inr fun mark marked => ?_
      obtain ⟨time, earlier, below⟩ := reached mark marked
      exact lt_of_le_of_lt below (later time earlier)
  · intro mark marked
    obtain ⟨time, earlier, below⟩ := reached mark marked
    exact ⟨time, List.mem_append_left _ earlier, below⟩

/-- A refresh that succeeds and leaves no file behind keeps all files in sight. -/
theorem filesKept_next (reads : ∀ time read, readTime (rfc3339 time) = some read → read = time)
    (follows : scan.Follows rfc3339 newV5 state) (complete : scan.Complete rfc3339 newV5 state)
    (inSight : state.InSight rfc3339 readTime profile) (reached : state.MarkReached readTime profile) :
    (next rfc3339 newV5 state scan).InSight rfc3339 readTime profile ∧
      (next rfc3339 newV5 state scan).MarkReached readTime profile := by
  obtain ⟨final, succeeds⟩ := refresh_profiles rfc3339 newV5 scan.run state.history
  have now : scan.run.env.now ∈ state.times ++ [scan.run.env.now] :=
    List.mem_append_right _ (List.mem_singleton_self _)
  have kept : FilesKept rfc3339 scan (state.times ++ [scan.run.env.now])
      (nextHistory rfc3339 newV5 state.history scan.run).metadataDb := by
    unfold nextHistory
    rw [final]
    refine Loops.forEach_ok (fun progress : RefreshProgress => FilesKept rfc3339 scan
      (state.times ++ [scan.run.env.now]) progress.metadataDb) ?_
      (follows.filesKept inSight reached) complete.visits (succeeds follows.succeeds)
    intro progress other before leaves succeeded
    by_cases named : other.name = profile.name
    · exact filesKept_turn before succeeded reads complete.distinct now named (leaves named)
    · exact filesKept_other_turn before succeeded named
  exact ⟨kept.inSight, kept.reached⟩

/-- Along every sequence of refreshes that succeed and leave no file behind, each file of the
source is indexed as it is or was modified after the mark. -/
theorem refreshes_keep_files_in_sight
    (reads : ∀ time read, readTime (rfc3339 time) = some read → read = time)
    {scans : List (FileScan includes readTime profile)}
    (inSight : state.InSight rfc3339 readTime profile) (reached : state.MarkReached readTime profile)
    (met : Runs.Meets (next rfc3339 newV5) (fun reached scan =>
      scan.Follows rfc3339 newV5 reached ∧ scan.Complete rfc3339 newV5 reached) state scans) :
    Runs.Always (next rfc3339 newV5) (ScannedHistory.InSight rfc3339 readTime profile) state scans := by
  have always : Runs.Always (next rfc3339 newV5) (fun held =>
      held.InSight rfc3339 readTime profile ∧ held.MarkReached readTime profile) state scans := by
    apply Runs.always_of_meets _ _ ⟨inSight, reached⟩ met
    intro before scan held condition
    exact filesKept_next reads condition.1 condition.2 held.1 held.2
  exact Runs.always_mono _ (fun _ held => held.1) always

/-- A source of no more files than are listed, none of which tells of a time after the refresh,
leaves none behind. -/
theorem leavesNoneBehind_of_few {db : MetadataDb} (few : scan.files.length ≤ sourceIndexRefreshLimit)
    (told : ∀ file ∈ scan.files, ∀ extracted ∈ file.metadata, ∀ updated ∈ extracted.sessionUpdatedAt,
      updated.nanoseconds ≤ scan.run.env.now.nanoseconds) : scan.LeavesNoneBehind rfc3339 db := by
  have fewer : (scan.candidates db).length ≤ sourceIndexRefreshLimit := by
    apply le_trans (List.Sublist.length_le _) few
    apply List.monotone_filter_right
    intro file accepted
    exact (Bool.and_eq_true_iff.mp accepted).1
  constructor
  · exact fun file isListed => told file (mem_files_of_listed isListed)
  · intro file passed
    rw [List.drop_eq_nil_of_le fewer] at passed
    cases passed

end Run

end FileScan

/-! ## A file that tells of a later time -/

/-- How the first three minutes are written, and read. -/
def minuteText (time : DateTime) : String :=
  if time.nanoseconds = 0 then "1970-01-01T00:00:00+00:00"
  else if time.nanoseconds = 60000000000 then "1970-01-01T00:01:00+00:00"
  else if time.nanoseconds = 120000000000 then "1970-01-01T00:02:00+00:00"
  else ""

def readMinute (text : String) : Option DateTime :=
  if text = "1970-01-01T00:00:00+00:00" then some ⟨0⟩
  else if text = "1970-01-01T00:01:00+00:00" then some ⟨60000000000⟩
  else if text = "1970-01-01T00:02:00+00:00" then some ⟨120000000000⟩
  else none

theorem readMinute_minuteText (time read : DateTime) (isRead : readMinute (minuteText time) = some read) :
    read = time := by
  obtain ⟨nanoseconds⟩ := time
  unfold minuteText at isRead
  dsimp only at isRead
  split at isRead
  · rename_i zero
    rw [show readMinute "1970-01-01T00:00:00+00:00" = some ⟨0⟩ from by decide +kernel] at isRead
    rw [zero]
    exact (Option.some.inj isRead).symm
  · split at isRead
    · rename_i one
      rw [show readMinute "1970-01-01T00:01:00+00:00" = some ⟨60000000000⟩ from by decide +kernel]
        at isRead
      rw [one]
      exact (Option.some.inj isRead).symm
    · split at isRead
      · rename_i two
        rw [show readMinute "1970-01-01T00:02:00+00:00" = some ⟨120000000000⟩ from by decide +kernel]
          at isRead
        rw [two]
        exact (Option.some.inj isRead).symm
      · rw [show readMinute "" = none from by decide +kernel] at isRead
        cases isRead

/-- A transcript by the seconds in which its file and its session were last updated. -/
def transcriptFile (name : String) (modified updated : Int) : NativeFile where
  path := "/home/user/.claude/projects/" ++ name ++ ".jsonl"
  modifiedAt := ⟨modified * 1000000000⟩
  sizeBytes := 10
  metadata := some {
    title := none
    parserVersion := some "claude-code-jsonl-v4"
    sessionCreatedAt := none
    sessionUpdatedAt := some ⟨updated * 1000000000⟩
    model := none
    inputTokens := none
    outputTokens := none
    repoPath := some "/work/a"
    branch := none
    filesChanged := none
    linesAdded := none
    linesRemoved := none
    touchedFiles := []
    listable := true
    metadataJson := none }

/-- A directory that holds files only. -/
def directoryOf (files : List NativeFile) (_path : String) : Option (Node NativeFile) :=
  some (.branch (files.map .leaf))

theorem walkedFiles_directoryOf (files : List NativeFile) :
    walkedFiles claudeCode (directoryOf files) = files := by
  have roots : walkedFiles claudeCode (directoryOf files) =
      [some (Node.branch (files.map Node.leaf))].flatMap filesAt := rfl
  rw [roots, List.flatMap_singleton]
  exact TreeWalk.order_leaves files

def scanAt (second : Int) (files : List NativeFile) (distinct : (files.map (·.path)).Nodup) :
    FileScan (fun _ => true) readMinute claudeCode where
  run := {
    repoId := "repo-a"
    sources := ⟨some [claudeCode], []⟩
    env := {
      now := ⟨second * 1000000000⟩
      freshSessionId := ⟨"session-1"⟩
      listSourceSessions := fun _ limit since =>
        listFileSourceSessions (fun _ => true) claudeCode (since.bind readMinute) limit
          (directoryOf files)
      formatSourceSessionChunks := fun _ _ _ => some []
      storesPlans := fun _ => true } }
  tree := directoryOf files
  lists := fun _ _ _ _ => rfl
  paths := by
    rw [walkedFiles_directoryOf]
    exact fun first isFirst second isSecond same => List.inj_on_of_nodup_map distinct isFirst isSecond same

theorem files_scanAt {second : Int} {files : List NativeFile}
    {distinct : (files.map (·.path)).Nodup} : (scanAt second files distinct).files = files := by
  unfold FileScan.files
  rw [show (scanAt second files distinct).tree = directoryOf files from rfl, walkedFiles_directoryOf]
  exact List.filter_eq_self.mpr fun _ _ => rfl

theorem complete_scanAt {second : Int} {files : List NativeFile}
    {distinct : (files.map (·.path)).Nodup} {state : ScannedHistory} {newV5 : String → Uuid}
    (ids : (files.map fun file => externalSessionIdOf file.path).Nodup)
    (few : files.length ≤ sourceIndexRefreshLimit)
    (told : ∀ file ∈ files, ∀ extracted ∈ file.metadata, ∀ updated ∈ extracted.sessionUpdatedAt,
      updated.nanoseconds ≤ second * 1000000000) :
    (scanAt second files distinct).Complete minuteText newV5 state := by
  have leaves : ∀ db, (scanAt second files distinct).LeavesNoneBehind minuteText db := by
    intro db
    apply FileScan.leavesNoneBehind_of_few
    · rw [files_scanAt]
      exact few
    · rw [files_scanAt]
      exact told
  constructor
  · rw [files_scanAt]
    exact fun first isFirst second isSecond same => List.inj_on_of_nodup_map ids isFirst isSecond same
  · exact Loops.visits_of_mem fun _ _ _ _ => leaves _

def emptyScannedHistory : ScannedHistory := ⟨emptyHistory, [], []⟩

def firstScan (updated : Int) : FileScan (fun _ => true) readMinute claudeCode :=
  scanAt 60 [transcriptFile "session-1" 60 updated] (List.nodup_singleton _)

def secondScan (firstUpdated : Int) : FileScan (fun _ => true) readMinute claudeCode :=
  scanAt 120 [transcriptFile "session-1" 60 firstUpdated, transcriptFile "session-2" 120 60] (by
    change List.Nodup ["/home/user/.claude/projects/session-1.jsonl",
      "/home/user/.claude/projects/session-2.jsonl"]
    decide)

theorem follows_firstScan (updated : Int)
    (succeeds : ((firstScan updated).run.refresh minuteText transcriptUuid emptyHistory).1.isOk = true) :
    (firstScan updated).Follows minuteText transcriptUuid emptyScannedHistory :=
  ⟨Fallible.eq_ok_of_isOk succeeds, fun _ _ => Or.inr fun _ none => nomatch none⟩

theorem follows_secondScan (updated : Int)
    (succeeds : ((secondScan updated).run.refresh minuteText transcriptUuid
      (FileScan.next minuteText transcriptUuid emptyScannedHistory (firstScan updated)).history).1.isOk = true) :
    (secondScan updated).Follows minuteText transcriptUuid
      (FileScan.next minuteText transcriptUuid emptyScannedHistory (firstScan updated)) := by
  refine ⟨Fallible.eq_ok_of_isOk succeeds, ?_⟩
  intro file member
  unfold secondScan at member
  rw [files_scanAt] at member
  rcases List.mem_cons.mp member with rfl | isSecond
  · refine Or.inl ?_
    have before : (firstScan updated).files = [transcriptFile "session-1" 60 updated] := files_scanAt
    change transcriptFile "session-1" 60 updated ∈ (firstScan updated).files
    rw [before]
    exact List.mem_singleton_self _
  · refine Or.inr ?_
    rw [List.mem_singleton.mp isSecond]
    intro time isTime
    rw [List.mem_singleton.mp isTime]
    have later : (60 * 1000000000 : Int) < 120 * 1000000000 := by decide
    exact later

theorem files_with_earlier_times_stay_in_sight :
    Runs.Always (FileScan.next minuteText transcriptUuid)
      (ScannedHistory.InSight minuteText readMinute claudeCode) emptyScannedHistory
      [firstScan 0, secondScan 0] := by
  apply FileScan.refreshes_keep_files_in_sight readMinute_minuteText
  · exact fun _ none => nomatch none
  · exact fun _ none => nomatch none
  · refine ⟨⟨follows_firstScan 0 (by decide +kernel), complete_scanAt ?_ ?_ ?_⟩,
      ⟨follows_secondScan 0 (by decide +kernel), complete_scanAt ?_ ?_ ?_⟩, trivial⟩
    · decide
    · decide
    · intro file member extracted held updated told
      rw [List.mem_singleton.mp member] at held
      cases held
      cases told
      decide
    · decide
    · decide
    · intro file member extracted held updated told
      rcases List.mem_cons.mp member with rfl | isSecond
      · cases held
        cases told
        decide
      · rw [List.mem_singleton.mp isSecond] at held
        cases held
        cases told
        decide

/-- The databases after both scans, when the first transcript tells of a minute to come. -/
def lostHistory : HistoryState :=
  (Runs.run (FileScan.next minuteText transcriptUuid) emptyScannedHistory
    [firstScan 120, secondScan 120]).history

theorem file_behind_a_later_time_is_lost :
    (firstScan 120).Follows minuteText transcriptUuid emptyScannedHistory ∧
      (secondScan 120).Follows minuteText transcriptUuid
        (FileScan.next minuteText transcriptUuid emptyScannedHistory (firstScan 120)) ∧
      ¬ Runs.Always (FileScan.next minuteText transcriptUuid)
        (ScannedHistory.InSight minuteText readMinute claudeCode) emptyScannedHistory
        [firstScan 120, secondScan 120] := by
  refine ⟨follows_firstScan 120 (by decide +kernel), follows_secondScan 120 (by decide +kernel), ?_⟩
  intro always
  have inSight := Runs.always_last _ always
  obtain ⟨unrecorded, mark⟩ : (lostHistory.metadataDb.getSourceSession "claude_code"
      "session-2").isNone = true ∧ (lostHistory.metadataDb.lastIndexedUpdatedAt "claude_code").bind
        readMinute = some ⟨120000000000⟩ := by
    decide +kernel
  have member : transcriptFile "session-2" 120 60 ∈ (secondScan 120).files := by
    unfold secondScan
    rw [files_scanAt]
    exact List.mem_cons_of_mem _ (List.mem_singleton_self _)
  rcases inSight _ member with ⟨session, read, record, found, _⟩ | above
  · rw [externalSessionId_of_sessionFromPath read] at found
    have id : externalSessionIdOf (transcriptFile "session-2" 120 60).path = "session-2" := by
      decide
    rw [id] at found
    have absent : lostHistory.metadataDb.getSourceSession "claude_code" "session-2" = none :=
      Option.isNone_iff_eq_none.mp unrecorded
    cases absent.symm.trans found
  · have later := above ⟨120000000000⟩ mark
    exact absurd later (by decide)

end BrickTrace
