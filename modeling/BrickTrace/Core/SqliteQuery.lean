import BrickTrace.Lib.Select
import BrickTrace.Core.SqliteKeys

/-!
# Queries of the cache

`querySqliteSessions` and `querySqliteArtifacts` read one row for each entity and
collect the ids that the link tables hold for it.  The second half says which rows a
rebuild leaves in each table that they read.
-/

set_option autoImplicit false

namespace BrickTrace

open KeyedRows OrderedMap Select

deriving instance DecidableEq for ArtifactRow

/-- A query of a cache file whose tables were never created fails. -/
inductive QueryError where
  | noSuchTable
deriving DecidableEq

structure SqliteSessionQuery where
  appId : Option String
  actorId : Option String
  runtimeId : Option String
  limit : Nat

structure SqliteArtifactQuery where
  sessionId : Option String
  missionId : Option String
  limit : Nat

structure SqliteSessionRecord where
  sessionId : String
  sessionName : Option String
  actorId : Option String
  actorType : Option String
  appId : Option String
  appSessionId : Option String
  appSessionName : Option String
  runtimeId : Option String
  missionIds : List String
  artifactIds : List String
  logRefIds : List String
  startedAt : String
  lastEventAt : String

structure SqliteAttachmentRecord where
  attachmentId : String
  name : String
  originalPath : String
  contentType : Option String
  sha256 : String
  sizeBytes : UInt64
  storageUri : String
  externalUri : Option String
  availability : String
  repoContextId : Option String
  uploadedAt : String

structure SqliteDiffRecord where
  diffId : String
  diffTarget : String
  baseCommit : Option String
  headCommit : Option String
  patchId : Option String
  summaryHash : String
  fileCount : Nat
  additions : UInt64
  deletions : UInt64
  binaryFileCount : Nat
  repoContextId : Option String
  capturedAt : String

structure SqliteArtifactRecord where
  artifactId : String
  artifactKind : Option String
  title : Option String
  body : Option String
  missionIds : List String
  sessionIds : List String
  filePaths : List String
  attachments : List SqliteAttachmentRecord
  diffs : List SqliteDiffRecord
  createdAt : String
  lastEventAt : String

/-! ## The tables that the queries read -/

def readSession : Row → Option SessionRow
  | .sessions row => some row
  | _ => none

def readSessionMission : Row → Option SessionMissionRow
  | .sessionMissions row => some row
  | _ => none

def readArtifact : Row → Option ArtifactRow
  | .artifacts row => some row
  | _ => none

def readArtifactMission : Row → Option ArtifactMissionRow
  | .artifactMissions row => some row
  | _ => none

def readArtifactSession : Row → Option ArtifactSessionRow
  | .artifactSessions row => some row
  | _ => none

def readArtifactFile : Row → Option ArtifactFileRow
  | .artifactFiles row => some row
  | _ => none

def readAttachment : Row → Option AttachmentRow
  | .attachments row => some row
  | _ => none

def readArtifactAttachment : Row → Option ArtifactAttachmentRow
  | .artifactAttachments row => some row
  | _ => none

def readDiff : Row → Option DiffRow
  | .diffs row => some row
  | _ => none

def readSessionLog : Row → Option SessionLogRow
  | .sessionLogs row => some row
  | _ => none

/-! ## Collecting the ids of an entity -/

def QueryCache.normalizedLimit (limit : Nat) : Nat := min (max limit 1) Int64.maxValue.toNatClampNeg

/-- Rows in the order of a time, and of an id within one time. -/
def byTime {A : Type} (time id : A → String) (left right : A) : Bool :=
  decide (time left < time right ∨ time left = time right ∧ id left ≤ id right)

/-- Rows with the latest time first. -/
def byLatest {A : Type} (time id : A → String) (left right : A) : Bool :=
  decide (time right < time left ∨ time left = time right ∧ id left ≤ id right)

/-- A column of the chosen rows, in its own order. -/
def collectValues {A : Type} (chosen : A → Bool) (column : A → String) (rows : List A) :
    List String :=
  ((rows.filter chosen).map column).mergeSort fun left right => decide (left ≤ right)

section Collect
variable (cache : QueryCache)

def sessionMissionIds (sessionId : String) : List String :=
  collectValues (·.sessionId == sessionId) SessionMissionRow.missionId
    (cache.rows.filterMap readSessionMission)

def sessionArtifactIds (sessionId : String) : List String :=
  collectValues (·.sessionId == sessionId) ArtifactSessionRow.artifactId
    (cache.rows.filterMap readArtifactSession)

def sessionLogRefIds (sessionId : String) : List String :=
  (((cache.rows.filterMap readSessionLog).filter (·.sessionId == sessionId)).mergeSort
    (byTime SessionLogRow.uploadedAt SessionLogRow.logRefId)).map SessionLogRow.logRefId

def artifactMissionIds (artifactId : String) : List String :=
  collectValues (·.artifactId == artifactId) ArtifactMissionRow.missionId
    (cache.rows.filterMap readArtifactMission)

def artifactSessionIds (artifactId : String) : List String :=
  collectValues (·.artifactId == artifactId) ArtifactSessionRow.sessionId
    (cache.rows.filterMap readArtifactSession)

def artifactFilePaths (artifactId : String) : List String :=
  collectValues (·.artifactId == artifactId) ArtifactFileRow.path
    (cache.rows.filterMap readArtifactFile)

/-- A negative size counts as zero. -/
def attachmentRecord (row : AttachmentRow) : SqliteAttachmentRecord where
  attachmentId := row.attachmentId
  name := row.name
  originalPath := row.originalPath
  contentType := row.contentType
  sha256 := row.sha256
  sizeBytes := UInt64.ofNat row.sizeBytes.toNatClampNeg
  storageUri := row.storageUri
  externalUri := row.externalUri
  availability := row.availability
  repoContextId := row.repoContextId
  uploadedAt := row.uploadedAt

/-- Each attachment row joined with the links of the artifact to it. -/
def attachmentRowsOf (artifactId : String) : List AttachmentRow :=
  (cache.rows.filterMap readAttachment).flatMap fun row =>
    ((cache.rows.filterMap readArtifactAttachment).filter fun link =>
      link.attachmentId == row.attachmentId && link.artifactId == artifactId).map fun _ => row

def collectAttachments (artifactId : String) : List SqliteAttachmentRecord :=
  ((attachmentRowsOf cache artifactId).mergeSort
    (byTime AttachmentRow.uploadedAt AttachmentRow.attachmentId)).map attachmentRecord

/-- Negative counts are read as zero. -/
def diffRecord (row : DiffRow) : SqliteDiffRecord where
  diffId := row.diffId
  diffTarget := row.diffTarget
  baseCommit := row.baseCommit
  headCommit := row.headCommit
  patchId := row.patchId
  summaryHash := row.summaryHash
  fileCount := row.fileCount.toNatClampNeg
  additions := UInt64.ofNat row.additions.toNatClampNeg
  deletions := UInt64.ofNat row.deletions.toNatClampNeg
  binaryFileCount := row.binaryFileCount.toNatClampNeg
  repoContextId := row.repoContextId
  capturedAt := row.capturedAt

def collectDiffs (artifactId : String) : List SqliteDiffRecord :=
  (((cache.rows.filterMap readDiff).filter (·.artifactId == artifactId)).mergeSort
    (byTime DiffRow.capturedAt DiffRow.diffId)).map diffRecord

/-! ## The queries -/

def sessionRecord (row : SessionRow) : SqliteSessionRecord where
  sessionId := row.sessionId
  sessionName := row.sessionName
  actorId := row.actorId
  actorType := row.actorType
  appId := row.appId
  appSessionId := row.appSessionId
  appSessionName := row.appSessionName
  runtimeId := row.runtimeId
  missionIds := sessionMissionIds cache row.sessionId
  artifactIds := sessionArtifactIds cache row.sessionId
  logRefIds := sessionLogRefIds cache row.sessionId
  startedAt := row.startedAt
  lastEventAt := row.lastEventAt

def querySqliteSessions (query : SqliteSessionQuery) :
    Except QueryError (List SqliteSessionRecord) :=
  if cache.hasTables then
    let rows := (cache.rows.filterMap readSession).filter fun row =>
      meets query.appId row.appId && meets query.actorId row.actorId &&
        meets query.runtimeId row.runtimeId
    .ok ((firstRows (byLatest SessionRow.lastEventAt SessionRow.sessionId)
      (QueryCache.normalizedLimit query.limit) rows).map (sessionRecord cache))
  else .error .noSuchTable

def artifactRecord (row : ArtifactRow) : SqliteArtifactRecord where
  artifactId := row.artifactId
  artifactKind := row.artifactKind
  title := row.title
  body := row.body
  missionIds := artifactMissionIds cache row.artifactId
  sessionIds := artifactSessionIds cache row.artifactId
  filePaths := artifactFilePaths cache row.artifactId
  attachments := collectAttachments cache row.artifactId
  diffs := collectDiffs cache row.artifactId
  createdAt := row.createdAt
  lastEventAt := row.lastEventAt

/-- The artifacts joined with their sessions and missions, as far as they have any. -/
def joinedArtifacts : List ((ArtifactRow × Option ArtifactSessionRow) × Option ArtifactMissionRow) :=
  leftJoin (fun row link => link.artifactId == row.1.artifactId)
    (leftJoin (fun row link => link.artifactId == row.artifactId)
      (cache.rows.filterMap readArtifact) (cache.rows.filterMap readArtifactSession))
    (cache.rows.filterMap readArtifactMission)

def querySqliteArtifacts (query : SqliteArtifactQuery) :
    Except QueryError (List SqliteArtifactRecord) :=
  if cache.hasTables then
    let joined := (joinedArtifacts cache).filter fun row =>
      meets query.sessionId (row.1.2.map ArtifactSessionRow.sessionId) &&
        meets query.missionId (row.2.map ArtifactMissionRow.missionId)
    let rows := (joined.map fun row => row.1.1).dedup
    .ok ((firstRows (byLatest ArtifactRow.lastEventAt ArtifactRow.artifactId)
      (QueryCache.normalizedLimit query.limit) rows).map (artifactRecord cache))
  else .error .noSuchTable

end Collect

/-! ## The rows that a rebuild leaves -/

section Rebuilt
variable {formats : TextFormats} {written : DateTime} {cache after : QueryCache}
  {events : List TraceEvent} {index : TraceIndex}
  (rebuilt : rebuildSqliteIndex formats written cache events index = (.ok (), after))

theorem prepareSchema_hasTables {prepared : QueryCache}
    (prepare : prepareSchemaForRebuild cache = .ok prepared) : prepared.hasTables = true := by
  unfold prepareSchemaForRebuild at prepare
  split at prepare
  · split at prepare
    · cases prepare
      rfl
    · split at prepare
      · cases prepare
      · split at prepare
        · cases prepare
          rfl
        · cases prepare
          rfl
  · cases prepare
    rfl

theorem plainRows_metadataScript (eventCount : Nat) :
    plainRows (metadataScript formats written eventCount) =
      [.metadata ⟨"schema_version", sqliteIndexSchemaVersion.toNat.repr⟩,
        .metadata ⟨"rebuilt_at", formats.rfc3339 written⟩,
        .metadata ⟨"event_count", eventCount.repr⟩] := rfl

theorem mem_plainRows_rebuildScript (row : Row) :
    row ∈ plainRows (rebuildScript formats written events index) ↔
      row ∈ plainRows (metadataScript formats written events.length) ∨
      (∃ event ∈ events, row = .events (eventRow formats event)) ∨
      (∃ org ∈ values index.orgs, row = .orgs (orgRow formats org)) ∨
      (∃ project ∈ values index.projects, row = .projects (projectRow formats project)) ∨
      (∃ mission ∈ values index.missions, row = .missions (missionRow formats mission)) ∨
      (∃ session ∈ values index.sessions, row = .sessions (sessionRow formats session) ∨
        ∃ missionId ∈ session.missionIds.toList,
          .sessionMissions ⟨session.sessionId, missionId⟩ = row) ∨
      (∃ artifact ∈ values index.artifacts, row = .artifacts (artifactRow formats artifact) ∨
        (∃ missionId ∈ artifact.missionIds.toList,
          .artifactMissions ⟨artifact.artifactId, missionId⟩ = row) ∨
        ∃ sessionId ∈ artifact.sessionIds.toList,
          .artifactSessions ⟨artifact.artifactId, sessionId⟩ = row) ∨
      (∃ file ∈ values index.files, row = .files ⟨file.path⟩ ∨
        ∃ fileRef ∈ file.fileRefs, .fileRefs (fileRefRow formats file.path fileRef) = row) ∨
      (∃ attachment ∈ values index.attachments, row = .attachments
        (attachmentRow formats attachment (Int64.ofNat attachment.sizeBytes.toNat))) ∨
      (∃ diff ∈ values index.diffs, row = .diffs (diffRow formats diff (Int64.ofNat diff.fileCount)
          (Int64.ofNat diff.additions.toNat) (Int64.ofNat diff.deletions.toNat)
          (Int64.ofNat diff.binaryFileCount)) ∨
        ∃ change ∈ diff.fileChanges, .diffFiles (diffFileRow diff.diffId change) = row) ∨
      (∃ sessionLog ∈ values index.sessionLogs, row = .sessionLogs
        (sessionLogRow formats sessionLog (Int64.ofNat sessionLog.sizeBytes.toNat))) ∨
      ∃ repoContext ∈ values index.repoContexts,
        row = .repoContexts (repoContextRow formats repoContext) := by
  simp only [rebuildScript, indexScript, plainRows_append, plainRows_flatMap, List.mem_append,
    List.mem_flatMap, plainRows_sessionScript, plainRows_artifactScript, plainRows_fileScript,
    plainRows_diffScript, List.mem_cons, List.mem_map]
  simp only [plainRows, eventScript, orgScript, projectScript, missionScript, attachmentScript,
    sessionLogScript, repoContextScript, List.filterMap_cons, List.filterMap_nil,
    List.cons_append, List.nil_append, List.mem_singleton]

theorem mem_ignoredRows_rebuildScript (row : Row) :
    row ∈ ignoredRows (rebuildScript formats written events index) ↔
      (∃ artifact ∈ values index.artifacts,
        (∃ path ∈ artifact.filePaths.toList, row = .artifactFiles ⟨artifact.artifactId, path⟩) ∨
        ∃ attachmentId ∈ artifact.attachmentIds.toList,
          row = .artifactAttachments ⟨artifact.artifactId, attachmentId⟩) ∨
      (∃ file ∈ values index.files, ∃ fileRef ∈ file.fileRefs,
        row = .artifactFiles ⟨fileRef.artifactId, file.path⟩) ∨
      ∃ attachment ∈ values index.attachments,
        row = .artifactAttachments ⟨attachment.artifactId, attachment.attachmentId⟩ := by
  simp only [rebuildScript, indexScript, ignoredRows_append, ignoredRows_flatMap, List.mem_append,
    List.mem_flatMap, artifactScript, fileScript, sessionScript, diffScript]
  simp [ignoredRows, metadataScript, eventScript, orgScript, projectScript, missionScript,
    attachmentScript, sessionLogScript, repoContextScript]

include rebuilt

theorem rebuilt_hasTables : after.hasTables = true := by
  obtain ⟨prepared, prepare, -, -, same⟩ :=
    (rebuild_ok_iff formats written cache after events index).mp rebuilt
  rw [same]
  exact prepareSchema_hasTables prepare

theorem rebuilt_ran :
    executeAll Row.key [] (rebuildScript formats written events index) = .ok after.rows := by
  obtain ⟨_, _, -, ran, -⟩ := (rebuild_ok_iff formats written cache after events index).mp rebuilt
  exact ran

theorem rebuilt_keys_nodup : (after.rows.filterMap Row.key).Nodup :=
  nodup_of_executeAll Row.key (rebuilt_ran rebuilt) (by simp)

/-- A row of a table that only plain inserts fill. -/
theorem mem_rows_iff_plain {row : Row} (plain : row.table.rank ≠ 0) :
    row ∈ after.rows ↔ row ∈ plainRows (rebuildScript formats written events index) := by
  have confined := rebuildScript_confined formats written events index
  have kept := filterMap_of_executeAll Row.key
    (fun other : Row => if other.table.rank = 0 then none else some other) [] after.rows _
    (rebuilt_ran rebuilt) fun other member => if_pos (confined.ignored other member)
  have member := congrArg (row ∈ ·) kept
  simpa [plain] using member

/-- A row of a table that only ignoring inserts fill, when its key determines it. -/
theorem mem_rows_iff_ignored {row : Row} {k : RowKey} (ignored : row.table.rank = 0)
    (keyed : row.key = some k) (determined : ∀ other : Row, other.key = some k → other = row) :
    row ∈ after.rows ↔ row ∈ ignoredRows (rebuildScript formats written events index) := by
  have confined := rebuildScript_confined formats written events index
  constructor
  · intro member
    rcases mem_of_executeAll Row.key (rebuilt_ran rebuilt) member with before | plain | written
    · exact absurd before List.not_mem_nil
    · exact absurd ignored (confined.plain row plain)
    · exact written
  · intro written
    have known := key_mem_of_executeAll Row.key (rebuilt_ran rebuilt)
      (Or.inr (Or.inr (List.mem_filterMap.mpr ⟨row, written, keyed⟩)))
    obtain ⟨other, member, same⟩ := List.mem_filterMap.mp known
    rwa [← determined other same]

theorem mem_sessionRows (row : SessionRow) : .sessions row ∈ after.rows ↔
    ∃ session ∈ values index.sessions, row = sessionRow formats session := by
  rw [mem_rows_iff_plain rebuilt (by simp [Row.table, Table.rank])]
  simp [mem_plainRows_rebuildScript, plainRows_metadataScript]

theorem mem_sessionMissionRows (row : SessionMissionRow) : .sessionMissions row ∈ after.rows ↔
    ∃ session ∈ values index.sessions,
      ∃ missionId ∈ session.missionIds.toList, ⟨session.sessionId, missionId⟩ = row := by
  rw [mem_rows_iff_plain rebuilt (by simp [Row.table, Table.rank])]
  simp [mem_plainRows_rebuildScript, plainRows_metadataScript]

theorem mem_artifactRows (row : ArtifactRow) : .artifacts row ∈ after.rows ↔
    ∃ artifact ∈ values index.artifacts, row = artifactRow formats artifact := by
  rw [mem_rows_iff_plain rebuilt (by simp [Row.table, Table.rank])]
  simp [mem_plainRows_rebuildScript, plainRows_metadataScript]

theorem mem_artifactMissionRows (row : ArtifactMissionRow) : .artifactMissions row ∈ after.rows ↔
    ∃ artifact ∈ values index.artifacts,
      ∃ missionId ∈ artifact.missionIds.toList, ⟨artifact.artifactId, missionId⟩ = row := by
  rw [mem_rows_iff_plain rebuilt (by simp [Row.table, Table.rank])]
  simp [mem_plainRows_rebuildScript, plainRows_metadataScript]

theorem mem_artifactSessionRows (row : ArtifactSessionRow) : .artifactSessions row ∈ after.rows ↔
    ∃ artifact ∈ values index.artifacts,
      ∃ sessionId ∈ artifact.sessionIds.toList, ⟨artifact.artifactId, sessionId⟩ = row := by
  rw [mem_rows_iff_plain rebuilt (by simp [Row.table, Table.rank])]
  simp [mem_plainRows_rebuildScript, plainRows_metadataScript]

theorem mem_attachmentRows (row : AttachmentRow) : .attachments row ∈ after.rows ↔
    ∃ attachment ∈ values index.attachments,
      row = attachmentRow formats attachment (Int64.ofNat attachment.sizeBytes.toNat) := by
  rw [mem_rows_iff_plain rebuilt (by simp [Row.table, Table.rank])]
  simp [mem_plainRows_rebuildScript, plainRows_metadataScript]

theorem mem_diffRows (row : DiffRow) : .diffs row ∈ after.rows ↔
    ∃ diff ∈ values index.diffs, row = diffRow formats diff (Int64.ofNat diff.fileCount)
      (Int64.ofNat diff.additions.toNat) (Int64.ofNat diff.deletions.toNat)
      (Int64.ofNat diff.binaryFileCount) := by
  rw [mem_rows_iff_plain rebuilt (by simp [Row.table, Table.rank])]
  simp [mem_plainRows_rebuildScript, plainRows_metadataScript]

theorem mem_sessionLogRows (row : SessionLogRow) : .sessionLogs row ∈ after.rows ↔
    ∃ sessionLog ∈ values index.sessionLogs,
      row = sessionLogRow formats sessionLog (Int64.ofNat sessionLog.sizeBytes.toNat) := by
  rw [mem_rows_iff_plain rebuilt (by simp [Row.table, Table.rank])]
  simp [mem_plainRows_rebuildScript, plainRows_metadataScript]

theorem mem_artifactFileRows (row : ArtifactFileRow) : .artifactFiles row ∈ after.rows ↔
    (∃ artifact ∈ values index.artifacts,
      ∃ path ∈ artifact.filePaths.toList, row = ⟨artifact.artifactId, path⟩) ∨
    ∃ file ∈ values index.files, ∃ fileRef ∈ file.fileRefs, row = ⟨fileRef.artifactId, file.path⟩ := by
  rw [mem_rows_iff_ignored rebuilt (by simp [Row.table, Table.rank]) rfl]
  · simp [mem_ignoredRows_rebuildScript]
  · intro other same
    cases other with
    | artifactFiles other =>
        cases other
        cases row
        cases same
        rfl
    | diffFiles other => simp [Row.key, Row.primaryKey, Row.table] at same
    | _ => cases same

theorem mem_artifactAttachmentRows (row : ArtifactAttachmentRow) :
    .artifactAttachments row ∈ after.rows ↔
      (∃ artifact ∈ values index.artifacts,
        ∃ attachmentId ∈ artifact.attachmentIds.toList, row = ⟨artifact.artifactId, attachmentId⟩) ∨
      ∃ attachment ∈ values index.attachments,
        row = ⟨attachment.artifactId, attachment.attachmentId⟩ := by
  rw [mem_rows_iff_ignored rebuilt (by simp [Row.table, Table.rank]) rfl]
  · simp [mem_ignoredRows_rebuildScript]
  · intro other same
    cases other with
    | artifactAttachments other =>
        cases other
        cases row
        cases same
        rfl
    | diffFiles other => simp [Row.key, Row.primaryKey, Row.table] at same
    | _ => cases same

end Rebuilt

end BrickTrace
