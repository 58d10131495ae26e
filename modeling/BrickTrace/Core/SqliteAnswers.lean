import BrickTrace.Core.IndexEvidence
import BrickTrace.Core.IndexLinks
import BrickTrace.Core.SqliteQuery
import BrickTrace.Core.SqliteRefinement

/-!
# When the cache answers as the index does

The cache derives the logs of a session from the log table and the files of an
artifact from the file references too, while the index keeps its own sets.
`cache_answers_iff` says, in terms of the events, when a rebuilt cache returns the
sessions and artifacts of the index with the ids that the index has for them.
-/

set_option autoImplicit false

namespace BrickTrace

open KeyedRows OrderedMap Select TraceIndex

/-! ## Agreement of a record with its entry -/

def SqliteSessionRecord.entity (record : SqliteSessionRecord) : SessionRow where
  sessionId := record.sessionId
  sessionName := record.sessionName
  actorId := record.actorId
  actorType := record.actorType
  appId := record.appId
  appSessionId := record.appSessionId
  appSessionName := record.appSessionName
  runtimeId := record.runtimeId
  startedAt := record.startedAt
  lastEventAt := record.lastEventAt

def SqliteArtifactRecord.entity (record : SqliteArtifactRecord) : ArtifactRow where
  artifactId := record.artifactId
  artifactKind := record.artifactKind
  title := record.title
  body := record.body
  createdAt := record.createdAt
  lastEventAt := record.lastEventAt

structure SessionAgrees (formats : TextFormats) (session : IndexedSession)
    (record : SqliteSessionRecord) : Prop where
  entity : record.entity = sessionRow formats session
  missionIds : record.missionIds.Perm session.missionIds.toList
  artifactIds : record.artifactIds.Perm session.artifactIds.toList
  logRefIds : record.logRefIds.Perm session.logRefIds.toList

structure ArtifactAgrees (formats : TextFormats) (artifact : IndexedArtifact)
    (record : SqliteArtifactRecord) : Prop where
  entity : record.entity = artifactRow formats artifact
  missionIds : record.missionIds.Perm artifact.missionIds.toList
  sessionIds : record.sessionIds.Perm artifact.sessionIds.toList
  filePaths : record.filePaths.Perm artifact.filePaths.toList
  attachmentIds :
    (record.attachments.map SqliteAttachmentRecord.attachmentId).Perm artifact.attachmentIds.toList
  diffIds : (record.diffs.map SqliteDiffRecord.diffId).Perm artifact.diffIds.toList

/-- The records are the entries of the map, each in agreement with its own entry. -/
structure Answered {E R : Type} (idOf : E → String) (recordId : R → String) (map : Map String E)
    (agrees : E → R → Prop) (records : List R) : Prop where
  ids : (records.map recordId).Perm ((values map).map idOf)
  each : ∀ record ∈ records, ∃ entry, map[recordId record]? = some entry ∧ agrees entry record

/-- One row for each entry: then the records answer when each entry agrees with its own. -/
theorem answered_iff {E R Stored : Type} {idOf : E → String} {recordId : R → String}
    {map : Map String E} {agrees : E → R → Prop} (keyed : Keyed idOf map) {rowOf : E → Stored}
    {recordOf : Stored → R} (own : ∀ entry, recordId (recordOf (rowOf entry)) = idOf entry)
    {rows : List Stored} (stored : rows.Perm ((values map).map rowOf)) :
    Answered idOf recordId map agrees (rows.map recordOf) ↔
      ∀ entry ∈ values map, agrees entry (recordOf (rowOf entry)) := by
  constructor
  · intro answered entry member
    have row : rowOf entry ∈ rows := stored.mem_iff.mpr (List.mem_map_of_mem member)
    obtain ⟨found, held, agree⟩ := answered.each _ (List.mem_map_of_mem row)
    rw [own, getElem?_of_mem_values keyed member] at held
    cases held
    exact agree
  · intro agree
    refine ⟨?_, ?_⟩
    · refine ((stored.map recordOf).map recordId).trans ?_
      simp only [List.map_map, Function.comp_def, own]
      exact List.Perm.refl _
    · intro record member
      obtain ⟨row, held, rfl⟩ := List.mem_map.mp member
      obtain ⟨entry, isEntry, rfl⟩ := List.mem_map.mp (stored.mem_iff.mp held)
      exact ⟨entry, by rw [own]; exact getElem?_of_mem_values keyed isEntry, agree entry isEntry⟩

/-- The queries without filters answer as the index does. -/
def CacheAnswers (formats : TextFormats) (cache : QueryCache) (index : TraceIndex) (limit : Nat) :
    Prop :=
  (∃ records, querySqliteSessions cache ⟨none, none, none, limit⟩ = .ok records ∧
    Answered IndexedSession.sessionId SqliteSessionRecord.sessionId index.sessions
      (SessionAgrees formats) records) ∧
  ∃ records, querySqliteArtifacts cache ⟨none, none, limit⟩ = .ok records ∧
    Answered IndexedArtifact.artifactId SqliteArtifactRecord.artifactId index.artifacts
      (ArtifactAgrees formats) records

/-- All uploads of a log are for one session. -/
def LogsOfOneSession (events : List TraceEvent) : Prop :=
  ∀ first ∈ events, ∀ second ∈ events, ∀ sessionId otherId logRefId,
    first.uploadedLogRef = some (sessionId, logRefId) →
      second.uploadedLogRef = some (otherId, logRefId) → sessionId = otherId

/-- A path that is recorded for an artifact which the events create is filed under it. -/
def FileRefsFiled (events : List TraceEvent) : Prop :=
  ∀ event ∈ events, ∀ pair, event.recordedPath = some pair →
    (∃ creation ∈ events, creation.createdArtifact = some pair.1) → FilesPath events pair

/-! ## Collected ids -/

theorem mem_filterMap_read {B : Type} {read : Row → Option B} {make : B → Row}
    (reads : ∀ row b, read row = some b ↔ row = make b) (rows : List Row) (b : B) :
    b ∈ rows.filterMap read ↔ make b ∈ rows := by
  simp [List.mem_filterMap, reads]

theorem collectValues_perm {A : Type} (chosen : A → Bool) (column : A → String) (rows : List A) :
    (collectValues chosen column rows).Perm ((rows.filter chosen).map column) :=
  List.mergeSort_perm _ _

section Reads
variable (row : Row)

theorem readSession_iff (found : SessionRow) :
    readSession row = some found ↔ row = .sessions found := by
  cases row <;> simp [readSession]

theorem readSessionMission_iff (found : SessionMissionRow) :
    readSessionMission row = some found ↔ row = .sessionMissions found := by
  cases row <;> simp [readSessionMission]

theorem readArtifact_iff (found : ArtifactRow) :
    readArtifact row = some found ↔ row = .artifacts found := by
  cases row <;> simp [readArtifact]

theorem readArtifactMission_iff (found : ArtifactMissionRow) :
    readArtifactMission row = some found ↔ row = .artifactMissions found := by
  cases row <;> simp [readArtifactMission]

theorem readArtifactSession_iff (found : ArtifactSessionRow) :
    readArtifactSession row = some found ↔ row = .artifactSessions found := by
  cases row <;> simp [readArtifactSession]

theorem readArtifactFile_iff (found : ArtifactFileRow) :
    readArtifactFile row = some found ↔ row = .artifactFiles found := by
  cases row <;> simp [readArtifactFile]

theorem readAttachment_iff (found : AttachmentRow) :
    readAttachment row = some found ↔ row = .attachments found := by
  cases row <;> simp [readAttachment]

theorem readArtifactAttachment_iff (found : ArtifactAttachmentRow) :
    readArtifactAttachment row = some found ↔ row = .artifactAttachments found := by
  cases row <;> simp [readArtifactAttachment]

theorem readDiff_iff (found : DiffRow) : readDiff row = some found ↔ row = .diffs found := by
  cases row <;> simp [readDiff]

theorem readSessionLog_iff (found : SessionLogRow) :
    readSessionLog row = some found ↔ row = .sessionLogs found := by
  cases row <;> simp [readSessionLog]

end Reads

/-- A set and a list of distinct ids agree when they have the same members. -/
theorem perm_toList_iff {ids : List String} (distinct : ids.Nodup) (set : KeySet String) :
    ids.Perm set.toList ↔ ∀ id, id ∈ ids ↔ id ∈ set := by
  rw [List.perm_ext_iff_of_nodup distinct (nodup_toList_set set)]
  simp only [Std.ExtTreeSet.mem_toList]

section Collected
variable {formats : TextFormats} {written : DateTime} {cache after : QueryCache}
  {events : List TraceEvent} {index : TraceIndex}
  (rebuilt : rebuildSqliteIndex formats written cache events index = (.ok (), after))
  (keyed : index.Keyed)
include rebuilt

/-! ### No id is collected twice -/

theorem nodup_sessionMissionIds (sessionId : String) :
    (sessionMissionIds after sessionId).Nodup := by
  refine (collectValues_perm _ _ _).nodup_iff.mpr (nodup_column (rebuilt_keys_nodup rebuilt) _ _ _ ?_)
  intro row other found more isFound isMore chosen chosenMore same
  simp_all [readSessionMission_iff, Row.key, Row.primaryKey, Row.table]

theorem nodup_sessionArtifactIds (sessionId : String) :
    (sessionArtifactIds after sessionId).Nodup := by
  refine (collectValues_perm _ _ _).nodup_iff.mpr (nodup_column (rebuilt_keys_nodup rebuilt) _ _ _ ?_)
  intro row other found more isFound isMore chosen chosenMore same
  simp_all [readArtifactSession_iff, Row.key, Row.primaryKey, Row.table]

theorem nodup_sessionLogRefIds (sessionId : String) : (sessionLogRefIds after sessionId).Nodup := by
  refine ((List.mergeSort_perm _ _).map _).nodup_iff.mpr
    (nodup_column (rebuilt_keys_nodup rebuilt) _ _ _ ?_)
  intro row other found more isFound isMore chosen chosenMore same
  simp_all [readSessionLog_iff, Row.key, Row.primaryKey, Row.table]

theorem nodup_artifactMissionIds (artifactId : String) :
    (artifactMissionIds after artifactId).Nodup := by
  refine (collectValues_perm _ _ _).nodup_iff.mpr (nodup_column (rebuilt_keys_nodup rebuilt) _ _ _ ?_)
  intro row other found more isFound isMore chosen chosenMore same
  simp_all [readArtifactMission_iff, Row.key, Row.primaryKey, Row.table]

theorem nodup_artifactSessionIds (artifactId : String) :
    (artifactSessionIds after artifactId).Nodup := by
  refine (collectValues_perm _ _ _).nodup_iff.mpr (nodup_column (rebuilt_keys_nodup rebuilt) _ _ _ ?_)
  intro row other found more isFound isMore chosen chosenMore same
  simp_all [readArtifactSession_iff, Row.key, Row.primaryKey, Row.table]

theorem nodup_artifactFilePaths (artifactId : String) :
    (artifactFilePaths after artifactId).Nodup := by
  refine (collectValues_perm _ _ _).nodup_iff.mpr (nodup_column (rebuilt_keys_nodup rebuilt) _ _ _ ?_)
  intro row other found more isFound isMore chosen chosenMore same
  simp_all [readArtifactFile_iff, Row.key, Row.primaryKey, Row.table]

theorem nodup_diffIds (artifactId : String) :
    ((collectDiffs after artifactId).map SqliteDiffRecord.diffId).Nodup := by
  rw [collectDiffs, List.map_map]
  refine ((List.mergeSort_perm _ _).map _).nodup_iff.mpr
    (nodup_column (rebuilt_keys_nodup rebuilt) _ _ _ ?_)
  intro row other found more isFound isMore chosen chosenMore same
  simp_all [readDiff_iff, Row.key, Row.primaryKey, Row.table, diffRecord]

theorem nodup_attachmentRows :
    ((after.rows.filterMap readAttachment).map AttachmentRow.attachmentId).Nodup := by
  have all := nodup_column (rebuilt_keys_nodup rebuilt) readAttachment (fun _ => true)
    AttachmentRow.attachmentId ?_
  · simpa using all
  · intro row other found more isFound isMore chosen chosenMore same
    simp_all [readAttachment_iff, Row.key, Row.primaryKey, Row.table]

theorem nodup_attachmentIds (artifactId : String) :
    ((collectAttachments after artifactId).map SqliteAttachmentRecord.attachmentId).Nodup := by
  rw [collectAttachments, List.map_map]
  refine ((List.mergeSort_perm _ _).map _).nodup_iff.mpr ?_
  rw [attachmentRowsOf, List.map_flatMap, List.nodup_flatMap]
  have rows := nodup_attachmentRows rebuilt
  rw [List.Nodup, List.pairwise_map] at rows
  refine ⟨fun row _ => ?_, rows.imp fun {row other} apart => ?_⟩
  · -- the link from the artifact to one attachment is unique
    rw [List.map_map]
    have once := nodup_column (rebuilt_keys_nodup rebuilt) readArtifactAttachment
      (fun link => link.attachmentId == row.attachmentId && link.artifactId == artifactId)
      ArtifactAttachmentRow.attachmentId ?_
    · refine (List.map_congr_left fun link member => ?_).symm ▸ once
      have chosen := (List.mem_filter.mp member).2
      simp only [Bool.and_eq_true, beq_iff_eq] at chosen
      exact chosen.1.symm
    · intro row other found more isFound isMore chosen chosenMore same
      simp_all [readArtifactAttachment_iff, Row.key, Row.primaryKey, Row.table]
  · intro id first second
    simp only [List.map_map, List.mem_map, Function.comp_apply] at first second
    obtain ⟨_, -, rfl⟩ := first
    obtain ⟨_, -, same⟩ := second
    exact apart same.symm

/-! ### Which ids are collected -/

include keyed

theorem mem_sessionMissionIds (sessionId missionId : String) :
    missionId ∈ sessionMissionIds after sessionId ↔
      Points IndexedSession.missionIds index.sessions sessionId missionId := by
  rw [sessionMissionIds, (collectValues_perm _ _ _).mem_iff]
  unfold Points
  rw [← exists_values_iff keyed.entities.sessions]
  simp [mem_filterMap_read readSessionMission_iff, mem_sessionMissionRows rebuilt, and_assoc]

theorem mem_sessionArtifactIds (sessionId artifactId : String) :
    artifactId ∈ sessionArtifactIds after sessionId ↔
      Points IndexedArtifact.sessionIds index.artifacts artifactId sessionId := by
  rw [sessionArtifactIds, (collectValues_perm _ _ _).mem_iff]
  unfold Points
  rw [← exists_values_iff keyed.entities.artifacts]
  simp [mem_filterMap_read readArtifactSession_iff, mem_artifactSessionRows rebuilt, and_assoc]

theorem mem_sessionLogRefIds (sessionId logRefId : String) :
    logRefId ∈ sessionLogRefIds after sessionId ↔ ∃ sessionLog,
      index.sessionLogs[logRefId]? = some sessionLog ∧ sessionLog.sessionId = sessionId := by
  rw [sessionLogRefIds, ((List.mergeSort_perm _ _).map _).mem_iff,
    ← exists_values_iff keyed.sessionLogs]
  simp [mem_filterMap_read readSessionLog_iff, mem_sessionLogRows rebuilt, sessionLogRow, and_assoc]

theorem mem_artifactMissionIds (artifactId missionId : String) :
    missionId ∈ artifactMissionIds after artifactId ↔
      Points IndexedArtifact.missionIds index.artifacts artifactId missionId := by
  rw [artifactMissionIds, (collectValues_perm _ _ _).mem_iff]
  unfold Points
  rw [← exists_values_iff keyed.entities.artifacts]
  simp [mem_filterMap_read readArtifactMission_iff, mem_artifactMissionRows rebuilt, and_assoc]

theorem mem_artifactSessionIds (artifactId sessionId : String) :
    sessionId ∈ artifactSessionIds after artifactId ↔
      Points IndexedArtifact.sessionIds index.artifacts artifactId sessionId := by
  rw [artifactSessionIds, (collectValues_perm _ _ _).mem_iff]
  unfold Points
  rw [← exists_values_iff keyed.entities.artifacts]
  simp [mem_filterMap_read readArtifactSession_iff, mem_artifactSessionRows rebuilt, and_assoc]

theorem mem_artifactFilePaths (artifactId path : String) :
    path ∈ artifactFilePaths after artifactId ↔
      Points IndexedArtifact.filePaths index.artifacts artifactId path ∨
        ∃ file, index.files[path]? = some file ∧
          ∃ fileRef ∈ file.fileRefs, fileRef.artifactId = artifactId := by
  rw [artifactFilePaths, (collectValues_perm _ _ _).mem_iff]
  unfold Points
  rw [← exists_values_iff keyed.entities.artifacts, ← exists_values_iff keyed.files]
  simp only [List.mem_map, List.mem_filter, mem_filterMap_read readArtifactFile_iff,
    mem_artifactFileRows rebuilt, Std.ExtTreeSet.mem_toList, beq_iff_eq]
  constructor
  · rintro ⟨_, ⟨⟨artifact, member, path, named, rfl⟩ | ⟨file, member, fileRef, held, rfl⟩, rfl⟩, rfl⟩
    · exact Or.inl ⟨artifact, member, named, rfl⟩
    · exact Or.inr ⟨file, member, ⟨fileRef, held, rfl⟩, rfl⟩
  · rintro (⟨artifact, member, named, rfl⟩ | ⟨file, member, ⟨fileRef, held, rfl⟩, rfl⟩)
    · exact ⟨_, ⟨Or.inl ⟨artifact, member, path, named, rfl⟩, rfl⟩, rfl⟩
    · exact ⟨_, ⟨Or.inr ⟨file, member, fileRef, held, rfl⟩, rfl⟩, rfl⟩

theorem mem_diffIds (artifactId diffId : String) :
    diffId ∈ (collectDiffs after artifactId).map SqliteDiffRecord.diffId ↔ ∃ diff,
      index.diffs[diffId]? = some diff ∧ diff.artifactId = artifactId := by
  rw [collectDiffs, List.map_map, ((List.mergeSort_perm _ _).map _).mem_iff,
    ← exists_values_iff keyed.diffs]
  simp [mem_filterMap_read readDiff_iff, mem_diffRows rebuilt, diffRow, diffRecord, and_assoc]

/-- A link of the artifact to an attachment: its own, or that of the attachment's record. -/
theorem mem_attachmentLinks (artifactId attachmentId : String) :
    .artifactAttachments ⟨artifactId, attachmentId⟩ ∈ after.rows ↔
      Points IndexedArtifact.attachmentIds index.artifacts artifactId attachmentId ∨
        ∃ attachment, index.attachments[attachmentId]? = some attachment ∧
          attachment.artifactId = artifactId := by
  unfold Points
  rw [← exists_values_iff keyed.entities.artifacts, ← exists_values_iff keyed.attachments,
    mem_artifactAttachmentRows rebuilt]
  simp only [Std.ExtTreeSet.mem_toList, ArtifactAttachmentRow.mk.injEq]
  constructor
  · rintro (⟨artifact, member, attachmentId, named, rfl, rfl⟩ | ⟨attachment, member, rfl, rfl⟩)
    · exact Or.inl ⟨artifact, member, named, rfl⟩
    · exact Or.inr ⟨attachment, member, rfl, rfl⟩
  · rintro (⟨artifact, member, named, rfl⟩ | ⟨attachment, member, rfl, rfl⟩)
    · exact Or.inl ⟨artifact, member, attachmentId, named, rfl, rfl⟩
    · exact Or.inr ⟨attachment, member, rfl, rfl⟩

theorem mem_attachmentIds (artifactId attachmentId : String) :
    attachmentId ∈ (collectAttachments after artifactId).map SqliteAttachmentRecord.attachmentId ↔
      attachmentId ∈ index.attachments ∧
        (Points IndexedArtifact.attachmentIds index.artifacts artifactId attachmentId ∨
          ∃ attachment, index.attachments[attachmentId]? = some attachment ∧
            attachment.artifactId = artifactId) := by
  rw [← mem_attachmentLinks rebuilt keyed, Std.ExtTreeMap.mem_iff_isSome_getElem?,
    Option.isSome_iff_exists, collectAttachments, List.map_map,
    ((List.mergeSort_perm _ _).map _).mem_iff]
  have held := exists_values_iff keyed.attachments attachmentId fun _ => True
  simp only [true_and, and_true] at held
  rw [← held]
  simp only [attachmentRowsOf, List.mem_map, List.mem_flatMap, List.mem_filter,
    mem_filterMap_read readAttachment_iff, mem_filterMap_read readArtifactAttachment_iff,
    mem_attachmentRows rebuilt, Bool.and_eq_true, beq_iff_eq]
  constructor
  · rintro ⟨row, ⟨_, ⟨attachment, member, rfl⟩, link, ⟨linked, here, rfl⟩, rfl⟩, rfl⟩
    refine ⟨⟨attachment, member, rfl⟩, ?_⟩
    cases link
    cases here
    exact linked
  · rintro ⟨⟨attachment, member, rfl⟩, linked⟩
    exact ⟨_, ⟨_, ⟨attachment, member, rfl⟩, _, ⟨linked, rfl, rfl⟩, rfl⟩, rfl⟩

end Collected

/-! ## The records of a built index against its evidence -/

section Entries
variable {A : Type} {idOf : A → String} {read : TraceEvent → Option A} {events : List TraceEvent}

theorem held_of_entries {id : String} {record : A}
    (held : (insertAll ∅ (entries idOf read events))[id]? = some record) :
    idOf record = id ∧ ∃ event ∈ events, read event = some record := by
  rw [getElem?_insertAll] at held
  have found : (entries idOf read events).reverse.lookup id = some record := by simpa using held
  exact entries_own (List.mem_reverse.mp (mem_of_lookup found))

theorem mem_of_entries {event : TraceEvent} {record : A} (member : event ∈ events)
    (reads : read event = some record) :
    idOf record ∈ insertAll ∅ (entries idOf read events) := by
  have entry : (idOf record, record) ∈ (entries idOf read events).reverse := by
    refine List.mem_reverse.mpr (List.mem_filterMap.mpr ⟨event, member, ?_⟩)
    simp [entryOf, reads]
  rw [Std.ExtTreeMap.mem_iff_isSome_getElem?, getElem?_insertAll]
  cases found : (entries idOf read events).reverse.lookup (idOf record) with
  | some _ => simp
  | none =>
      have absent := List.lookup_eq_none_iff.mp found (idOf record, record) entry
      simp at absent

end Entries

theorem fileRefs_name_iff (event : TraceEvent) (artifactId path : String) :
    (∃ entry ∈ event.fileRefs, entry.1 = path ∧ entry.2.artifactId = artifactId) ↔
      event.recordedPath = some (artifactId, path) ∨ (artifactId, path) ∈ event.capturedPaths := by
  unfold TraceEvent.fileRefs
  simp only [List.mem_append, or_and_right, exists_or]
  apply or_congr
  · unfold TraceEvent.recordedPath
    cases event.recordedFileRef with
    | none => simp
    | some record => simp [indexedFileRef, and_comm]
  · unfold TraceEvent.capturedPaths
    cases event.capturedDiff with
    | none => simp
    | some capture =>
        simp only [List.mem_map, exists_exists_and_eq_and, indexedFileRef, Prod.mk.injEq]
        simp only [and_comm]

theorem indexedCapture_ref {mode : OverflowMode} {event : TraceEvent} {diff : IndexedDiff}
    (captured : event.indexedCapture mode = some diff) :
    event.capturedDiffRef = some (diff.artifactId, diff.diffId) := by
  unfold TraceEvent.indexedCapture at captured
  obtain ⟨capture, isCapture, captured⟩ := Option.bind_eq_some_iff.mp captured
  obtain ⟨_, -, captured⟩ := Option.bind_eq_some_iff.mp captured
  obtain ⟨_, -, captured⟩ := Option.bind_eq_some_iff.mp captured
  rw [← Option.some.inj captured, TraceEvent.capturedDiffRef, isCapture]
  rfl

section Built
variable {mode : OverflowMode} {now : DateTime} {events : List TraceEvent} {index : TraceIndex}
  (built : TraceIndex.build mode now events = .ok index)
include built

theorem points_logs_iff (sessionId logRefId : String) :
    Points IndexedSession.logRefIds index.sessions sessionId logRefId ↔
      ∃ event ∈ events, event.uploadedLogRef = some (sessionId, logRefId) := by
  rw [← Evidence.mem_logs_iff, ← build_evidence built]
  exact Iff.rfl

theorem points_attachments_iff (artifactId attachmentId : String) :
    Points IndexedArtifact.attachmentIds index.artifacts artifactId attachmentId ↔
      ∃ event ∈ events, event.uploadedAttachmentRef = some (artifactId, attachmentId) := by
  rw [← Evidence.mem_attachments_iff, ← build_evidence built]
  exact Iff.rfl

theorem points_diffs_iff (artifactId diffId : String) :
    Points IndexedArtifact.diffIds index.artifacts artifactId diffId ↔
      ∃ event ∈ events, event.capturedDiffRef = some (artifactId, diffId) := by
  rw [← Evidence.mem_diffs_iff, ← build_evidence built]
  exact Iff.rfl

theorem points_filePaths_iff (artifactId path : String) :
    Points IndexedArtifact.filePaths index.artifacts artifactId path ↔
      FilesPath events (artifactId, path) := by
  rw [← Evidence.mem_paths_iff, ← build_evidence built]
  exact Iff.rfl

theorem mem_artifacts_iff (artifactId : String) : artifactId ∈ index.artifacts ↔
    ∃ event ∈ events, event.createdArtifact = some artifactId := by
  rw [← Evidence.mem_artifacts_iff, ← build_evidence built]
  exact Iff.rfl

theorem uploaded_of_heldLog {logRefId : String} {sessionLog : IndexedSessionLog}
    (held : index.sessionLogs[logRefId]? = some sessionLog) :
    ∃ event ∈ events, event.uploadedLogRef = some (sessionLog.sessionId, logRefId) := by
  rw [build_sessionLogs built] at held
  obtain ⟨rfl, event, member, uploaded⟩ := held_of_entries held
  exact ⟨event, member, by rw [TraceEvent.uploadedLogRef, uploaded]; rfl⟩

theorem exists_heldLog {event : TraceEvent} (member : event ∈ events)
    {sessionId logRefId : String} (uploaded : event.uploadedLogRef = some (sessionId, logRefId)) :
    ∃ sessionLog, index.sessionLogs[logRefId]? = some sessionLog := by
  obtain ⟨sessionLog, reads, same⟩ := Option.map_eq_some_iff.mp uploaded
  cases same
  rw [build_sessionLogs built]
  exact Option.isSome_iff_exists.mp (Std.ExtTreeMap.mem_iff_isSome_getElem?.mp
    (mem_of_entries member reads))

/-- An attachment is held once it was uploaded, for whichever artifact. -/
theorem mem_attachments_of_uploaded {event : TraceEvent} (member : event ∈ events)
    {artifactId attachmentId : String}
    (uploaded : event.uploadedAttachmentRef = some (artifactId, attachmentId)) :
    attachmentId ∈ index.attachments := by
  obtain ⟨attachment, reads, same⟩ := Option.map_eq_some_iff.mp uploaded
  cases same
  rw [build_attachments built]
  exact mem_of_entries member reads

theorem uploaded_of_heldAttachment {attachmentId : String} {attachment : IndexedAttachment}
    (held : index.attachments[attachmentId]? = some attachment) : ∃ event ∈ events,
      event.uploadedAttachmentRef = some (attachment.artifactId, attachmentId) := by
  rw [build_attachments built] at held
  obtain ⟨rfl, event, member, uploaded⟩ := held_of_entries held
  exact ⟨event, member, by rw [TraceEvent.uploadedAttachmentRef, uploaded]; rfl⟩

/-- A reference under a file was recorded, or made by a diff that changes the file. -/
theorem filed_iff (artifactId path : String) :
    (∃ file, index.files[path]? = some file ∧
        ∃ fileRef ∈ file.fileRefs, fileRef.artifactId = artifactId) ↔
      ∃ event ∈ events, event.recordedPath = some (artifactId, path) ∨
        (artifactId, path) ∈ event.capturedPaths := by
  have filed := build_filedRefs built
  have here : (∃ file, index.files[path]? = some file ∧
      ∃ fileRef ∈ file.fileRefs, fileRef.artifactId = artifactId) ↔
      ∃ entry ∈ filedRefs index.files, entry.1 = path ∧ entry.2.artifactId = artifactId := by
    simp only [filedRefs, List.mem_flatMap, List.mem_map, Prod.exists, mem_toList_iff]
    constructor
    · rintro ⟨file, held, fileRef, member, rfl⟩
      exact ⟨path, fileRef, ⟨path, file, held, fileRef, member, rfl⟩, rfl, rfl⟩
    · rintro ⟨_, _, ⟨_, file, held, _, member, same⟩, rfl, rfl⟩
      cases same
      exact ⟨file, held, _, member, rfl⟩
  rw [here]
  simp only [filed.mem_iff, List.mem_flatMap, ← fileRefs_name_iff]
  constructor
  · rintro ⟨entry, ⟨event, member, emitted⟩, names⟩
    exact ⟨event, member, entry, emitted, names⟩
  · rintro ⟨event, member, entry, emitted, names⟩
    exact ⟨entry, ⟨event, member, emitted⟩, names⟩

theorem heldDiff_iff (distinctEvents : (events.map fun event => event.eventId.text).Nodup)
    (distinctRefs : (events.flatMap TraceEvent.fileRefIds).Nodup) (artifactId diffId : String) :
    (∃ diff, index.diffs[diffId]? = some diff ∧ diff.artifactId = artifactId) ↔
      ∃ event ∈ events, event.capturedDiffRef = some (artifactId, diffId) := by
  rw [build_diffs built]
  constructor
  · rintro ⟨diff, held, rfl⟩
    obtain ⟨rfl, event, member, indexed⟩ := held_of_entries held
    exact ⟨event, member, indexedCapture_ref indexed⟩
  · rintro ⟨event, member, captured⟩
    obtain ⟨capture, isCapture, same⟩ := Option.map_eq_some_iff.mp captured
    obtain ⟨diff, indexed, -⟩ := indexedCapture_of_single mode isCapture
      (single_of_fileRefIds distinctRefs member isCapture)
    have ref := (indexedCapture_ref indexed).symm.trans captured
    cases ref
    have present : diff.diffId ∈ insertAll ∅
        (entries IndexedDiff.diffId (TraceEvent.indexedCapture mode) events) :=
      mem_of_entries member indexed
    obtain ⟨held, found⟩ := Option.isSome_iff_exists.mp
      (Std.ExtTreeMap.mem_iff_isSome_getElem?.mp present)
    obtain ⟨own, other, isOther, otherIndexed⟩ := held_of_entries found
    -- the diff carries the id of its event, and no two events share one
    have sameEvent : other = event := by
      refine List.inj_on_of_nodup_map distinctEvents isOther member ?_
      rw [← indexedCapture_diffId otherIndexed, own, indexedCapture_diffId indexed]
    rw [sameEvent, indexed] at otherIndexed
    cases otherIndexed
    exact ⟨diff, found, rfl⟩

end Built

/-! ## The answers of the queries -/

section Answers
variable {formats : TextFormats} {written : DateTime} {cache after : QueryCache}
  {events : List TraceEvent} {index : TraceIndex} {limit : Nat}
  (rebuilt : rebuildSqliteIndex formats written cache events index = (.ok (), after))
  (keyed : index.Keyed)
include rebuilt keyed

theorem sessionRows_perm : (after.rows.filterMap readSession).Perm
    ((values index.sessions).map (sessionRow formats)) := by
  have ids := nodup_ids_of_keyed _ keyed.entities.sessions
  have rows := nodup_column (rebuilt_keys_nodup rebuilt) readSession (fun _ => true)
    SessionRow.sessionId ?_
  · rw [List.filter_true] at rows
    refine (List.perm_ext_iff_of_nodup rows.of_map ?_).mpr fun row => ?_
    · exact List.Nodup.of_map SessionRow.sessionId (by rw [List.map_map]; exact ids)
    · rw [mem_filterMap_read readSession_iff, mem_sessionRows rebuilt, List.mem_map]
      simp only [eq_comm]
  · intro row other found more isFound isMore chosen chosenMore same
    simp_all [readSession_iff, Row.key, Row.primaryKey, Row.table]

theorem artifactRows_perm : (after.rows.filterMap readArtifact).Perm
    ((values index.artifacts).map (artifactRow formats)) := by
  have ids := nodup_ids_of_keyed _ keyed.entities.artifacts
  have rows := nodup_column (rebuilt_keys_nodup rebuilt) readArtifact (fun _ => true)
    ArtifactRow.artifactId ?_
  · rw [List.filter_true] at rows
    refine (List.perm_ext_iff_of_nodup rows.of_map ?_).mpr fun row => ?_
    · exact List.Nodup.of_map ArtifactRow.artifactId (by rw [List.map_map]; exact ids)
    · rw [mem_filterMap_read readArtifact_iff, mem_artifactRows rebuilt, List.mem_map]
      simp only [eq_comm]
  · intro row other found more isFound isMore chosen chosenMore same
    simp_all [readArtifact_iff, Row.key, Row.primaryKey, Row.table]

/-- Without filters and with a large limit the query returns every session row once. -/
theorem querySessions_of_large
    (large : (values index.sessions).length ≤ QueryCache.normalizedLimit limit) :
    ∃ rows : List SessionRow, rows.Perm ((values index.sessions).map (sessionRow formats)) ∧
      querySqliteSessions after ⟨none, none, none, limit⟩ = .ok (rows.map (sessionRecord after)) := by
  have stored := sessionRows_perm rebuilt keyed
  have few : (after.rows.filterMap readSession).length ≤ QueryCache.normalizedLimit limit := by
    rw [stored.length_eq, List.length_map]
    exact large
  refine ⟨_, (firstRows_perm (byLatest SessionRow.lastEventAt SessionRow.sessionId) few).trans stored,
    ?_⟩
  unfold querySqliteSessions
  rw [if_pos (rebuilt_hasTables rebuilt)]
  simp only [meets_none, Bool.and_self, List.filter_true]

/-- Every artifact row is joined, and the distinct rows of the join are the artifacts. -/
theorem queryArtifacts_of_large
    (large : (values index.artifacts).length ≤ QueryCache.normalizedLimit limit) :
    ∃ rows : List ArtifactRow, rows.Perm ((values index.artifacts).map (artifactRow formats)) ∧
      querySqliteArtifacts after ⟨none, none, limit⟩ = .ok (rows.map (artifactRecord after)) := by
  have stored := artifactRows_perm rebuilt keyed
  have distinct : (after.rows.filterMap readArtifact).Nodup := by
    have ids := nodup_ids_of_keyed _ keyed.entities.artifacts
    refine stored.nodup_iff.mpr (List.Nodup.of_map ArtifactRow.artifactId ?_)
    rw [List.map_map]
    exact ids
  have joined : ((joinedArtifacts after).map fun row => row.1.1).dedup.Perm
      (after.rows.filterMap readArtifact) := by
    refine dedup_perm distinct fun row => ?_
    unfold joinedArtifacts
    rw [mem_map_leftJoin _ _ _ Prod.fst]
    exact mem_map_fst_leftJoin _ _ _ row
  have few : ((joinedArtifacts after).map fun row => row.1.1).dedup.length ≤
      QueryCache.normalizedLimit limit := by
    rw [joined.length_eq, stored.length_eq, List.length_map]
    exact large
  refine ⟨_, (firstRows_perm (byLatest ArtifactRow.lastEventAt ArtifactRow.artifactId) few).trans
    (joined.trans stored), ?_⟩
  unfold querySqliteArtifacts
  rw [if_pos (rebuilt_hasTables rebuilt)]
  simp only [meets_none, Bool.and_self, List.filter_true]

variable (links : index.LinksMirrored)
include links

/-- The log ids are the only ones of a session that may differ. -/
theorem sessionAgrees_iff {session : IndexedSession} (member : session ∈ values index.sessions) :
    SessionAgrees formats session (sessionRecord after (sessionRow formats session)) ↔
      ∀ logRefId, logRefId ∈ sessionLogRefIds after session.sessionId ↔
        logRefId ∈ session.logRefIds := by
  have held := getElem?_of_mem_values keyed.entities.sessions member
  have logs := perm_toList_iff (nodup_sessionLogRefIds rebuilt session.sessionId) session.logRefIds
  constructor
  · intro agrees
    exact logs.mp agrees.logRefIds
  · intro same
    refine ⟨rfl, ?_, ?_, logs.mpr same⟩
    · refine (perm_toList_iff (nodup_sessionMissionIds rebuilt session.sessionId) _).mpr fun id => ?_
      exact (mem_sessionMissionIds rebuilt keyed _ id).trans (points_iff_of_held held id)
    · refine (perm_toList_iff (nodup_sessionArtifactIds rebuilt session.sessionId) _).mpr fun id => ?_
      rw [mem_sessionArtifactIds rebuilt keyed, ← links.sessionArtifacts session.sessionId id]
      exact points_iff_of_held held id

end Answers

section Events
variable {formats : TextFormats} {written : DateTime} {cache after : QueryCache}
  {mode : OverflowMode} {now : DateTime} {events : List TraceEvent} {index : TraceIndex}
  {limit : Nat}
  (rebuilt : rebuildSqliteIndex formats written cache events index = (.ok (), after))
  (built : TraceIndex.build mode now events = .ok index)
include rebuilt

theorem rebuilt_plainKeys_nodup :
    (plainKeys Row.key (rebuildScript formats written events index)).Nodup :=
  ((executeAll_ok_iff Row.key [] _ (rebuildScript_confined formats written events index).keys_apart).mp
    ⟨after.rows, rebuilt_ran rebuilt⟩).1

include built

theorem rebuilt_fileRefIds_nodup : (events.flatMap TraceEvent.fileRefIds).Nodup :=
  (build_fileRefIds built).nodup_iff.mp
    (fileRefIds_nodup_of_plainKeys formats (rebuilt_plainKeys_nodup rebuilt))

/-- The file paths are the only ids of an artifact that may differ. -/
theorem artifactAgrees_iff {artifact : IndexedArtifact}
    (member : artifact ∈ values index.artifacts) :
    ArtifactAgrees formats artifact (artifactRecord after (artifactRow formats artifact)) ↔
      ∀ path, path ∈ artifactFilePaths after artifact.artifactId ↔ path ∈ artifact.filePaths := by
  have keyed := build_keyed built
  have held := getElem?_of_mem_values keyed.entities.artifacts member
  have paths := perm_toList_iff (nodup_artifactFilePaths rebuilt artifact.artifactId)
    artifact.filePaths
  constructor
  · intro agrees
    exact paths.mp agrees.filePaths
  · intro same
    refine ⟨rfl, ?_, ?_, paths.mpr same, ?_, ?_⟩
    · refine (perm_toList_iff (nodup_artifactMissionIds rebuilt _) _).mpr fun id => ?_
      exact (mem_artifactMissionIds rebuilt keyed _ id).trans (points_iff_of_held held id)
    · refine (perm_toList_iff (nodup_artifactSessionIds rebuilt _) _).mpr fun id => ?_
      exact (mem_artifactSessionIds rebuilt keyed _ id).trans (points_iff_of_held held id)
    · refine (perm_toList_iff (nodup_attachmentIds rebuilt _) _).mpr fun id => ?_
      refine (mem_attachmentIds rebuilt keyed _ id).trans ?_
      rw [← points_iff_of_held held id]
      constructor
      · rintro ⟨-, points | ⟨attachment, found, same⟩⟩
        · exact points
        · have uploaded := uploaded_of_heldAttachment built found
          rw [same] at uploaded
          exact (points_attachments_iff built _ id).mpr uploaded
      · intro points
        obtain ⟨event, isEvent, uploaded⟩ := (points_attachments_iff built _ id).mp points
        exact ⟨mem_attachments_of_uploaded built isEvent uploaded, Or.inl points⟩
    · refine (perm_toList_iff (nodup_diffIds rebuilt _) _).mpr fun id => ?_
      refine (mem_diffIds rebuilt keyed _ id).trans ?_
      rw [← points_iff_of_held held id, points_diffs_iff built]
      exact heldDiff_iff built
        (eventIds_nodup_of_plainKeys formats (rebuilt_plainKeys_nodup rebuilt))
        (rebuilt_fileRefIds_nodup rebuilt built) _ id

/-- The log table holds each log for the session of its last upload only. -/
theorem logs_agree_iff :
    (∀ session ∈ values index.sessions, ∀ logRefId,
        logRefId ∈ sessionLogRefIds after session.sessionId ↔ logRefId ∈ session.logRefIds) ↔
      LogsOfOneSession events := by
  have keyed := build_keyed built
  constructor
  · intro agree first isFirst second isSecond sessionId otherId logRefId uploaded again
    -- the log is in the table for both sessions, so they are one
    have stored : ∀ owner, (∃ event ∈ events, event.uploadedLogRef = some (owner, logRefId)) →
        ∃ sessionLog, index.sessionLogs[logRefId]? = some sessionLog ∧
          sessionLog.sessionId = owner := by
      intro owner named
      obtain ⟨session, held, inSet⟩ := (points_logs_iff built owner logRefId).mpr named
      have member := (mem_values_iff index.sessions session).mpr ⟨owner, held⟩
      have own := keyed.entities.sessions owner session held
      have collected := (agree session member logRefId).mpr inSet
      rw [own] at collected
      exact (mem_sessionLogRefIds rebuilt keyed owner logRefId).mp collected
    obtain ⟨sessionLog, held, rfl⟩ := stored sessionId ⟨first, isFirst, uploaded⟩
    obtain ⟨other, otherHeld, rfl⟩ := stored otherId ⟨second, isSecond, again⟩
    rw [held] at otherHeld
    cases otherHeld
    rfl
  · intro single session member logRefId
    have held := getElem?_of_mem_values keyed.entities.sessions member
    rw [mem_sessionLogRefIds rebuilt keyed, ← points_iff_of_held held, points_logs_iff built]
    constructor
    · rintro ⟨sessionLog, found, same⟩
      exact same ▸ uploaded_of_heldLog built found
    · rintro ⟨event, isEvent, uploaded⟩
      obtain ⟨sessionLog, found⟩ := exists_heldLog built isEvent uploaded
      obtain ⟨other, isOther, otherUploaded⟩ := uploaded_of_heldLog built found
      exact ⟨sessionLog, found, single other isOther event isEvent _ _ _ otherUploaded uploaded⟩

/-- The cache files every reference under its artifact, the index only what it could. -/
theorem paths_agree_iff :
    (∀ artifact ∈ values index.artifacts, ∀ path,
        path ∈ artifactFilePaths after artifact.artifactId ↔ path ∈ artifact.filePaths) ↔
      FileRefsFiled events := by
  have keyed := build_keyed built
  constructor
  · intro agree event isEvent pair recorded created
    obtain ⟨artifactId, path⟩ := pair
    obtain ⟨artifact, held⟩ := Option.isSome_iff_exists.mp
      (Std.ExtTreeMap.mem_iff_isSome_getElem?.mp ((mem_artifacts_iff built artifactId).mpr created))
    have member := (mem_values_iff index.artifacts artifact).mpr ⟨artifactId, held⟩
    have own := keyed.entities.artifacts artifactId artifact held
    rw [← points_filePaths_iff built, points_iff_of_held held, ← agree artifact member path, own,
      mem_artifactFilePaths rebuilt keyed, filed_iff built]
    exact Or.inr ⟨event, isEvent, Or.inl recorded⟩
  · intro filed artifact member path
    have held := getElem?_of_mem_values keyed.entities.artifacts member
    rw [mem_artifactFilePaths rebuilt keyed, filed_iff built, ← points_iff_of_held held,
      or_iff_left_iff_imp]
    rintro ⟨event, isEvent, recorded | captured⟩
    · refine (points_filePaths_iff built _ path).mpr (filed event isEvent _ recorded ?_)
      exact (mem_artifacts_iff built _).mp
        (Std.ExtTreeMap.mem_iff_isSome_getElem?.mpr (by rw [held]; rfl))
    · obtain ⟨before, after, rfl⟩ := List.append_of_mem isEvent
      exact (points_filePaths_iff built _ path).mpr ⟨before, event, after, rfl, Or.inl captured⟩

/-- The queries return every session and artifact, so only the two kinds of ids matter. -/
theorem cacheAnswers_iff_ids
    (largeSessions : (values index.sessions).length ≤ QueryCache.normalizedLimit limit)
    (largeArtifacts : (values index.artifacts).length ≤ QueryCache.normalizedLimit limit) :
    CacheAnswers formats after index limit ↔
      (∀ session ∈ values index.sessions, ∀ logRefId,
        logRefId ∈ sessionLogRefIds after session.sessionId ↔ logRefId ∈ session.logRefIds) ∧
      ∀ artifact ∈ values index.artifacts, ∀ path,
        path ∈ artifactFilePaths after artifact.artifactId ↔ path ∈ artifact.filePaths := by
  have keyed := build_keyed built
  have links := build_linksMirrored built
  obtain ⟨sessionRows, sessionsStored, sessions⟩ := querySessions_of_large rebuilt keyed largeSessions
  obtain ⟨artifactRows, artifactsStored, artifacts⟩ :=
    queryArtifacts_of_large rebuilt keyed largeArtifacts
  unfold CacheAnswers
  rw [sessions, artifacts]
  simp only [Except.ok.injEq, exists_eq_left']
  rw [answered_iff keyed.entities.sessions (fun _ => rfl) sessionsStored,
    answered_iff keyed.entities.artifacts (fun _ => rfl) artifactsStored]
  apply and_congr
  · exact forall₂_congr fun session member => sessionAgrees_iff rebuilt keyed links member
  · exact forall₂_congr fun artifact member => artifactAgrees_iff rebuilt built member

/-- A rebuilt cache answers as the index of its events exactly when no log is uploaded
for two sessions and no file reference comes before its artifact, unless the path is
filed later. -/
theorem cache_answers_iff
    (largeSessions : (values index.sessions).length ≤ QueryCache.normalizedLimit limit)
    (largeArtifacts : (values index.artifacts).length ≤ QueryCache.normalizedLimit limit) :
    CacheAnswers formats after index limit ↔ LogsOfOneSession events ∧ FileRefsFiled events := by
  rw [cacheAnswers_iff_ids rebuilt built largeSessions largeArtifacts,
    logs_agree_iff rebuilt built, paths_agree_iff rebuilt built]

end Events

/-! ## A file reference after its artifact, and before it -/

def artifactEvent (eventId : Uuid) (eventType : EventType) (payload : Json) : TraceEvent where
  eventId := eventId
  eventType := eventType
  schemaVersion := 1
  payloadSchemaVersion := 1
  occurredAt := ⟨0⟩
  recordedAt := ⟨0⟩
  actor := ⟨.agent, "agent-1", none⟩
  repoId := none
  orgId := none
  projectId := none
  missionId := none
  sessionId := none
  artifactId := some ⟨"artifact_1"⟩
  repoContextId := none
  confidence := .explicit
  payload := payload

def artifactCreation : TraceEvent := artifactEvent ⟨1⟩ .artifactCreated
  (.object [("artifact_kind", .string "note"), ("title", .string "Notes")])

def artifactReference : TraceEvent := artifactEvent ⟨2⟩ .artifactFileRefRecorded
  (.object [("file_ref_id", .string "ref_1"), ("path", .string "src/lib.rs")])

/-- The events build, their index is stored, and a limit of 20 covers it. -/
def Rebuilds (events : List TraceEvent) : Bool :=
  (TraceIndex.build .checked ⟨0⟩ events).toOption.any fun index =>
    (rebuildSqliteIndex plainFormats ⟨0⟩ freshCache events index).1.toOption.isSome &&
      decide ((values index.sessions).length ≤ 20) && decide ((values index.artifacts).length ≤ 20)

theorem exists_of_rebuilds {events : List TraceEvent} (rebuilds : Rebuilds events = true) :
    ∃ index after, TraceIndex.build .checked ⟨0⟩ events = .ok index ∧
      rebuildSqliteIndex plainFormats ⟨0⟩ freshCache events index = (.ok (), after) ∧
      (values index.sessions).length ≤ QueryCache.normalizedLimit 20 ∧
      (values index.artifacts).length ≤ QueryCache.normalizedLimit 20 := by
  obtain ⟨index, isOk, checks⟩ := (Option.any_eq_true _ _).mp rebuilds
  simp only [Bool.and_eq_true, decide_eq_true_eq] at checks
  obtain ⟨⟨rebuilt, fewSessions⟩, fewArtifacts⟩ := checks
  have limit : QueryCache.normalizedLimit 20 = 20 := by decide
  rw [limit]
  cases built : TraceIndex.build .checked ⟨0⟩ events with
  | error failure =>
      rw [built] at isOk
      cases isOk
  | ok found =>
      rw [built] at isOk
      cases isOk
      cases stored : rebuildSqliteIndex plainFormats ⟨0⟩ freshCache events index with
      | mk outcome after =>
          rw [stored] at rebuilt
          cases outcome with
          | error failure => cases rebuilt
          | ok _ => exact ⟨index, after, rfl, stored, fewSessions, fewArtifacts⟩

theorem artifactEvents_read :
    artifactReference.recordedPath = some ("artifact_1", "src/lib.rs") ∧
      artifactReference.createdArtifact = none ∧ artifactReference.capturedPaths = [] ∧
      artifactCreation.createdArtifact = some "artifact_1" ∧
      artifactCreation.recordedPath = none ∧ artifactCreation.capturedPaths = [] ∧
      artifactReference.uploadedLogRef = none ∧ artifactCreation.uploadedLogRef = none := by
  decide +kernel

theorem cache_answers_of_reference_after_artifact :
    ∃ index after,
      TraceIndex.build .checked ⟨0⟩ [artifactCreation, artifactReference] = .ok index ∧
      rebuildSqliteIndex plainFormats ⟨0⟩ freshCache [artifactCreation, artifactReference] index =
        (.ok (), after) ∧ CacheAnswers plainFormats after index 20 := by
  have rebuilds : Rebuilds [artifactCreation, artifactReference] = true := by decide +kernel
  obtain ⟨index, after, built, rebuilt, fewSessions, fewArtifacts⟩ := exists_of_rebuilds rebuilds
  obtain ⟨reference, -, -, created, creation, -, noLog, noOther⟩ := artifactEvents_read
  refine ⟨index, after, built, rebuilt,
    (cache_answers_iff rebuilt built fewSessions fewArtifacts).mpr ⟨?_, ?_⟩⟩
  · intro first isFirst _ _ sessionId _ logRefId uploaded
    simp only [List.mem_cons, List.not_mem_nil, or_false] at isFirst
    rcases isFirst with rfl | rfl
    · rw [noOther] at uploaded
      cases uploaded
    · rw [noLog] at uploaded
      cases uploaded
  · intro event isEvent pair recorded _
    simp only [List.mem_cons, List.not_mem_nil, or_false] at isEvent
    rcases isEvent with rfl | rfl
    · rw [creation] at recorded
      cases recorded
    · rw [reference] at recorded
      cases recorded
      exact ⟨[artifactCreation], artifactReference, [], rfl, Or.inr ⟨reference, artifactCreation,
        List.mem_singleton_self _, created⟩⟩

/-- A reference that comes before its artifact is missing in the index, not in the cache. -/
theorem cache_answers_otherwise_than_index :
    ¬ ∀ (formats : TextFormats) (written now : DateTime) (cache after : QueryCache)
        (mode : OverflowMode) (events : List TraceEvent) (index : TraceIndex) (limit : Nat),
      TraceIndex.build mode now events = .ok index →
      rebuildSqliteIndex formats written cache events index = (.ok (), after) →
      (values index.sessions).length ≤ QueryCache.normalizedLimit limit →
      (values index.artifacts).length ≤ QueryCache.normalizedLimit limit →
      CacheAnswers formats after index limit := by
  intro claim
  have rebuilds : Rebuilds [artifactReference, artifactCreation] = true := by decide +kernel
  obtain ⟨index, after, built, rebuilt, fewSessions, fewArtifacts⟩ := exists_of_rebuilds rebuilds
  have answers := claim plainFormats ⟨0⟩ ⟨0⟩ freshCache after .checked _ index 20 built rebuilt
    fewSessions fewArtifacts
  have filed : FileRefsFiled [artifactReference, artifactCreation] :=
    (paths_agree_iff rebuilt built).mp
      ((cacheAnswers_iff_ids rebuilt built fewSessions fewArtifacts).mp answers).2
  obtain ⟨reference, notCreated, noPaths, created, creation, noOther, -, -⟩ := artifactEvents_read
  have kept := filed artifactReference (by simp) _ reference ⟨artifactCreation, by simp, created⟩
  have nothing : ¬ FilesPath [] ("artifact_1", "src/lib.rs") := by
    rintro ⟨before, event, rest, split, -⟩
    simp at split
  rw [show [artifactReference, artifactCreation] = ([] ++ [artifactReference]) ++ [artifactCreation]
    from rfl, filesPath_append_singleton, filesPath_append_singleton] at kept
  simp [nothing, noPaths, creation, noOther] at kept

end BrickTrace
