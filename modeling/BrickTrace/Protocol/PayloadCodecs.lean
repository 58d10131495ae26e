import BrickTrace.Lib.JsonRecords
import BrickTrace.Protocol.Payloads

/-!
# Typed payloads, written and read again

Every payload is written as a record of its fields.  The reader that the index uses gives
back the payload that was written.
-/

set_option autoImplicit false

namespace BrickTrace

open Json

def encodeId {kind : TraceIdKind} (id : TraceId kind) : Json := .string id.text

theorem inverse_id {kind : TraceIdKind} : Inverse (@encodeId kind) decodeId :=
  ⟨fun _ => rfl, nofun⟩

@[simp] theorem decodeId_encodeId {kind : TraceIdKind} (id : TraceId kind) :
    decodeId (encodeId id) = some id := rfl

@[simp] theorem nullable_id {kind : TraceIdKind} (id : Option (TraceId kind)) :
    decodeNullable decodeId (encodeNullable encodeId id) = some id :=
  inverse_id.nullable id

/-! ## Enumerations -/

theorem ContextMode.inverse :
    Inverse (encodeVariant ContextMode.wireNames) (decodeVariant ContextMode.wireNames) :=
  inverse_variant (by simp [wireNames]) fun value => by cases value <;> simp [wireNames]

theorem MissionStatus.inverse :
    Inverse (encodeVariant MissionStatus.wireNames) (decodeVariant MissionStatus.wireNames) :=
  inverse_variant (by simp [wireNames]) fun value => by cases value <;> simp [wireNames]

theorem ArtifactKind.inverse :
    Inverse (encodeVariant ArtifactKind.wireNames) (decodeVariant ArtifactKind.wireNames) :=
  inverse_variant (by simp [wireNames]) fun value => by cases value <;> simp [wireNames]

theorem DiffTarget.inverse :
    Inverse (encodeVariant DiffTarget.wireNames) (decodeVariant DiffTarget.wireNames) :=
  inverse_variant (by simp [wireNames]) fun value => by cases value <;> simp [wireNames]

theorem DiffFileChangeKind.inverse :
    Inverse (encodeVariant DiffFileChangeKind.wireNames)
      (decodeVariant DiffFileChangeKind.wireNames) :=
  inverse_variant (by simp [wireNames]) fun value => by cases value <;> simp [wireNames]

theorem SessionLogFormat.inverse :
    Inverse (encodeVariant SessionLogFormat.wireNames) (decodeVariant SessionLogFormat.wireNames) :=
  inverse_variant (by simp [wireNames]) fun value => by cases value <;> simp [wireNames]

theorem EvidenceAvailability.inverse :
    Inverse (encodeVariant EvidenceAvailability.wireNames)
      (decodeVariant EvidenceAvailability.wireNames) :=
  inverse_variant (by simp [wireNames]) fun value => by cases value <;> simp [wireNames]

/-! ## Records -/

def SessionSource.record (source : SessionSource) : Record where
  fields := [("app_id", some (encodeNullable .string source.appId)),
    ("app_session_id", some (encodeNullable .string source.appSessionId)),
    ("app_session_name", some (encodeNullable .string source.appSessionName)),
    ("runtime_id", some (encodeNullable .string source.runtimeId))]
  distinct := by simp

def SessionSource.encode (source : SessionSource) : Json := source.record.json

theorem SessionSource.inverse : Inverse encode decode where
  notNull source := source.record.json_ne_null
  reads source := by
    simp [decode, encode, record, List.lookup_cons, -bind_pure_comp]

def OrgCreatedPayload.record (payload : OrgCreatedPayload) : Record where
  fields := [("name", some (.string payload.name)),
    ("description", some (encodeNullable .string payload.description)),
    ("repo_context_id", some (encodeNullable encodeId payload.repoContextId))]
  distinct := by simp

def OrgCreatedPayload.encode (payload : OrgCreatedPayload) : Json := payload.record.json

theorem OrgCreatedPayload.inverse : Inverse encode decode where
  notNull payload := payload.record.json_ne_null
  reads payload := by
    simp [decode, encode, record, List.lookup_cons, -bind_pure_comp]

def OrgUpdatedPayload.record (payload : OrgUpdatedPayload) : Record where
  fields := [("name", some (encodeNullable .string payload.name)),
    ("description", some (encodeNullable .string payload.description)),
    ("repo_context_id", some (encodeNullable encodeId payload.repoContextId))]
  distinct := by simp

def OrgUpdatedPayload.encode (payload : OrgUpdatedPayload) : Json := payload.record.json

theorem OrgUpdatedPayload.inverse : Inverse encode decode where
  notNull payload := payload.record.json_ne_null
  reads payload := by
    simp [decode, encode, record, List.lookup_cons, -bind_pure_comp]

def ProjectCreatedPayload.record (payload : ProjectCreatedPayload) : Record where
  fields := [("org_id", some (encodeId payload.orgId)),
    ("name", some (.string payload.name)),
    ("description", some (encodeNullable .string payload.description)),
    ("repo_context_id", some (encodeNullable encodeId payload.repoContextId))]
  distinct := by simp

def ProjectCreatedPayload.encode (payload : ProjectCreatedPayload) : Json := payload.record.json

theorem ProjectCreatedPayload.inverse : Inverse encode decode where
  notNull payload := payload.record.json_ne_null
  reads payload := by
    simp [decode, encode, record, List.lookup_cons, -bind_pure_comp]

def ProjectUpdatedPayload.record (payload : ProjectUpdatedPayload) : Record where
  fields := [("org_id", some (encodeNullable encodeId payload.orgId)),
    ("name", some (encodeNullable .string payload.name)),
    ("description", some (encodeNullable .string payload.description)),
    ("repo_context_id", some (encodeNullable encodeId payload.repoContextId))]
  distinct := by simp

def ProjectUpdatedPayload.encode (payload : ProjectUpdatedPayload) : Json := payload.record.json

theorem ProjectUpdatedPayload.inverse : Inverse encode decode where
  notNull payload := payload.record.json_ne_null
  reads payload := by
    simp [decode, encode, record, List.lookup_cons, -bind_pure_comp]

def MissionCreatedPayload.record (payload : MissionCreatedPayload) : Record where
  fields := [("project_id", some (encodeId payload.projectId)),
    ("title", some (.string payload.title)),
    ("description", some (encodeNullable .string payload.description)),
    ("status", some (encodeVariant MissionStatus.wireNames payload.status)),
    ("repo_context_id", some (encodeNullable encodeId payload.repoContextId))]
  distinct := by simp

def MissionCreatedPayload.encode (payload : MissionCreatedPayload) : Json := payload.record.json

theorem MissionCreatedPayload.inverse : Inverse encode decode where
  notNull payload := payload.record.json_ne_null
  reads payload := by
    simp [decode, encode, record, List.lookup_cons, MissionStatus.inverse.reads, -bind_pure_comp]

def MissionUpdatedPayload.record (payload : MissionUpdatedPayload) : Record where
  fields := [("project_id", some (encodeNullable encodeId payload.projectId)),
    ("title", some (encodeNullable .string payload.title)),
    ("description", some (encodeNullable .string payload.description)),
    ("status", some (encodeNullable (encodeVariant MissionStatus.wireNames) payload.status)),
    ("repo_context_id", some (encodeNullable encodeId payload.repoContextId))]
  distinct := by simp

def MissionUpdatedPayload.encode (payload : MissionUpdatedPayload) : Json := payload.record.json

theorem MissionUpdatedPayload.inverse : Inverse encode decode where
  notNull payload := payload.record.json_ne_null
  reads payload := by
    simp [decode, encode, record, List.lookup_cons, MissionStatus.inverse.nullable, -bind_pure_comp]

def SessionStartedPayload.record (payload : SessionStartedPayload) : Record where
  fields := [("session_name", some (encodeNullable .string payload.sessionName)),
    ("source", some (SessionSource.encode payload.source)),
    ("repo_context_id", some (encodeNullable encodeId payload.repoContextId))]
  distinct := by simp

def SessionStartedPayload.encode (payload : SessionStartedPayload) : Json := payload.record.json

theorem SessionStartedPayload.inverse : Inverse encode decode where
  notNull payload := payload.record.json_ne_null
  reads payload := by
    simp [decode, encode, record, List.lookup_cons, SessionSource.inverse.reads, -bind_pure_comp]

def SessionLinkedToMissionPayload.record (payload : SessionLinkedToMissionPayload) : Record where
  fields := [("relationship", some (.string payload.relationship)),
    ("repo_context_id", some (encodeNullable encodeId payload.repoContextId))]
  distinct := by simp

def SessionLinkedToMissionPayload.encode (payload : SessionLinkedToMissionPayload) : Json :=
  payload.record.json

theorem SessionLinkedToMissionPayload.inverse : Inverse encode decode where
  notNull payload := payload.record.json_ne_null
  reads payload := by
    simp [decode, encode, record, List.lookup_cons, -bind_pure_comp]

def SessionLogUploadedPayload.record (payload : SessionLogUploadedPayload) : Record where
  fields := [("log_ref_id", some (encodeId payload.logRefId)),
    ("original_path", some (.string payload.originalPath)),
    ("format", some (encodeVariant SessionLogFormat.wireNames payload.format)),
    ("source", some (.string payload.source)),
    ("sha256", some (.string payload.sha256)),
    ("size_bytes", some (encodeU64 payload.sizeBytes)),
    ("storage_uri", some (.string payload.storageUri)),
    ("local_path", some (.string payload.localPath)),
    ("external_uri", some (encodeNullable .string payload.externalUri)),
    ("availability", some (encodeVariant EvidenceAvailability.wireNames payload.availability)),
    ("repo_context_id", some (encodeNullable encodeId payload.repoContextId))]
  distinct := by simp

def SessionLogUploadedPayload.encode (payload : SessionLogUploadedPayload) : Json :=
  payload.record.json

theorem SessionLogUploadedPayload.inverse : Inverse encode decode where
  notNull payload := payload.record.json_ne_null
  reads payload := by
    simp [decode, encode, record, List.lookup_cons, EvidenceAvailability.inverse.reads,
      SessionLogFormat.inverse.reads, -bind_pure_comp]

def ArtifactCreatedPayload.record (payload : ArtifactCreatedPayload) : Record where
  fields := [("artifact_kind", some (encodeVariant ArtifactKind.wireNames payload.artifactKind)),
    ("title", some (.string payload.title)),
    ("body", some (encodeNullable .string payload.body)),
    ("repo_context_id", some (encodeNullable encodeId payload.repoContextId))]
  distinct := by simp

def ArtifactCreatedPayload.encode (payload : ArtifactCreatedPayload) : Json := payload.record.json

theorem ArtifactCreatedPayload.inverse : Inverse encode decode where
  notNull payload := payload.record.json_ne_null
  reads payload := by
    simp [decode, encode, record, List.lookup_cons, ArtifactKind.inverse.reads, -bind_pure_comp]

def ArtifactUpdatedPayload.record (payload : ArtifactUpdatedPayload) : Record where
  fields := [("title", some (encodeNullable .string payload.title)),
    ("body", some (encodeNullable .string payload.body)),
    ("artifact_kind",
      some (encodeNullable (encodeVariant ArtifactKind.wireNames) payload.artifactKind)),
    ("repo_context_id", some (encodeNullable encodeId payload.repoContextId))]
  distinct := by simp

def ArtifactUpdatedPayload.encode (payload : ArtifactUpdatedPayload) : Json := payload.record.json

theorem ArtifactUpdatedPayload.inverse : Inverse encode decode where
  notNull payload := payload.record.json_ne_null
  reads payload := by
    simp [decode, encode, record, List.lookup_cons, ArtifactKind.inverse.nullable, -bind_pure_comp]

def ArtifactLinkedToMissionPayload.record (payload : ArtifactLinkedToMissionPayload) : Record where
  fields := [("relationship", some (.string payload.relationship)),
    ("repo_context_id", some (encodeNullable encodeId payload.repoContextId))]
  distinct := by simp

def ArtifactLinkedToMissionPayload.encode (payload : ArtifactLinkedToMissionPayload) : Json :=
  payload.record.json

theorem ArtifactLinkedToMissionPayload.inverse : Inverse encode decode where
  notNull payload := payload.record.json_ne_null
  reads payload := by
    simp [decode, encode, record, List.lookup_cons, -bind_pure_comp]

def ArtifactFileRefRecordedPayload.record (payload : ArtifactFileRefRecordedPayload) : Record where
  fields := [("file_ref_id", some (encodeId payload.fileRefId)),
    ("path", some (.string payload.path)),
    ("repo_context_id", some (encodeNullable encodeId payload.repoContextId))]
  distinct := by simp

def ArtifactFileRefRecordedPayload.encode (payload : ArtifactFileRefRecordedPayload) : Json :=
  payload.record.json

theorem ArtifactFileRefRecordedPayload.inverse : Inverse encode decode where
  notNull payload := payload.record.json_ne_null
  reads payload := by
    simp [decode, encode, record, List.lookup_cons, -bind_pure_comp]

def ArtifactAttachmentUploadedPayload.record (payload : ArtifactAttachmentUploadedPayload) :
    Record where
  fields := [("attachment_id", some (encodeId payload.attachmentId)),
    ("name", some (.string payload.name)),
    ("original_path", some (.string payload.originalPath)),
    ("content_type", some (encodeNullable .string payload.contentType)),
    ("sha256", some (.string payload.sha256)),
    ("size_bytes", some (encodeU64 payload.sizeBytes)),
    ("storage_uri", some (.string payload.storageUri)),
    ("external_uri", some (encodeNullable .string payload.externalUri)),
    ("availability", some (encodeVariant EvidenceAvailability.wireNames payload.availability)),
    ("repo_context_id", some (encodeNullable encodeId payload.repoContextId))]
  distinct := by simp

def ArtifactAttachmentUploadedPayload.encode (payload : ArtifactAttachmentUploadedPayload) : Json :=
  payload.record.json

theorem ArtifactAttachmentUploadedPayload.inverse : Inverse encode decode where
  notNull payload := payload.record.json_ne_null
  reads payload := by
    simp [decode, encode, record, List.lookup_cons, EvidenceAvailability.inverse.reads,
      -bind_pure_comp]

def RepoContextCapturedPayload.record (payload : RepoContextCapturedPayload) : Record where
  fields := [("repo_root", some (.string payload.repoRoot)),
    ("work_dir", some (.string payload.workDir)),
    ("remote_url", some (encodeNullable .string payload.remoteUrl)),
    ("branch", some (encodeNullable .string payload.branch)),
    ("upstream_branch", some (encodeNullable .string payload.upstreamBranch)),
    ("head_commit", some (encodeNullable .string payload.headCommit)),
    ("merge_base_commit", some (encodeNullable .string payload.mergeBaseCommit)),
    ("dirty", some (.bool payload.dirty)),
    ("context_mode", some (encodeVariant ContextMode.wireNames payload.contextMode))]
  distinct := by simp

def RepoContextCapturedPayload.encode (payload : RepoContextCapturedPayload) : Json :=
  payload.record.json

theorem RepoContextCapturedPayload.inverse : Inverse encode decode where
  notNull payload := payload.record.json_ne_null
  reads payload := by
    simp [decode, encode, record, List.lookup_cons, ContextMode.inverse.reads, -bind_pure_comp]

def DiffHunk.record (hunk : DiffHunk) : Record where
  fields := [("old_start", some (encodeU64 hunk.oldStart)),
    ("old_lines", some (encodeU64 hunk.oldLines)),
    ("new_start", some (encodeU64 hunk.newStart)),
    ("new_lines", some (encodeU64 hunk.newLines)),
    ("header", some (encodeNullable .string hunk.header))]
  distinct := by simp

def DiffHunk.encode (hunk : DiffHunk) : Json := hunk.record.json

theorem DiffHunk.inverse : Inverse encode decode where
  notNull hunk := hunk.record.json_ne_null
  reads hunk := by
    simp [decode, encode, record, List.lookup_cons, -bind_pure_comp]

def DiffFileChange.record (change : DiffFileChange) : Record where
  fields := [("path", some (.string change.path)),
    ("old_path", some (encodeNullable .string change.oldPath)),
    ("change_kind", some (encodeVariant DiffFileChangeKind.wireNames change.changeKind)),
    ("additions", some (encodeNullable encodeU64 change.additions)),
    ("deletions", some (encodeNullable encodeU64 change.deletions)),
    ("hunks", if change.hunks.isEmpty then none
      else some (.array (change.hunks.map DiffHunk.encode))),
    ("patch_id", change.patchId.map .string)]
  distinct := by simp

def DiffFileChange.encode (change : DiffFileChange) : Json := change.record.json

theorem DiffFileChange.inverse : Inverse encode decode where
  notNull change := change.record.json_ne_null
  reads change := by
    simp [decode, encode, record, List.lookup_cons, DiffFileChangeKind.inverse.reads,
      DiffHunk.inverse.listed, -bind_pure_comp]

def DiffCapturedPayload.record (payload : DiffCapturedPayload) : Record where
  fields := [("diff_target", some (encodeVariant DiffTarget.wireNames payload.diffTarget)),
    ("base_commit", some (encodeNullable .string payload.baseCommit)),
    ("head_commit", some (encodeNullable .string payload.headCommit)),
    ("patch_id", some (encodeNullable .string payload.patchId)),
    ("summary_hash", some (.string payload.summaryHash)),
    ("file_changes", some (.array (payload.fileChanges.map DiffFileChange.encode))),
    ("repo_context_id", some (encodeNullable encodeId payload.repoContextId))]
  distinct := by simp

def DiffCapturedPayload.encode (payload : DiffCapturedPayload) : Json := payload.record.json

theorem DiffCapturedPayload.inverse : Inverse encode decode where
  notNull payload := payload.record.json_ne_null
  reads payload := by
    simp [decode, encode, record, List.lookup_cons, DiffTarget.inverse.reads,
      (inverse_array DiffFileChange.inverse).reads, -bind_pure_comp]

/-- A link to a system outside, such as a pull request or an issue.  No index reads it. -/
structure ExternalRefLinkedPayload where
  externalRefId : ExternalRefId
  provider : String
  refType : String
  target : String
  repoContextId : Option RepoContextId

def ExternalRefLinkedPayload.record (payload : ExternalRefLinkedPayload) : Record where
  fields := [("external_ref_id", some (encodeId payload.externalRefId)),
    ("provider", some (.string payload.provider)),
    ("ref_type", some (.string payload.refType)),
    ("target", some (.string payload.target)),
    ("repo_context_id", some (encodeNullable encodeId payload.repoContextId))]
  distinct := by simp

def ExternalRefLinkedPayload.encode (payload : ExternalRefLinkedPayload) : Json :=
  payload.record.json

end BrickTrace
