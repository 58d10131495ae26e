import BrickTrace.Protocol.Event

/-!
# Typed payloads

The payload of each event family that the index projects, with the reader that
takes it out of the event's JSON.
-/

set_option autoImplicit false

namespace BrickTrace

open Json

def decodeId {kind : TraceIdKind} (json : Json) : Option (TraceId kind) :=
  (decodeString json).map TraceId.mk

structure SessionSource where
  appId : Option String
  appSessionId : Option String
  appSessionName : Option String
  runtimeId : Option String
deriving DecidableEq

def SessionSource.empty : SessionSource := ⟨none, none, none, none⟩

def SessionSource.decode : Json → Option SessionSource := decodeRecord do
  return {
    appId := ← optional "app_id" decodeString
    appSessionId := ← optional "app_session_id" decodeString
    appSessionName := ← optional "app_session_name" decodeString
    runtimeId := ← optional "runtime_id" decodeString }

structure OrgCreatedPayload where
  name : String
  description : Option String
  repoContextId : Option RepoContextId

def OrgCreatedPayload.decode : Json → Option OrgCreatedPayload := decodeRecord do
  return {
    name := ← required "name" decodeString
    description := ← optional "description" decodeString
    repoContextId := ← optional "repo_context_id" decodeId }

structure OrgUpdatedPayload where
  name : Option String
  description : Option String
  repoContextId : Option RepoContextId

def OrgUpdatedPayload.decode : Json → Option OrgUpdatedPayload := decodeRecord do
  return {
    name := ← optional "name" decodeString
    description := ← optional "description" decodeString
    repoContextId := ← optional "repo_context_id" decodeId }

structure ProjectCreatedPayload where
  orgId : OrgId
  name : String
  description : Option String
  repoContextId : Option RepoContextId

def ProjectCreatedPayload.decode : Json → Option ProjectCreatedPayload := decodeRecord do
  return {
    orgId := ← required "org_id" decodeId
    name := ← required "name" decodeString
    description := ← optional "description" decodeString
    repoContextId := ← optional "repo_context_id" decodeId }

structure ProjectUpdatedPayload where
  orgId : Option OrgId
  name : Option String
  description : Option String
  repoContextId : Option RepoContextId

def ProjectUpdatedPayload.decode : Json → Option ProjectUpdatedPayload := decodeRecord do
  return {
    orgId := ← optional "org_id" decodeId
    name := ← optional "name" decodeString
    description := ← optional "description" decodeString
    repoContextId := ← optional "repo_context_id" decodeId }

structure MissionCreatedPayload where
  projectId : ProjectId
  title : String
  description : Option String
  status : MissionStatus
  repoContextId : Option RepoContextId

def MissionCreatedPayload.decode : Json → Option MissionCreatedPayload := decodeRecord do
  return {
    projectId := ← required "project_id" decodeId
    title := ← required "title" decodeString
    description := ← optional "description" decodeString
    status := ← required "status" (decodeVariant MissionStatus.wireNames)
    repoContextId := ← optional "repo_context_id" decodeId }

structure MissionUpdatedPayload where
  projectId : Option ProjectId
  title : Option String
  description : Option String
  status : Option MissionStatus
  repoContextId : Option RepoContextId

def MissionUpdatedPayload.decode : Json → Option MissionUpdatedPayload := decodeRecord do
  return {
    projectId := ← optional "project_id" decodeId
    title := ← optional "title" decodeString
    description := ← optional "description" decodeString
    status := ← optional "status" (decodeVariant MissionStatus.wireNames)
    repoContextId := ← optional "repo_context_id" decodeId }

structure SessionStartedPayload where
  sessionName : Option String
  source : SessionSource
  repoContextId : Option RepoContextId

def SessionStartedPayload.decode : Json → Option SessionStartedPayload := decodeRecord do
  return {
    sessionName := ← optional "session_name" decodeString
    source := ← required "source" SessionSource.decode
    repoContextId := ← optional "repo_context_id" decodeId }

structure SessionLinkedToMissionPayload where
  relationship : String
  repoContextId : Option RepoContextId

def SessionLinkedToMissionPayload.decode : Json → Option SessionLinkedToMissionPayload :=
  decodeRecord do
    return {
      relationship := ← required "relationship" decodeString
      repoContextId := ← optional "repo_context_id" decodeId }

structure SessionLogUploadedPayload where
  logRefId : LogRefId
  originalPath : String
  format : SessionLogFormat
  source : String
  sha256 : String
  sizeBytes : UInt64
  storageUri : String
  localPath : String
  externalUri : Option String
  availability : EvidenceAvailability
  repoContextId : Option RepoContextId

def SessionLogUploadedPayload.decode : Json → Option SessionLogUploadedPayload := decodeRecord do
  return {
    logRefId := ← required "log_ref_id" decodeId
    originalPath := ← required "original_path" decodeString
    format := ← required "format" (decodeVariant SessionLogFormat.wireNames)
    source := ← required "source" decodeString
    sha256 := ← required "sha256" decodeString
    sizeBytes := ← required "size_bytes" decodeU64
    storageUri := ← required "storage_uri" decodeString
    localPath := ← required "local_path" decodeString
    externalUri := ← optional "external_uri" decodeString
    availability := ← required "availability" (decodeVariant EvidenceAvailability.wireNames)
    repoContextId := ← optional "repo_context_id" decodeId }

structure ArtifactCreatedPayload where
  artifactKind : ArtifactKind
  title : String
  body : Option String
  repoContextId : Option RepoContextId

def ArtifactCreatedPayload.decode : Json → Option ArtifactCreatedPayload := decodeRecord do
  return {
    artifactKind := ← required "artifact_kind" (decodeVariant ArtifactKind.wireNames)
    title := ← required "title" decodeString
    body := ← optional "body" decodeString
    repoContextId := ← optional "repo_context_id" decodeId }

structure ArtifactUpdatedPayload where
  title : Option String
  body : Option String
  artifactKind : Option ArtifactKind
  repoContextId : Option RepoContextId

def ArtifactUpdatedPayload.decode : Json → Option ArtifactUpdatedPayload := decodeRecord do
  return {
    title := ← optional "title" decodeString
    body := ← optional "body" decodeString
    artifactKind := ← optional "artifact_kind" (decodeVariant ArtifactKind.wireNames)
    repoContextId := ← optional "repo_context_id" decodeId }

structure ArtifactLinkedToMissionPayload where
  relationship : String
  repoContextId : Option RepoContextId

def ArtifactLinkedToMissionPayload.decode : Json → Option ArtifactLinkedToMissionPayload :=
  decodeRecord do
    return {
      relationship := ← required "relationship" decodeString
      repoContextId := ← optional "repo_context_id" decodeId }

structure ArtifactFileRefRecordedPayload where
  fileRefId : FileRefId
  path : String
  repoContextId : Option RepoContextId

def ArtifactFileRefRecordedPayload.decode : Json → Option ArtifactFileRefRecordedPayload :=
  decodeRecord do
    return {
      fileRefId := ← required "file_ref_id" decodeId
      path := ← required "path" decodeString
      repoContextId := ← optional "repo_context_id" decodeId }

structure ArtifactAttachmentUploadedPayload where
  attachmentId : AttachmentId
  name : String
  originalPath : String
  contentType : Option String
  sha256 : String
  sizeBytes : UInt64
  storageUri : String
  externalUri : Option String
  availability : EvidenceAvailability
  repoContextId : Option RepoContextId

def ArtifactAttachmentUploadedPayload.decode :
    Json → Option ArtifactAttachmentUploadedPayload := decodeRecord do
  return {
    attachmentId := ← required "attachment_id" decodeId
    name := ← required "name" decodeString
    originalPath := ← required "original_path" decodeString
    contentType := ← optional "content_type" decodeString
    sha256 := ← required "sha256" decodeString
    sizeBytes := ← required "size_bytes" decodeU64
    storageUri := ← required "storage_uri" decodeString
    externalUri := ← optional "external_uri" decodeString
    availability := ← required "availability" (decodeVariant EvidenceAvailability.wireNames)
    repoContextId := ← optional "repo_context_id" decodeId }

structure RepoContextCapturedPayload where
  repoRoot : String
  workDir : String
  remoteUrl : Option String
  branch : Option String
  upstreamBranch : Option String
  headCommit : Option String
  mergeBaseCommit : Option String
  dirty : Bool
  contextMode : ContextMode

def RepoContextCapturedPayload.decode : Json → Option RepoContextCapturedPayload :=
  decodeRecord do
    return {
      repoRoot := ← required "repo_root" decodeString
      workDir := ← required "work_dir" decodeString
      remoteUrl := ← optional "remote_url" decodeString
      branch := ← optional "branch" decodeString
      upstreamBranch := ← optional "upstream_branch" decodeString
      headCommit := ← optional "head_commit" decodeString
      mergeBaseCommit := ← optional "merge_base_commit" decodeString
      dirty := ← required "dirty" decodeBool
      contextMode := ← required "context_mode" (decodeVariant ContextMode.wireNames) }

structure DiffHunk where
  oldStart : UInt64
  oldLines : UInt64
  newStart : UInt64
  newLines : UInt64
  header : Option String

def DiffHunk.decode : Json → Option DiffHunk := decodeRecord do
  return {
    oldStart := ← required "old_start" decodeU64
    oldLines := ← required "old_lines" decodeU64
    newStart := ← required "new_start" decodeU64
    newLines := ← required "new_lines" decodeU64
    header := ← optional "header" decodeString }

/-- One changed path; the hunks and the patch id are absent from older events. -/
structure DiffFileChange where
  path : String
  oldPath : Option String
  changeKind : DiffFileChangeKind
  additions : Option UInt64
  deletions : Option UInt64
  hunks : List DiffHunk
  patchId : Option String

def DiffFileChange.decode : Json → Option DiffFileChange := decodeRecord do
  return {
    path := ← required "path" decodeString
    oldPath := ← optional "old_path" decodeString
    changeKind := ← required "change_kind" (decodeVariant DiffFileChangeKind.wireNames)
    additions := ← optional "additions" decodeU64
    deletions := ← optional "deletions" decodeU64
    hunks := ← defaulted "hunks" (decodeArray DiffHunk.decode) []
    patchId := ← defaulted "patch_id" (decodeNullable decodeString) none }

structure DiffCapturedPayload where
  diffTarget : DiffTarget
  baseCommit : Option String
  headCommit : Option String
  patchId : Option String
  summaryHash : String
  fileChanges : List DiffFileChange
  repoContextId : Option RepoContextId

def DiffCapturedPayload.decode : Json → Option DiffCapturedPayload := decodeRecord do
  return {
    diffTarget := ← required "diff_target" (decodeVariant DiffTarget.wireNames)
    baseCommit := ← optional "base_commit" decodeString
    headCommit := ← optional "head_commit" decodeString
    patchId := ← optional "patch_id" decodeString
    summaryHash := ← required "summary_hash" decodeString
    fileChanges := ← required "file_changes" (decodeArray DiffFileChange.decode)
    repoContextId := ← optional "repo_context_id" decodeId }

/-- A session that a source provider has recorded; the chunks are its transcript. -/
structure SourceSessionObservedPayload where
  sourceId : String
  externalSessionId : String
  title : Option String
  name : Option String
  sourcePath : Option String
  sourceUri : Option String
  sourceMtime : Option String
  sourceSize : Option UInt64
  sourceFingerprint : Option String
  parserVersion : Option String
  sessionCreatedAt : Option String
  sessionUpdatedAt : Option String
  model : Option String
  inputTokens : Option UInt64
  outputTokens : Option UInt64
  repoPath : Option String
  branch : Option String
  filesChanged : Option UInt64
  linesAdded : Option UInt64
  linesRemoved : Option UInt64
  touchedFiles : List String
  metadataJson : Option Json
  normalizedChunks : List Json

def SourceSessionObservedPayload.decode : Json → Option SourceSessionObservedPayload :=
  decodeRecord do
    return {
      sourceId := ← required "source_id" decodeString
      externalSessionId := ← required "external_session_id" decodeString
      title := ← optional "title" decodeString
      name := ← defaulted "name" (decodeNullable decodeString) none
      sourcePath := ← optional "source_path" decodeString
      sourceUri := ← optional "source_uri" decodeString
      sourceMtime := ← optional "source_mtime" decodeString
      sourceSize := ← optional "source_size" decodeU64
      sourceFingerprint := ← optional "source_fingerprint" decodeString
      parserVersion := ← optional "parser_version" decodeString
      sessionCreatedAt := ← optional "session_created_at" decodeString
      sessionUpdatedAt := ← optional "session_updated_at" decodeString
      model := ← optional "model" decodeString
      inputTokens := ← optional "input_tokens" decodeU64
      outputTokens := ← optional "output_tokens" decodeU64
      repoPath := ← optional "repo_path" decodeString
      branch := ← optional "branch" decodeString
      filesChanged := ← optional "files_changed" decodeU64
      linesAdded := ← optional "lines_added" decodeU64
      linesRemoved := ← optional "lines_removed" decodeU64
      touchedFiles := ← defaulted "touched_files" (decodeArray decodeString) []
      metadataJson := ← defaulted "metadata_json" (decodeNullable decodeValue) none
      normalizedChunks := ← defaulted "normalized_chunks" (decodeArray decodeValue) [] }

/-- The name, the touched files, the metadata and the chunks are left out when absent. -/
def SourceSessionObservedPayload.encode (payload : SourceSessionObservedPayload) : Json :=
  ofFields
    ([("source_id", .string payload.sourceId),
      ("external_session_id", .string payload.externalSessionId),
      ("title", encodeNullable .string payload.title)] ++
    (payload.name.map fun name => ("name", .string name)).toList ++
    [("source_path", encodeNullable .string payload.sourcePath),
      ("source_uri", encodeNullable .string payload.sourceUri),
      ("source_mtime", encodeNullable .string payload.sourceMtime),
      ("source_size", encodeNullable encodeU64 payload.sourceSize),
      ("source_fingerprint", encodeNullable .string payload.sourceFingerprint),
      ("parser_version", encodeNullable .string payload.parserVersion),
      ("session_created_at", encodeNullable .string payload.sessionCreatedAt),
      ("session_updated_at", encodeNullable .string payload.sessionUpdatedAt),
      ("model", encodeNullable .string payload.model),
      ("input_tokens", encodeNullable encodeU64 payload.inputTokens),
      ("output_tokens", encodeNullable encodeU64 payload.outputTokens),
      ("repo_path", encodeNullable .string payload.repoPath),
      ("branch", encodeNullable .string payload.branch),
      ("files_changed", encodeNullable encodeU64 payload.filesChanged),
      ("lines_added", encodeNullable encodeU64 payload.linesAdded),
      ("lines_removed", encodeNullable encodeU64 payload.linesRemoved)] ++
    (if payload.touchedFiles.isEmpty then []
      else [("touched_files", .array (payload.touchedFiles.map .string))]) ++
    (payload.metadataJson.map fun metadata => ("metadata_json", metadata)).toList ++
    (if payload.normalizedChunks.isEmpty then []
      else [("normalized_chunks", .array payload.normalizedChunks)]))

end BrickTrace
