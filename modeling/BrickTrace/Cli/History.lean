import BrickTrace.Lib.Loops
import BrickTrace.Core.SourceSessionEvent

/-!
# Refreshing the history of agent sessions

A refresh is started from one repo and indexes the sessions that the sources on
the machine list, each into the metadata database and, as an event of the repo it
was started from, into the local event store.  Both databases are shared by all
repos.  What is written is kept when a later step fails.

The listing of a source, the formatting of a transcript and the plans come from
outside; scans, roots, plans and links are written to tables that nothing here reads.
-/

set_option autoImplicit false

namespace BrickTrace

/-! ## Sources and their sessions -/

/-- A source, with the paths that its listing reads. -/
structure SourceProfile where
  name : String
  appId : Option String
  actorId : Option String
  actorType : Option ActorType
  sessionDbPath : Option String
  sessionLogPath : Option String
  evidenceRoot : Option String
  cursorStateDbPath : Option String

/-- A session as its source lists it. -/
structure NativeSourceSession where
  externalSessionId : String
  sourceAppId : String
  title : Option String
  path : String
  sizeBytes : UInt64
  modifiedAt : Option DateTime
  parserVersion : String
  sessionCreatedAt : Option DateTime
  sessionUpdatedAt : Option DateTime
  model : Option String
  inputTokens : Option UInt64
  outputTokens : Option UInt64
  repoPath : Option String
  branch : Option String
  filesChanged : Option UInt64
  linesAdded : Option UInt64
  linesRemoved : Option UInt64
  touchedFiles : List String
  listable : Bool
  metadataJson : Option Json

/-- What a refresh finds around it: the time, what the sources answer, and what the
plans of a source do. -/
structure RefreshEnv where
  now : DateTime
  freshSessionId : SessionId
  listSourceSessions : SourceProfile → Option Nat → Option String → Option (List NativeSourceSession)
  formatSourceSessionChunks : String → String → Option String → Option (List ActivityChunk)
  storesPlans : SourceProfile → Bool

inductive RefreshError where
  | listing
  | metadata
  | formatting
  | plans
  | store (failure : LocalStoreError)
  | profiles

structure RefreshStats where
  scanned : Nat
  reindexed : Nat
  skipped : Nat
deriving DecidableEq

def RefreshStats.zero : RefreshStats := ⟨0, 0, 0⟩

def RefreshStats.merge (stats other : RefreshStats) : RefreshStats :=
  ⟨stats.scanned + other.scanned, stats.reindexed + other.reindexed, stats.skipped + other.skipped⟩

/-- The two databases of a machine. -/
structure HistoryState where
  metadataDb : MetadataDb
  eventStore : LocalEventStore

/-! ## A listed session -/

def formatActorType : ActorType → String
  | .human => "human"
  | .agent => "agent"
  | .system => "system"

def sourceActor (profile : SourceProfile) : ActorRef where
  actorType := profile.actorType.getD .agent
  actorId := profile.actorId.getD (profile.appId.getD profile.name)
  displayName := profile.appId.or (some profile.name)

/-- What the source says of the session goes on top of the entries of the profile. -/
def sourceSessionMetadata (profile : SourceProfile) (session : NativeSourceSession) : Json :=
  let entries := [("actor_id", Json.encodeNullable .string profile.actorId),
    ("actor_type", Json.encodeNullable (fun kind => .string (formatActorType kind)) profile.actorType),
    ("app_id", .string session.sourceAppId)]
  match session.metadataJson with
  | none => .object entries
  | some (.object provided) =>
      .object (provided.foldl (fun merged entry => Json.insertEntry entry.1 entry.2 merged) entries)
  | some provided => .object (Json.insertEntry "sourceMetadata" provided entries)

section Refresh
variable (rfc3339 : DateTime → String) (newV5 : String → Uuid) (env : RefreshEnv)

def sourceSessionUpsert (profile : SourceProfile) (session : NativeSourceSession) :
    SourceSessionUpsert where
  sourceId := profile.name
  externalSessionId := session.externalSessionId
  title := session.title
  name := session.title
  sourcePath := some session.path
  sourceUri := some ("file://" ++ session.path)
  sourceMtime := session.modifiedAt
  sourceSize := some session.sizeBytes
  sourceFingerprint := session.modifiedAt.map fun mtime =>
    rfc3339 mtime ++ ":" ++ session.sizeBytes.toNat.repr ++ ":" ++ session.parserVersion
  parserVersion := some session.parserVersion
  sessionCreatedAt := session.sessionCreatedAt
  sessionUpdatedAt := session.sessionUpdatedAt
  model := session.model
  inputTokens := session.inputTokens
  outputTokens := session.outputTokens
  repoPath := session.repoPath
  branch := session.branch
  filesChanged := session.filesChanged
  linesAdded := session.linesAdded
  linesRemoved := session.linesRemoved
  touchedFilesJson := some (.array (session.touchedFiles.map .string))
  listable := session.listable
  discoveredAt := env.now
  lastSeenAt := (session.sessionUpdatedAt.or session.modifiedAt).getD env.now
  metadataJson := some (sourceSessionMetadata profile session)

/-- Whether a session is indexed as it is listed. -/
def unchanged (existing : Option SourceSessionRecord) (upsert : SourceSessionUpsert) : Bool :=
  match existing, upsert.sourceFingerprint with
  | some record, some fingerprint =>
      record.sourceFingerprint == some fingerprint && record.parserVersion == upsert.parserVersion
  | _, _ => false

/-- The refresh of a source between two of its sessions. -/
structure ProfileRefresh extends HistoryState where
  stats : RefreshStats
  maxUpdatedAt : Option String

def ProfileRefresh.scan (progress : ProfileRefresh) (session : NativeSourceSession) :
    ProfileRefresh :=
  { progress with
    stats := { progress.stats with scanned := progress.stats.scanned + 1 }
    maxUpdatedAt :=
      match session.sessionUpdatedAt with
      | none => progress.maxUpdatedAt
      | some updatedAt =>
          let updated := rfc3339 updatedAt
          match progress.maxUpdatedAt with
          | none => some updated
          | some current => if current < updated then some updated else some current }

/-- The stored chunks of a session; without any, the transcript is formatted again. -/
def sourceSessionChunksOrBackfill (db : MetadataDb) (session : SourceSessionUpsert) :
    Except RefreshError (List ActivityChunk) × MetadataDb :=
  let stored := (db.listSourceSessionChunks session.sourceId session.externalSessionId).filterMap
    fun row => ActivityChunk.decode row.rawJson
  if stored.isEmpty then
    match env.formatSourceSessionChunks session.sourceId session.externalSessionId
        session.sourcePath with
    | none => (.error .formatting, db)
    | some chunks =>
        if chunks.isEmpty then (.ok chunks, db)
        else
          match db.upsertSourceSessionChunks session.sourceId session.externalSessionId chunks with
          | none => (.error .metadata, db)
          | some written => (.ok chunks, written)
  else (.ok stored, db)

/-- A session that changed is written as it is listed now, with its transcript. -/
def reindexSourceSession (db : MetadataDb) (session : SourceSessionUpsert) :
    Except RefreshError (List ActivityChunk) × MetadataDb :=
  match db.upsertSourceSession env.now session with
  | none => (.error .metadata, db)
  | some indexed =>
      match env.formatSourceSessionChunks session.sourceId session.externalSessionId
          session.sourcePath with
      | none => (.error .formatting, indexed)
      | some chunks =>
          match indexed.upsertSourceSessionChunks session.sourceId session.externalSessionId chunks with
          | none => (.error .metadata, indexed)
          | some written => (.ok chunks, written)

/-- The chunks of a listed session, once the metadata database has it as it is listed. -/
def indexSourceSession (db : MetadataDb) (session : SourceSessionUpsert) :
    Except RefreshError (List ActivityChunk) × MetadataDb :=
  if unchanged (db.getSourceSession session.sourceId session.externalSessionId) session then
    sourceSessionChunksOrBackfill env (db.touchSourceSessionLastSeen env.now session.sourceId
      session.externalSessionId session.lastSeenAt) session
  else reindexSourceSession env db session

/-- The counts are of no use to a refresh that fails. -/
def RefreshStats.count (stats : RefreshStats) (isUnchanged : Bool) : RefreshStats :=
  if isUnchanged then { stats with skipped := stats.skipped + 1 }
  else { stats with reindexed := stats.reindexed + 1 }

/-- One turn of the loop of `refresh_single_profile`. -/
def refreshSession (repoId : String) (profile : SourceProfile) (progress : ProfileRefresh)
    (session : NativeSourceSession) : Except RefreshError Unit × ProfileRefresh :=
  let scanned := progress.scan rfc3339 session
  let upsert := sourceSessionUpsert rfc3339 env profile session
  match indexSourceSession env progress.metadataDb upsert with
  | (.error failure, written) => (.error failure, { scanned with metadataDb := written })
  | (.ok chunks, written) =>
      let indexed := { scanned with
        metadataDb := written
        stats := scanned.stats.count (unchanged (progress.metadataDb.getSourceSession upsert.sourceId
          upsert.externalSessionId) upsert) }
      match written.getSourceSession upsert.sourceId upsert.externalSessionId with
      | none => (.ok (), indexed)
      | some record =>
          let event := buildSourceSessionEventWithChunks rfc3339 newV5 env.now env.freshSessionId
            (sourceActor profile) record.toSourceSessionUpsert repoId chunks
          match indexed.eventStore.appendEvent rfc3339 repoId event with
          | .error failure => (.error (.store failure), indexed)
          | .ok grown => (.ok (), { indexed with eventStore := grown })

def refreshSingleProfile (repoId : String) (profile : SourceProfile) (limit : Option Nat)
    (since : Option String) (state : HistoryState) :
    Except RefreshError (RefreshStats × Option String) × HistoryState :=
  match env.listSourceSessions profile limit since with
  | none => (.error .listing, state)
  | some sessions =>
      let refreshed := Loops.forEach (refreshSession rfc3339 newV5 env repoId profile)
        { toHistoryState := state, stats := .zero, maxUpdatedAt := none } sessions
      match refreshed.1 with
      | .error failure => (.error failure, refreshed.2.toHistoryState)
      | .ok () =>
          if env.storesPlans profile then
            (.ok (refreshed.2.stats, refreshed.2.maxUpdatedAt), refreshed.2.toHistoryState)
          else (.error .plans, refreshed.2.toHistoryState)

/-! ## All sources -/

/-- The refresh between two sources. -/
structure RefreshProgress extends HistoryState where
  totals : RefreshStats

/-- From where a source is listed: from its watermark, unless its sessions were parsed by
another version. -/
def sinceWatermark (db : MetadataDb) (profile : SourceProfile)
    (newest : List NativeSourceSession) : Option String :=
  let mismatch := newest.head?.any fun session =>
    db.sourceHasParserVersionMismatch profile.name session.parserVersion
  if mismatch then none
  else (db.getSourceWatermark profile.name).bind (·.lastIndexedUpdatedAt)

/-- One turn of the loop of `refresh_profiles_to_metadata`. -/
def refreshProfile (repoId : String) (limit : Option Nat) (progress : RefreshProgress)
    (profile : SourceProfile) : Except RefreshError Unit × RefreshProgress :=
  match env.listSourceSessions profile (some 1) none with
  | none => (.error .listing, progress)
  | some newest =>
      match refreshSingleProfile rfc3339 newV5 env repoId profile limit
          (sinceWatermark progress.metadataDb profile newest) progress.toHistoryState with
      | (.error failure, state) => (.error failure, { progress with toHistoryState := state })
      | (.ok (stats, maxUpdatedAt), state) =>
          (.ok (), {
            metadataDb := state.metadataDb.setSourceWatermark profile.name maxUpdatedAt env.now
            eventStore := state.eventStore
            totals := progress.totals.merge stats })

def refreshProfilesToMetadata (repoId : String) (profiles : List SourceProfile) (limit : Option Nat)
    (state : HistoryState) : Except RefreshError RefreshStats × HistoryState :=
  let refreshed := Loops.forEach (refreshProfile rfc3339 newV5 env repoId limit)
    { toHistoryState := state, totals := .zero } profiles
  (refreshed.1.map fun _ => refreshed.2.totals, refreshed.2.toHistoryState)

/-! ## A refresh -/

def autoRefreshThrottleSecs : Int := 10

def sourceIndexRefreshLimit : Nat := 100

/-- A source that was refreshed a moment ago, from whatever repo, is left alone. -/
def isDue (db : MetadataDb) (profile : SourceProfile) : Bool :=
  match db.getSourceWatermark profile.name with
  | none => true
  | some watermark =>
      autoRefreshThrottleSecs ≤
        (env.now.nanoseconds - watermark.lastRefreshedAt.nanoseconds).tdiv 1000000000

/-- The sources of a repo: its own profiles, or those found on the machine. -/
structure ProfileSources where
  stored : Option (List SourceProfile)
  discovered : List SourceProfile

def dueProfiles (db : MetadataDb) (sources : ProfileSources) : List SourceProfile :=
  let profiles := sources.stored.getD []
  (if profiles.isEmpty then sources.discovered else profiles).filter (isDue env db)

def refreshRepoSources (repoId : String) (sources : ProfileSources) (state : HistoryState) :
    Except RefreshError Unit × HistoryState :=
  match sources.stored with
  | none => (.error .profiles, state)
  | some _ =>
      let due := dueProfiles env state.metadataDb sources
      if due.isEmpty then (.ok (), state)
      else
        let refreshed := refreshProfilesToMetadata rfc3339 newV5 env repoId due
          (some sourceIndexRefreshLimit) state
        (refreshed.1.map fun _ => (), refreshed.2)

end Refresh

/-- One refresh: the repo it is started from, that repo's sources, and what it finds. -/
structure RefreshRun where
  repoId : String
  sources : ProfileSources
  env : RefreshEnv

def RefreshRun.refresh (rfc3339 : DateTime → String) (newV5 : String → Uuid) (run : RefreshRun)
    (state : HistoryState) : Except RefreshError Unit × HistoryState :=
  refreshRepoSources rfc3339 newV5 run.env run.repoId run.sources state

def nextHistory (rfc3339 : DateTime → String) (newV5 : String → Uuid) (state : HistoryState)
    (run : RefreshRun) : HistoryState :=
  (run.refresh rfc3339 newV5 state).2

end BrickTrace
