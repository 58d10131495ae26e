import BrickTrace.Core.SqliteIndex
import BrickTrace.Lib.Fallible

/-!
# The rebuild as a script of inserts

Every insert function of the rebuild performs a fixed script of statements,
provided its counts fit a 64-bit signed integer.  `rebuild_performs` puts the
scripts of all tables together: the rebuild succeeds exactly when the counts fit
and the script runs without a taken key.
-/

set_option autoImplicit false

namespace BrickTrace

open KeyedRows OrderedMap

/-- A step that succeeds exactly when `fits` holds and the script succeeds, with
the rows that the script leaves. -/
def Performs (step : Rows → Except RebuildError Rows) (fits : Prop)
    (script : List (Statement Row)) : Prop :=
  ∀ rows after, step rows = .ok after ↔ fits ∧ executeAll Row.key rows script = .ok after

theorem performs_execute (statement : Statement Row) :
    Performs (fun rows => execute rows statement) True [statement] := by
  intro rows after
  have one : executeAll Row.key rows [statement] = KeyedRows.execute Row.key rows statement := by
    unfold executeAll
    rw [List.foldlM_cons]
    cases KeyedRows.execute Row.key rows statement <;> rfl
  rw [one, true_and]
  unfold execute
  cases ran : KeyedRows.execute Row.key rows statement with
  | error row => simp [ran]
  | ok rows => simp [ran]

theorem Performs.andThen {first second : Rows → Except RebuildError Rows} {fits fits' : Prop}
    {script script' : List (Statement Row)} (earlier : Performs first fits script)
    (later : Performs second fits' script') :
    Performs (fun rows => first rows >>= second) (fits ∧ fits') (script ++ script') := by
  intro rows after
  rw [Fallible.bind_eq_ok_iff, executeAll_append, Fallible.bind_eq_ok_iff]
  constructor
  · rintro ⟨between, firstDone, secondDone⟩
    obtain ⟨fit, firstRun⟩ := (earlier rows between).mp firstDone
    obtain ⟨fit', secondRun⟩ := (later between after).mp secondDone
    exact ⟨⟨fit, fit'⟩, between, firstRun, secondRun⟩
  · rintro ⟨⟨fit, fit'⟩, between, firstRun, secondRun⟩
    exact ⟨between, (earlier rows between).mpr ⟨fit, firstRun⟩,
      (later between after).mpr ⟨fit', secondRun⟩⟩

theorem Performs.forEach {A : Type} {insert : Rows → A → Except RebuildError Rows}
    {fits : A → Prop} {script : A → List (Statement Row)}
    (each : ∀ item, Performs (fun rows => insert rows item) (fits item) (script item))
    (items : List A) :
    Performs (fun rows => items.foldlM insert rows) (∀ item ∈ items, fits item)
      (items.flatMap script) := by
  induction items with
  | nil =>
      intro rows after
      simp only [List.not_mem_nil, false_implies, implies_true, true_and, List.flatMap_nil,
        executeAll_nil]
      constructor
      · intro done
        cases done
        rfl
      · intro done
        cases done
        rfl
  | cons item rest ih =>
      intro rows after
      have both := ((each item).andThen ih) rows after
      simp only [List.foldlM_cons, List.forall_mem_cons, List.flatMap_cons]
      exact both

theorem Performs.mono {step : Rows → Except RebuildError Rows} {fits fits' : Prop}
    {script : List (Statement Row)} (performs : Performs step fits script) (same : fits ↔ fits') :
    Performs step fits' script := by
  intro rows after
  rw [← same]
  exact performs rows after

theorem Performs.converting {context : String} {value : Nat}
    {step : Int64 → Rows → Except RebuildError Rows} {fits : Prop} {script : List (Statement Row)}
    (performs : Performs (step (Int64.ofNat value)) fits script) :
    Performs (fun rows => sqliteInteger context value >>= fun integer => step integer rows)
      (value < 2 ^ 63 ∧ fits) script := by
  intro rows after
  rw [Fallible.bind_eq_ok_iff, and_assoc, ← performs rows after]
  unfold sqliteInteger
  by_cases small : value < 2 ^ 63
  · rw [if_pos small]
    constructor
    · rintro ⟨_, same, done⟩
      cases same
      exact ⟨small, done⟩
    · rintro ⟨_, done⟩
      exact ⟨_, rfl, done⟩
  · rw [if_neg small]
    constructor
    · rintro ⟨_, impossible, _⟩
      cases impossible
    · rintro ⟨fit, _⟩
      exact absurd fit small

/-! ## The script of each insert function -/

section Scripts
variable (formats : TextFormats)

def metadataScript (now : DateTime) (eventCount : Nat) : List (Statement Row) :=
  [.insert (.metadata ⟨"schema_version", sqliteIndexSchemaVersion.toNat.repr⟩),
    .insert (.metadata ⟨"rebuilt_at", formats.rfc3339 now⟩),
    .insert (.metadata ⟨"event_count", eventCount.repr⟩)]

def eventScript (event : TraceEvent) : List (Statement Row) :=
  [.insert (.events (eventRow formats event))]

def orgScript (org : IndexedOrg) : List (Statement Row) := [.insert (.orgs (orgRow formats org))]

def projectScript (project : IndexedProject) : List (Statement Row) :=
  [.insert (.projects (projectRow formats project))]

def missionScript (mission : IndexedMission) : List (Statement Row) :=
  [.insert (.missions (missionRow formats mission))]

def sessionScript (session : IndexedSession) : List (Statement Row) :=
  [.insert (.sessions (sessionRow formats session))] ++
    session.missionIds.toList.flatMap fun missionId =>
      [.insert (.sessionMissions ⟨session.sessionId, missionId⟩)]

def artifactScript (artifact : IndexedArtifact) : List (Statement Row) :=
  [.insert (.artifacts (artifactRow formats artifact))] ++
    ((artifact.missionIds.toList.flatMap fun missionId =>
      [.insert (.artifactMissions ⟨artifact.artifactId, missionId⟩)]) ++
    ((artifact.sessionIds.toList.flatMap fun sessionId =>
      [.insert (.artifactSessions ⟨artifact.artifactId, sessionId⟩)]) ++
    ((artifact.filePaths.toList.flatMap fun path =>
      [.insertOrIgnore (.artifactFiles ⟨artifact.artifactId, path⟩)]) ++
    artifact.attachmentIds.toList.flatMap fun attachmentId =>
      [.insertOrIgnore (.artifactAttachments ⟨artifact.artifactId, attachmentId⟩)])))

def fileScript (file : IndexedFile) : List (Statement Row) :=
  [.insert (.files ⟨file.path⟩)] ++ file.fileRefs.flatMap fun fileRef =>
    [.insert (.fileRefs (fileRefRow formats file.path fileRef))] ++
      [.insertOrIgnore (.artifactFiles ⟨fileRef.artifactId, file.path⟩)]

def attachmentScript (attachment : IndexedAttachment) : List (Statement Row) :=
  [.insert (.attachments
    (attachmentRow formats attachment (Int64.ofNat attachment.sizeBytes.toNat)))] ++
    [.insertOrIgnore (.artifactAttachments ⟨attachment.artifactId, attachment.attachmentId⟩)]

def diffScript (diff : IndexedDiff) : List (Statement Row) :=
  [.insert (.diffs (diffRow formats diff (Int64.ofNat diff.fileCount)
    (Int64.ofNat diff.additions.toNat) (Int64.ofNat diff.deletions.toNat)
    (Int64.ofNat diff.binaryFileCount)))] ++
    diff.fileChanges.flatMap fun change => [.insert (.diffFiles (diffFileRow diff.diffId change))]

def sessionLogScript (sessionLog : IndexedSessionLog) : List (Statement Row) :=
  [.insert (.sessionLogs
    (sessionLogRow formats sessionLog (Int64.ofNat sessionLog.sizeBytes.toNat)))]

def repoContextScript (repoContext : IndexedRepoContext) : List (Statement Row) :=
  [.insert (.repoContexts (repoContextRow formats repoContext))]

/-! ## Each insert function performs its script -/

theorem insertMetadata_performs (now : DateTime) (eventCount : Nat) :
    Performs (fun rows => insertMetadata formats now rows eventCount) True
      (metadataScript formats now eventCount) :=
  (Performs.forEach (fun entry : String × String => performs_execute
    (.insert (.metadata ⟨entry.1, entry.2⟩))) _).mono (by simp)

theorem insertEvents_performs (events : List TraceEvent) :
    Performs (fun rows => insertEvents formats rows events) True
      (events.flatMap (eventScript formats)) :=
  (Performs.forEach (fun event => performs_execute (.insert (.events (eventRow formats event))))
    events).mono (by simp)

theorem insertOrg_performs (org : IndexedOrg) :
    Performs (fun rows => insertOrg formats rows org) True (orgScript formats org) :=
  performs_execute _

theorem insertProject_performs (project : IndexedProject) :
    Performs (fun rows => insertProject formats rows project) True
      (projectScript formats project) :=
  performs_execute _

theorem insertMission_performs (mission : IndexedMission) :
    Performs (fun rows => insertMission formats rows mission) True
      (missionScript formats mission) :=
  performs_execute _

theorem insertSession_performs (session : IndexedSession) :
    Performs (fun rows => insertSession formats rows session) True
      (sessionScript formats session) :=
  ((performs_execute _).andThen
    (Performs.forEach (fun _ => performs_execute _) session.missionIds.toList)).mono (by simp)

theorem insertArtifact_performs (artifact : IndexedArtifact) :
    Performs (fun rows => insertArtifact formats rows artifact) True
      (artifactScript formats artifact) :=
  ((performs_execute _).andThen
    ((Performs.forEach (fun _ => performs_execute _) artifact.missionIds.toList).andThen
      ((Performs.forEach (fun _ => performs_execute _) artifact.sessionIds.toList).andThen
        ((Performs.forEach (fun _ => performs_execute _) artifact.filePaths.toList).andThen
          (Performs.forEach (fun _ => performs_execute _)
            artifact.attachmentIds.toList))))).mono (by simp)

theorem insertFile_performs (file : IndexedFile) :
    Performs (fun rows => insertFile formats rows file) True (fileScript formats file) :=
  ((performs_execute _).andThen (Performs.forEach
    (fun _ => (performs_execute _).andThen (performs_execute _)) file.fileRefs)).mono (by simp)

theorem insertAttachment_performs (attachment : IndexedAttachment) :
    Performs (fun rows => insertAttachment formats rows attachment)
      (attachment.sizeBytes.toNat < 2 ^ 63) (attachmentScript formats attachment) :=
  (Performs.converting ((performs_execute _).andThen (performs_execute _))).mono (by simp)

/-- The counts of a diff that the cache stores as integers. -/
def DiffFits (diff : IndexedDiff) : Prop :=
  diff.fileCount < 2 ^ 63 ∧ diff.additions.toNat < 2 ^ 63 ∧ diff.deletions.toNat < 2 ^ 63 ∧
    diff.binaryFileCount < 2 ^ 63

theorem insertDiff_performs (diff : IndexedDiff) :
    Performs (fun rows => insertDiff formats rows diff) (DiffFits diff)
      (diffScript formats diff) :=
  (Performs.converting (Performs.converting (Performs.converting (Performs.converting
    ((performs_execute _).andThen
      (Performs.forEach (fun _ => performs_execute _) diff.fileChanges)))))).mono
    (by simp [DiffFits])

theorem insertSessionLog_performs (sessionLog : IndexedSessionLog) :
    Performs (fun rows => insertSessionLog formats rows sessionLog)
      (sessionLog.sizeBytes.toNat < 2 ^ 63) (sessionLogScript formats sessionLog) :=
  (Performs.converting (performs_execute _)).mono (by simp)

theorem insertRepoContext_performs (repoContext : IndexedRepoContext) :
    Performs (fun rows => insertRepoContext formats rows repoContext) True
      (repoContextScript formats repoContext) :=
  performs_execute _

/-! ## The script of the whole rebuild -/

def indexScript (index : TraceIndex) : List (Statement Row) :=
  (values index.orgs).flatMap (orgScript formats) ++
  ((values index.projects).flatMap (projectScript formats) ++
  ((values index.missions).flatMap (missionScript formats) ++
  ((values index.sessions).flatMap (sessionScript formats) ++
  ((values index.artifacts).flatMap (artifactScript formats) ++
  ((values index.files).flatMap (fileScript formats) ++
  ((values index.attachments).flatMap (attachmentScript formats) ++
  ((values index.diffs).flatMap (diffScript formats) ++
  ((values index.sessionLogs).flatMap (sessionLogScript formats) ++
  (values index.repoContexts).flatMap (repoContextScript formats)))))))))

def rebuildScript (now : DateTime) (events : List TraceEvent) (index : TraceIndex) :
    List (Statement Row) :=
  metadataScript formats now events.length ++
    (events.flatMap (eventScript formats) ++ indexScript formats index)

/-- Every count of the index that the cache stores fits its integer column. -/
structure IndexFits (index : TraceIndex) : Prop where
  attachments : ∀ attachment ∈ values index.attachments, attachment.sizeBytes.toNat < 2 ^ 63
  diffs : ∀ diff ∈ values index.diffs, DiffFits diff
  sessionLogs : ∀ sessionLog ∈ values index.sessionLogs, sessionLog.sizeBytes.toNat < 2 ^ 63

theorem insertIndex_performs (index : TraceIndex) :
    Performs (fun rows => insertIndex formats rows index) (IndexFits index)
      (indexScript formats index) := by
  have orgs := Performs.forEach (insertOrg_performs formats) (values index.orgs)
  have projects := Performs.forEach (insertProject_performs formats) (values index.projects)
  have missions := Performs.forEach (insertMission_performs formats) (values index.missions)
  have sessions := Performs.forEach (insertSession_performs formats) (values index.sessions)
  have artifacts := Performs.forEach (insertArtifact_performs formats) (values index.artifacts)
  have files := Performs.forEach (insertFile_performs formats) (values index.files)
  have attachments := Performs.forEach (insertAttachment_performs formats) (values index.attachments)
  have diffs := Performs.forEach (insertDiff_performs formats) (values index.diffs)
  have sessionLogs := Performs.forEach (insertSessionLog_performs formats) (values index.sessionLogs)
  have repoContexts := Performs.forEach (insertRepoContext_performs formats) (values index.repoContexts)
  have performs := orgs.andThen (projects.andThen (missions.andThen (sessions.andThen
    (artifacts.andThen (files.andThen (attachments.andThen (diffs.andThen
      (sessionLogs.andThen repoContexts))))))))
  refine performs.mono ?_
  constructor
  · rintro ⟨-, -, -, -, -, -, attachmentsFit, diffsFit, sessionLogsFit, -⟩
    exact ⟨attachmentsFit, diffsFit, sessionLogsFit⟩
  · rintro ⟨attachmentsFit, diffsFit, sessionLogsFit⟩
    simp only [implies_true, true_and, and_true]
    exact ⟨attachmentsFit, diffsFit, sessionLogsFit⟩

/-- When the rebuild succeeds, and what it leaves in the cache. -/
theorem rebuild_ok_iff (now : DateTime) (cache after : QueryCache) (events : List TraceEvent)
    (index : TraceIndex) :
    rebuildSqliteIndex formats now cache events index = (.ok (), after) ↔
      ∃ prepared, prepareSchemaForRebuild cache = .ok prepared ∧ IndexFits index ∧
        executeAll Row.key [] (rebuildScript formats now events index) = .ok after.rows ∧
        after.hasTables = prepared.hasTables := by
  unfold rebuildSqliteIndex
  cases prepare : prepareSchemaForRebuild cache with
  | error failure => simp
  | ok prepared =>
      have performs := ((insertMetadata_performs formats now events.length).andThen
        ((insertEvents_performs formats events).andThen (insertIndex_performs formats index)))
        prepared.clearTables.rows
      simp only [true_and] at performs
      dsimp only
      split
      · rename_i failure failed
        constructor
        · intro impossible
          cases impossible
        · rintro ⟨_, same, fits, ran, -⟩
          have succeeded := (performs after.rows).mpr ⟨fits, ran⟩
          rw [failed] at succeeded
          cases succeeded
      · rename_i rows succeeded
        have ran := (performs rows).mp succeeded
        constructor
        · intro same
          cases same
          exact ⟨prepared, rfl, ran.1, ran.2, rfl⟩
        · rintro ⟨_, same, fits, ran', tables⟩
          cases same
          have rowsEqual := succeeded.symm.trans ((performs after.rows).mpr ⟨fits, ran'⟩)
          cases rowsEqual
          cases after
          cases tables
          rfl

end Scripts

end BrickTrace
