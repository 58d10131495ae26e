import BrickTrace.Core.SqliteKeys

/-!
# When the cache agrees with the index

A rebuild from an index that the same events built either stores every file
reference of the index as one row, or fails on a key that two references share
or on a count that does not fit.  `rebuild_stores_file_refs_iff` says which, in
terms of the events.
-/

set_option autoImplicit false

namespace BrickTrace

open KeyedRows OrderedMap TraceIndex

/-! ## The records of a built index -/

section Built
variable {mode : OverflowMode} {now : DateTime} {events : List TraceEvent} {index : TraceIndex}

theorem build_attachments (built : TraceIndex.build mode now events = .ok index) :
    index.attachments =
      insertAll ∅ (entries IndexedAttachment.attachmentId TraceEvent.uploadedAttachment events) := by
  have whole := foldl_entries IndexedAttachment.attachmentId TraceEvent.uploadedAttachment
    IndexRecords.attachments mode (fun _ _ => rfl) IndexRecords.empty events
  rw [← build_records built] at whole
  exact whole

theorem build_sessionLogs (built : TraceIndex.build mode now events = .ok index) :
    index.sessionLogs =
      insertAll ∅ (entries IndexedSessionLog.logRefId TraceEvent.uploadedSessionLog events) := by
  have whole := foldl_entries IndexedSessionLog.logRefId TraceEvent.uploadedSessionLog
    IndexRecords.sessionLogs mode (fun _ _ => rfl) IndexRecords.empty events
  rw [← build_records built] at whole
  exact whole

theorem build_diffs (built : TraceIndex.build mode now events = .ok index) :
    index.diffs =
      insertAll ∅ (entries IndexedDiff.diffId (TraceEvent.indexedCapture mode) events) := by
  have whole := foldl_entries IndexedDiff.diffId (TraceEvent.indexedCapture mode)
    IndexRecords.diffs mode (fun _ _ => rfl) IndexRecords.empty events
  rw [← build_records built] at whole
  exact whole

theorem build_repoContexts (built : TraceIndex.build mode now events = .ok index) :
    index.repoContexts = insertAll ∅
      (entries IndexedRepoContext.repoContextId TraceEvent.capturedRepoContext events) := by
  have whole := foldl_entries IndexedRepoContext.repoContextId TraceEvent.capturedRepoContext
    IndexRecords.repoContexts mode (fun _ _ => rfl) IndexRecords.empty events
  rw [← build_records built] at whole
  exact whole

theorem build_filedRefs (built : TraceIndex.build mode now events = .ok index) :
    (filedRefs index.files).Perm (events.flatMap TraceEvent.fileRefs) := by
  have whole := foldl_filedRefs mode IndexRecords.empty events
  rw [← build_records built] at whole
  have blank : filedRefs IndexRecords.empty.files = [] := by
    simp [filedRefs, IndexRecords.empty]
  rw [blank, List.append_nil] at whole
  exact whole

theorem keyed_of_entries {A : Type} {idOf : A → String} {read : TraceEvent → Option A}
    (events : List TraceEvent) : Keyed idOf (insertAll ∅ (entries idOf read events)) :=
  (keyed_empty idOf).insertAll fun _ member => (entries_own member).1

theorem build_keyed (built : TraceIndex.build mode now events = .ok index) : index.Keyed where
  entities := build_entitiesKeyed built
  attachments := by
    rw [build_attachments built]
    exact keyed_of_entries events
  diffs := by
    rw [build_diffs built]
    exact keyed_of_entries events
  sessionLogs := by
    rw [build_sessionLogs built]
    exact keyed_of_entries events
  files := by
    have whole := foldl_keyed_files mode IndexRecords.empty (keyed_empty _) events
    rw [← build_records built] at whole
    exact whole
  repoContexts := by
    rw [build_repoContexts built]
    exact keyed_of_entries events

end Built

/-- The identifiers that the file references of an event get. -/
def TraceEvent.fileRefIds (event : TraceEvent) : List String :=
  event.fileRefs.map fun entry => entry.2.fileRefId

theorem build_fileRefIds {mode : OverflowMode} {now : DateTime} {events : List TraceEvent}
    {index : TraceIndex} (built : TraceIndex.build mode now events = .ok index) :
    (fileRefIds (values index.files)).Perm (events.flatMap TraceEvent.fileRefIds) := by
  have filed : fileRefIds (values index.files) =
      (filedRefs index.files).map fun entry => entry.2.fileRefId := by
    simp [fileRefIds, filedRefs, values, List.flatMap_map, List.map_flatMap, Function.comp_def]
  have emitted : events.flatMap TraceEvent.fileRefIds =
      (events.flatMap TraceEvent.fileRefs).map fun entry => entry.2.fileRefId := by
    rw [List.map_flatMap]
    rfl
  rw [filed, emitted]
  exact (build_filedRefs built).map _

/-! ## Diffs of one file -/

theorem length_le_one_of_constant {A B : Type} {items : List A} {b : B}
    (distinct : (items.map fun _ => b).Nodup) : items.length ≤ 1 := by
  match items, distinct with
  | [], _ => simp
  | [_], _ => simp
  | _ :: _ :: _, distinct => simp at distinct

/-- All references of a diff carry the event's id, so distinct ids allow one file. -/
theorem single_of_fileRefIds {events : List TraceEvent}
    (distinct : (events.flatMap TraceEvent.fileRefIds).Nodup) {event : TraceEvent}
    (member : event ∈ events) {artifactId : ArtifactId} {payload : DiffCapturedPayload}
    (captured : event.capturedDiff = some (artifactId, payload)) :
    payload.fileChanges.length ≤ 1 := by
  have own : event.fileRefIds.Nodup := (List.nodup_flatMap.mp distinct).1 event member
  have parts : (payload.fileChanges.map fun _ => event.eventId.text).Nodup := by
    refine own.sublist ?_
    simp only [TraceEvent.fileRefIds, TraceEvent.fileRefs, captured, List.map_append, List.map_map]
    exact List.sublist_append_right _ _
  exact length_le_one_of_constant parts

/-- A diff in a built index comes from a capture among the events. -/
theorem build_diff_captured {mode : OverflowMode} {now : DateTime} {events : List TraceEvent}
    {index : TraceIndex} (built : TraceIndex.build mode now events = .ok index)
    {diff : IndexedDiff} (member : diff ∈ values index.diffs) :
    ∃ event ∈ events, event.indexedCapture mode = some diff := by
  obtain ⟨key, held⟩ := (mem_values_iff _ diff).mp member
  rw [build_diffs built, getElem?_insertAll] at held
  have found : (entries IndexedDiff.diffId (TraceEvent.indexedCapture mode) events).reverse.lookup
      key = some diff := by
    simpa using held
  obtain ⟨-, event, isEvent, captured⟩ := entries_own (List.mem_reverse.mp (mem_of_lookup found))
  exact ⟨event, isEvent, captured⟩

theorem sumU64_of_single {mode : OverflowMode} {changes : List DiffFileChange}
    (single : changes.length ≤ 1) (read : DiffFileChange → Option UInt64) :
    sumU64 mode (changes.filterMap read) = .ok ((changes.head?.bind read).getD 0) := by
  match changes, single with
  | [], _ => rfl
  | [change], _ =>
      cases found : read change with
      | none =>
          rw [List.filterMap_cons_none found]
          simp only [List.head?_cons, Option.bind_some, found, Option.getD_none]
          rfl
      | some value =>
          have small : value.toNat < UInt64.size := value.toNat_lt_size
          cases mode <;> simp [sumU64, found, small]
  | _ :: _ :: _, single => simp at single

theorem head_fits_iff {changes : List DiffFileChange} (single : changes.length ≤ 1)
    (read : DiffFileChange → Option UInt64) :
    ((changes.head?.bind read).getD 0).toNat < 2 ^ 63 ↔
      ∀ change ∈ changes, ((read change).getD 0).toNat < 2 ^ 63 := by
  match changes, single with
  | [], _ => simp
  | [change], _ => simp
  | _ :: _ :: _, single => simp at single

/-- The line counts of every changed file fit the integer columns of the cache. -/
def CountsFit (changes : List DiffFileChange) : Prop :=
  ∀ change ∈ changes, (change.additions.getD 0).toNat < 2 ^ 63 ∧
    (change.deletions.getD 0).toNat < 2 ^ 63

/-- What a capture of at most one file puts into the index, and when it fits. -/
theorem indexedCapture_of_single (mode : OverflowMode) {event : TraceEvent}
    {artifactId : ArtifactId} {payload : DiffCapturedPayload}
    (captured : event.capturedDiff = some (artifactId, payload))
    (single : payload.fileChanges.length ≤ 1) :
    ∃ diff, event.indexedCapture mode = some diff ∧ diff.diffId = event.eventId.text ∧
      diff.fileChanges.length ≤ 1 ∧ (DiffFits diff ↔ CountsFit payload.fileChanges) := by
  refine ⟨indexedDiff event artifactId payload
    ((payload.fileChanges.head?.bind DiffFileChange.additions).getD 0)
    ((payload.fileChanges.head?.bind DiffFileChange.deletions).getD 0), ?_, rfl, ?_, ?_⟩
  · simp [TraceEvent.indexedCapture, captured, sumU64_of_single single, Except.toOption]
  · simpa [indexedDiff] using single
  · have files : payload.fileChanges.length < 2 ^ 63 := Nat.lt_of_le_of_lt single (by decide)
    have binary : payload.fileChanges.countP (fun change =>
        change.additions.isNone || change.deletions.isNone) < 2 ^ 63 :=
      Nat.lt_of_le_of_lt List.countP_le_length files
    have additions := head_fits_iff single DiffFileChange.additions
    have deletions := head_fits_iff single DiffFileChange.deletions
    constructor
    · rintro ⟨-, added, deleted, -⟩ change member
      exact ⟨additions.mp added change member, deletions.mp deleted change member⟩
    · intro fit
      exact ⟨files, additions.mpr fun change member => (fit change member).1,
        deletions.mpr fun change member => (fit change member).2, binary⟩

/-! ## When the rebuild succeeds -/

/-- A readable cache either has no schema version or one that parses. -/
def SchemaReadable (cache : QueryCache) : Prop :=
  cache.hasTables = true → ∀ value, metadataValue cache "schema_version" = some value →
    (Numerals.parseUnsigned UInt16.size value).isSome

theorem schemaReadable_iff (cache : QueryCache) :
    SchemaReadable cache ↔ ∃ prepared, prepareSchemaForRebuild cache = .ok prepared := by
  unfold SchemaReadable prepareSchemaForRebuild
  by_cases tables : cache.hasTables = true
  · rw [if_pos tables]
    cases metadataValue cache "schema_version" with
    | none => simp
    | some value =>
        cases parsed : Numerals.parseUnsigned UInt16.size value with
        | none => simp [tables, parsed]
        | some version =>
            simp only [tables, Option.some.injEq, forall_eq', parsed, Option.isSome_some,
              implies_true, true_iff]
            split
            · exact ⟨_, rfl⟩
            · exact ⟨_, rfl⟩
  · rw [if_neg tables]
    simp [tables]

/-- What the rebuild needs of the cache it finds and of the events. -/
structure Rebuildable (cache : QueryCache) (events : List TraceEvent) : Prop where
  schema : SchemaReadable cache
  fileRefs : (events.flatMap TraceEvent.fileRefIds).Nodup
  /-- The last upload of every attachment fits an integer column. -/
  attachments : ∀ id attachment,
    (entries IndexedAttachment.attachmentId TraceEvent.uploadedAttachment events).reverse.lookup id =
      some attachment → attachment.sizeBytes.toNat < 2 ^ 63
  /-- The last upload of every session log fits an integer column. -/
  sessionLogs : ∀ id sessionLog,
    (entries IndexedSessionLog.logRefId TraceEvent.uploadedSessionLog events).reverse.lookup id =
      some sessionLog → sessionLog.sizeBytes.toNat < 2 ^ 63
  diffs : ∀ event ∈ events, ∀ artifactId payload,
    event.capturedDiff = some (artifactId, payload) → CountsFit payload.fileChanges

theorem forall_values_insertAll {A : Type} (pairs : List (String × A)) (property : A → Prop) :
    (∀ value ∈ values (insertAll ∅ pairs), property value) ↔
      ∀ id value, pairs.reverse.lookup id = some value → property value := by
  constructor
  · intro all id value found
    refine all value ((mem_values_iff _ value).mpr ⟨id, ?_⟩)
    rw [getElem?_insertAll, found, Option.some_or]
  · intro all value member
    obtain ⟨id, held⟩ := (mem_values_iff _ value).mp member
    rw [getElem?_insertAll] at held
    exact all id value (by simpa using held)

section Rebuild
variable {mode : OverflowMode} {now : DateTime} {events : List TraceEvent} {index : TraceIndex}

theorem single_of_built (built : TraceIndex.build mode now events = .ok index)
    (distinct : (events.flatMap TraceEvent.fileRefIds).Nodup) :
    ∀ diff ∈ values index.diffs, diff.fileChanges.length ≤ 1 := by
  intro diff member
  obtain ⟨event, isEvent, indexed⟩ := build_diff_captured built member
  cases captured : event.capturedDiff with
  | none => simp [TraceEvent.indexedCapture, captured] at indexed
  | some capture =>
      have single := single_of_fileRefIds distinct isEvent captured
      obtain ⟨_, same, -, short, -⟩ := indexedCapture_of_single mode captured single
      rw [indexed] at same
      cases same
      exact short

/-- Distinct references give every capture its own diff, so the counts of the
diffs fit exactly when those of the captures do. -/
theorem diffsFit_iff (built : TraceIndex.build mode now events = .ok index)
    (distinctEvents : (events.map TraceEvent.eventId).Nodup)
    (distinct : (events.flatMap TraceEvent.fileRefIds).Nodup) :
    (∀ diff ∈ values index.diffs, DiffFits diff) ↔
      ∀ event ∈ events, ∀ artifactId payload,
        event.capturedDiff = some (artifactId, payload) → CountsFit payload.fileChanges := by
  constructor
  · intro fit event isEvent artifactId payload captured
    have single := single_of_fileRefIds distinct isEvent captured
    obtain ⟨diff, indexed, own, -, fits⟩ := indexedCapture_of_single mode captured single
    refine fits.mp (fit diff ((mem_values_iff _ diff).mpr ⟨event.eventId.text, ?_⟩))
    have keys : ((entries IndexedDiff.diffId (TraceEvent.indexedCapture mode) events).map
        Prod.fst).Nodup := by
      have texts : (events.map fun event => event.eventId.text).Nodup := by
        have mapped := distinctEvents.map (f := Uuid.text) fun _ _ => Uuid.text_injective
        rwa [List.map_map] at mapped
      exact texts.sublist (entries_keys_sublist (fun _ _ => indexedCapture_diffId) events)
    have member : (event.eventId.text, diff) ∈
        (entries IndexedDiff.diffId (TraceEvent.indexedCapture mode) events).reverse := by
      refine List.mem_reverse.mpr (List.mem_filterMap.mpr ⟨event, isEvent, ?_⟩)
      simp [entryOf, indexed, own]
    have reversed : ((entries IndexedDiff.diffId (TraceEvent.indexedCapture mode)
        events).reverse.map Prod.fst).Nodup := by
      rw [List.map_reverse]
      exact List.nodup_reverse.mpr keys
    rw [build_diffs built, getElem?_insertAll, lookup_of_mem reversed member, Option.some_or]
  · intro fit diff member
    obtain ⟨event, isEvent, indexed⟩ := build_diff_captured built member
    cases captured : event.capturedDiff with
    | none => simp [TraceEvent.indexedCapture, captured] at indexed
    | some capture =>
        have single := single_of_fileRefIds distinct isEvent captured
        obtain ⟨_, same, -, -, fits⟩ := indexedCapture_of_single mode captured single
        rw [indexed] at same
        cases same
        exact fits.mpr (fit event isEvent _ _ captured)

theorem indexFits_iff (built : TraceIndex.build mode now events = .ok index)
    (distinctEvents : (events.map TraceEvent.eventId).Nodup)
    (distinct : (events.flatMap TraceEvent.fileRefIds).Nodup) {cache : QueryCache}
    (schema : SchemaReadable cache) : IndexFits index ↔ Rebuildable cache events := by
  have attachments := forall_values_insertAll
    (entries IndexedAttachment.attachmentId TraceEvent.uploadedAttachment events)
    fun attachment => attachment.sizeBytes.toNat < 2 ^ 63
  rw [← build_attachments built] at attachments
  have sessionLogs := forall_values_insertAll
    (entries IndexedSessionLog.logRefId TraceEvent.uploadedSessionLog events)
    fun sessionLog => sessionLog.sizeBytes.toNat < 2 ^ 63
  rw [← build_sessionLogs built] at sessionLogs
  have diffs := diffsFit_iff built distinctEvents distinct
  constructor
  · intro fits
    exact ⟨schema, distinct, attachments.mp fits.attachments, sessionLogs.mp fits.sessionLogs,
      diffs.mp fits.diffs⟩
  · intro rebuildable
    exact ⟨attachments.mpr rebuildable.attachments, diffs.mpr rebuildable.diffs,
      sessionLogs.mpr rebuildable.sessionLogs⟩

/-! ## The rows of the file references -/

def readFileRef : Row → Option FileRefRow
  | .fileRefs row => some row
  | _ => none

def QueryCache.fileRefRows (cache : QueryCache) : List FileRefRow :=
  cache.rows.filterMap readFileRef

/-- One row for every reference under the files of an index. -/
def indexFileRefRows (formats : TextFormats) (index : TraceIndex) : List FileRefRow :=
  (values index.files).flatMap fun file => file.fileRefs.map (fileRefRow formats file.path)

theorem readFileRef_of_rank {row : Row} (other : row.table.rank ≠ 9) : readFileRef row = none := by
  cases row with
  | fileRefs row => exact absurd rfl other
  | _ => rfl

theorem Segment.no_fileRefs {rank : Nat} {script : List (Statement Row)}
    (segment : Segment rank script) (other : rank ≠ 9) :
    (plainRows script).filterMap readFileRef = [] := by
  refine List.filterMap_eq_nil_iff.mpr fun row member => readFileRef_of_rank ?_
  rw [segment.ranked row member]
  exact other

theorem rebuildScript_fileRefs (formats : TextFormats) (written : DateTime)
    (distinctEvents : (events.map fun event => event.eventId.text).Nodup)
    (segments : IndexSegments formats index) :
    (plainRows (rebuildScript formats written events index)).filterMap readFileRef =
      indexFileRefRows formats index := by
  have files : (plainRows ((values index.files).flatMap (fileScript formats))).filterMap
      readFileRef = indexFileRefRows formats index := by
    rw [plainRows_flatMap, List.filterMap_flatMap, indexFileRefRows]
    refine List.flatMap_congr fun file _ => ?_
    rw [plainRows_fileScript, List.filterMap_cons_none rfl, List.filterMap_map,
      ← List.filterMap_eq_map]
    rfl
  simp only [rebuildScript, indexScript, plainRows_append, List.filterMap_append, files,
    (metadata_segment formats written events.length).no_fileRefs (by decide),
    (events_segment formats distinctEvents).no_fileRefs (by decide),
    segments.orgs.no_fileRefs (by decide), segments.projects.no_fileRefs (by decide),
    segments.missions.no_fileRefs (by decide), segments.sessions.no_fileRefs (by decide),
    segments.artifacts.no_fileRefs (by decide), segments.attachments.no_fileRefs (by decide),
    segments.diffs.no_fileRefs (by decide), segments.sessionLogs.no_fileRefs (by decide),
    segments.repoContexts.no_fileRefs (by decide), List.nil_append, List.append_nil]

/-- The rebuild of an index from its own events stores one row for every file
reference of the index exactly when the cache is readable, no two references of
the events share an identifier, and the counts fit. -/
theorem rebuild_stores_file_refs_iff (formats : TextFormats) (written : DateTime)
    (cache : QueryCache) (distinctEvents : (events.map TraceEvent.eventId).Nodup)
    (built : TraceIndex.build mode now events = .ok index) :
    (∃ after, rebuildSqliteIndex formats written cache events index = (.ok (), after) ∧
        after.fileRefRows = indexFileRefRows formats index) ↔ Rebuildable cache events := by
  have texts : (events.map fun event => event.eventId.text).Nodup := by
    have mapped := distinctEvents.map (f := Uuid.text) fun _ _ => Uuid.text_injective
    rwa [List.map_map] at mapped
  have confined := rebuildScript_confined formats written events index
  have succeeds := executeAll_ok_iff Row.key [] _ confined.keys_apart
  constructor
  · rintro ⟨after, done, -⟩
    obtain ⟨prepared, prepare, fits, ran, -⟩ := (rebuild_ok_iff formats written cache after events
      index).mp done
    have plain := (succeeds.mp ⟨after.rows, ran⟩).1
    have refs := (build_fileRefIds built).nodup_iff.mp (fileRefIds_nodup_of_plainKeys formats plain)
    have schema := (schemaReadable_iff cache).mpr ⟨prepared, prepare⟩
    exact (indexFits_iff built distinctEvents refs schema).mp fits
  · intro rebuildable
    obtain ⟨prepared, prepare⟩ := (schemaReadable_iff cache).mp rebuildable.schema
    have keyed := build_keyed built
    have segments := index_segments formats keyed (single_of_built built rebuildable.fileRefs)
    have refs := (build_fileRefIds built).nodup_iff.mpr rebuildable.fileRefs
    have plain := plainKeys_nodup formats written events keyed segments texts refs
    obtain ⟨rows, ran⟩ := succeeds.mpr ⟨plain, by simp⟩
    have fits := (indexFits_iff built distinctEvents rebuildable.fileRefs rebuildable.schema).mpr
      rebuildable
    refine ⟨⟨prepared.hasTables, rows⟩, ?_, ?_⟩
    · exact (rebuild_ok_iff formats written cache _ events index).mpr
        ⟨prepared, prepare, fits, ran, rfl⟩
    · have stored := filterMap_of_executeAll Row.key readFileRef [] rows _ ran
        fun row member => readFileRef_of_rank (by rw [confined.ignored row member]; decide)
      rw [rebuildScript_fileRefs formats written texts segments] at stored
      exact stored

end Rebuild

/-! ## A diff of one file and a diff of two -/

def freshCache : QueryCache := ⟨false, []⟩

def plainFormats : TextFormats := ⟨fun _ => "2026-01-01T00:00:00+00:00", fun _ => "null"⟩

/-- A captured diff of some modified files. -/
def diffOf (paths : List String) : TraceEvent where
  eventId := ⟨1⟩
  eventType := .diffCaptured
  schemaVersion := 1
  payloadSchemaVersion := 1
  occurredAt := ⟨0⟩
  recordedAt := ⟨0⟩
  actor := ⟨.agent, "agent-1", none⟩
  repoId := none
  orgId := none
  projectId := none
  missionId := none
  sessionId := none
  artifactId := some ⟨"artifact_1"⟩
  repoContextId := none
  confidence := .explicit
  payload := .object [("diff_target", .string "working"), ("summary_hash", .string "abc123"),
    ("file_changes", .array (paths.map fun path =>
      .object [("path", .string path), ("change_kind", .string "modified")]))]

theorem rebuild_of_one_file_diff :
    ∃ index, TraceIndex.build .checked ⟨0⟩ [diffOf ["src/lib.rs"]] = .ok index ∧
      ((∃ after, rebuildSqliteIndex plainFormats ⟨0⟩ freshCache [diffOf ["src/lib.rs"]] index =
          (.ok (), after) ∧ after.fileRefRows = indexFileRefRows plainFormats index) ↔
        Rebuildable freshCache [diffOf ["src/lib.rs"]]) := by
  have builds : ∃ index, TraceIndex.build .checked ⟨0⟩ [diffOf ["src/lib.rs"]] = .ok index :=
    ⟨_, rfl⟩
  obtain ⟨index, built⟩ := builds
  exact ⟨index, built, rebuild_stores_file_refs_iff plainFormats ⟨0⟩ freshCache (by decide) built⟩

/-- The second file of a diff repeats the first one's reference id. -/
theorem rebuild_of_two_file_diff_fails :
    ¬ ∀ (formats : TextFormats) (written now : DateTime) (cache : QueryCache)
        (mode : OverflowMode) (events : List TraceEvent) (index : TraceIndex),
      (events.map TraceEvent.eventId).Nodup → TraceIndex.build mode now events = .ok index →
      ∃ after, rebuildSqliteIndex formats written cache events index = (.ok (), after) ∧
        after.fileRefRows = indexFileRefRows formats index := by
  intro claim
  have built : ∃ index, TraceIndex.build .checked ⟨0⟩ [diffOf ["src/lib.rs", "src/main.rs"]] =
      .ok index ∧ (rebuildSqliteIndex plainFormats ⟨0⟩ freshCache
        [diffOf ["src/lib.rs", "src/main.rs"]] index).1 = .error (.constraint .fileRefs) :=
    ⟨_, rfl, rfl⟩
  obtain ⟨index, built, failed⟩ := built
  obtain ⟨after, done, -⟩ := claim plainFormats ⟨0⟩ ⟨0⟩ freshCache .checked _ index
    (by decide) built
  rw [done] at failed
  cases failed

end BrickTrace
