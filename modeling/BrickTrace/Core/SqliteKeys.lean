import BrickTrace.Core.SqliteScript
import BrickTrace.Core.IndexRecords
import BrickTrace.Lib.Distinct

/-!
# Primary keys of the rebuild

Which keys the plain inserts of a rebuild use.  The rows of one entity carry its
identifier in the first key column, and the tables are written one group after
the other; only the file references take their keys from the events themselves.
-/

set_option autoImplicit false

namespace BrickTrace

open KeyedRows OrderedMap

/-- The place of a table in the order in which the rebuild fills them; the two
tables that only ignoring inserts fill come first. -/
def Table.rank : Table → Nat
  | .artifactFiles | .artifactAttachments => 0
  | .metadata => 1
  | .events => 2
  | .orgs => 3
  | .projects => 4
  | .missions => 5
  | .sessions | .sessionMissions => 6
  | .artifacts | .artifactMissions | .artifactSessions => 7
  | .files => 8
  | .fileRefs => 9
  | .attachments => 10
  | .diffs | .diffFiles => 11
  | .sessionLogs => 12
  | .repoContexts => 13

abbrev RowKey := Table × List String

/-! ## Ignoring inserts and plain ones fill different tables -/

structure Confined (script : List (Statement Row)) : Prop where
  ignored : ∀ row ∈ ignoredRows script, row.table.rank = 0
  plain : ∀ row ∈ plainRows script, row.table.rank ≠ 0

theorem confined_insert (row : Row) (own : row.table.rank ≠ 0) : Confined [.insert row] where
  ignored := fun _ member => absurd member List.not_mem_nil
  plain := by
    intro other member
    obtain rfl := List.mem_singleton.mp member
    exact own

theorem confined_ignore (row : Row) (own : row.table.rank = 0) :
    Confined [.insertOrIgnore row] where
  ignored := by
    intro other member
    obtain rfl := List.mem_singleton.mp member
    exact own
  plain := fun _ member => absurd member List.not_mem_nil

theorem Confined.append {first second : List (Statement Row)} (earlier : Confined first)
    (later : Confined second) : Confined (first ++ second) where
  ignored := by
    intro row member
    rw [ignoredRows_append] at member
    exact (List.mem_append.mp member).elim (earlier.ignored row) (later.ignored row)
  plain := by
    intro row member
    rw [plainRows_append] at member
    exact (List.mem_append.mp member).elim (earlier.plain row) (later.plain row)

theorem Confined.flatMap {A : Type} (items : List A) {script : A → List (Statement Row)}
    (each : ∀ item, Confined (script item)) : Confined (items.flatMap script) where
  ignored := by
    intro row member
    rw [ignoredRows_flatMap] at member
    obtain ⟨item, -, inItem⟩ := List.mem_flatMap.mp member
    exact (each item).ignored row inItem
  plain := by
    intro row member
    rw [plainRows_flatMap] at member
    obtain ⟨item, -, inItem⟩ := List.mem_flatMap.mp member
    exact (each item).plain row inItem

theorem Confined.inserts {A : Type} (items : List A) {row : A → Row}
    (own : ∀ item, (row item).table.rank ≠ 0) :
    Confined (items.flatMap fun item => [.insert (row item)]) :=
  Confined.flatMap items fun item => confined_insert (row item) (own item)

theorem Confined.ignores {A : Type} (items : List A) {row : A → Row}
    (own : ∀ item, (row item).table.rank = 0) :
    Confined (items.flatMap fun item => [.insertOrIgnore (row item)]) :=
  Confined.flatMap items fun item => confined_ignore (row item) (own item)

section Scripts
variable (formats : TextFormats)

theorem sessionScript_confined (session : IndexedSession) :
    Confined (sessionScript formats session) := by
  refine (confined_insert _ ?_).append (Confined.inserts _ fun _ => ?_)
  all_goals exact Nat.succ_ne_zero _

theorem artifactScript_confined (artifact : IndexedArtifact) :
    Confined (artifactScript formats artifact) := by
  refine (confined_insert _ ?_).append ((Confined.inserts _ fun _ => ?_).append
    ((Confined.inserts _ fun _ => ?_).append ((Confined.ignores _ fun _ => rfl).append
      (Confined.ignores _ fun _ => rfl))))
  all_goals exact Nat.succ_ne_zero _

theorem fileScript_confined (file : IndexedFile) : Confined (fileScript formats file) := by
  refine (confined_insert _ ?_).append
    (Confined.flatMap _ fun _ => (confined_insert _ ?_).append (confined_ignore _ rfl))
  all_goals exact Nat.succ_ne_zero _

theorem attachmentScript_confined (attachment : IndexedAttachment) :
    Confined (attachmentScript formats attachment) := by
  refine (confined_insert _ ?_).append (confined_ignore _ rfl)
  exact Nat.succ_ne_zero _

theorem diffScript_confined (diff : IndexedDiff) : Confined (diffScript formats diff) := by
  refine (confined_insert _ ?_).append (Confined.inserts _ fun _ => ?_)
  all_goals exact Nat.succ_ne_zero _

theorem metadataScript_confined (now : DateTime) (eventCount : Nat) :
    Confined (metadataScript formats now eventCount) := by
  refine (confined_insert _ ?_).append ((confined_insert _ ?_).append (confined_insert _ ?_))
  all_goals exact Nat.succ_ne_zero _

theorem rebuildScript_confined (now : DateTime) (events : List TraceEvent) (index : TraceIndex) :
    Confined (rebuildScript formats now events index) := by
  refine (metadataScript_confined formats now events.length).append
    ((Confined.inserts _ fun _ => ?_).append
    ((Confined.inserts _ fun _ => ?_).append
    ((Confined.inserts _ fun _ => ?_).append
    ((Confined.inserts _ fun _ => ?_).append
    ((Confined.flatMap _ (sessionScript_confined formats)).append
    ((Confined.flatMap _ (artifactScript_confined formats)).append
    ((Confined.flatMap _ (fileScript_confined formats)).append
    ((Confined.flatMap _ (attachmentScript_confined formats)).append
    ((Confined.flatMap _ (diffScript_confined formats)).append
    ((Confined.inserts _ fun _ => ?_).append (Confined.inserts _ fun _ => ?_)))))))))))
  all_goals exact Nat.succ_ne_zero _

end Scripts

/-! ## The keys of one group of tables -/

/-- The plain inserts of a script fill tables of one rank, without repeating a key. -/
structure Segment (rank : Nat) (script : List (Statement Row)) : Prop where
  nodup : (plainKeys Row.key script).Nodup
  ranked : ∀ row ∈ plainRows script, row.table.rank = rank

theorem mem_plainKeys {script : List (Statement Row)} {k : RowKey}
    (member : k ∈ plainKeys Row.key script) :
    ∃ row ∈ plainRows script, row.table = k.1 ∧ row.primaryKey = some k.2 := by
  obtain ⟨row, isRow, keyed⟩ := List.mem_filterMap.mp member
  obtain ⟨columns, primary, rfl⟩ := Option.map_eq_some_iff.mp keyed
  exact ⟨row, isRow, rfl, primary⟩

theorem mem_ignoredKeys {script : List (Statement Row)} {k : RowKey}
    (member : k ∈ ignoredKeys Row.key script) : ∃ row ∈ ignoredRows script, row.table = k.1 := by
  obtain ⟨row, isRow, keyed⟩ := List.mem_filterMap.mp member
  obtain ⟨columns, -, rfl⟩ := Option.map_eq_some_iff.mp keyed
  exact ⟨row, isRow, rfl⟩

/-- No key of an ignoring insert is a key of a plain one. -/
theorem Confined.keys_apart {script : List (Statement Row)} (confined : Confined script) :
    ∀ k ∈ ignoredKeys Row.key script, k ∉ plainKeys Row.key script := by
  intro k isIgnored isPlain
  obtain ⟨ignored, inIgnored, ignoredTable⟩ := mem_ignoredKeys isIgnored
  obtain ⟨plain, inPlain, plainTable, -⟩ := mem_plainKeys isPlain
  have low := confined.ignored ignored inIgnored
  rw [ignoredTable, ← plainTable] at low
  exact confined.plain plain inPlain low

theorem Segment.keys_ranked {rank : Nat} {script : List (Statement Row)}
    (segment : Segment rank script) : ∀ k ∈ plainKeys Row.key script, k.1.rank = rank := by
  intro k member
  obtain ⟨row, isRow, table, -⟩ := mem_plainKeys member
  rw [← table]
  exact segment.ranked row isRow

/-- Records under distinct identifiers, each writing rows that lead with its own. -/
theorem segment_of_records {A : Type} {idOf : A → String} {records : List A}
    {script : A → List (Statement Row)} {rank : Nat} (ids : (records.map idOf).Nodup)
    (ranked : ∀ record ∈ records, ∀ row ∈ plainRows (script record), row.table.rank = rank)
    (owned : ∀ record ∈ records, ∀ row ∈ plainRows (script record), ∀ columns,
      row.primaryKey = some columns → columns.head? = some (idOf record))
    (each : ∀ record ∈ records, (plainKeys Row.key (script record)).Nodup) :
    Segment rank (records.flatMap script) where
  nodup := by
    rw [plainKeys_flatMap]
    refine Distinct.nodup_flatMap_of_owner (fun k : RowKey => k.2.head?)
      (fun record => some (idOf record)) ?_ ?_ each
    · have distinct := ids.map (f := some) fun _ _ same => Option.some.inj same
      rwa [List.map_map] at distinct
    · intro record isRecord k member
      obtain ⟨row, isRow, -, primary⟩ := mem_plainKeys member
      exact owned record isRecord row isRow k.2 primary
  ranked := by
    intro row member
    rw [plainRows_flatMap] at member
    obtain ⟨record, isRecord, inRecord⟩ := List.mem_flatMap.mp member
    exact ranked record isRecord row inRecord

/-- The case of one row for each record, keyed by the record's identifier alone. -/
theorem segment_of_rows {A : Type} {idOf : A → String} {records : List A} {row : A → Row}
    {rank : Nat} (ids : (records.map idOf).Nodup) (ranked : ∀ record, (row record).table.rank = rank)
    (keyed : ∀ record, (row record).primaryKey = some [idOf record]) :
    Segment rank (records.flatMap fun record => [.insert (row record)]) := by
  refine segment_of_records ids ?_ ?_ ?_
  · intro record _ other member
    obtain rfl := List.mem_singleton.mp member
    exact ranked record
  · intro record _ other member columns primary
    obtain rfl := List.mem_singleton.mp member
    rw [keyed] at primary
    cases primary
    rfl
  · intro record _
    have one : plainKeys Row.key [.insert (row record)] = [((row record).table, [idOf record])] := by
      simp [plainKeys, plainRows, Row.key, keyed]
    rw [one]
    exact List.nodup_singleton _

/-! ## The groups of the rebuild -/

theorem nodup_edgeKeys (table : Table) (id : String) (set : KeySet String) :
    (set.toList.map fun other => ((table, [id, other]) : RowKey)).Nodup := by
  refine (nodup_toList_set set).map ?_
  intro left right same
  simpa using same

theorem filterMap_key_map {A : Type} (items : List A) {row : A → Row} {keyOf : A → RowKey}
    (keyed : ∀ item, (row item).key = some (keyOf item)) :
    (items.map row).filterMap Row.key = items.map keyOf := by
  rw [List.filterMap_map, ← List.filterMap_eq_map]
  exact List.filterMap_congr fun item _ => keyed item

section Segments
variable (formats : TextFormats)

theorem metadata_segment (now : DateTime) (eventCount : Nat) :
    Segment 1 (metadataScript formats now eventCount) where
  nodup := by
    have keys : plainKeys Row.key (metadataScript formats now eventCount) =
        [(.metadata, ["schema_version"]), (.metadata, ["rebuilt_at"]),
          (.metadata, ["event_count"])] := rfl
    rw [keys]
    decide
  ranked := by
    intro row member
    simp only [metadataScript, plainRows, List.filterMap_cons, List.filterMap_nil,
      List.mem_cons, List.not_mem_nil, or_false] at member
    rcases member with rfl | rfl | rfl <;> rfl

theorem plainRows_sessionScript (session : IndexedSession) :
    plainRows (sessionScript formats session) =
      .sessions (sessionRow formats session) :: session.missionIds.toList.map fun missionId =>
        .sessionMissions ⟨session.sessionId, missionId⟩ := by
  rw [sessionScript, plainRows_append, plainRows_inserts]
  rfl

theorem sessions_segment {sessions : List IndexedSession}
    (ids : (sessions.map IndexedSession.sessionId).Nodup) :
    Segment 6 (sessions.flatMap (sessionScript formats)) := by
  refine segment_of_records ids ?_ ?_ ?_
  · intro session _ row member
    rw [plainRows_sessionScript] at member
    rcases List.mem_cons.mp member with rfl | member
    · rfl
    · obtain ⟨missionId, -, rfl⟩ := List.mem_map.mp member
      rfl
  · intro session _ row member columns primary
    rw [plainRows_sessionScript] at member
    rcases List.mem_cons.mp member with rfl | member
    · cases primary
      rfl
    · obtain ⟨missionId, -, rfl⟩ := List.mem_map.mp member
      cases primary
      rfl
  · intro session _
    have keys : plainKeys Row.key (sessionScript formats session) =
        (.sessions, [session.sessionId]) :: session.missionIds.toList.map fun missionId =>
          (.sessionMissions, [session.sessionId, missionId]) := by
      rw [plainKeys, plainRows_sessionScript]
      exact congrArg (List.cons _) (filterMap_key_map _ fun _ => rfl)
    rw [keys, List.nodup_cons]
    refine ⟨?_, nodup_edgeKeys _ _ _⟩
    intro again
    obtain ⟨missionId, -, same⟩ := List.mem_map.mp again
    cases same

theorem plainRows_artifactScript (artifact : IndexedArtifact) :
    plainRows (artifactScript formats artifact) =
      .artifacts (artifactRow formats artifact) ::
        ((artifact.missionIds.toList.map fun missionId =>
          .artifactMissions ⟨artifact.artifactId, missionId⟩) ++
        artifact.sessionIds.toList.map fun sessionId =>
          .artifactSessions ⟨artifact.artifactId, sessionId⟩) := by
  rw [artifactScript, plainRows_append, plainRows_append, plainRows_append, plainRows_append,
    plainRows_inserts, plainRows_inserts, plainRows_ignores, plainRows_ignores]
  simp [plainRows]

theorem artifacts_segment {artifacts : List IndexedArtifact}
    (ids : (artifacts.map IndexedArtifact.artifactId).Nodup) :
    Segment 7 (artifacts.flatMap (artifactScript formats)) := by
  refine segment_of_records ids ?_ ?_ ?_
  · intro artifact _ row member
    rw [plainRows_artifactScript] at member
    rcases List.mem_cons.mp member with rfl | member
    · rfl
    · rcases List.mem_append.mp member with member | member
      · obtain ⟨missionId, -, rfl⟩ := List.mem_map.mp member
        rfl
      · obtain ⟨sessionId, -, rfl⟩ := List.mem_map.mp member
        rfl
  · intro artifact _ row member columns primary
    rw [plainRows_artifactScript] at member
    rcases List.mem_cons.mp member with rfl | member
    · cases primary
      rfl
    · rcases List.mem_append.mp member with member | member
      · obtain ⟨missionId, -, rfl⟩ := List.mem_map.mp member
        cases primary
        rfl
      · obtain ⟨sessionId, -, rfl⟩ := List.mem_map.mp member
        cases primary
        rfl
  · intro artifact _
    have keys : plainKeys Row.key (artifactScript formats artifact) =
        (.artifacts, [artifact.artifactId]) ::
          ((artifact.missionIds.toList.map fun missionId =>
            (.artifactMissions, [artifact.artifactId, missionId])) ++
          artifact.sessionIds.toList.map fun sessionId =>
            (.artifactSessions, [artifact.artifactId, sessionId])) := by
      rw [plainKeys, plainRows_artifactScript]
      refine congrArg (List.cons _) ?_
      rw [List.filterMap_append]
      exact congrArg₂ (· ++ ·) (filterMap_key_map _ fun _ => rfl) (filterMap_key_map _ fun _ => rfl)
    rw [keys, List.nodup_cons, List.nodup_append]
    refine ⟨?_, nodup_edgeKeys _ _ _, nodup_edgeKeys _ _ _, ?_⟩
    · intro again
      rcases List.mem_append.mp again with again | again
      · obtain ⟨missionId, -, same⟩ := List.mem_map.mp again
        cases same
      · obtain ⟨sessionId, -, same⟩ := List.mem_map.mp again
        cases same
    · intro left inMissions right inSessions same
      obtain ⟨missionId, -, rfl⟩ := List.mem_map.mp inMissions
      obtain ⟨sessionId, -, rfl⟩ := List.mem_map.mp inSessions
      cases same

theorem attachments_segment {attachments : List IndexedAttachment}
    (ids : (attachments.map IndexedAttachment.attachmentId).Nodup) :
    Segment 10 (attachments.flatMap (attachmentScript formats)) := by
  have plain : ∀ attachment, plainRows (attachmentScript formats attachment) =
      [.attachments (attachmentRow formats attachment
        (Int64.ofNat attachment.sizeBytes.toNat))] := fun _ => rfl
  refine segment_of_records ids ?_ ?_ ?_
  · intro attachment _ row member
    rw [plain, List.mem_singleton] at member
    subst member
    rfl
  · intro attachment _ row member columns primary
    rw [plain, List.mem_singleton] at member
    subst member
    cases primary
    rfl
  · intro attachment _
    have keys : plainKeys Row.key (attachmentScript formats attachment) =
        [(.attachments, [attachment.attachmentId])] := rfl
    rw [keys]
    exact List.nodup_singleton _

theorem plainRows_diffScript (diff : IndexedDiff) :
    plainRows (diffScript formats diff) =
      .diffs (diffRow formats diff (Int64.ofNat diff.fileCount)
        (Int64.ofNat diff.additions.toNat) (Int64.ofNat diff.deletions.toNat)
        (Int64.ofNat diff.binaryFileCount)) ::
      diff.fileChanges.map fun change => .diffFiles (diffFileRow diff.diffId change) := by
  rw [diffScript, plainRows_append, plainRows_inserts]
  rfl

/-- Diffs of at most one file write no key twice. -/
theorem diffs_segment {diffs : List IndexedDiff} (ids : (diffs.map IndexedDiff.diffId).Nodup)
    (single : ∀ diff ∈ diffs, diff.fileChanges.length ≤ 1) :
    Segment 11 (diffs.flatMap (diffScript formats)) := by
  refine segment_of_records ids ?_ ?_ ?_
  · intro diff _ row member
    rw [plainRows_diffScript] at member
    rcases List.mem_cons.mp member with rfl | member
    · rfl
    · obtain ⟨change, -, rfl⟩ := List.mem_map.mp member
      rfl
  · intro diff _ row member columns primary
    rw [plainRows_diffScript] at member
    rcases List.mem_cons.mp member with rfl | member
    · cases primary
      rfl
    · obtain ⟨change, -, rfl⟩ := List.mem_map.mp member
      obtain ⟨oldPath, -, rfl⟩ := Option.map_eq_some_iff.mp primary
      rfl
  · intro diff isDiff
    rw [plainKeys, plainRows_diffScript]
    cases changes : diff.fileChanges with
    | nil => simp [Row.key, Row.primaryKey]
    | cons change rest =>
        have short := single diff isDiff
        rw [changes] at short
        have none : rest = [] := List.eq_nil_of_length_eq_zero (by simpa using short)
        subst none
        cases old : change.oldPath with
        | none => simp [List.filterMap_cons, Row.key, Row.primaryKey, diffFileRow, old]
        | some oldPath => simp [Row.key, Row.primaryKey, Row.table, diffFileRow, old]

theorem plainRows_fileScript (file : IndexedFile) :
    plainRows (fileScript formats file) =
      .files ⟨file.path⟩ :: file.fileRefs.map fun fileRef =>
        .fileRefs (fileRefRow formats file.path fileRef) := by
  rw [fileScript, plainRows_append, plainRows_flatMap, List.map_eq_flatMap]
  rfl

/-- The identifiers of all file references of some files. -/
def fileRefIds (files : List IndexedFile) : List String :=
  files.flatMap fun file => file.fileRefs.map IndexedFileRef.fileRefId

theorem files_keys_perm (files : List IndexedFile) :
    (plainKeys Row.key (files.flatMap (fileScript formats))).Perm
      ((files.map fun file => (.files, [file.path])) ++
        (fileRefIds files).map fun id => (.fileRefs, [id])) := by
  have keys : ∀ file, plainKeys Row.key (fileScript formats file) =
      [(.files, [file.path])] ++ file.fileRefs.map fun fileRef =>
        (.fileRefs, [fileRef.fileRefId]) := by
    intro file
    rw [plainKeys, plainRows_fileScript]
    exact congrArg (List.cons _) (filterMap_key_map _ fun _ => rfl)
  rw [plainKeys_flatMap, funext keys]
  refine (List.flatMap_append_perm files _ _).symm.trans ?_
  rw [List.map_eq_flatMap, fileRefIds, List.map_flatMap]
  simp only [List.map_map]
  exact List.Perm.refl _

theorem nodup_singletonKeys (table : Table) {ids : List String} (distinct : ids.Nodup) :
    (ids.map fun id => ((table, [id]) : RowKey)).Nodup := by
  refine distinct.map ?_
  intro left right same
  simpa using same

theorem Segment.under {rank : Nat} {script : List (Statement Row)} {keys : List RowKey}
    (segment : Segment rank script)
    (above : Distinct.Stacked (fun k : RowKey => k.1.rank) (rank + 1) keys) :
    Distinct.Stacked (fun k : RowKey => k.1.rank) rank (plainKeys Row.key script ++ keys) :=
  above.under segment.nodup segment.keys_ranked

/-- Every record of the index is held under its own identifier. -/
structure TraceIndex.Keyed (index : TraceIndex) : Prop where
  entities : index.EntitiesKeyed
  attachments : OrderedMap.Keyed IndexedAttachment.attachmentId index.attachments
  diffs : OrderedMap.Keyed IndexedDiff.diffId index.diffs
  sessionLogs : OrderedMap.Keyed IndexedSessionLog.logRefId index.sessionLogs
  files : OrderedMap.Keyed IndexedFile.path index.files
  repoContexts : OrderedMap.Keyed IndexedRepoContext.repoContextId index.repoContexts

/-- The groups of an index whose records are keyed and whose diffs have at most
one file each; the files are left out, their references come from the events. -/
structure IndexSegments (index : TraceIndex) : Prop where
  orgs : Segment 3 ((values index.orgs).flatMap (orgScript formats))
  projects : Segment 4 ((values index.projects).flatMap (projectScript formats))
  missions : Segment 5 ((values index.missions).flatMap (missionScript formats))
  sessions : Segment 6 ((values index.sessions).flatMap (sessionScript formats))
  artifacts : Segment 7 ((values index.artifacts).flatMap (artifactScript formats))
  attachments : Segment 10 ((values index.attachments).flatMap (attachmentScript formats))
  diffs : Segment 11 ((values index.diffs).flatMap (diffScript formats))
  sessionLogs : Segment 12 ((values index.sessionLogs).flatMap (sessionLogScript formats))
  repoContexts : Segment 13 ((values index.repoContexts).flatMap (repoContextScript formats))

theorem index_segments {index : TraceIndex} (keyed : index.Keyed)
    (single : ∀ diff ∈ values index.diffs, diff.fileChanges.length ≤ 1) :
    IndexSegments formats index where
  orgs := segment_of_rows (nodup_ids_of_keyed _ keyed.entities.orgs) (fun _ => rfl) fun _ => rfl
  projects :=
    segment_of_rows (nodup_ids_of_keyed _ keyed.entities.projects) (fun _ => rfl) fun _ => rfl
  missions :=
    segment_of_rows (nodup_ids_of_keyed _ keyed.entities.missions) (fun _ => rfl) fun _ => rfl
  sessions := sessions_segment formats (nodup_ids_of_keyed _ keyed.entities.sessions)
  artifacts := artifacts_segment formats (nodup_ids_of_keyed _ keyed.entities.artifacts)
  attachments := attachments_segment formats (nodup_ids_of_keyed _ keyed.attachments)
  diffs := diffs_segment formats (nodup_ids_of_keyed _ keyed.diffs) single
  sessionLogs :=
    segment_of_rows (nodup_ids_of_keyed _ keyed.sessionLogs) (fun _ => rfl) fun _ => rfl
  repoContexts :=
    segment_of_rows (nodup_ids_of_keyed _ keyed.repoContexts) (fun _ => rfl) fun _ => rfl

theorem events_segment {events : List TraceEvent}
    (distinct : (events.map fun event => event.eventId.text).Nodup) :
    Segment 2 (events.flatMap (eventScript formats)) :=
  segment_of_rows distinct (fun _ => rfl) fun _ => rfl

/-- The plain inserts of a rebuild repeat no key when the file references are distinct. -/
theorem plainKeys_nodup (now : DateTime) (events : List TraceEvent) {index : TraceIndex}
    (keyed : index.Keyed) (segments : IndexSegments formats index)
    (distinctEvents : (events.map fun event => event.eventId.text).Nodup)
    (distinctRefs : (fileRefIds (values index.files)).Nodup) :
    (plainKeys Row.key (rebuildScript formats now events index)).Nodup := by
  have last := segments.repoContexts.under (Distinct.Stacked.nil 14)
  rw [List.append_nil] at last
  have tail := segments.attachments.under (segments.diffs.under (segments.sessionLogs.under last))
  -- the files write two tables by turns
  have paths := nodup_singletonKeys .files (nodup_ids_of_keyed _ keyed.files)
  rw [List.map_map] at paths
  have refs := nodup_singletonKeys .fileRefs distinctRefs
  have withRefs := tail.under refs fun k member => by
    obtain ⟨id, -, rfl⟩ := List.mem_map.mp member
    rfl
  have withPaths := withRefs.under paths fun k member => by
    obtain ⟨file, -, rfl⟩ := List.mem_map.mp member
    rfl
  rw [← List.append_assoc] at withPaths
  have files := withPaths.perm ((files_keys_perm formats (values index.files)).symm.append_right _)
  have metadata := metadata_segment formats now events.length
  have whole := metadata.under ((events_segment formats distinctEvents).under
    (segments.orgs.under (segments.projects.under (segments.missions.under
      (segments.sessions.under (segments.artifacts.under files))))))
  simpa only [rebuildScript, indexScript, plainKeys_append] using whole.nodup

/-- Conversely, the file references must be distinct. -/
theorem fileRefIds_nodup_of_plainKeys {now : DateTime} {events : List TraceEvent}
    {index : TraceIndex} (distinct : (plainKeys Row.key (rebuildScript formats now events index)).Nodup) :
    (fileRefIds (values index.files)).Nodup := by
  simp only [rebuildScript, indexScript, plainKeys_append] at distinct
  have files : (plainKeys Row.key ((values index.files).flatMap (fileScript formats))).Nodup := by
    refine distinct.sublist ?_
    refine List.Sublist.trans ?_ (List.sublist_append_right _ _)
    refine List.Sublist.trans ?_ (List.sublist_append_right _ _)
    refine List.Sublist.trans ?_ (List.sublist_append_right _ _)
    refine List.Sublist.trans ?_ (List.sublist_append_right _ _)
    refine List.Sublist.trans ?_ (List.sublist_append_right _ _)
    refine List.Sublist.trans ?_ (List.sublist_append_right _ _)
    refine List.Sublist.trans ?_ (List.sublist_append_right _ _)
    exact List.sublist_append_left _ _
  have both := (files_keys_perm formats (values index.files)).nodup_iff.mp files
  exact (List.nodup_append.mp both).2.1.of_map

/-- And so must the events. -/
theorem eventIds_nodup_of_plainKeys {now : DateTime} {events : List TraceEvent}
    {index : TraceIndex} (distinct : (plainKeys Row.key (rebuildScript formats now events index)).Nodup) :
    (events.map fun event => event.eventId.text).Nodup := by
  simp only [rebuildScript, plainKeys_append] at distinct
  have keys : plainKeys Row.key (events.flatMap (eventScript formats)) =
      events.map fun event => (.events, [event.eventId.text]) := by
    have rows : plainRows (events.flatMap (eventScript formats)) =
        events.map fun event => .events (eventRow formats event) := plainRows_inserts events _
    rw [plainKeys, rows]
    exact filterMap_key_map _ fun _ => rfl
  have own := (List.nodup_append.mp (List.nodup_append.mp distinct).2.1).1
  rw [keys] at own
  refine List.Nodup.of_map (fun id : String => ((.events, [id]) : RowKey)) ?_
  rw [List.map_map]
  exact own

end Segments

end BrickTrace
