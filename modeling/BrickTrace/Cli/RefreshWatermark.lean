import BrickTrace.Lib.HighWater
import BrickTrace.Cli.RefreshRuns

/-!
# The watermark of a source

A refresh of a source that completes marks how far its sessions were updated, by the times
written in them, and the next one lists the source from there.  The mark is the latest time
of the sessions that were listed, and takes the place of the stored one, so it can sink
when all the sessions listed are older.
-/

set_option autoImplicit false

namespace BrickTrace

open KeyedRows (KeyedTable)

/-! ## What leaves the watermarks alone -/

section Watermarks
variable {env : RefreshEnv} {db written : MetadataDb} {session : SourceSessionUpsert}

theorem MetadataDb.watermarks_of_upsertChunks {sourceId externalSessionId : String}
    {chunks : List ActivityChunk}
    (done : db.upsertSourceSessionChunks sourceId externalSessionId chunks = some written) :
    written.watermarks = db.watermarks := by
  obtain ⟨rows, _, rfl⟩ := MetadataDb.upsertSourceSessionChunks_ok done
  rfl

theorem MetadataDb.watermarks_of_upsert {now : DateTime}
    (done : db.upsertSourceSession now session = some written) :
    written.watermarks = db.watermarks := by
  unfold MetadataDb.upsertSourceSession at done
  split at done
  · cases done
    rfl
  · cases done

theorem watermarks_of_backfill (env : RefreshEnv) (db : MetadataDb) (session : SourceSessionUpsert) :
    (sourceSessionChunksOrBackfill env db session).2.watermarks = db.watermarks := by
  unfold sourceSessionChunksOrBackfill
  dsimp only
  split
  · cases formatted : env.formatSourceSessionChunks session.sourceId session.externalSessionId
        session.sourcePath with
    | none => rfl
    | some chunks =>
        dsimp only
        split
        · rfl
        · cases done : db.upsertSourceSessionChunks session.sourceId session.externalSessionId
              chunks with
          | none => rfl
          | some written => exact MetadataDb.watermarks_of_upsertChunks done
  · rfl

theorem watermarks_of_reindex (env : RefreshEnv) (db : MetadataDb) (session : SourceSessionUpsert) :
    (reindexSourceSession env db session).2.watermarks = db.watermarks := by
  unfold reindexSourceSession
  cases upserted : db.upsertSourceSession env.now session with
  | none => rfl
  | some indexed =>
      have kept := MetadataDb.watermarks_of_upsert upserted
      dsimp only
      cases formatted : env.formatSourceSessionChunks session.sourceId session.externalSessionId
          session.sourcePath with
      | none => exact kept
      | some chunks =>
          dsimp only
          cases done : indexed.upsertSourceSessionChunks session.sourceId session.externalSessionId
              chunks with
          | none => exact kept
          | some written => exact (MetadataDb.watermarks_of_upsertChunks done).trans kept

theorem watermarks_of_index (env : RefreshEnv) (db : MetadataDb) (session : SourceSessionUpsert) :
    (indexSourceSession env db session).2.watermarks = db.watermarks := by
  unfold indexSourceSession
  split
  · exact watermarks_of_backfill env _ session
  · exact watermarks_of_reindex env db session

end Watermarks

section Turn
variable (rfc3339 : DateTime → String) (newV5 : String → Uuid) (env : RefreshEnv) (repoId : String)
  (profile : SourceProfile) (progress : ProfileRefresh) (session : NativeSourceSession)

/-- A turn does to the metadata database what indexing its session does. -/
theorem metadataDb_refreshSession :
    (refreshSession rfc3339 newV5 env repoId profile progress session).2.metadataDb =
      (indexSourceSession env progress.metadataDb (sourceSessionUpsert rfc3339 env profile
        session)).2 := by
  unfold refreshSession
  dsimp only
  cases indexing : indexSourceSession env progress.metadataDb
      (sourceSessionUpsert rfc3339 env profile session) with
  | mk result written =>
      cases result with
      | error failure => rfl
      | ok chunks =>
          dsimp only
          split
          · rfl
          · split <;> rfl

theorem maxUpdatedAt_refreshSession :
    (refreshSession rfc3339 newV5 env repoId profile progress session).2.maxUpdatedAt =
      (progress.scan rfc3339 session).maxUpdatedAt := by
  unfold refreshSession
  dsimp only
  cases indexing : indexSourceSession env progress.metadataDb
      (sourceSessionUpsert rfc3339 env profile session) with
  | mk result written =>
      cases result with
      | error failure => rfl
      | ok chunks =>
          dsimp only
          split
          · rfl
          · split <;> rfl

end Turn

/-! ## The mark of a refresh -/

/-- How far a source is indexed. -/
def MetadataDb.lastIndexedUpdatedAt (db : MetadataDb) (sourceId : String) : Option String :=
  (db.getSourceWatermark sourceId).bind (·.lastIndexedUpdatedAt)

/-- The update times of sessions, as a refresh writes them. -/
def updateTexts (rfc3339 : DateTime → String) (sessions : List NativeSourceSession) : List String :=
  sessions.filterMap fun session => session.sessionUpdatedAt.map rfc3339


section Mark
variable {rfc3339 : DateTime → String} {newV5 : String → Uuid} {env : RefreshEnv} {repoId : String}
  {profile : SourceProfile}

/-- Scanning a session raises the mark to its time. -/
theorem maxUpdatedAt_scan (progress : ProfileRefresh) (session : NativeSourceSession) :
    (progress.scan rfc3339 session).maxUpdatedAt =
      max progress.maxUpdatedAt (session.sessionUpdatedAt.map rfc3339) := by
  unfold ProfileRefresh.scan
  cases session.sessionUpdatedAt with
  | none => exact Option.max_none_right.symm
  | some updatedAt =>
      dsimp only [Option.map]
      cases progress.maxUpdatedAt with
      | none => exact Option.max_none_left.symm
      | some current =>
          dsimp only
          rw [Option.max_some_some, max_def_lt]
          split <;> rfl

variable (rfc3339 newV5 env repoId profile) in
/-- The mark of a loop over sessions that completes is their latest update time. -/
theorem maxUpdatedAt_forEach (state : HistoryState) (sessions : List NativeSourceSession)
    (completed : (Loops.forEach (refreshSession rfc3339 newV5 env repoId profile) (.start state)
      sessions).1 = .ok ()) :
    (Loops.forEach (refreshSession rfc3339 newV5 env repoId profile) (.start state)
      sessions).2.maxUpdatedAt = (updateTexts rfc3339 sessions).max? := by
  have turns := Loops.view_forEach (·.maxUpdatedAt)
    (fun mark session => max mark (session.sessionUpdatedAt.map rfc3339))
    (fun _ _ _ => (maxUpdatedAt_refreshSession ..).trans (maxUpdatedAt_scan ..)) completed
  rw [turns, ← HighWater.foldl_max_none]
  unfold updateTexts
  rw [List.foldl_filterMap]
  apply congrArg (fun edit => sessions.foldl edit none)
  funext mark session
  cases session.sessionUpdatedAt with
  | none => exact Option.max_none_right
  | some updatedAt => rfl

variable (rfc3339 newV5 env repoId profile) in
theorem watermarks_forEach (state : HistoryState) (sessions : List NativeSourceSession) :
    (Loops.forEach (refreshSession rfc3339 newV5 env repoId profile) (.start state)
      sessions).2.metadataDb.watermarks = state.metadataDb.watermarks := by
  apply Loops.forEach_keeps fun reached : ProfileRefresh =>
    reached.metadataDb.watermarks = state.metadataDb.watermarks
  · intro progress session kept
    rw [metadataDb_refreshSession, watermarks_of_index]
    exact kept
  · rfl

/-- A refresh of a source completes and sets its mark, after all of its sessions, or it fails and
leaves every mark. -/
theorem refreshProfile_sets (rfc3339 : DateTime → String) (newV5 : String → Uuid) (env : RefreshEnv)
    (repoId : String) (progress : RefreshProgress) (profile : SourceProfile) :
    let final := refreshProfile rfc3339 newV5 env repoId (some sourceIndexRefreshLimit) progress
      profile
    (∃ failure, final.1 = .error failure ∧
        final.2.metadataDb.watermarks = progress.metadataDb.watermarks) ∨
      ∃ sessions, scannedSessions env progress profile = some sessions ∧ final.1 = .ok () ∧
        let turns := Loops.forEach (refreshSession rfc3339 newV5 env repoId profile)
          (.start progress.toHistoryState) sessions
        turns.1 = .ok () ∧ final.2.metadataDb = turns.2.metadataDb.setSourceWatermark profile.name
          (updateTexts rfc3339 sessions).max? env.now := by
  unfold refreshProfile scannedSessions
  dsimp only
  cases newest : env.listSourceSessions profile (some 1) none with
  | none => exact Or.inl ⟨.listing, rfl, rfl⟩
  | some newestSessions =>
      dsimp only [Option.bind]
      cases listed : env.listSourceSessions profile (some sourceIndexRefreshLimit)
          (sinceWatermark progress.metadataDb profile newestSessions) with
      | none =>
          unfold refreshSingleProfile
          rw [listed]
          exact Or.inl ⟨.listing, rfl, rfl⟩
      | some sessions =>
          have kept := watermarks_forEach rfc3339 newV5 env repoId profile progress.toHistoryState
            sessions
          have marked := maxUpdatedAt_forEach rfc3339 newV5 env repoId profile
            progress.toHistoryState sessions
          unfold refreshSingleProfile
          rw [listed]
          dsimp only [ProfileRefresh.start] at kept marked ⊢
          cases turned : Loops.forEach (refreshSession rfc3339 newV5 env repoId profile)
              { toHistoryState := progress.toHistoryState, stats := .zero, maxUpdatedAt := none }
              sessions with
          | mk result reached =>
              rw [turned] at kept marked
              cases result with
              | error failure => exact Or.inl ⟨failure, rfl, kept⟩
              | ok _ =>
                  cases stored : env.storesPlans profile with
                  | true =>
                      refine Or.inr ⟨sessions, rfl, rfl, ?_⟩
                      rw [turned, ← marked rfl]
                      exact ⟨rfl, rfl⟩
                  | false => exact Or.inl ⟨.plans, rfl, kept⟩

theorem lastIndexedUpdatedAt_set_self (db : MetadataDb) (sourceId : String) (mark : Option String)
    (now : DateTime) :
    (db.setSourceWatermark sourceId mark now).lastIndexedUpdatedAt sourceId =
      mark.or (db.lastIndexedUpdatedAt sourceId) := by
  have found : (db.setSourceWatermark sourceId mark now).getSourceWatermark sourceId =
      some (((db.getSourceWatermark sourceId).map fun held =>
        ⟨sourceId, mark.or held.lastIndexedUpdatedAt, now⟩).getD ⟨sourceId, mark, now⟩) := by
    unfold MetadataDb.setSourceWatermark MetadataDb.getSourceWatermark
    exact KeyedTable.find_upsert_self
  unfold MetadataDb.lastIndexedUpdatedAt
  rw [found]
  cases db.getSourceWatermark sourceId with
  | none => exact Option.or_none.symm
  | some held => rfl

theorem lastIndexedUpdatedAt_set_of_ne (db : MetadataDb) {sourceId other : String}
    (mark : Option String) (now : DateTime) (differs : other ≠ sourceId) :
    (db.setSourceWatermark sourceId mark now).lastIndexedUpdatedAt other =
      db.lastIndexedUpdatedAt other := by
  have found : (db.setSourceWatermark sourceId mark now).getSourceWatermark other =
      db.getSourceWatermark other := KeyedTable.find_upsert_of_ne differs
  unfold MetadataDb.lastIndexedUpdatedAt
  rw [found]

theorem lastIndexedUpdatedAt_of_watermarks {first second : MetadataDb}
    (same : first.watermarks = second.watermarks) (sourceId : String) :
    first.lastIndexedUpdatedAt sourceId = second.lastIndexedUpdatedAt sourceId := by
  unfold MetadataDb.lastIndexedUpdatedAt MetadataDb.getSourceWatermark
  rw [same]

/-! ## Marks that do not sink -/

/-- None of the sessions that a refresh lists for a source tells when it was updated, or one
was updated no earlier than the mark. -/
def ListsUpToMark (rfc3339 : DateTime → String) (env : RefreshEnv) (sourceId : String)
    (progress : RefreshProgress) (profile : SourceProfile) : Prop :=
  profile.name = sourceId → ∀ sessions, scannedSessions env progress profile = some sessions →
    (∀ session ∈ sessions, session.sessionUpdatedAt = none) ∨
      ∃ session ∈ sessions,
        progress.metadataDb.lastIndexedUpdatedAt sourceId ≤ session.sessionUpdatedAt.map rfc3339

theorem listed_up_to_iff (mark : Option String) (sessions : List NativeSourceSession) :
    (updateTexts rfc3339 sessions = [] ∨ ∃ text ∈ updateTexts rfc3339 sessions, mark ≤ some text) ↔
      (∀ session ∈ sessions, session.sessionUpdatedAt = none) ∨
        ∃ session ∈ sessions, mark ≤ session.sessionUpdatedAt.map rfc3339 := by
  have silent : updateTexts rfc3339 sessions = [] ↔
      ∀ session ∈ sessions, session.sessionUpdatedAt = none := by
    unfold updateTexts
    simp only [List.filterMap_eq_nil_iff, Option.map_eq_none_iff]
  rw [silent]
  constructor
  · rintro (none_tells | ⟨text, member, above⟩)
    · exact Or.inl none_tells
    · obtain ⟨session, listed, told⟩ := List.mem_filterMap.mp member
      exact Or.inr ⟨session, listed, told ▸ above⟩
  · rintro (none_tells | ⟨session, listed, above⟩)
    · exact Or.inl none_tells
    · cases told : session.sessionUpdatedAt.map rfc3339 with
      | some text =>
          exact Or.inr ⟨text, List.mem_filterMap.mpr ⟨session, listed, told⟩, told ▸ above⟩
      | none =>
          -- no mark is stored, so any time that a session tells will do
          rw [told] at above
          cases texts : updateTexts rfc3339 sessions with
          | nil => exact Or.inl (silent.mp texts)
          | cons other rest =>
              refine Or.inr ⟨other, List.mem_cons_self .., ?_⟩
              exact HighWater.mark_le_trans above Option.none_le

/-- A refresh of a source that completes keeps its mark from sinking exactly then. -/
theorem refreshProfile_keeps_mark_iff {progress : RefreshProgress}
    (completed : (refreshProfile rfc3339 newV5 env repoId (some sourceIndexRefreshLimit) progress
      profile).1 = .ok ()) :
    progress.metadataDb.lastIndexedUpdatedAt profile.name ≤
        (refreshProfile rfc3339 newV5 env repoId (some sourceIndexRefreshLimit) progress
          profile).2.metadataDb.lastIndexedUpdatedAt profile.name ↔
      ListsUpToMark rfc3339 env profile.name progress profile := by
  rcases refreshProfile_sets rfc3339 newV5 env repoId progress profile with
    ⟨failure, failed, _⟩ | ⟨sessions, scanned, _, _, sets⟩
  · rw [failed] at completed
    cases completed
  · have lists : ListsUpToMark rfc3339 env profile.name progress profile ↔
        updateTexts rfc3339 sessions = [] ∨ ∃ text ∈ updateTexts rfc3339 sessions,
          progress.metadataDb.lastIndexedUpdatedAt profile.name ≤ some text := by
      rw [listed_up_to_iff]
      unfold ListsUpToMark
      rw [scanned]
      constructor
      · intro lists
        exact lists rfl sessions rfl
      · intro lists _ listed same
        cases same
        exact lists
    rw [lists, sets, lastIndexedUpdatedAt_set_self,
      lastIndexedUpdatedAt_of_watermarks (watermarks_forEach ..)]
    exact HighWater.le_max?_or_iff _

/-- A turn, also one that fails, or one of another source, keeps a mark from sinking. -/
theorem refreshProfile_keeps_mark {sourceId : String} {progress : RefreshProgress}
    (lists : ListsUpToMark rfc3339 env sourceId progress profile) :
    progress.metadataDb.lastIndexedUpdatedAt sourceId ≤
      (refreshProfile rfc3339 newV5 env repoId (some sourceIndexRefreshLimit) progress
        profile).2.metadataDb.lastIndexedUpdatedAt sourceId := by
  rcases refreshProfile_sets rfc3339 newV5 env repoId progress profile with
    ⟨_, _, kept⟩ | ⟨sessions, _, completed, _, sets⟩
  · rw [lastIndexedUpdatedAt_of_watermarks kept]
    exact HighWater.mark_le_refl _
  · by_cases named : profile.name = sourceId
    · cases named
      exact (refreshProfile_keeps_mark_iff completed).mpr lists
    · rw [sets, lastIndexedUpdatedAt_set_of_ne _ _ _ (Ne.symm named),
        lastIndexedUpdatedAt_of_watermarks (watermarks_forEach ..)]
      exact HighWater.mark_le_refl _

/-- From any state of a sequence of refreshes to any later one, the mark of a source does not sink. -/
def MarkNeverSinks (rfc3339 : DateTime → String) (newV5 : String → Uuid) (sourceId : String)
    (state : HistoryState) (runs : List RefreshRun) : Prop :=
  ∀ earlier between, earlier ++ between <+: runs →
    (Runs.run (nextHistory rfc3339 newV5) state earlier).metadataDb.lastIndexedUpdatedAt sourceId ≤
      (Runs.run (nextHistory rfc3339 newV5) state
        (earlier ++ between)).metadataDb.lastIndexedUpdatedAt sourceId

/-- A refresh lists its sources up to the mark of one of them, when it comes to that one. -/
def RefreshRun.ListsUpToMark (rfc3339 : DateTime → String) (newV5 : String → Uuid) (sourceId : String)
    (state : HistoryState) (run : RefreshRun) : Prop :=
  Loops.Visits (refreshProfile rfc3339 newV5 run.env run.repoId (some sourceIndexRefreshLimit))
    (BrickTrace.ListsUpToMark rfc3339 run.env sourceId) (.start state) (run.scannedProfiles state)

theorem refresh_keeps_mark {sourceId : String} {state : HistoryState} {run : RefreshRun}
    (lists : run.ListsUpToMark rfc3339 newV5 sourceId state) :
    state.metadataDb.lastIndexedUpdatedAt sourceId ≤
      (nextHistory rfc3339 newV5 state run).metadataDb.lastIndexedUpdatedAt sourceId := by
  unfold nextHistory
  rw [(refresh_profiles rfc3339 newV5 run state).1]
  apply Loops.forEach_invariant (fun reached : RefreshProgress =>
    state.metadataDb.lastIndexedUpdatedAt sourceId ≤ reached.metadataDb.lastIndexedUpdatedAt sourceId)
    _ (HighWater.mark_le_refl _) lists
  intro progress profile above met
  exact HighWater.mark_le_trans above (refreshProfile_keeps_mark met)

/-- Along a sequence of refreshes, failing ones included, the mark of a source never sinks, as
long as each refresh of the source lists sessions up to its mark. -/
theorem refreshes_keep_mark {sourceId : String} {state : HistoryState} {runs : List RefreshRun}
    (met : Runs.Meets (nextHistory rfc3339 newV5)
      (fun reached run => run.ListsUpToMark rfc3339 newV5 sourceId reached) state runs) :
    MarkNeverSinks rfc3339 newV5 sourceId state runs := by
  intro earlier between isPrefix
  exact Runs.related_of_meets (nextHistory rfc3339 newV5)
    (fun before after =>
      before.metadataDb.lastIndexedUpdatedAt sourceId ≤ after.metadataDb.lastIndexedUpdatedAt sourceId)
    (fun _ => HighWater.mark_le_refl _) (fun _ _ _ => HighWater.mark_le_trans)
    (fun _ _ => refresh_keeps_mark) met isPrefix

end Mark

/-! ## An older transcript that appears later -/

/-- A transcript by the seconds in which its file and its session were last updated. -/
def transcript (externalSessionId : String) (modified updated : Int) : NativeSourceSession :=
  { sessionIn "/work/a" with
    externalSessionId := externalSessionId
    path := "/home/user/.claude/projects/" ++ externalSessionId ++ ".jsonl"
    modifiedAt := some ⟨modified * 1000000000⟩
    sessionUpdatedAt := some ⟨updated * 1000000000⟩ }

/-- The UUIDs of the names that these refreshes make one of. -/
def transcriptUuid (name : String) : Uuid :=
  if name = "brick:source-session-observed-v2:claude_code:session-1:1970-01-01T00:01:00+00:00:10:claude-code-jsonl-v4:claude-code-jsonl-v4"
  then ⟨0x9c61ecf1bec254a287893d7ee32b70d0⟩
  else ⟨0x09067d117bbb539db8faa6d25bd03987⟩

def refreshOfFirst (updated : Int) : RefreshRun :=
  refreshFrom "repo-a" 60 (transcript "session-1" 60 updated)

def refreshOfSecond (updated : Int) : RefreshRun :=
  refreshFrom "repo-a" 120 (transcript "session-2" 120 updated)

theorem listsUpToMark_refreshFrom {rfc3339 : DateTime → String} {newV5 : String → Uuid}
    {second : Int} {session : NativeSourceSession} {state : HistoryState}
    (newer : state.metadataDb.lastIndexedUpdatedAt "claude_code" ≤
      session.sessionUpdatedAt.map rfc3339) :
    (refreshFrom "repo-a" second session).ListsUpToMark rfc3339 newV5 "claude_code" state := by
  have profiles : (refreshFrom "repo-a" second session).scannedProfiles state =
      [claudeCode].filter (isDue (refreshFrom "repo-a" second session).env state.metadataDb) := rfl
  have lists : ListsUpToMark rfc3339 (refreshFrom "repo-a" second session).env "claude_code"
      (.start state) claudeCode := by
    intro _ sessions scanned
    cases scanned
    exact Or.inr ⟨session, List.mem_singleton_self _, newer⟩
  unfold RefreshRun.ListsUpToMark
  rw [profiles, List.filter_singleton]
  cases isDue (refreshFrom "repo-a" second session).env state.metadataDb claudeCode with
  | true => exact ⟨lists, fun _ => trivial⟩
  | false => trivial

theorem newer_session_raises_mark :
    MarkNeverSinks clockText transcriptUuid "claude_code" emptyHistory
      [refreshOfFirst 0, refreshOfSecond 60] := by
  apply refreshes_keep_mark
  have mark : (nextHistory clockText transcriptUuid emptyHistory
      (refreshOfFirst 0)).metadataDb.lastIndexedUpdatedAt "claude_code" =
        some "1970-01-01T00:00:00+00:00" := by
    decide +kernel
  refine ⟨?_, ?_, trivial⟩
  · apply listsUpToMark_refreshFrom
    rw [show emptyHistory.metadataDb.lastIndexedUpdatedAt "claude_code" = none from rfl]
    exact Option.none_le
  · apply listsUpToMark_refreshFrom
    rw [mark]
    exact Option.some_le_some.mpr (by decide)

/-- A refresh of an empty history, and one after it. -/
def twoRefreshes (first second : RefreshRun) :
    (Except RefreshError Unit × HistoryState) × Except RefreshError Unit × HistoryState :=
  let earlier := first.refresh clockText transcriptUuid emptyHistory
  (earlier, second.refresh clockText transcriptUuid earlier.2)

theorem run_first (first second : RefreshRun) :
    Runs.run (nextHistory clockText transcriptUuid) emptyHistory [first] =
      (twoRefreshes first second).1.2 := rfl

theorem run_both (first second : RefreshRun) :
    Runs.run (nextHistory clockText transcriptUuid) emptyHistory [first, second] =
      (twoRefreshes first second).2.2 := rfl

theorem older_session_sinks_mark :
    (twoRefreshes (refreshOfFirst 60) (refreshOfSecond 0)).1.1.isOk = true ∧
      (twoRefreshes (refreshOfFirst 60) (refreshOfSecond 0)).2.1.isOk = true ∧
      ¬ MarkNeverSinks clockText transcriptUuid "claude_code" emptyHistory
        [refreshOfFirst 60, refreshOfSecond 0] := by
  obtain ⟨firstOk, firstMark, secondOk, secondMark⟩ :
      (twoRefreshes (refreshOfFirst 60) (refreshOfSecond 0)).1.1.isOk = true ∧
        (twoRefreshes (refreshOfFirst 60) (refreshOfSecond
          0)).1.2.metadataDb.lastIndexedUpdatedAt "claude_code" = some "1970-01-01T00:01:00+00:00" ∧
        (twoRefreshes (refreshOfFirst 60) (refreshOfSecond 0)).2.1.isOk = true ∧
        (twoRefreshes (refreshOfFirst 60) (refreshOfSecond
          0)).2.2.metadataDb.lastIndexedUpdatedAt "claude_code" =
            some "1970-01-01T00:00:00+00:00" := by
    decide +kernel
  refine ⟨firstOk, secondOk, ?_⟩
  intro never
  have sunk := never [refreshOfFirst 60] [refreshOfSecond 0] (List.prefix_refl _)
  rw [List.singleton_append, run_both, run_first _ (refreshOfSecond 0), firstMark, secondMark] at sunk
  exact absurd (Option.some_le_some.mp sunk) (by decide)

end BrickTrace
