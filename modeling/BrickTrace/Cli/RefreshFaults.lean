import BrickTrace.Cli.RefreshRuns

/-!
# Refreshes of one file whose writes may fail

A refresh writes the session of a file with its new fingerprint before it formats the
transcript and writes the chunks, and each of these writes may fail and keep the earlier
ones.  The next refresh goes by the fingerprint alone: it takes the chunks that it finds
stored for those of the file.
-/

set_option autoImplicit false

namespace BrickTrace

/-! ## Writes that fail -/

inductive RefreshWrite where
  | sourceRoots
  | lastSeen
  | session
  | chunks
  | event
  | repoLink

section Faults
variable (rfc3339 : DateTime → String) (newV5 : String → Uuid) (env : RefreshEnv)
  (faults : RefreshWrite → Option RefreshError)

/-- A write that fails leaves the database as it was. -/
def writeSourceSessionChunks (db : MetadataDb) (session : SourceSessionUpsert)
    (chunks : List ActivityChunk) : Except RefreshError (List ActivityChunk) × MetadataDb :=
  match faults .chunks with
  | some failure => (.error failure, db)
  | none =>
      match db.upsertSourceSessionChunks session.sourceId session.externalSessionId chunks with
      | none => (.error .metadata, db)
      | some written => (.ok chunks, written)

def sourceSessionChunksOrBackfillWith (db : MetadataDb) (session : SourceSessionUpsert) :
    Except RefreshError (List ActivityChunk) × MetadataDb :=
  let stored := db.storedChunks session.sourceId session.externalSessionId
  if stored.isEmpty then
    match env.formatSourceSessionChunks session.sourceId session.externalSessionId
        session.sourcePath with
    | none => (.error .formatting, db)
    | some chunks =>
        if chunks.isEmpty then (.ok chunks, db) else writeSourceSessionChunks faults db session chunks
  else (.ok stored, db)

def reindexSourceSessionWith (db : MetadataDb) (session : SourceSessionUpsert) :
    Except RefreshError (List ActivityChunk) × MetadataDb :=
  match faults .session with
  | some failure => (.error failure, db)
  | none =>
      match db.upsertSourceSession env.now session with
      | none => (.error .metadata, db)
      | some indexed =>
          match env.formatSourceSessionChunks session.sourceId session.externalSessionId
              session.sourcePath with
          | none => (.error .formatting, indexed)
          | some chunks => writeSourceSessionChunks faults indexed session chunks

def indexSourceSessionWith (db : MetadataDb) (session : SourceSessionUpsert) :
    Except RefreshError (List ActivityChunk) × MetadataDb :=
  if unchanged (db.getSourceSession session.sourceId session.externalSessionId) session then
    match faults .lastSeen with
    | some failure => (.error failure, db)
    | none =>
        sourceSessionChunksOrBackfillWith env faults (db.touchSourceSessionLastSeen env.now
          session.sourceId session.externalSessionId session.lastSeenAt) session
  else reindexSourceSessionWith env faults db session

/-- The last write of a turn, which nothing of a refresh reads. -/
def linkSessionRepo (progress : ProfileRefresh) : Except RefreshError Unit × ProfileRefresh :=
  match faults .repoLink with
  | some failure => (.error failure, progress)
  | none => (.ok (), progress)

def refreshSessionWith (repoId : String) (profile : SourceProfile) (progress : ProfileRefresh)
    (session : NativeSourceSession) : Except RefreshError Unit × ProfileRefresh :=
  let scanned := progress.scan rfc3339 session
  let upsert := sourceSessionUpsert rfc3339 env profile session
  match indexSourceSessionWith env faults progress.metadataDb upsert with
  | (.error failure, written) => (.error failure, { scanned with metadataDb := written })
  | (.ok chunks, written) =>
      let indexed := { scanned with
        metadataDb := written
        stats := scanned.stats.count (unchanged (progress.metadataDb.getSourceSession upsert.sourceId
          upsert.externalSessionId) upsert) }
      match written.getSourceSession upsert.sourceId upsert.externalSessionId with
      | none => linkSessionRepo faults indexed
      | some record =>
          match faults .event with
          | some failure => (.error failure, indexed)
          | none =>
              let event := buildSourceSessionEventWithChunks rfc3339 newV5 env.now env.freshSessionId
                (sourceActor profile) record.toSourceSessionUpsert repoId chunks
              match indexed.eventStore.appendEvent rfc3339 repoId event with
              | .error failure => (.error (.store failure), indexed)
              | .ok grown => linkSessionRepo faults { indexed with eventStore := grown }

def refreshSingleProfileWith (repoId : String) (profile : SourceProfile) (limit : Option Nat)
    (since : Option String) (state : HistoryState) :
    Except RefreshError (RefreshStats × Option String) × HistoryState :=
  match faults .sourceRoots with
  | some failure => (.error failure, state)
  | none =>
      match env.listSourceSessions profile limit since with
      | none => (.error .listing, state)
      | some sessions =>
          let refreshed := Loops.forEach (refreshSessionWith rfc3339 newV5 env faults repoId profile)
            { toHistoryState := state, stats := .zero, maxUpdatedAt := none } sessions
          match refreshed.1 with
          | .error failure => (.error failure, refreshed.2.toHistoryState)
          | .ok () =>
              if env.storesPlans profile then
                (.ok (refreshed.2.stats, refreshed.2.maxUpdatedAt), refreshed.2.toHistoryState)
              else (.error .plans, refreshed.2.toHistoryState)

end Faults

/-! ## Refreshes that complete

A refresh that completes met no fault, so it did what a refresh whose writes never fail
does. -/

section Completed
variable {rfc3339 : DateTime → String} {newV5 : String → Uuid} {env : RefreshEnv}
  {faults : RefreshWrite → Option RefreshError} {db : MetadataDb} {session : SourceSessionUpsert}
  {used : List ActivityChunk}

theorem writeSourceSessionChunks_of_ok {chunks : List ActivityChunk}
    (done : (writeSourceSessionChunks faults db session chunks).1 = .ok used) :
    writeSourceSessionChunks (fun _ => none) db session chunks =
      writeSourceSessionChunks faults db session chunks := by
  unfold writeSourceSessionChunks at done ⊢
  cases fault : faults .chunks with
  | some failure =>
      rw [fault] at done
      cases done
  | none => rfl

theorem backfillWith_of_ok
    (done : (sourceSessionChunksOrBackfillWith env faults db session).1 = .ok used) :
    sourceSessionChunksOrBackfillWith env (fun _ => none) db session =
      sourceSessionChunksOrBackfillWith env faults db session := by
  unfold sourceSessionChunksOrBackfillWith at done ⊢
  dsimp only at done ⊢
  split
  · rename_i absent
    rw [if_pos absent] at done
    cases formatted : env.formatSourceSessionChunks session.sourceId session.externalSessionId
        session.sourcePath with
    | none => rfl
    | some chunks =>
        rw [formatted] at done
        dsimp only at done ⊢
        split
        · rfl
        · rename_i some_chunk
          rw [if_neg some_chunk] at done
          exact writeSourceSessionChunks_of_ok done
  · rfl

theorem reindexWith_of_ok (done : (reindexSourceSessionWith env faults db session).1 = .ok used) :
    reindexSourceSessionWith env (fun _ => none) db session =
      reindexSourceSessionWith env faults db session := by
  unfold reindexSourceSessionWith at done ⊢
  cases fault : faults .session with
  | some failure =>
      rw [fault] at done
      cases done
  | none =>
      rw [fault] at done
      dsimp only at done ⊢
      cases upserted : db.upsertSourceSession env.now session with
      | none => rfl
      | some indexed =>
          rw [upserted] at done
          dsimp only at done ⊢
          cases formatted : env.formatSourceSessionChunks session.sourceId session.externalSessionId
              session.sourcePath with
          | none => rfl
          | some chunks =>
              rw [formatted] at done
              exact writeSourceSessionChunks_of_ok done

theorem indexWith_of_ok (done : (indexSourceSessionWith env faults db session).1 = .ok used) :
    indexSourceSession env db session = indexSourceSessionWith env faults db session := by
  change indexSourceSessionWith env (fun _ => none) db session = _
  unfold indexSourceSessionWith at done ⊢
  split
  · rename_i same
    rw [if_pos same] at done
    cases fault : faults .lastSeen with
    | some failure =>
        rw [fault] at done
        cases done
    | none =>
        rw [fault] at done
        exact backfillWith_of_ok done
  · rename_i changed
    rw [if_neg changed] at done
    exact reindexWith_of_ok done

theorem linkSessionRepo_of_ok {progress : ProfileRefresh}
    (done : (linkSessionRepo faults progress).1 = .ok ()) :
    linkSessionRepo faults progress = (.ok (), progress) := by
  unfold linkSessionRepo at done ⊢
  cases fault : faults .repoLink with
  | some failure =>
      rw [fault] at done
      cases done
  | none => rfl

theorem refreshSessionWith_of_ok {repoId : String} {profile : SourceProfile}
    (progress : ProfileRefresh) (session : NativeSourceSession)
    (done : (refreshSessionWith rfc3339 newV5 env faults repoId profile progress session).1 = .ok ()) :
    refreshSession rfc3339 newV5 env repoId profile progress session =
      refreshSessionWith rfc3339 newV5 env faults repoId profile progress session := by
  unfold refreshSessionWith refreshSession at *
  dsimp only at done ⊢
  cases indexing : indexSourceSessionWith env faults progress.metadataDb
      (sourceSessionUpsert rfc3339 env profile session) with
  | mk result written =>
      rw [indexing] at done
      cases result with
      | error failure => cases done
      | ok chunks =>
          rw [indexWith_of_ok (congrArg Prod.fst indexing), indexing]
          dsimp only at done ⊢
          cases found : written.getSourceSession
              (sourceSessionUpsert rfc3339 env profile session).sourceId
              (sourceSessionUpsert rfc3339 env profile session).externalSessionId with
          | none =>
              rw [found] at done
              exact (linkSessionRepo_of_ok done).symm
          | some record =>
              rw [found] at done
              dsimp only at done ⊢
              cases fault : faults .event with
              | some failure =>
                  rw [fault] at done
                  cases done
              | none =>
                  rw [fault] at done
                  dsimp only at done ⊢
                  generalize LocalEventStore.appendEvent rfc3339 _ repoId _ = appended at done ⊢
                  cases appended with
                  | error failure => rfl
                  | ok grown => exact (linkSessionRepo_of_ok done).symm

theorem refreshSingleProfileWith_of_ok {repoId : String} {profile : SourceProfile}
    {limit : Option Nat} {since : Option String} {state : HistoryState}
    {counted : RefreshStats × Option String}
    (done : (refreshSingleProfileWith rfc3339 newV5 env faults repoId profile limit since
      state).1 = .ok counted) :
    refreshSingleProfile rfc3339 newV5 env repoId profile limit since state =
      refreshSingleProfileWith rfc3339 newV5 env faults repoId profile limit since state := by
  unfold refreshSingleProfileWith refreshSingleProfile at *
  cases fault : faults .sourceRoots with
  | some failure =>
      rw [fault] at done
      cases done
  | none =>
      rw [fault] at done
      dsimp only at done ⊢
      cases listed : env.listSourceSessions profile limit since with
      | none => rfl
      | some sessions =>
          rw [listed] at done
          dsimp only at done ⊢
          have turns : (Loops.forEach (refreshSessionWith rfc3339 newV5 env faults repoId profile)
              { toHistoryState := state, stats := .zero, maxUpdatedAt := none } sessions).1 =
                .ok () := by
            cases result : (Loops.forEach (refreshSessionWith rfc3339 newV5 env faults repoId profile)
                { toHistoryState := state, stats := .zero, maxUpdatedAt := none } sessions).1 with
            | error failure =>
                rw [result] at done
                cases done
            | ok _ => rfl
          have same := Loops.forEach_congr_of_ok refreshSessionWith_of_ok turns
          exact same ▸ rfl

end Completed

end BrickTrace
