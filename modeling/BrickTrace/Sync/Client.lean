import BrickTrace.Core.LocalEventIds
import BrickTrace.Server.Pagination
import BrickTrace.Server.AppendRuns

/-!
# Pushing and pulling

A push sends the local events of a repo to the server, with missing repo and org
ids filled in; a pull reads all pages of the server's listing and appends the
events that are not known locally.  Each is one operation: nothing else happens
between its parts.
-/

set_option autoImplicit false

namespace BrickTrace

/-! ## Scoping events for a push -/

inductive ScopeError where
  | invalidOrgId
  | repoMismatch (eventId : Uuid) (eventRepoId pushRepoId : String)
deriving DecidableEq

/-- The text of an error; `debugText` is how a text is written for debugging. -/
def ScopeError.message (debugText : String → String) : ScopeError → String
  | .invalidOrgId => "invalid --org-id"
  | .repoMismatch eventId eventRepoId pushRepoId =>
      "event " ++ eventId.text ++ " repo_id " ++ debugText eventRepoId ++
        " does not match push repo_id " ++ debugText pushRepoId

/-- A blank org id counts as none. -/
def parseOrgOption (orgId : Option String) : Except ScopeError (Option OrgId) :=
  match orgId.filter fun value => !isBlank value with
  | none => .ok none
  | some value =>
      match parseTraceId .org value with
      | none => .error .invalidOrgId
      | some org => .ok (some org)

def scopeToRepo (repoId : Option String) (event : TraceEvent) : Except ScopeError TraceEvent :=
  match repoId with
  | none => .ok event
  | some pushRepoId =>
      match event.repoId with
      | some existing =>
          if existing ≠ pushRepoId then .error (.repoMismatch event.eventId existing pushRepoId)
          else .ok event
      | none => .ok { event with repoId := some pushRepoId }

def fillOrg (orgId : Option OrgId) (event : TraceEvent) : TraceEvent :=
  { event with orgId := event.orgId.or orgId }

def scopedEvents (events : List TraceEvent) (repoId orgId : Option String) :
    Except ScopeError (List TraceEvent) := do
  let org ← parseOrgOption orgId
  events.mapM fun event => (scopeToRepo repoId event).map (fillOrg org)

/-! ## Replicas -/

inductive SyncError where
  | scope (failure : ScopeError)
  | server (failure : StoreError)
  | logFull
  | unfinishedListing
  | undecodablePayload (eventId : Uuid)
  | metadata
  | store (failure : LocalStoreError)

/-- The metadata database of source sessions: its upserts of a session and of the
session's chunks may fail. -/
structure MetadataOps (Db : Type) where
  upsertSourceSession : SourceSessionObservedPayload → Db → Option Db
  upsertSourceSessionChunks : SourceSessionObservedPayload → Db → Option Db

/-- What a client keeps. -/
structure Replica (Db : Type) where
  eventStore : LocalEventStore
  metadataDb : Db

structure PullOutcome where
  remoteEventCount : Nat
  pulledEventCount : Nat
  duplicateCount : Nat
  eventStorePath : Option String

/-! ## Push -/

def collectPushEvents (store : LocalEventStore) (repoId : Option String) : List TraceEvent :=
  store.readEventsForRepoWithChunks repoId

/-- The answer of the server, and the server afterwards.  A log that would outgrow the
line numbers is not written. -/
def pushEventsToRemote (server : NumberedStore) (repoId : Option String)
    (events : List TraceEvent) : Except SyncError PushEventsResponse × NumberedStore :=
  let outcome := server.appendEventsForRepo repoId events
  if countable : outcome.2.eventLog.length < 2 ^ 64 then
    (outcome.1.mapError .server, { toServerStore := outcome.2, countable := countable })
  else (.error .logFull, server)

/-- The push of one repo; without local events there is nothing to send. -/
def pushRepo (server : NumberedStore) (store : LocalEventStore) (repoId : String)
    (orgId : Option String) : Except SyncError Unit × NumberedStore :=
  let events := collectPushEvents store (some repoId)
  if events.isEmpty then (.ok (), server)
  else
    match scopedEvents events (some repoId) orgId with
    | .error failure => (.error (.scope failure), server)
    | .ok scopedList =>
        let outcome := pushEventsToRemote server (some repoId) scopedList
        (outcome.1.map fun _ => (), outcome.2)

/-! ## Pull -/

def pullPageLimit : Nat := 500

/-- Every page but the last shows a line, so one request more than the log has lines
reaches the last page. -/
def getAllEventsFromRemote (server : NumberedStore) (repoId : Option String) :
    Except SyncError (List TraceEvent) :=
  match followPages (fun _ => server) repoId (some pullPageLimit) (server.eventLog.length + 1) 0 none with
  | (events, true) => .ok events
  | (_, false) => .error .unfinishedListing

section Pull
variable {Db : Type} (rfc3339 : DateTime → String) (metadata : MetadataOps Db)

/-- One turn of `ingest_source_sessions_into_metadata`. -/
def ingestSourceSession (metadataDb : Db) (event : TraceEvent) : Except SyncError Unit × Db :=
  if event.eventType ≠ .sourceSessionObserved then (.ok (), metadataDb)
  else
    match SourceSessionObservedPayload.decode event.payload with
    | none => (.error (.undecodablePayload event.eventId), metadataDb)
    | some payload =>
        match metadata.upsertSourceSession payload metadataDb with
        | none => (.error .metadata, metadataDb)
        | some written =>
            if payload.normalizedChunks.isEmpty then (.ok (), written)
            else
              match metadata.upsertSourceSessionChunks payload written with
              | none => (.error .metadata, written)
              | some written => (.ok (), written)

def ingestPulledSourceSessions (metadataDb : Db) : List TraceEvent → Except SyncError Unit × Db
  | [] => (.ok (), metadataDb)
  | event :: rest =>
      match ingestSourceSession metadata metadataDb event with
      | (.error failure, written) => (.error failure, written)
      | (.ok (), written) => ingestPulledSourceSessions written rest

def pullEvents (replica : Replica Db) (repoId : String) (remoteEvents : List TraceEvent)
    (dryRun : Bool) : Except SyncError PullOutcome × Replica Db :=
  let pulledEvents := replica.eventStore.dedupeRemoteEvents repoId remoteEvents
  let outcome (eventStorePath : Option String) : PullOutcome :=
    { remoteEventCount := remoteEvents.length
      pulledEventCount := pulledEvents.length
      duplicateCount := remoteEvents.length - pulledEvents.length
      eventStorePath := eventStorePath }
  if dryRun then (.ok (outcome none), replica)
  else
    match ingestPulledSourceSessions metadata replica.metadataDb pulledEvents with
    | (.error failure, metadataDb) => (.error failure, { replica with metadataDb := metadataDb })
    | (.ok (), metadataDb) =>
        let ingested := { replica with metadataDb := metadataDb }
        if pulledEvents.isEmpty then (.ok (outcome none), ingested)
        else
          let appended := ingested.eventStore.appendRemoteEvents rfc3339 repoId pulledEvents
          ((appended.1.mapError .store).map fun path => outcome (some path),
            { ingested with eventStore := appended.2 })

def pullRepo (server : NumberedStore) (replica : Replica Db) (repoId : String) :
    Except SyncError Unit × Replica Db :=
  match getAllEventsFromRemote server (some repoId) with
  | .error failure => (.error failure, replica)
  | .ok events =>
      let outcome := pullEvents rfc3339 metadata replica repoId events false
      (outcome.1.map fun _ => (), outcome.2)

end Pull

/-! ## What a push sends -/

theorem repoId_of_mem_collected {store : LocalEventStore} {repoId : String} {event : TraceEvent}
    (member : event ∈ collectPushEvents store (some repoId)) : event.repoId = some repoId := by
  have named : event.repoId ∈ (collectPushEvents store (some repoId)).map (·.repoId) :=
    List.mem_map_of_mem member
  rw [collectPushEvents, LocalEventStore.map_reattached _ (fun _ _ => rfl)] at named
  obtain ⟨read, isRead, same⟩ := List.mem_map.mp named
  obtain ⟨row, _, ofRepo, rfl⟩ := LocalEventStore.mem_readEventsForRepo.mp isRead
  rw [← same, row.repoColumn, beq_iff_eq.mp ofRepo]

theorem collected_ids (store : LocalEventStore) (repoId : String) :
    (collectPushEvents store (some repoId)).map (·.eventId) = store.knownEventIds repoId :=
  LocalEventStore.map_reattached _ (fun _ _ => rfl) store _

theorem scopeToRepo_of_named {repoId : String} {event : TraceEvent}
    (named : event.repoId = some repoId) : scopeToRepo (some repoId) event = .ok event := by
  simp [scopeToRepo, named]

/-- Events of the repo get an org at most. -/
theorem scopedEvents_of_named {events scopedList : List TraceEvent} {repoId : String}
    {orgId : Option String} (named : ∀ event ∈ events, event.repoId = some repoId)
    (succeeded : scopedEvents events (some repoId) orgId = .ok scopedList) :
    ∃ org, scopedList = events.map (fillOrg org) := by
  obtain ⟨org, _, succeeded⟩ := Fallible.bind_eq_ok_iff.mp succeeded
  have filled : ∀ event ∈ events,
      (scopeToRepo (some repoId) event).map (fillOrg org) = .ok (fillOrg org event) := by
    intro event member
    rw [scopeToRepo_of_named (named event member)]
    rfl
  rw [Fallible.mapM_eq_ok_map filled] at succeeded
  cases succeeded
  exact ⟨org, rfl⟩

theorem pushEventsToRemote_eventLog (server : NumberedStore) (repoId : Option String)
    (events : List TraceEvent) :
    (pushEventsToRemote server repoId events).2.eventLog =
        server.eventLog ++ (server.newEvents repoId events).map .event ∨
      (∃ failure, (pushEventsToRemote server repoId events).1 = .error failure) ∧
        (pushEventsToRemote server repoId events).2.eventLog = server.eventLog := by
  unfold pushEventsToRemote
  dsimp only
  split
  · exact Or.inl (ServerStore.appendEventsForRepo_eventLog ..)
  · exact Or.inr ⟨⟨_, rfl⟩, rfl⟩

/-- A push that succeeds appends events of the repo with the ids of the local ones. -/
theorem pushRepo_of_ok {server : NumberedStore} {store : LocalEventStore} {repoId : String}
    {orgId : Option String} (succeeded : (pushRepo server store repoId orgId).1 = .ok ()) :
    ∃ events : List TraceEvent, (∀ event ∈ events, event.repoId = some repoId) ∧
      events.map (·.eventId) = store.knownEventIds repoId ∧
      (pushRepo server store repoId orgId).2.eventLog =
        server.eventLog ++ (server.newEvents (some repoId) events).map .event := by
  have named : ∀ event ∈ collectPushEvents store (some repoId), event.repoId = some repoId :=
    fun _ => repoId_of_mem_collected
  have ids := collected_ids store repoId
  unfold pushRepo at succeeded ⊢
  dsimp only at succeeded ⊢
  split
  · rename_i nothing
    have empty := List.isEmpty_iff.mp nothing
    exact ⟨[], by simp, by rw [← ids, empty], by simp [ServerStore.newEvents, FirstSeen.fresh]⟩
  · rename_i something
    rw [if_neg something] at succeeded
    cases scoping : scopedEvents (collectPushEvents store (some repoId)) (some repoId) orgId with
    | error failure =>
        rw [scoping] at succeeded
        cases succeeded
    | ok scopedList =>
        rw [scoping] at succeeded
        dsimp only at succeeded ⊢
        obtain ⟨org, rfl⟩ := scopedEvents_of_named named scoping
        refine ⟨(collectPushEvents store (some repoId)).map (fillOrg org), ?_, ?_, ?_⟩
        · intro event member
          obtain ⟨collected, isCollected, rfl⟩ := List.mem_map.mp member
          exact named collected isCollected
        · rw [← ids, List.map_map]
          rfl
        · rcases pushEventsToRemote_eventLog server (some repoId)
            ((collectPushEvents store (some repoId)).map (fillOrg org)) with
            written | ⟨⟨failure, failed⟩, _⟩
          · exact written
          · rw [failed] at succeeded
            cases succeeded

theorem eventLog_prefix_pushRepo (server : NumberedStore) (store : LocalEventStore)
    (repoId : String) (orgId : Option String) :
    server.eventLog <+: (pushRepo server store repoId orgId).2.eventLog := by
  unfold pushRepo
  dsimp only
  split
  · exact List.prefix_refl _
  · cases scopedEvents (collectPushEvents store (some repoId)) (some repoId) orgId with
    | error failure => exact List.prefix_refl _
    | ok scopedList =>
        rcases pushEventsToRemote_eventLog server (some repoId) scopedList with
          written | ⟨_, unchanged⟩
        · exact ⟨_, written.symm⟩
        · exact unchanged ▸ List.prefix_refl _

theorem nodup_logIds_pushRepo {server : NumberedStore} (distinct : (logIds server.eventLog).Nodup)
    (store : LocalEventStore) (repoId : String) (orgId : Option String) :
    (logIds (pushRepo server store repoId orgId).2.eventLog).Nodup := by
  unfold pushRepo
  dsimp only
  split
  · exact distinct
  · cases scopedEvents (collectPushEvents store (some repoId)) (some repoId) orgId with
    | error failure => exact distinct
    | ok scopedList =>
        dsimp only
        unfold pushEventsToRemote
        dsimp only
        split
        · exact ServerStore.nodup_logIds_append distinct _ _
        · exact distinct

/-! ## What a pull takes -/

/-- The loop over the pages ends, and has read the whole listing. -/
theorem getAllEventsFromRemote_eq (server : NumberedStore) (repoId : Option String) :
    getAllEventsFromRemote server repoId = .ok (matchingEvents repoId server.eventLog) := by
  have shown : (matchingEvents repoId server.eventLog).length < server.eventLog.length + 1 :=
    Nat.lt_succ_of_le ((List.length_filter_le ..).trans (List.length_filterMap_le ..))
  rw [getAllEventsFromRemote, followPages_of_still_log server repoId _ shown]

section Pull
variable {Db : Type} {rfc3339 : DateTime → String} {metadata : MetadataOps Db}

theorem pullEvents_of_ok {replica : Replica Db} {repoId : String} {remote : List TraceEvent}
    {outcome : PullOutcome}
    (succeeded : (pullEvents rfc3339 metadata replica repoId remote false).1 = .ok outcome) :
    let appended := replica.eventStore.appendEvents rfc3339 repoId
      (replica.eventStore.dedupeRemoteEvents repoId remote)
    appended.1 = .ok () ∧
      (pullEvents rfc3339 metadata replica repoId remote false).2.eventStore = appended.2 := by
  unfold pullEvents at succeeded ⊢
  simp only [Bool.false_eq_true, if_false] at succeeded ⊢
  generalize replica.eventStore.dedupeRemoteEvents repoId remote = pulled at succeeded ⊢
  cases ingested : ingestPulledSourceSessions metadata replica.metadataDb pulled with
  | mk result metadataDb =>
      rw [ingested] at succeeded
      cases result with
      | error failure => cases succeeded
      | ok _ =>
          dsimp only at succeeded ⊢
          cases pulled with
          | nil => exact ⟨rfl, rfl⟩
          | cons first rest =>
              simp only [List.isEmpty_cons, Bool.false_eq_true, if_false,
                LocalEventStore.appendRemoteEvents] at succeeded ⊢
              cases done : (replica.eventStore.appendEvents rfc3339 repoId (first :: rest)).1 with
              | error failure =>
                  rw [done] at succeeded
                  cases succeeded
              | ok _ => exact ⟨rfl, trivial⟩

theorem pullRepo_of_ok {server : NumberedStore} {replica : Replica Db} {repoId : String}
    (succeeded : (pullRepo rfc3339 metadata server replica repoId).1 = .ok ()) :
    let appended := replica.eventStore.appendEvents rfc3339 repoId
      (replica.eventStore.dedupeRemoteEvents repoId
        (matchingEvents (some repoId) server.eventLog))
    appended.1 = .ok () ∧
      (pullRepo rfc3339 metadata server replica repoId).2.eventStore = appended.2 := by
  unfold pullRepo at succeeded ⊢
  rw [getAllEventsFromRemote_eq] at succeeded ⊢
  dsimp only at succeeded ⊢
  cases pulled : (pullEvents rfc3339 metadata replica repoId
      (matchingEvents (some repoId) server.eventLog) false).1 with
  | error failure =>
      rw [pulled] at succeeded
      cases succeeded
  | ok outcome => exact pullEvents_of_ok pulled

/-- A pull that fails may have appended some of the events. -/
theorem rows_subset_pullRepo (server : NumberedStore) (replica : Replica Db) (repoId : String) :
    replica.eventStore.events.rows ⊆
      (pullRepo rfc3339 metadata server replica repoId).2.eventStore.events.rows := by
  unfold pullRepo
  rw [getAllEventsFromRemote_eq]
  unfold pullEvents
  simp only [Bool.false_eq_true, if_false]
  cases ingestPulledSourceSessions metadata replica.metadataDb
      (replica.eventStore.dedupeRemoteEvents repoId
        (matchingEvents (some repoId) server.eventLog)) with
  | mk result metadataDb =>
      cases result with
      | error failure => exact List.Subset.refl _
      | ok _ =>
          dsimp only
          split
          · exact List.Subset.refl _
          · exact LocalEventStore.rows_subset_appendEvents ..

end Pull

end BrickTrace
