import BrickTrace.Lib.HubReplicas
import BrickTrace.Server.AppendRuns
import BrickTrace.Sync.Client

/-!
# Clients of one repo converge

Any number of clients, each with a local store of its own, append events of one
repo, push to the server and pull from it, in any order.  Seen through the event
ids of the repo, the system is one of replicas around a hub, in the sense of
`HubReplicas`.
-/

set_option autoImplicit false

namespace BrickTrace

structure World (Client Db : Type) where
  server : NumberedStore
  replicas : Client → Replica Db

inductive SyncOperation (Client : Type) where
  | append (client : Client) (event : TraceEvent)
  | push (client : Client) (orgId : Option String)
  | pull (client : Client)

/-- The ids that an operation moves. -/
def SyncOperation.action {Client : Type} :
    SyncOperation Client → HubReplicas.Action Client Uuid
  | .append client event => .write client event.eventId
  | .push client _ => .push client
  | .pull client => .pull client

section Sync
variable {Client Db : Type} [DecidableEq Client]
variable (rfc3339 : DateTime → String) (metadata : MetadataOps Db) (repoId : String)

def World.setReplica (world : World Client Db) (client : Client) (replica : Replica Db) :
    World Client Db :=
  { world with replicas := Function.update world.replicas client replica }

@[simp] theorem World.replicas_setReplica_self (world : World Client Db) (client : Client)
    (replica : Replica Db) : (world.setReplica client replica).replicas client = replica :=
  Function.update_self ..

theorem World.replicas_setReplica_of_ne (world : World Client Db) {client other : Client}
    {replica : Replica Db} (differs : other ≠ client) :
    (world.setReplica client replica).replicas other = world.replicas other :=
  Function.update_of_ne differs _ _

/-- One operation of one client for the repo: whether it succeeds, and what it leaves. -/
def perform (world : World Client Db) :
    SyncOperation Client → Except SyncError Unit × World Client Db
  | .append client event =>
      let replica := world.replicas client
      match replica.eventStore.appendEvent rfc3339 repoId event with
      | .error failure => (.error (.store failure), world)
      | .ok grown => (.ok (), world.setReplica client { replica with eventStore := grown })
  | .push client orgId =>
      let outcome := pushRepo world.server (world.replicas client).eventStore repoId orgId
      (outcome.1, { world with server := outcome.2 })
  | .pull client =>
      let outcome := pullRepo rfc3339 metadata world.server (world.replicas client) repoId
      (outcome.1, world.setReplica client outcome.2)

def nextWorld (world : World Client Db) (operation : SyncOperation Client) : World Client Db :=
  (perform rfc3339 metadata repoId world operation).2

def Succeeds (world : World Client Db) (operation : SyncOperation Client) : Prop :=
  (perform rfc3339 metadata repoId world operation).1 = .ok ()

/-! ## Nothing is lost -/

/-- Every event that could be read anywhere can still be read there. -/
structure NothingLost (before after : World Client Db) : Prop where
  server : ∀ filter, before.server.readEventsForRepo filter ⊆ after.server.readEventsForRepo filter
  replicas : ∀ client filter,
    (before.replicas client).eventStore.readEventsForRepo filter ⊆
      (after.replicas client).eventStore.readEventsForRepo filter

omit [DecidableEq Client] in
theorem NothingLost.refl (world : World Client Db) : NothingLost world world :=
  ⟨fun _ => List.Subset.refl _, fun _ _ => List.Subset.refl _⟩

omit [DecidableEq Client] in
theorem NothingLost.trans {first second third : World Client Db}
    (earlier : NothingLost first second) (later : NothingLost second third) :
    NothingLost first third :=
  ⟨fun filter => List.Subset.trans (earlier.server filter) (later.server filter),
    fun client filter =>
      List.Subset.trans (earlier.replicas client filter) (later.replicas client filter)⟩

theorem NothingLost.setReplica (world : World Client Db) {client : Client} {replica : Replica Db}
    (kept : (world.replicas client).eventStore.events.rows ⊆ replica.eventStore.events.rows) :
    NothingLost world (world.setReplica client replica) where
  server _ := List.Subset.refl _
  replicas other filter := by
    by_cases same : other = client
    · subst same
      rw [World.replicas_setReplica_self]
      exact fun _ => LocalEventStore.mem_readEvents_of_rows_subset kept
    · rw [World.replicas_setReplica_of_ne world same]
      exact List.Subset.refl _

/-- An operation takes nothing away, whether it succeeds or not. -/
theorem nothingLost_nextWorld (world : World Client Db) (operation : SyncOperation Client) :
    NothingLost world (nextWorld rfc3339 metadata repoId world operation) := by
  cases operation with
  | append client event =>
      unfold nextWorld perform
      dsimp only
      cases appended : (world.replicas client).eventStore.appendEvent rfc3339 repoId event with
      | error failure => exact NothingLost.refl world
      | ok grown =>
          exact NothingLost.setReplica world (LocalEventStore.rows_subset_appendEvent appended)
  | push client orgId =>
      refine ⟨fun filter => ?_, fun _ _ => List.Subset.refl _⟩
      have grown := eventLog_prefix_pushRepo world.server (world.replicas client).eventStore
        repoId orgId
      rw [readEventsForRepo_eq, readEventsForRepo_eq]
      exact (matchingEvents_isPrefix filter grown).subset
  | pull client =>
      exact NothingLost.setReplica world (rows_subset_pullRepo world.server _ repoId)

/-! ## The ids of the repo -/

/-- Exactly the owned ids belong to events of the repo, wherever events are kept. -/
structure Apart (owned : Uuid → Prop) (world : World Client Db) : Prop where
  server : ∀ event ∈ logEvents world.server.eventLog,
    event.repoId = some repoId ↔ owned event.eventId
  replicas : ∀ client, (world.replicas client).eventStore.Owns owned repoId

def listedIds (server : NumberedStore) : List Uuid :=
  (server.readEventsForRepo (some repoId)).map (·.eventId)

/-- The system of replicas around a hub that the event ids of the repo form. -/
def heldIds (world : World Client Db) : HubReplicas.System Client Uuid where
  hub := { eventId | eventId ∈ listedIds repoId world.server }
  held client := { eventId | eventId ∈ (world.replicas client).eventStore.knownEventIds repoId }

/-- What a run asks of its operations: they succeed, and append events of the repo. -/
def Admits (owned : Uuid → Prop) : SyncOperation Client → Prop
  | .append _ event => owned event.eventId ∧ FitsRepo (some repoId) event
  | _ => True

section Steps
variable {rfc3339 : DateTime → String} {metadata : MetadataOps Db} {repoId : String}
variable {owned : Uuid → Prop}

omit [DecidableEq Client] in
theorem Apart.mem_listedIds {world : World Client Db} (apart : Apart repoId owned world)
    (eventId : Uuid) :
    eventId ∈ listedIds repoId world.server ↔
      eventId ∈ logIds world.server.eventLog ∧ owned eventId := by
  rw [listedIds, readEventsForRepo_eq, logIds]
  simp only [List.mem_map, List.mem_filter, repoMatches, beq_iff_eq]
  constructor
  · rintro ⟨event, ⟨member, ofRepo⟩, rfl⟩
    exact ⟨⟨event, member, rfl⟩, (apart.server event member).mp ofRepo⟩
  · rintro ⟨⟨event, member, rfl⟩, isOwned⟩
    exact ⟨event, ⟨member, (apart.server event member).mpr isOwned⟩, rfl⟩

theorem getD_repoId_of_fits {event : TraceEvent} (fits : FitsRepo (some repoId) event) :
    event.repoId.getD repoId = repoId := by
  cases named : event.repoId with
  | none => rfl
  | some repo => exact fits repoId repo rfl named

theorem Apart.setReplica {world : World Client Db} (apart : Apart repoId owned world)
    {client : Client} {replica : Replica Db} (owns : replica.eventStore.Owns owned repoId) :
    Apart repoId owned (world.setReplica client replica) where
  server := apart.server
  replicas other := by
    by_cases same : other = client
    · subst same
      rwa [World.replicas_setReplica_self]
    · rw [World.replicas_setReplica_of_ne world same]
      exact apart.replicas other

/-- Replacing a replica by one that knows more is an update of what it holds. -/
theorem heldIds_setReplica (world : World Client Db) (client : Client) (replica : Replica Db) :
    heldIds repoId (world.setReplica client replica) =
      { heldIds repoId world with
        held := Function.update (heldIds repoId world).held client
          { eventId | eventId ∈ replica.eventStore.knownEventIds repoId } } := by
  refine HubReplicas.System.ext rfl (funext fun other => ?_)
  dsimp only
  by_cases same : other = client
  · subst same
    rw [Function.update_self]
    simp only [heldIds, World.replicas_setReplica_self]
  · rw [Function.update_of_ne same]
    simp only [heldIds, World.replicas_setReplica_of_ne world same]

omit [DecidableEq Client] in
/-- The stored events of a push that succeeds are events of the repo with owned ids. -/
theorem Apart.push {world : World Client Db} (apart : Apart repoId owned world) {client : Client}
    {orgId : Option String}
    (succeeded : (pushRepo world.server (world.replicas client).eventStore repoId orgId).1 = .ok ()) :
    let server := (pushRepo world.server (world.replicas client).eventStore repoId orgId).2
    Apart repoId owned { world with server := server } ∧
      ∀ eventId, eventId ∈ logIds server.eventLog ↔
        eventId ∈ logIds world.server.eventLog ∨
          eventId ∈ (world.replicas client).eventStore.knownEventIds repoId := by
  obtain ⟨events, named, ids, eventLog⟩ := pushRepo_of_ok succeeded
  have fits : ∀ event ∈ events, FitsRepo (some repoId) event := by
    rintro event member _ repo ⟨⟩ isRepo
    exact Option.some.inj (isRepo.symm.trans (named event member))
  rw [ServerStore.newEvents_of_fits _ fits] at eventLog
  intro server
  have log : server.eventLog = _ := eventLog
  refine ⟨⟨?_, apart.replicas⟩, fun eventId => ?_⟩
  · intro event member
    change event ∈ logEvents server.eventLog at member
    rw [log, logEvents_append, logEvents_map_event] at member
    rcases List.mem_append.mp member with held | added
    · exact apart.server event held
    · obtain ⟨sent, isFresh, rfl⟩ := List.mem_map.mp added
      have isSent := (FirstSeen.fresh_sublist ..).subset isFresh
      have known : sent.eventId ∈ (world.replicas client).eventStore.knownEventIds repoId :=
        ids ▸ List.mem_map_of_mem isSent
      exact ⟨fun _ => (apart.replicas client).owned_of_known known,
        fun _ => fillRepo_repoId (fits sent isSent)⟩
  · rw [log, logIds, logEvents_append, logEvents_map_event, List.map_append, map_eventId_fillRepo,
      List.mem_append, FirstSeen.mem_fresh_keys, ids]
    change eventId ∈ logIds _ ∨ _ ↔ _
    tauto

omit [DecidableEq Client] in
theorem Apart.pull {world : World Client Db} (apart : Apart repoId owned world) {client : Client}
    (succeeded :
      (pullRepo rfc3339 metadata world.server (world.replicas client) repoId).1 = .ok ()) :
    let pulled := (pullRepo rfc3339 metadata world.server (world.replicas client) repoId).2.eventStore
    pulled.Owns owned repoId ∧
      ∀ eventId, eventId ∈ pulled.knownEventIds repoId ↔
        eventId ∈ (world.replicas client).eventStore.knownEventIds repoId ∨
          eventId ∈ listedIds repoId world.server := by
  obtain ⟨appended, same⟩ := pullRepo_of_ok succeeded
  have listed : listedIds repoId world.server =
      (matchingEvents (some repoId) world.server.eventLog).map (·.eventId) := by
    rw [listedIds, readEventsForRepo_eq]
    rfl
  have allOwned : ∀ event ∈ matchingEvents (some repoId) world.server.eventLog,
      owned event.eventId ∧ event.repoId.getD repoId = repoId := by
    intro event member
    obtain ⟨inLog, ofRepo⟩ := List.mem_filter.mp member
    have named : event.repoId = some repoId := beq_iff_eq.mp ofRepo
    exact ⟨(apart.server event inLog).mp named, by rw [named, Option.getD_some]⟩
  dsimp only
  rw [same, listed]
  exact LocalEventStore.known_append_deduped (apart.replicas client) allOwned appended

variable (rfc3339 metadata)

/-- What a step asks for: it succeeds, and an append is of an event of the repo. -/
def Permitted (repoId : String) (owned : Uuid → Prop) (world : World Client Db)
    (operation : SyncOperation Client) : Prop :=
  Succeeds rfc3339 metadata repoId world operation ∧ Admits repoId owned operation

/-- One permitted operation keeps the repo's ids apart and moves them as the
replicas around a hub do. -/
theorem nextWorld_simulates (world : World Client Db) (operation : SyncOperation Client)
    (apart : Apart repoId owned world)
    (permitted : Permitted rfc3339 metadata repoId owned world operation) :
    Apart repoId owned (nextWorld rfc3339 metadata repoId world operation) ∧
      heldIds repoId (nextWorld rfc3339 metadata repoId world operation) =
        HubReplicas.act (heldIds repoId world) operation.action := by
  obtain ⟨succeeded, admitted⟩ := permitted
  cases operation with
  | append client event =>
      unfold Succeeds perform at succeeded
      unfold nextWorld perform
      dsimp only at succeeded ⊢
      have fits := getD_repoId_of_fits admitted.2
      cases appended : (world.replicas client).eventStore.appendEvent rfc3339 repoId event with
      | error failure =>
          rw [appended] at succeeded
          cases succeeded
      | ok grown =>
          have owns := apart.replicas client
          refine ⟨apart.setReplica (owns.appendEvent admitted.1 fits appended), ?_⟩
          dsimp only
          rw [heldIds_setReplica]
          simp only [SyncOperation.action, HubReplicas.act]
          congr 2
          ext eventId
          exact LocalEventStore.known_appendEvent owns admitted.1 fits appended eventId
  | push client orgId =>
      obtain ⟨pushedApart, pushedIds⟩ := apart.push succeeded
      refine ⟨pushedApart, HubReplicas.System.ext (Set.ext fun eventId => ?_) rfl⟩
      have known : eventId ∈ (world.replicas client).eventStore.knownEventIds repoId →
          owned eventId := (apart.replicas client).owned_of_known
      have after := pushedApart.mem_listedIds eventId
      dsimp only at after
      rw [pushedIds, or_and_right, and_iff_left_of_imp known, ← apart.mem_listedIds] at after
      exact after
  | pull client =>
      obtain ⟨pulledOwns, pulledIds⟩ := apart.pull succeeded
      refine ⟨apart.setReplica pulledOwns, ?_⟩
      unfold nextWorld perform
      dsimp only
      rw [heldIds_setReplica]
      simp only [SyncOperation.action, HubReplicas.act]
      congr 2
      ext eventId
      exact pulledIds eventId

theorem nodup_logIds_nextWorld (world : World Client Db) (operation : SyncOperation Client)
    (distinct : (logIds world.server.eventLog).Nodup) :
    (logIds (nextWorld rfc3339 metadata repoId world operation).server.eventLog).Nodup := by
  cases operation with
  | append client event =>
      unfold nextWorld perform
      dsimp only
      cases (world.replicas client).eventStore.appendEvent rfc3339 repoId event with
      | error failure => exact distinct
      | ok grown => exact distinct
  | push client orgId => exact nodup_logIds_pushRepo distinct _ repoId orgId
  | pull client => exact distinct

/-- The client pushes, and appends nothing afterwards. -/
def PushesLast (client : Client) (operations : List (SyncOperation Client)) : Prop :=
  ∃ before orgId after, operations = before ++ .push client orgId :: after ∧
    ∀ event, .append client event ∉ after

omit [DecidableEq Client] in
theorem write_notMem_actions {client : Client} {operations : List (SyncOperation Client)}
    (quiet : ∀ event, .append client event ∉ operations) (eventId : Uuid) :
    .write client eventId ∉ operations.map SyncOperation.action := by
  intro member
  obtain ⟨operation, isOperation, same⟩ := List.mem_map.mp member
  cases operation with
  | append other event =>
      cases same
      exact quiet event isOperation
  | push other orgId => cases same
  | pull other => cases same

omit [DecidableEq Client] in
theorem PushesLast.actions {client : Client} {operations : List (SyncOperation Client)}
    (pushes : PushesLast client operations) :
    HubReplicas.PushesLast client (operations.map SyncOperation.action) := by
  obtain ⟨before, orgId, after, rfl, quiet⟩ := pushes
  exact ⟨before.map SyncOperation.action, after.map SyncOperation.action, by
    rw [List.map_append, List.map_cons]
    rfl, write_notMem_actions quiet⟩

/-- Clients of one repo that succeed in all they do lose nothing, and agree with each
other and with the server once every client has pushed all its events and, with no
appends in between, every client has pulled. -/
theorem clients_converge (start : World Client Db) (apart : Apart repoId owned start)
    (distinct : (logIds start.server.eventLog).Nodup) (operations : List (SyncOperation Client))
    (admitted : ∀ operation ∈ operations, Admits repoId owned operation)
    (succeeded : Runs.Meets (nextWorld rfc3339 metadata repoId)
      (Succeeds rfc3339 metadata repoId) start operations) :
    let final := Runs.run (nextWorld rfc3339 metadata repoId) start operations
    (∀ earlier later, operations = earlier ++ later →
        NothingLost (Runs.run (nextWorld rfc3339 metadata repoId) start earlier) final) ∧
      ∀ first second, operations = first ++ second →
        (∀ client, PushesLast client first) →
        (∀ client event, .append client event ∉ second) →
        (∀ client, .pull client ∈ second) →
          (listedIds repoId final.server).Nodup ∧
            ∀ client,
              let known := ((final.replicas client).eventStore.readEventsForRepo
                (some repoId)).map (·.eventId)
              known.Nodup ∧ ∀ eventId, eventId ∈ known ↔ eventId ∈ listedIds repoId final.server := by
  intro final
  constructor
  · rintro earlier later rfl
    have related := Runs.run_related (nextWorld rfc3339 metadata repoId) NothingLost.refl
      (fun _ _ _ => NothingLost.trans) (nothingLost_nextWorld rfc3339 metadata repoId)
      (Runs.run (nextWorld rfc3339 metadata repoId) start earlier) later
    rwa [← Runs.run_append] at related
  · rintro first second rfl pushes quiet pulls
    have permitted := Runs.meets_and_of_mem _ succeeded admitted
    have followed := Runs.view_run (nextWorld rfc3339 metadata repoId) HubReplicas.act
      (heldIds repoId) SyncOperation.action
      (fun world operation kept step =>
        (nextWorld_simulates rfc3339 metadata world operation kept step).1)
      (fun world operation kept step =>
        (nextWorld_simulates rfc3339 metadata world operation kept step).2)
      apart permitted
    rw [List.map_append] at followed
    have agrees := HubReplicas.held_eq_hub (heldIds repoId start)
      (fun client => (pushes client).actions)
      (fun client => write_notMem_actions (quiet client))
      (fun client => List.mem_map.mpr ⟨.pull client, pulls client, rfl⟩)
    rw [← followed] at agrees
    have distinctLog : (logIds final.server.eventLog).Nodup :=
      Runs.run_of_step (nextWorld rfc3339 metadata repoId)
        (nodup_logIds_nextWorld rfc3339 metadata) _ distinct
    refine ⟨?_, fun client => ⟨LocalEventStore.nodup_read_ids _ _, fun eventId => ?_⟩⟩
    · rw [listedIds, readEventsForRepo_eq]
      exact nodup_matching_ids distinctLog
    · exact Set.ext_iff.mp (agrees client) eventId

end Steps

end Sync

/-! ## Two clients -/

def missionEvent (eventId : Fin (16 ^ 32)) : TraceEvent :=
  { pushedEvent eventId none none with eventType := .missionCreated }

/-- An observed session with one chunk of its transcript. -/
def observedEvent (eventId : Fin (16 ^ 32)) : TraceEvent :=
  { pushedEvent eventId (some "repo-a") none with
    payload := .object [("external_session_id", .string "session-1"),
      ("normalized_chunks", .array [.object [("role", .string "assistant")]]),
      ("source_id", .string "orgii")] }

theorem countable_new : ServerStore.new.eventLog.length < 2 ^ 64 := by decide

def twoClients : World (Fin 2) Unit where
  server := { toServerStore := ServerStore.new, countable := countable_new }
  replicas client := ⟨.new client.val.repr, ()⟩

/-- A metadata database that takes everything. -/
def acceptingMetadata : MetadataOps Unit := ⟨fun _ _ => some (), fun _ _ => some ()⟩

def oneInstant : DateTime → String := fun _ => "2026-01-01T00:00:00+00:00"

/-- The second client appends and pushes after the first one has pushed. -/
def twoPushes : List (SyncOperation (Fin 2)) :=
  [.append 0 (missionEvent 1), .push 0 none, .append 1 (observedEvent 2), .push 1 (some "org-1")]

def twoPulls : List (SyncOperation (Fin 2)) := [.pull 0, .pull 1]

theorem twoClients_converge :
    let final := Runs.run (nextWorld oneInstant acceptingMetadata "repo-a") twoClients
      (twoPushes ++ twoPulls)
    (listedIds "repo-a" final.server).Nodup ∧
      ∀ client,
        let known := ((final.replicas client).eventStore.readEventsForRepo
          (some "repo-a")).map (·.eventId)
        known.Nodup ∧ ∀ eventId, eventId ∈ known ↔ eventId ∈ listedIds "repo-a" final.server := by
  have apart : Apart "repo-a" (fun _ => True) twoClients := by
    constructor
    · intro event member
      cases member
    · intro client row member
      cases member
  have admitted : ∀ operation ∈ twoPushes ++ twoPulls, Admits "repo-a" (fun _ => True) operation := by
    simp [twoPushes, twoPulls, Admits, FitsRepo, missionEvent, observedEvent, pushedEvent]
  have pushes : ∀ client, PushesLast client twoPushes := by
    refine Fin.forall_fin_two.mpr ⟨?_, ?_⟩
    · exact ⟨[.append 0 (missionEvent 1)], none,
        [.append 1 (observedEvent 2), .push 1 (some "org-1")], rfl, by simp⟩
    · exact ⟨[.append 0 (missionEvent 1), .push 0 none, .append 1 (observedEvent 2)],
        some "org-1", [], rfl, by simp⟩
  refine (clients_converge oneInstant acceptingMetadata twoClients apart List.nodup_nil
    (twoPushes ++ twoPulls) admitted ⟨rfl, rfl, rfl, rfl, rfl, rfl, trivial⟩).2
    twoPushes twoPulls rfl pushes (by simp [twoPulls]) ?_
  exact Fin.forall_fin_two.mpr ⟨by simp [twoPulls], by simp [twoPulls]⟩

end BrickTrace
