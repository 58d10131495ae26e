import BrickTrace.Lib.Numerals
import BrickTrace.Lib.OrderedMap
import BrickTrace.Server.Auth

/-!
# The append-only store of the server

The event log is the source of truth.  A map from repos to their owning orgs is
derived from it, kept in a file and cached in memory; the members of the orgs
are kept in a file of their own.  File operations succeed.
-/

set_option autoImplicit false

namespace BrickTrace

open OrderedMap

abbrev RepoOrgMap := Map String String

abbrev OrgMembersMap := Map String (KeySet String)

def defaultEventLimit : Nat := 100

def maxEventLimit : Nat := 1000

/-- A line of `events.jsonl`: white space only, or one event. -/
inductive LogLine where
  | blank
  | event (event : TraceEvent)

def LogLine.event? : LogLine → Option TraceEvent
  | .blank => none
  | .event stored => some stored

structure SequencedEvent where
  sequence : Nat
  event : TraceEvent

/-- The files of the data directory, and the caches that all handlers share.
A cache is `none` until it is first populated. -/
structure ServerStore where
  eventLog : List LogLine
  repoOrgFile : Option RepoOrgMap
  orgMembersFile : Option OrgMembersMap
  repoOrg : Option RepoOrgMap
  orgMembers : Option OrgMembersMap

inductive StoreError where
  | repoMismatch (eventId : Uuid) (eventRepoId routeRepoId : String)
  | invalidCursor (value : String)
deriving DecidableEq

/-- The text of an error; `debugText` is how a text is written for debugging. -/
def StoreError.message (debugText : String → String) : StoreError → String
  | .repoMismatch eventId eventRepoId routeRepoId =>
      "event " ++ eventId.text ++ " repo_id " ++ debugText eventRepoId ++
        " does not match route repo_id " ++ debugText routeRepoId
  | .invalidCursor value => "invalid event cursor " ++ debugText value

structure PushEventsResponse where
  acceptedEventIds : List Uuid
  duplicateEventIds : List Uuid
deriving DecidableEq

structure ListEventsResponse where
  events : List TraceEvent
  cursor : Option String
  nextCursor : Option String

/-! ## Reading the log -/

/-- The events with their line numbers; the first line is line `lineIndex + 1`. -/
def sequencedEvents : Nat → List LogLine → List SequencedEvent
  | _, [] => []
  | lineIndex, .blank :: rest => sequencedEvents (lineIndex + 1) rest
  | lineIndex, .event event :: rest =>
      ⟨lineIndex + 1, event⟩ :: sequencedEvents (lineIndex + 1) rest

def repoMatches (eventRepoId filterRepoId : Option String) : Bool :=
  match filterRepoId with
  | some repoId => eventRepoId == some repoId
  | none => true

def parseCursor (cursor : Option String) : Except StoreError Nat :=
  match cursor with
  | some value =>
      if isBlank value then .ok 0
      else
        match Numerals.parseUnsigned (2 ^ 64) value with
        | some sequence => .ok sequence
        | none => .error (.invalidCursor value)
  | none => .ok 0

/-- The loop of `list_events_page`: the page so far, the sequence of its last
event, and whether the loop stopped at an event that no longer fits. -/
def scanPage (repoId : Option String) (afterSequence limit : Nat) :
    List SequencedEvent → List TraceEvent → Option Nat → List TraceEvent × Option Nat × Bool
  | [], page, lastSequence => (page, lastSequence, false)
  | entry :: rest, page, lastSequence =>
      if entry.sequence ≤ afterSequence then scanPage repoId afterSequence limit rest page lastSequence
      else if ¬ repoMatches entry.event.repoId repoId then
        scanPage repoId afterSequence limit rest page lastSequence
      else if page.length = limit then (page, lastSequence, true)
      else
        scanPage repoId afterSequence limit rest (page ++ [entry.event]) (some entry.sequence)

/-! ## Appending -/

def normalizeRepoEvent (routeRepoId : String) (event : TraceEvent) :
    Except StoreError TraceEvent :=
  match event.repoId with
  | some eventRepoId =>
      if eventRepoId ≠ routeRepoId then
        .error (.repoMismatch event.eventId eventRepoId routeRepoId)
      else .ok event
  | none => .ok { event with repoId := some routeRepoId }

def normalizeRepoEvents (repoId : Option String) (events : List TraceEvent) :
    Except StoreError (List TraceEvent) :=
  match repoId with
  | none => .ok events
  | some routeRepoId => events.mapM (normalizeRepoEvent routeRepoId)

/-- The binding of a repo to an org that an event carries. -/
def repoOrgBinding (event : TraceEvent) : Option (String × String) :=
  match event.repoId, event.orgId with
  | some repo, some org => some (repo, org.text)
  | _, _ => none

/-- What one call of `append_events_for_repo` keeps while it goes through its events. -/
structure AppendProgress where
  acceptedEventIds : List Uuid
  duplicateEventIds : List Uuid
  seenInRequest : List Uuid
  acceptedRepoOrgs : List (String × String)

def AppendProgress.start : AppendProgress := ⟨[], [], [], []⟩

def AppendProgress.response (progress : AppendProgress) : PushEventsResponse where
  acceptedEventIds := progress.acceptedEventIds
  duplicateEventIds := progress.duplicateEventIds

/-- One turn of the loop: the line it writes, if it writes one. -/
def appendTurn (existingEventIds : List Uuid) (progress : AppendProgress) (event : TraceEvent) :
    Option LogLine × AppendProgress :=
  if event.eventId ∈ existingEventIds ∨ event.eventId ∈ progress.seenInRequest then
    (none,
      { progress with duplicateEventIds := progress.duplicateEventIds ++ [event.eventId] })
  else
    (some (.event event),
      { progress with
        seenInRequest := event.eventId :: progress.seenInRequest
        acceptedRepoOrgs := progress.acceptedRepoOrgs ++ (repoOrgBinding event).toList
        acceptedEventIds := progress.acceptedEventIds ++ [event.eventId] })

def appendLoop (existingEventIds : List Uuid) :
    List TraceEvent → List LogLine → AppendProgress → List LogLine × AppendProgress
  | [], log, progress => (log, progress)
  | event :: rest, log, progress =>
      let turn := appendTurn existingEventIds progress event
      appendLoop existingEventIds rest (log ++ turn.1.toList) turn.2

/-- One turn of `record_repo_orgs`: the map, and whether it has changed. -/
def bindRepoOrg (state : RepoOrgMap × Bool) (binding : String × String) : RepoOrgMap × Bool :=
  if binding.1 ∈ state.1 then state else (state.1.insert binding.1 binding.2, true)

namespace ServerStore

def readSequencedEvents (store : ServerStore) : List SequencedEvent :=
  sequencedEvents 0 store.eventLog

def readEvents (store : ServerStore) : List TraceEvent :=
  store.readSequencedEvents.map (·.event)

def readEventsForRepo (store : ServerStore) (repoId : Option String) : List TraceEvent :=
  (store.readSequencedEvents.filter fun entry => repoMatches entry.event.repoId repoId).map (·.event)

def listEventsPage (store : ServerStore) (repoId after : Option String) (limit : Option Nat) :
    Except StoreError ListEventsResponse := do
  let afterSequence ← parseCursor after
  let normalizedLimit := min (max (limit.getD defaultEventLimit) 1) maxEventLimit
  let (page, lastSequence, hasMore) :=
    scanPage repoId afterSequence normalizedLimit store.readSequencedEvents [] none
  let nextCursor := if hasMore then lastSequence.map Nat.repr else none
  return ⟨page, after, nextCursor⟩

/-! ## The map from repos to orgs -/

def loadRepoOrgFile (store : ServerStore) : Option RepoOrgMap := store.repoOrgFile

def writeRepoOrgFile (store : ServerStore) (map : RepoOrgMap) : ServerStore :=
  { store with repoOrgFile := some map }

/-- The first org of a repo wins. -/
def rebuildRepoOrgFromLog (store : ServerStore) : RepoOrgMap :=
  store.readSequencedEvents.foldl (fun map entry =>
    match repoOrgBinding entry.event with
    | some (repo, org) => map.insertIfNew repo org
    | none => map) ∅

/-- The locked end of `ensure_repo_org_loaded`: an already loaded map stays. -/
def setRepoOrgIfEmpty (store : ServerStore) (map : RepoOrgMap) : ServerStore :=
  match store.repoOrg with
  | none => { store with repoOrg := some map }
  | some _ => store

def ensureRepoOrgLoaded (store : ServerStore) : ServerStore :=
  match store.repoOrg with
  | some _ => store
  | none =>
      match store.loadRepoOrgFile with
      | some map => store.setRepoOrgIfEmpty map
      | none =>
          let rebuilt := store.rebuildRepoOrgFromLog
          (store.writeRepoOrgFile rebuilt).setRepoOrgIfEmpty rebuilt

def resolveRepoOrg (store : ServerStore) (repoId : String) : Option String × ServerStore :=
  match store.repoOrg with
  | some map => (map[repoId]?, store)
  | none =>
      let loaded := store.ensureRepoOrgLoaded
      (loaded.repoOrg.bind fun map => map[repoId]?, loaded)

/-- The locked part of `record_repo_orgs`: the file is written when the map changed. -/
def recordLocked (store : ServerStore) (bindings : List (String × String)) : ServerStore :=
  let (map, changed) := bindings.foldl bindRepoOrg (store.repoOrg.getD ∅, false)
  let cached := { store with repoOrg := some map }
  if changed then cached.writeRepoOrgFile map else cached

def recordRepoOrgs (store : ServerStore) (bindings : List (String × String)) : ServerStore :=
  store.ensureRepoOrgLoaded.recordLocked bindings

def claimRepoOrg (store : ServerStore) (repoId orgId : String) : ServerStore :=
  store.recordRepoOrgs [(repoId, orgId)]

def appendEventsForRepo (store : ServerStore) (repoId : Option String)
    (events : List TraceEvent) : Except StoreError PushEventsResponse × ServerStore :=
  match normalizeRepoEvents repoId events with
  | .error failure => (.error failure, store)
  | .ok events =>
      let existingEventIds := store.readEvents.map (·.eventId)
      let (log, progress) := appendLoop existingEventIds events store.eventLog .start
      let written := { store with eventLog := log }
      let recorded :=
        if progress.acceptedRepoOrgs.isEmpty then written
        else written.recordRepoOrgs progress.acceptedRepoOrgs
      (.ok progress.response, recorded)

def appendEvents (store : ServerStore) (events : List TraceEvent) :
    Except StoreError PushEventsResponse × ServerStore :=
  store.appendEventsForRepo none events

/-! ## The members of the orgs -/

def loadOrgMembersFile (store : ServerStore) : Option OrgMembersMap := store.orgMembersFile

def writeOrgMembersFile (store : ServerStore) (map : OrgMembersMap) : ServerStore :=
  { store with orgMembersFile := some map }

def ensureOrgMembersLoaded (store : ServerStore) : ServerStore :=
  match store.orgMembers with
  | some _ => store
  | none => { store with orgMembers := some (store.loadOrgMembersFile.getD ∅) }

def addOrgMember (store : ServerStore) (orgId userId : String) : ServerStore :=
  let loaded := store.ensureOrgMembersLoaded
  let map := loaded.orgMembers.getD ∅
  let members := map[orgId]?.getD ∅
  let grown := map.insert orgId (members.insert userId)
  let cached := { loaded with orgMembers := some grown }
  if userId ∈ members then cached else cached.writeOrgMembersFile grown

def removeOrgMember (store : ServerStore) (orgId userId : String) : Bool × ServerStore :=
  let loaded := store.ensureOrgMembersLoaded
  let map := loaded.orgMembers.getD ∅
  let removed := match map[orgId]? with
    | some members => decide (userId ∈ members)
    | none => false
  let shrunk := map.modify orgId fun members => members.erase userId
  let cached := { loaded with orgMembers := some shrunk }
  (removed, bif removed then cached.writeOrgMembersFile shrunk else cached)

def orgMembersOf (store : ServerStore) (orgId : String) : List String × ServerStore :=
  let loaded := store.ensureOrgMembersLoaded
  (((loaded.orgMembers.bind fun map => map[orgId]?).map fun members => members.toList).getD [],
    loaded)

def isOrgMember (store : ServerStore) (orgId userId : String) : Bool × ServerStore :=
  let (members, loaded) := store.orgMembersOf orgId
  (members.any fun member => member == userId, loaded)

/-! ## Starting -/

/-- A store on a new data directory. -/
def new : ServerStore := ⟨[], none, none, none, none⟩

/-- A new process has the files and empty caches. -/
def restart (store : ServerStore) : ServerStore :=
  { store with repoOrg := none, orgMembers := none }

end ServerStore

end BrickTrace
