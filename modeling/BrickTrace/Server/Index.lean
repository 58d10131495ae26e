import BrickTrace.Core.Index
import BrickTrace.Server.Store

/-!
# The query projection of the server

Status and session queries rebuild an index from the stored events of a repo,
or of all repos.
-/

set_option autoImplicit false

namespace BrickTrace

open OrderedMap

structure SessionQuery where
  appId : Option String
  appSessionId : Option String
  appSessionName : Option String
  runtimeId : Option String
  actorId : Option String

def matchesOptional (expected actual : Option String) : Bool :=
  match expected with
  | some expected => actual == some expected
  | none => true

def SessionQuery.accepts (query : SessionQuery) (session : IndexedSession) : Bool :=
  matchesOptional query.appId session.source.appId &&
    matchesOptional query.appSessionId session.source.appSessionId &&
    matchesOptional query.appSessionName session.source.appSessionName &&
    matchesOptional query.runtimeId session.source.runtimeId &&
    matchesOptional query.actorId session.actorId

/-- Newest first; sessions of the same time in the order of their ids. -/
def sessionBefore (left right : IndexedSession) : Bool :=
  let newer := compare right.lastEventAt.nanoseconds left.lastEventAt.nanoseconds
  (newer.then (compare left.sessionId right.sessionId)).isLE

def queryIndexedSessions (index : TraceIndex) (query : SessionQuery) : List IndexedSession :=
  ((values index.sessions).filter query.accepts).mergeSort sessionBefore

structure ServerIndexStatus where
  repoId : Option String
  eventCount : Nat
  missionCount : Nat
  sessionCount : Nat
  artifactCount : Nat
  fileCount : Nat
  sessionLogCount : Nat
  diffCount : Nat
  rebuiltAt : DateTime

structure ServerSessionQuery extends SessionQuery where
  limit : Option Nat

structure ServerSessionsResponse where
  repoId : Option String
  sessions : List IndexedSession

def rebuildServerIndex (mode : OverflowMode) (now : DateTime) (repoId : Option String)
    (events : List TraceEvent) : Except BuildError TraceIndex :=
  TraceIndex.build mode now (events.filter fun event => repoMatches event.repoId repoId)

def serverIndexStatus (repoId : Option String) (index : TraceIndex) : ServerIndexStatus where
  repoId := repoId
  eventCount := index.eventCount
  missionCount := index.missions.size
  sessionCount := index.sessions.size
  artifactCount := index.artifacts.size
  fileCount := index.files.size
  sessionLogCount := index.sessionLogs.size
  diffCount := index.diffs.size
  rebuiltAt := index.rebuiltAt

def queryServerSessions (repoId : Option String) (index : TraceIndex)
    (query : ServerSessionQuery) : ServerSessionsResponse where
  repoId := repoId
  sessions :=
    (queryIndexedSessions index query.toSessionQuery).take (min (max (query.limit.getD 20) 1) 1000)

end BrickTrace
