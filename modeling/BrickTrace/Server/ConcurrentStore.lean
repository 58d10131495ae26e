import BrickTrace.Lib.Interleaving
import BrickTrace.Server.RepoOrg

/-!
# The store under concurrent handlers

Handlers share one store and take atomic steps: a read of the cache, a read of
the file, a rebuild from the log, a write of the file, the locked set of the
cache, the locked recording of bindings, a read of the stored ids, and a write
of one line.  A handler that runs alone does what the store function does.
-/

set_option autoImplicit false

namespace BrickTrace

open OrderedMap Interleaving

inductive CallResult where
  | resolved (repoId : String) (orgId : Option String)
  | claimed
  | appended (response : PushEventsResponse)
  | rejected (failure : StoreError)
deriving DecidableEq

/-- What a handler does once `ensure_repo_org_loaded` has returned. -/
inductive OnceLoaded where
  | lookUp (repoId : String)
  | record (bindings : List (String × String)) (result : CallResult)

inductive Handler where
  | readCache (repoId : String)
  | checkLoaded (next : OnceLoaded)
  | loadFile (next : OnceLoaded)
  | rebuild (next : OnceLoaded)
  | writeFile (map : RepoOrgMap) (next : OnceLoaded)
  | setCache (map : RepoOrgMap) (next : OnceLoaded)
  | loaded (next : OnceLoaded)
  | readIds (events : List TraceEvent)
  | appendLines (existingEventIds : List Uuid) (rest : List TraceEvent)
      (progress : AppendProgress)
  | returned (result : CallResult)

inductive StoreCall where
  | resolve (repoId : String)
  | claim (repoId orgId : String)
  | append (repoId : Option String) (events : List TraceEvent)

def StoreCall.start : StoreCall → Handler
  | .resolve repoId => .readCache repoId
  | .claim repoId orgId => .checkLoaded (.record [(repoId, orgId)] .claimed)
  | .append repoId events =>
      match normalizeRepoEvents repoId events with
      | .error failure => .returned (.rejected failure)
      | .ok events => .readIds events

/-- What the handlers share, and what `resolve_repo_org` has returned so far. -/
structure Shared where
  store : ServerStore
  answers : List (String × Option String)

namespace Shared

def answer (shared : Shared) (repoId : String) (orgId : Option String) : Shared :=
  { shared with answers := shared.answers ++ [(repoId, orgId)] }

end Shared

/-- One atomic step of a handler. -/
def handlerStep (shared : Shared) : Handler → Option (Shared × Handler)
  | .readCache repoId =>
      match shared.store.repoOrg with
      | some map => some (shared.answer repoId map[repoId]?, .returned (.resolved repoId map[repoId]?))
      | none => some (shared, .checkLoaded (.lookUp repoId))
  | .checkLoaded next =>
      match shared.store.repoOrg with
      | some _ => some (shared, .loaded next)
      | none => some (shared, .loadFile next)
  | .loadFile next =>
      match shared.store.loadRepoOrgFile with
      | some map => some (shared, .setCache map next)
      | none => some (shared, .rebuild next)
  | .rebuild next => some (shared, .writeFile shared.store.rebuildRepoOrgFromLog next)
  | .writeFile map next =>
      some ({ shared with store := shared.store.writeRepoOrgFile map }, .setCache map next)
  | .setCache map next =>
      some ({ shared with store := shared.store.setRepoOrgIfEmpty map }, .loaded next)
  | .loaded (.lookUp repoId) =>
      let orgId := shared.store.repoOrg.bind fun map => map[repoId]?
      some (shared.answer repoId orgId, .returned (.resolved repoId orgId))
  | .loaded (.record bindings result) =>
      some ({ shared with store := shared.store.recordLocked bindings }, .returned result)
  | .readIds events =>
      some (shared, .appendLines (shared.store.readEvents.map (·.eventId)) events .start)
  | .appendLines existing (event :: rest) progress =>
      let turn := appendTurn existing progress event
      let written := { shared.store with eventLog := shared.store.eventLog ++ turn.1.toList }
      some ({ shared with store := written }, .appendLines existing rest turn.2)
  | .appendLines _ [] progress =>
      if progress.acceptedRepoOrgs.isEmpty then
        some (shared, .returned (.appended progress.response))
      else
        some (shared,
          .checkLoaded (.record progress.acceptedRepoOrgs (.appended progress.response)))
  | .returned _ => none

/-- What a step can do, by where the handler stands and what it finds there. -/
inductive Moves (shared : Shared) : Handler → Shared → Handler → Prop where
  | answerCached {repoId : String} {map : RepoOrgMap} (cached : shared.store.repoOrg = some map) :
      Moves shared (.readCache repoId) (shared.answer repoId map[repoId]?)
        (.returned (.resolved repoId map[repoId]?))
  | missCache {repoId : String} (cold : shared.store.repoOrg = none) :
      Moves shared (.readCache repoId) shared (.checkLoaded (.lookUp repoId))
  | alreadyLoaded {next : OnceLoaded} {map : RepoOrgMap} (cached : shared.store.repoOrg = some map) :
      Moves shared (.checkLoaded next) shared (.loaded next)
  | notLoaded {next : OnceLoaded} (cold : shared.store.repoOrg = none) :
      Moves shared (.checkLoaded next) shared (.loadFile next)
  | readFile {next : OnceLoaded} {map : RepoOrgMap} (file : shared.store.repoOrgFile = some map) :
      Moves shared (.loadFile next) shared (.setCache map next)
  | noFile {next : OnceLoaded} (absent : shared.store.repoOrgFile = none) :
      Moves shared (.loadFile next) shared (.rebuild next)
  | rebuild {next : OnceLoaded} :
      Moves shared (.rebuild next) shared (.writeFile shared.store.rebuildRepoOrgFromLog next)
  | writeFile {map : RepoOrgMap} {next : OnceLoaded} :
      Moves shared (.writeFile map next) { shared with store := shared.store.writeRepoOrgFile map }
        (.setCache map next)
  | setCache {map : RepoOrgMap} {next : OnceLoaded} :
      Moves shared (.setCache map next) { shared with store := shared.store.setRepoOrgIfEmpty map }
        (.loaded next)
  | lookUp {repoId : String} {orgId : Option String}
      (found : orgId = shared.store.repoOrg.bind fun map => map[repoId]?) :
      Moves shared (.loaded (.lookUp repoId)) (shared.answer repoId orgId)
        (.returned (.resolved repoId orgId))
  | record {bindings : List (String × String)} {result : CallResult} :
      Moves shared (.loaded (.record bindings result))
        { shared with store := shared.store.recordLocked bindings } (.returned result)
  | readIds {events : List TraceEvent} :
      Moves shared (.readIds events) shared
        (.appendLines (shared.store.readEvents.map (·.eventId)) events .start)
  | appendTurn {existing : List Uuid} {event : TraceEvent} {rest : List TraceEvent}
      {progress : AppendProgress} :
      Moves shared (.appendLines existing (event :: rest) progress)
        { shared with store := { shared.store with
            eventLog := shared.store.eventLog ++ (appendTurn existing progress event).1.toList } }
        (.appendLines existing rest (appendTurn existing progress event).2)
  | finish {existing : List Uuid} {progress : AppendProgress} :
      Moves shared (.appendLines existing [] progress) shared (.returned (.appended progress.response))
  | finishBindings {existing : List Uuid} {progress : AppendProgress} :
      Moves shared (.appendLines existing [] progress) shared
        (.checkLoaded (.record progress.acceptedRepoOrgs (.appended progress.response)))

theorem moves_of_step {before after : Shared} {mover moved : Handler}
    (taken : handlerStep before mover = some (after, moved)) : Moves before mover after moved := by
  cases mover with
  | readCache repoId =>
      unfold handlerStep at taken
      cases cached : before.store.repoOrg with
      | some map =>
          rw [cached] at taken
          cases taken
          exact .answerCached cached
      | none =>
          rw [cached] at taken
          cases taken
          exact .missCache cached
  | checkLoaded next =>
      unfold handlerStep at taken
      cases cached : before.store.repoOrg with
      | some map =>
          rw [cached] at taken
          cases taken
          exact .alreadyLoaded cached
      | none =>
          rw [cached] at taken
          cases taken
          exact .notLoaded cached
  | loadFile next =>
      unfold handlerStep ServerStore.loadRepoOrgFile at taken
      cases file : before.store.repoOrgFile with
      | some map =>
          rw [file] at taken
          cases taken
          exact .readFile file
      | none =>
          rw [file] at taken
          cases taken
          exact .noFile file
  | rebuild next =>
      cases taken
      exact .rebuild
  | writeFile map next =>
      cases taken
      exact .writeFile
  | setCache map next =>
      cases taken
      exact .setCache
  | loaded next =>
      cases next with
      | lookUp repoId =>
          cases taken
          exact .lookUp rfl
      | record bindings result =>
          cases taken
          exact .record
  | readIds events =>
      cases taken
      exact .readIds
  | appendLines existing rest progress =>
      cases rest with
      | cons event rest =>
          cases taken
          exact .appendTurn
      | nil =>
          change (if progress.acceptedRepoOrgs.isEmpty then _ else _) = _ at taken
          split at taken
          · cases taken
            exact .finish
          · cases taken
            exact .finishBindings
  | returned result => cases taken

/-! ## The server as a whole -/

abbrev Server := Pool Shared Handler

inductive ServerLabel where
  | call (call : StoreCall)
  | step (index : Nat)
  | restart

def Quiescent (server : Server) : Prop :=
  ∀ handler ∈ server.threads, ∃ result, handler = .returned result

instance (handler : Handler) : Decidable (∃ result, handler = .returned result) :=
  match handler with
  | .returned result => isTrue ⟨result, rfl⟩
  | .readCache _ | .checkLoaded _ | .loadFile _ | .rebuild _ | .writeFile _ _ | .setCache _ _
  | .loaded _ | .readIds _ | .appendLines _ _ _ => isFalse fun ⟨_, same⟩ => nomatch same

instance (server : Server) : Decidable (Quiescent server) :=
  inferInstanceAs (Decidable (∀ handler ∈ server.threads, _))

/-- A new call joins, a handler takes a step, or a server at rest is restarted. -/
def serverNext (server : Server) : ServerLabel → Server
  | .call call => spawn server call.start
  | .step index => advance handlerStep server index
  | .restart =>
      if Quiescent server then
        { server with shared := { server.shared with store := server.shared.store.restart } }
      else server

/-- A server started on a log, with or without `repo_org.json`. -/
def startServer (eventLog : List LogLine) (repoOrgFile : Option RepoOrgMap) : Server :=
  ⟨⟨⟨eventLog, repoOrgFile, none, none, none⟩, []⟩, []⟩

/-! ## A handler that runs alone -/

theorem alone_ensure (shared : Shared) (next : OnceLoaded) :
    Alone handlerStep shared (.checkLoaded next)
      { shared with store := shared.store.ensureRepoOrgLoaded } (.loaded next) := by
  cases cached : shared.store.repoOrg with
  | some map =>
      rw [ServerStore.ensureRepoOrgLoaded_of_warm cached]
      exact .next (by simp only [handlerStep, cached]) (.done _ _)
  | none =>
      refine .next (by simp only [handlerStep, cached]; rfl) ?_
      cases file : shared.store.repoOrgFile with
      | some map =>
          refine .next (by simp only [handlerStep, ServerStore.loadRepoOrgFile, file]; rfl) ?_
          refine .next rfl ?_
          rw [ServerStore.ensureRepoOrgLoaded]
          simp only [cached, ServerStore.loadRepoOrgFile, file]
          exact .done _ _
      | none =>
          refine .next (by simp only [handlerStep, ServerStore.loadRepoOrgFile, file]; rfl) ?_
          refine .next rfl (.next rfl (.next rfl ?_))
          rw [ServerStore.ensureRepoOrgLoaded]
          simp only [cached, ServerStore.loadRepoOrgFile, file]
          exact .done _ _

theorem alone_resolve (shared : Shared) (repoId : String) :
    let (orgId, store) := shared.store.resolveRepoOrg repoId
    Alone handlerStep shared (StoreCall.resolve repoId).start
      (Shared.answer ⟨store, shared.answers⟩ repoId orgId) (.returned (.resolved repoId orgId)) := by
  dsimp only
  cases cached : shared.store.repoOrg with
  | some map =>
      simp only [ServerStore.resolveRepoOrg, cached]
      exact .next (by simp only [StoreCall.start, handlerStep, cached]) (.done _ _)
  | none =>
      simp only [ServerStore.resolveRepoOrg, cached]
      refine .next (by simp only [StoreCall.start, handlerStep, cached]; rfl) ?_
      exact (alone_ensure shared (.lookUp repoId)).trans (.next rfl (.done _ _))

theorem alone_record (shared : Shared) (bindings : List (String × String)) (result : CallResult) :
    Alone handlerStep shared (.checkLoaded (.record bindings result))
      { shared with store := shared.store.recordRepoOrgs bindings } (.returned result) :=
  (alone_ensure shared _).trans (.next rfl (.done _ _))

theorem alone_claim (shared : Shared) (repoId orgId : String) :
    Alone handlerStep shared (StoreCall.claim repoId orgId).start
      { shared with store := shared.store.claimRepoOrg repoId orgId } (.returned .claimed) :=
  alone_record shared _ _

theorem alone_appendLines (shared : Shared) (existing : List Uuid) (events : List TraceEvent)
    (progress : AppendProgress) :
    let looped := appendLoop existing events shared.store.eventLog progress
    Alone handlerStep shared (.appendLines existing events progress)
      { shared with store := { shared.store with eventLog := looped.1 } }
      (.appendLines existing [] looped.2) := by
  induction events generalizing shared progress with
  | nil => exact .done _ _
  | cons event rest ih => exact .next rfl (ih _ _)

theorem alone_append (shared : Shared) (repoId : Option String) (events : List TraceEvent) :
    let (result, store) := shared.store.appendEventsForRepo repoId events
    Alone handlerStep shared (StoreCall.append repoId events).start { shared with store := store }
      (.returned (match result with
        | .ok response => .appended response
        | .error failure => .rejected failure)) := by
  simp only [StoreCall.start, ServerStore.appendEventsForRepo]
  cases normalizeRepoEvents repoId events with
  | error failure => exact .done _ _
  | ok filled =>
      dsimp only
      refine .next rfl ((alone_appendLines shared _ filled .start).trans ?_)
      generalize appendLoop (shared.store.readEvents.map (·.eventId)) filled shared.store.eventLog
        .start = looped
      obtain ⟨log, progress⟩ := looped
      dsimp only
      by_cases unbound : progress.acceptedRepoOrgs.isEmpty
      · simp only [unbound, if_true]
        exact .next (by simp only [handlerStep, unbound, if_true]) (.done _ _)
      · simp only [unbound, Bool.false_eq_true, if_false]
        refine .next (by simp only [handlerStep, unbound, Bool.false_eq_true, if_false]; rfl) ?_
        exact alone_record _ _ _

end BrickTrace
