import BrickTrace.Lib.Runs
import BrickTrace.Server.ConcurrentStore

/-!
# Concurrent append calls

A call reads the stored ids once and then writes its lines one by one.  Every id
is stored once, and reported as accepted by one call, as long as no call reads
the ids while another one still has to write an id of its batch.
-/

set_option autoImplicit false

namespace BrickTrace

open Interleaving

def CallResult.acceptedIds : CallResult → List Uuid
  | .appended response => response.acceptedEventIds
  | _ => []

def OnceLoaded.acceptedIds : OnceLoaded → List Uuid
  | .lookUp _ => []
  | .record _ result => result.acceptedIds

/-- The ids that a call has accepted so far. -/
def acceptedIds : Handler → List Uuid
  | .readCache _ => []
  | .checkLoaded next => next.acceptedIds
  | .loadFile next => next.acceptedIds
  | .rebuild next => next.acceptedIds
  | .writeFile _ next => next.acceptedIds
  | .setCache _ next => next.acceptedIds
  | .loaded next => next.acceptedIds
  | .readIds _ => []
  | .appendLines _ _ progress => progress.acceptedEventIds
  | .returned result => result.acceptedIds

/-- The ids that a call still has to write. -/
def pendingIds : Handler → List Uuid
  | .appendLines existing rest progress =>
      (FirstSeen.fresh (·.eventId) (progress.seenInRequest ++ existing) rest).map (·.eventId)
  | _ => []

/-- The ids that a finished call has reported as accepted. -/
def reportedIds : Handler → List Uuid
  | .returned result => result.acceptedIds
  | _ => []

/-- Every id is stored at most once, and reported at most once over all calls. -/
def IdsOnce (server : Server) : Prop :=
  (logIds server.shared.store.eventLog).Nodup ∧ (server.threads.flatMap reportedIds).Nodup

/-- The batch of a call that is about to read the stored ids. -/
def batchToCheck : Handler → List TraceEvent
  | .readIds events => events
  | _ => []

/-- A call that reads the ids finds none of its own still to be written by a call. -/
def ReadsSettledIds (server : Server) : ServerLabel → Prop
  | .step index =>
      ∀ reader ∈ server.threads[index]?, ∀ handler ∈ server.threads,
        ∀ event ∈ batchToCheck reader, event.eventId ∉ pendingIds handler
  | .call _ => True
  | .restart => True

instance (server : Server) (label : ServerLabel) : Decidable (ReadsSettledIds server label) :=
  match label with
  | .step index => inferInstanceAs (Decidable (∀ reader ∈ server.threads[index]?, _))
  | .call _ => isTrue trivial
  | .restart => isTrue trivial

structure OwnIds (shared : Shared) (handler : Handler) : Prop where
  distinct : (acceptedIds handler).Nodup
  stored : ∀ id ∈ acceptedIds handler, id ∈ logIds shared.store.eventLog
  unstored : ∀ id ∈ pendingIds handler, id ∉ logIds shared.store.eventLog

structure ApartIds (shared : Shared) (left right : Handler) : Prop where
  pending : ∀ id ∈ pendingIds left, id ∉ pendingIds right
  accepted : ∀ id ∈ acceptedIds left, id ∉ acceptedIds right

def DistinctLog (shared : Shared) : Prop := (logIds shared.store.eventLog).Nodup

/-! ## One step -/

/-- A step that writes nothing, accepts nothing, and puts nothing off. -/
structure Quiet (before after : Shared) (mover moved : Handler) : Prop where
  log : after.store.eventLog = before.store.eventLog
  accepted : acceptedIds moved = acceptedIds mover
  pending : ∀ id ∈ pendingIds moved, id ∈ pendingIds mover

theorem Quiet.preserves {peer : Handler → Prop} {before after : Shared} {mover moved : Handler}
    (quiet : Quiet before after mover moved) (distinct : DistinctLog before)
    (own : OwnIds before mover) :
    Preserves DistinctLog OwnIds ApartIds peer before mover after moved where
  shared := by rwa [DistinctLog, quiet.log]
  thread := by
    refine ⟨?_, ?_, ?_⟩
    · rw [quiet.accepted]
      exact own.distinct
    · rw [quiet.accepted, quiet.log]
      exact own.stored
    · rw [quiet.log]
      exact fun id pending => own.unstored id (quiet.pending id pending)
  others := by
    intro other _ ownOther moverOther otherMover
    refine ⟨⟨ownOther.distinct, ?_, ?_⟩, ⟨?_, ?_⟩, ⟨?_, ?_⟩⟩
    · rw [quiet.log]
      exact ownOther.stored
    · rw [quiet.log]
      exact ownOther.unstored
    · exact fun id pending => moverOther.pending id (quiet.pending id pending)
    · rw [quiet.accepted]
      exact moverOther.accepted
    · exact fun id pending again => otherMover.pending id pending (quiet.pending id again)
    · rw [quiet.accepted]
      exact otherMover.accepted
  apart := fun left right _ _ apart _ _ => ⟨apart.pending, apart.accepted⟩

/-- The steps other than the read of the ids and the turn of the loop. -/
theorem handlerStep_quiet {before after : Shared} {mover moved : Handler}
    (noRead : ∀ events, mover ≠ .readIds events)
    (noTurn : ∀ existing event rest progress, mover ≠ .appendLines existing (event :: rest) progress)
    (taken : handlerStep before mover = some (after, moved)) : Quiet before after mover moved := by
  have nothing : ∀ id ∈ ([] : List Uuid), id ∈ pendingIds mover := fun _ absurd => nomatch absurd
  cases moves_of_step taken with
  | answerCached cached => exact ⟨rfl, rfl, nothing⟩
  | missCache cold => exact ⟨rfl, rfl, nothing⟩
  | alreadyLoaded cached => exact ⟨rfl, rfl, nothing⟩
  | notLoaded cold => exact ⟨rfl, rfl, nothing⟩
  | readFile file => exact ⟨rfl, rfl, nothing⟩
  | noFile absent => exact ⟨rfl, rfl, nothing⟩
  | rebuild => exact ⟨rfl, rfl, nothing⟩
  | writeFile => exact ⟨rfl, rfl, nothing⟩
  | setCache =>
      refine ⟨?_, rfl, nothing⟩
      dsimp only
      unfold ServerStore.setRepoOrgIfEmpty
      split <;> rfl
  | lookUp found => exact ⟨rfl, rfl, nothing⟩
  | record => exact ⟨ServerStore.recordLocked_eventLog _ _, rfl, nothing⟩
  | @readIds events => exact absurd rfl (noRead events)
  | @appendTurn existing event rest progress => exact absurd rfl (noTurn existing event rest progress)
  | finish => exact ⟨rfl, rfl, nothing⟩
  | finishBindings => exact ⟨rfl, rfl, nothing⟩

/-- One turn of the loop: nothing new, or the first pending id goes to the log. -/
theorem appendTurn_cases (before : Shared) (existing : List Uuid) (event : TraceEvent)
    (rest : List TraceEvent) (progress : AppendProgress) :
    let mover := Handler.appendLines existing (event :: rest) progress
    let turn := appendTurn existing progress event
    let moved := Handler.appendLines existing rest turn.2
    let log := before.store.eventLog ++ turn.1.toList
    (log = before.store.eventLog ∧ acceptedIds moved = acceptedIds mover ∧
        pendingIds moved = pendingIds mover) ∨
      (logIds log = logIds before.store.eventLog ++ [event.eventId] ∧
        acceptedIds moved = acceptedIds mover ++ [event.eventId] ∧
        pendingIds mover = event.eventId :: pendingIds moved) := by
  intro mover turn moved log
  by_cases known : event.eventId ∈ progress.seenInRequest ++ existing
  · have skipped : event.eventId ∈ existing ∨ event.eventId ∈ progress.seenInRequest :=
      (List.mem_append.mp known).symm
    refine Or.inl ⟨?_, ?_, ?_⟩
    · simp [log, turn, appendTurn, skipped]
    · simp [moved, mover, turn, acceptedIds, appendTurn, skipped]
    · simp [moved, mover, turn, pendingIds, appendTurn, skipped, FirstSeen.fresh, known]
  · have written : ¬ (event.eventId ∈ existing ∨ event.eventId ∈ progress.seenInRequest) :=
      fun stored => known (List.mem_append.mpr stored.symm)
    refine Or.inr ⟨?_, ?_, ?_⟩
    · simp [log, turn, appendTurn, written, logIds, logEvents_append]
    · simp [moved, mover, turn, acceptedIds, appendTurn, written]
    · simp [moved, mover, turn, pendingIds, appendTurn, written, FirstSeen.fresh, known]

/-- Writing the first pending id disturbs no call that has other pending ids. -/
theorem preserves_write {peer : Handler → Prop} {before after : Shared}
    {mover moved : Handler} {id : Uuid}
    (distinct : DistinctLog before) (own : OwnIds before mover)
    (log : logIds after.store.eventLog = logIds before.store.eventLog ++ [id])
    (accepted : acceptedIds moved = acceptedIds mover ++ [id])
    (pending : pendingIds mover = id :: pendingIds moved) (once : (pendingIds mover).Nodup) :
    Preserves DistinctLog OwnIds ApartIds peer before mover after moved := by
  have first : id ∈ pendingIds mover := by simp [pending]
  have new := own.unstored id first
  have later : ∀ other ∈ pendingIds moved, other ∈ pendingIds mover := by
    intro other member
    rw [pending]
    exact List.mem_cons_of_mem _ member
  have notAgain : id ∉ pendingIds moved := by
    rw [pending, List.nodup_cons] at once
    exact once.1
  refine ⟨?_, ⟨?_, ?_, ?_⟩, ?_, fun left right _ _ apart _ _ => ⟨apart.pending, apart.accepted⟩⟩
  · rw [DistinctLog, log]
    exact List.nodup_append.mpr ⟨distinct, List.nodup_singleton id, by
      rintro stored isStored _ same rfl
      rw [List.mem_singleton.mp same] at isStored
      exact new isStored⟩
  · rw [accepted]
    exact List.nodup_append.mpr ⟨own.distinct, List.nodup_singleton id, by
      rintro done isDone _ same rfl
      rw [List.mem_singleton.mp same] at isDone
      exact new (own.stored id isDone)⟩
  · intro done isDone
    rw [accepted] at isDone
    rw [log]
    rcases List.mem_append.mp isDone with old | same
    · exact List.mem_append_left _ (own.stored done old)
    · exact List.mem_append_right _ same
  · intro other isPending stored
    rw [log] at stored
    rcases List.mem_append.mp stored with old | same
    · exact own.unstored other (later other isPending) old
    · rw [List.mem_singleton.mp same] at isPending
      exact notAgain isPending
  · intro other _ ownOther moverOther otherMover
    refine ⟨⟨ownOther.distinct, ?_, ?_⟩, ⟨?_, ?_⟩, ⟨?_, ?_⟩⟩
    · intro done isDone
      rw [log]
      exact List.mem_append_left _ (ownOther.stored done isDone)
    · intro waiting isWaiting stored
      rw [log] at stored
      rcases List.mem_append.mp stored with old | same
      · exact ownOther.unstored waiting isWaiting old
      · rw [List.mem_singleton.mp same] at isWaiting
        exact moverOther.pending id first isWaiting
    · exact fun waiting isWaiting => moverOther.pending waiting (later waiting isWaiting)
    · intro done isDone again
      rw [accepted] at isDone
      rcases List.mem_append.mp isDone with old | same
      · exact moverOther.accepted done old again
      · rw [List.mem_singleton.mp same] at again
        exact new (ownOther.stored id again)
    · exact fun waiting isWaiting again =>
        otherMover.pending waiting isWaiting (later waiting again)
    · intro done isDone again
      rw [accepted] at again
      rcases List.mem_append.mp again with old | same
      · exact otherMover.accepted done isDone old
      · rw [List.mem_singleton.mp same] at isDone
        exact new (ownOther.stored id isDone)

/-- Reading the ids makes the new ids of the batch pending. -/
theorem preserves_read {peer : Handler → Prop} {shared : Shared} {events : List TraceEvent}
    (distinct : DistinctLog shared)
    (settled : ∀ other, peer other → ∀ event ∈ events, event.eventId ∉ pendingIds other) :
    Preserves DistinctLog OwnIds ApartIds peer shared (.readIds events) shared
      (.appendLines (shared.store.readEvents.map (·.eventId)) events .start) := by
  have new : ∀ id ∈ pendingIds (.appendLines (shared.store.readEvents.map (·.eventId)) events .start),
      id ∉ logIds shared.store.eventLog ∧ id ∈ events.map (·.eventId) := by
    intro id member
    rw [readEvents_ids] at member
    exact (FirstSeen.mem_fresh_keys _).mp member
  have apart : ∀ other, peer other → ∀ id ∈
      pendingIds (.appendLines (shared.store.readEvents.map (·.eventId)) events .start),
      id ∉ pendingIds other := by
    intro other isPeer id member
    obtain ⟨event, isEvent, rfl⟩ := List.mem_map.mp (new id member).2
    exact settled other isPeer event isEvent
  refine ⟨distinct, ⟨List.nodup_nil, (fun _ absurd => nomatch absurd),
    fun id member => (new id member).1⟩, ?_, fun left right _ _ apart _ _ => ⟨apart.pending, apart.accepted⟩⟩
  intro other isPeer ownOther _ _
  refine ⟨ownOther, ⟨apart other isPeer, fun _ absurd => nomatch absurd⟩, ⟨?_, ?_⟩⟩
  · exact fun id member again => apart other isPeer id again member
  · exact fun _ _ absurd => nomatch absurd

theorem handlerStep_idsOnce {peer : Handler → Prop} {before after : Shared}
    {mover moved : Handler} (distinct : DistinctLog before) (own : OwnIds before mover)
    (settled : ∀ events, mover = .readIds events → ∀ other, peer other →
      ∀ event ∈ events, event.eventId ∉ pendingIds other)
    (taken : handlerStep before mover = some (after, moved)) :
    Preserves DistinctLog OwnIds ApartIds peer before mover after moved := by
  by_cases reads : ∃ events, mover = .readIds events
  · obtain ⟨events, rfl⟩ := reads
    cases taken
    exact preserves_read distinct (settled events rfl)
  by_cases turns : ∃ existing event rest progress,
      mover = .appendLines existing (event :: rest) progress
  · obtain ⟨existing, event, rest, progress, rfl⟩ := turns
    cases taken
    rcases appendTurn_cases before existing event rest progress with
      ⟨log, accepted, pending⟩ | ⟨log, accepted, pending⟩
    · exact Quiet.preserves ⟨log, accepted, fun id member => pending ▸ member⟩ distinct own
    · exact preserves_write distinct own log accepted pending
        (FirstSeen.nodup_fresh_keys (fun event : TraceEvent => event.eventId) _ _)
  · have quiet := handlerStep_quiet (fun events same => reads ⟨events, same⟩)
      (fun existing event rest progress same => turns ⟨existing, event, rest, progress, same⟩) taken
    exact quiet.preserves distinct own

/-! ## Whole runs -/

theorem acceptedIds_start (call : StoreCall) : acceptedIds call.start = [] := by
  cases call with
  | resolve repoId => rfl
  | claim repoId orgId => rfl
  | append repoId events =>
      simp only [StoreCall.start]
      cases normalizeRepoEvents repoId events <;> rfl

theorem pendingIds_start (call : StoreCall) : pendingIds call.start = [] := by
  cases call with
  | resolve repoId => rfl
  | claim repoId orgId => rfl
  | append repoId events =>
      simp only [StoreCall.start]
      cases normalizeRepoEvents repoId events <;> rfl

theorem serverNext_idsOnce (server : Server) (label : ServerLabel)
    (holds : Holds DistinctLog OwnIds ApartIds server) (settled : ReadsSettledIds server label) :
    Holds DistinctLog OwnIds ApartIds (serverNext server label) := by
  cases label with
  | call call =>
      have accepted := acceptedIds_start call
      have pending := pendingIds_start call
      refine spawn_holds holds ⟨?_, ?_, ?_⟩ fun other => ⟨⟨?_, ?_⟩, ⟨?_, ?_⟩⟩ <;>
        simp [accepted, pending]
  | step index =>
      refine advance_holds handlerStep server index holds ?_
      intro handler after moved found taken
      refine handlerStep_idsOnce holds.shared (holds.thread index handler found) ?_ taken
      rintro events rfl
      exact settled (.readIds events) found
  | restart =>
      simp only [serverNext]
      split
      · exact ⟨holds.shared, fun index handler found =>
          ⟨(holds.thread index handler found).distinct, (holds.thread index handler found).stored,
            (holds.thread index handler found).unstored⟩,
          fun first second left right differ foundLeft foundRight =>
            ⟨(holds.pair first second left right differ foundLeft foundRight).pending,
              (holds.pair first second left right differ foundLeft foundRight).accepted⟩⟩
      · exact holds

theorem reportedIds_subset (handler : Handler) :
    reportedIds handler = [] ∨ reportedIds handler = acceptedIds handler := by
  cases handler with
  | returned result => exact Or.inr rfl
  | _ => exact Or.inl rfl

theorem idsOnce_of_holds {server : Server} (holds : Holds DistinctLog OwnIds ApartIds server) :
    IdsOnce server := by
  refine ⟨holds.shared, List.nodup_flatMap.mpr ⟨?_, ?_⟩⟩
  · intro handler member
    obtain ⟨index, found⟩ := List.mem_iff_getElem?.mp member
    rcases reportedIds_subset handler with none | all
    · simp [none]
    · rw [all]
      exact (holds.thread index handler found).distinct
  · rw [List.pairwise_iff_getElem]
    intro first second firstBound secondBound order id inFirst inSecond
    have apart := holds.pair first second _ _ (Nat.ne_of_lt order)
      (List.getElem?_eq_getElem firstBound) (List.getElem?_eq_getElem secondBound)
    rcases reportedIds_subset server.threads[first] with none | allFirst
    · rw [none] at inFirst
      cases inFirst
    rcases reportedIds_subset server.threads[second] with none | allSecond
    · rw [none] at inSecond
      cases inSecond
    rw [allFirst] at inFirst
    rw [allSecond] at inSecond
    exact apart.accepted id inFirst inSecond

/-- Every id is stored and reported once along every run in which no call reads the
ids while another one still has to write an id of its batch. -/
theorem concurrent_appends_store_once (eventLog : List LogLine)
    (repoOrgFile : Option RepoOrgMap) (distinct : (logIds eventLog).Nodup)
    (labels : List ServerLabel)
    (settled : Runs.Meets serverNext ReadsSettledIds (startServer eventLog repoOrgFile) labels) :
    Runs.Always serverNext IdsOnce (startServer eventLog repoOrgFile) labels := by
  have start : Holds DistinctLog OwnIds ApartIds (startServer eventLog repoOrgFile) := by
    refine ⟨distinct, ?_, ?_⟩
    · intro index handler found
      simp [startServer] at found
    · intro first second left right _ found
      simp [startServer] at found
  exact Runs.always_mono serverNext (fun server holds => idsOnce_of_holds holds)
    (Runs.always_of_meets serverNext serverNext_idsOnce start settled)

/-- Two calls of one batch, the second after the first has written its line. -/
theorem sequential_appends_store_once :
    Runs.Always serverNext IdsOnce (startServer [] none)
      [.call (.append none [pushedEvent 1 none none]),
        .call (.append none [pushedEvent 1 none none]),
        .step 0, .step 0, .step 1, .step 1, .step 0, .step 1] :=
  concurrent_appends_store_once [] none List.nodup_nil _
    ⟨trivial, trivial, by decide, by decide, by decide, by decide, by decide, by decide, trivial⟩

/-- Two calls of one batch, both of which read the ids before either writes. -/
theorem overlapping_appends_store_twice :
    ¬ Runs.Always serverNext IdsOnce (startServer [] none)
      [.call (.append none [pushedEvent 1 none none]),
        .call (.append none [pushedEvent 1 none none]),
        .step 0, .step 1, .step 0, .step 1, .step 0, .step 1] := by
  intro always
  have once := (Runs.always_last _ always).1
  revert once
  decide

end BrickTrace
