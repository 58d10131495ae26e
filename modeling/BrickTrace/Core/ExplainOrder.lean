import BrickTrace.Lib.Rfc3339
import BrickTrace.Core.Explain

/-!
# The order of an explained anchor

The builder shows the first resolved event of each identity, in the order of the
resolver, until the cap.  The timeline is newest first exactly when the resolver's
order already is, by the time that each step shows.
-/

set_option autoImplicit false

namespace BrickTrace

open OrderedMap

/-- The first time is not before the second, where both texts denote one. -/
def NotOlder (left right : String) : Prop :=
  ∀ leftInstant rightInstant, Rfc3339.instant left = some leftInstant →
    Rfc3339.instant right = some rightInstant → rightInstant ≤ leftInstant

/-- The source session that a step was observed from. -/
def CausalStep.observedSession (step : CausalStep) : Option (String × String) :=
  if step.eventType = "source.session_observed" then
    match step.transcript.bind (·.source), step.sessionId with
    | some source, some external => some (source, external)
    | _, _ => none
  else none

/-! ## What the builder shows -/

section Builder
variable (rfc3339 : DateTime → String) (byId : Map String TraceEvent)
  (missionTitles : Map String String)

/-- The time that the step of an event shows. -/
def shownTime (event : Option TraceEvent) : String :=
  match event with
  | none => ""
  | some event =>
      if event.eventType = .sourceSessionObserved then
        ((observedPayload event).bind (·.sessionUpdatedAt)).getD (rfc3339 event.occurredAt)
      else rfc3339 event.occurredAt

def identityIn (eventId : String) : String := explainStepIdentity byId[eventId]? eventId

def shownTimeIn (eventId : String) : String := shownTime rfc3339 byId[eventId]?

def stepIn (eventId : String) (depth : Nat) : CausalStep :=
  buildStep rfc3339 missionTitles byId[eventId]? eventId depth

theorem stepIn_occurredAt (eventId : String) (depth : Nat) :
    (stepIn rfc3339 byId missionTitles eventId depth).occurredAt =
      shownTimeIn rfc3339 byId eventId := by
  unfold stepIn shownTimeIn buildStep shownTime
  cases byId[eventId]? with
  | none => rfl
  | some event =>
      dsimp only
      split
      · rfl
      · rfl

/-- Each step has the place and the id that it is built for, and no evidence. -/
theorem stepIn_fields (eventId : String) (depth : Nat) :
    (stepIn rfc3339 byId missionTitles eventId depth).depth = depth ∧
      (stepIn rfc3339 byId missionTitles eventId depth).eventId = eventId ∧
        (stepIn rfc3339 byId missionTitles eventId depth).evidence = none := by
  unfold stepIn buildStep
  cases byId[eventId]? with
  | none => exact ⟨rfl, rfl, rfl⟩
  | some event =>
      dsimp only
      split
      · exact ⟨rfl, rfl, rfl⟩
      · exact ⟨rfl, rfl, rfl⟩

theorem eventType_of_name {eventType : EventType}
    (named : eventType.name = "source.session_observed") : eventType = .sourceSessionObserved := by
  cases eventType <;> first | rfl | (revert named; decide)

/-- Steps of one observed session have one identity. -/
theorem identity_of_observedSession {eventId : String} {depth : Nat} {session : String × String}
    (observed : (stepIn rfc3339 byId missionTitles eventId depth).observedSession = some session) :
    identityIn byId eventId = sourceSessionId session.1 session.2 := by
  unfold identityIn explainStepIdentity
  unfold stepIn buildStep CausalStep.observedSession at observed
  cases found : byId[eventId]? with
  | none => simp [found] at observed
  | some event =>
      simp only [found] at observed ⊢
      by_cases type : event.eventType = .sourceSessionObserved
      · simp only [type, ne_eq, not_true_eq_false, if_true, if_false, buildSourceSessionStep,
          Option.bind_some] at observed ⊢
        cases decoded : observedPayload event with
        | none => simp [decoded] at observed
        | some payload =>
            simp only [decoded, Option.map_some, Option.bind_some, EventType.name, if_true,
              unlessEmpty] at observed ⊢
            by_cases source : payload.sourceId = ""
            · simp [source] at observed
            · by_cases external : payload.externalSessionId = ""
              · simp [source, external] at observed
              · simp only [source, external, if_false, Option.some.injEq, or_self] at observed ⊢
                rw [← observed]
      · have named : event.eventType.name ≠ "source.session_observed" := fun same =>
          type (eventType_of_name same)
        simp [type, named] at observed

/-- The shown events: the first of each identity, as many as the limit lets through. -/
def shownEvents (limit : Nat) (resolved : List String) : List String :=
  (FirstSeen.fresh (identityIn byId) [] resolved).take limit

theorem explainSteps_eq (limit : Nat) (seen : List String) (steps : List CausalStep)
    (resolved : List String) (within : steps.length ≤ limit) :
    explainSteps rfc3339 byId missionTitles limit seen steps resolved =
      (steps ++ (((FirstSeen.fresh (identityIn byId) seen resolved).take
          (limit - steps.length)).zipIdx steps.length).map
            fun entry => stepIn rfc3339 byId missionTitles entry.1 entry.2,
        decide (limit < steps.length + (FirstSeen.fresh (identityIn byId) seen resolved).length)) := by
  induction resolved generalizing seen steps with
  | nil => simp [explainSteps, FirstSeen.fresh, within]
  | cons eventId rest ih =>
      unfold explainSteps FirstSeen.fresh
      by_cases known : identityIn byId eventId ∈ seen
      · have known' := known
        unfold identityIn at known'
        simp only [known, known', if_true]
        exact ih seen steps within
      · have unknown := known
        unfold identityIn at unknown
        simp only [known, unknown, if_false]
        by_cases full : limit ≤ steps.length
        · have none : limit - steps.length = 0 := by omega
          have more : limit < steps.length +
              (FirstSeen.fresh (identityIn byId) (identityIn byId eventId :: seen) rest).length + 1 := by
            omega
          simp only [full, if_true, none, List.take_zero, List.zipIdx_nil, List.map_nil,
            List.append_nil, List.length_cons, Prod.mk.injEq, true_and]
          simp only [← Nat.add_assoc, more, decide_true]
        · have room : limit - steps.length = (limit - (steps.length + 1)) + 1 := by omega
          have grown := ih (identityIn byId eventId :: seen)
            (steps ++ [stepIn rfc3339 byId missionTitles eventId steps.length])
            (by rw [List.length_append, List.length_singleton]; omega)
          simp only [full, if_false]
          refine Eq.trans grown ?_
          rw [List.length_append, List.length_singleton, room, List.take_succ_cons, List.zipIdx_cons,
            List.map_cons, List.append_assoc, List.singleton_append, List.length_cons]
          congr 2
          apply propext
          omega

end Builder

/-! ## The timeline -/

section Timeline
variable (rfc3339 : DateTime → String) (events : List TraceEvent) (anchor : ExplainAnchor)
  (depth : Nat)

/-- The step of a resolved event is left out when no step has its identity. -/
def Omitted (chain : CausalChain) (eventId : String) : Prop :=
  eventId ∈ anchor.resolvedEvents ∧
    ∀ step ∈ chain.steps,
      identityIn (eventsById events) step.eventId ≠ identityIn (eventsById events) eventId

/-- A timeline as it is to be. -/
structure ExplainsNewestFirst (chain : CausalChain) : Prop where
  depths : chain.steps.map CausalStep.depth = List.range chain.steps.length
  capped : chain.steps.length ≤ min depth 8 + 1
  oncePerSession : (chain.steps.filterMap CausalStep.observedSession).Nodup
  newestFirst : chain.steps.Pairwise fun left right => NotOlder left.occurredAt right.occurredAt
  omittedOlder : chain.truncated = true → ∀ eventId, Omitted events anchor chain eventId →
    ∀ step ∈ chain.steps, NotOlder step.occurredAt
      (stepIn rfc3339 (eventsById events) (missionTitleIndex events) eventId 0).occurredAt

/-- The resolver's order is newest first by the times shown: the first events of the
first identities, as many as the cap lets through, stand newest first, and when there
are more identities, no event of a further one is newer than any of these. -/
structure ResolvedNewestFirst : Prop where
  shown : (shownEvents (eventsById events) (min depth 8 + 1) anchor.resolvedEvents).Pairwise
    fun left right => NotOlder (shownTimeIn rfc3339 (eventsById events) left)
      (shownTimeIn rfc3339 (eventsById events) right)
  further : min depth 8 + 1 <
      (FirstSeen.fresh (identityIn (eventsById events)) [] anchor.resolvedEvents).length →
    ∀ later ∈ anchor.resolvedEvents,
      (∀ first ∈ shownEvents (eventsById events) (min depth 8 + 1) anchor.resolvedEvents,
        identityIn (eventsById events) first ≠ identityIn (eventsById events) later) →
      ∀ first ∈ shownEvents (eventsById events) (min depth 8 + 1) anchor.resolvedEvents,
        NotOlder (shownTimeIn rfc3339 (eventsById events) first)
          (shownTimeIn rfc3339 (eventsById events) later)

theorem explainFromEvents_steps :
    (explainFromEvents rfc3339 events anchor depth).steps =
      (shownEvents (eventsById events) (min depth 8 + 1) anchor.resolvedEvents).zipIdx.map
        fun entry => stepIn rfc3339 (eventsById events) (missionTitleIndex events) entry.1 entry.2 := by
  dsimp only [explainFromEvents]
  rw [explainSteps_eq _ _ _ _ _ _ _ (Nat.zero_le _)]
  rfl

theorem explainFromEvents_truncated :
    (explainFromEvents rfc3339 events anchor depth).truncated = true ↔ min depth 8 + 1 <
      (FirstSeen.fresh (identityIn (eventsById events)) [] anchor.resolvedEvents).length := by
  dsimp only [explainFromEvents]
  rw [explainSteps_eq _ _ _ _ _ _ _ (Nat.zero_le _)]
  simp [maxExplainDepth]

variable {rfc3339 events anchor depth}

section Steps
variable {kept : List String} {steps : List CausalStep} {build : String → Nat → CausalStep}
  (built : steps = kept.zipIdx.map fun entry => build entry.1 entry.2)
include built

/-- What relates the shown steps is told by the shown events. -/
theorem pairwise_steps {related : CausalStep → CausalStep → Prop} (relatedIds : String → String → Prop)
    (tells : ∀ left leftDepth right rightDepth,
      related (build left leftDepth) (build right rightDepth) ↔ relatedIds left right) :
    steps.Pairwise related ↔ kept.Pairwise relatedIds := by
  subst built
  rw [List.pairwise_map]
  simp only [tells]
  rw [← List.pairwise_map (f := Prod.fst), List.zipIdx_map_fst]

theorem forall_steps {holds : CausalStep → Prop} (holdsId : String → Prop)
    (tells : ∀ eventId depth, holds (build eventId depth) ↔ holdsId eventId) :
    (∀ step ∈ steps, holds step) ↔ ∀ eventId ∈ kept, holdsId eventId := by
  subst built
  have ids : ∀ eventId, eventId ∈ kept ↔ ∃ entry ∈ kept.zipIdx, entry.1 = eventId := by
    intro eventId
    rw [← List.mem_map, List.zipIdx_map_fst]
  simp only [ids, List.forall_mem_map, tells]
  constructor
  · rintro all eventId ⟨entry, member, rfl⟩
    exact all entry member
  · intro all entry member
    exact all entry.1 ⟨entry, member, rfl⟩

end Steps

theorem nodup_shownIdentities (byId : Map String TraceEvent) (limit : Nat) (resolved : List String) :
    (shownEvents byId limit resolved).Pairwise fun left right =>
      identityIn byId left ≠ identityIn byId right := by
  have distinct := FirstSeen.nodup_fresh_keys (identityIn byId) [] resolved
  rw [List.Nodup, List.pairwise_map] at distinct
  exact distinct.sublist (List.take_sublist _ _)

theorem explainFromEvents_depths :
    (explainFromEvents rfc3339 events anchor depth).steps.map CausalStep.depth =
      List.range (explainFromEvents rfc3339 events anchor depth).steps.length := by
  rw [explainFromEvents_steps, List.map_map, List.length_map, List.length_zipIdx,
    List.range_eq_range', ← List.zipIdx_map_snd]
  apply List.map_congr_left
  intro entry member
  exact (stepIn_fields ..).1

/-- Steps of events have no evidence of their own. -/
theorem explainFromEvents_evidence {step : CausalStep}
    (member : step ∈ (explainFromEvents rfc3339 events anchor depth).steps) :
    step.evidence = none := by
  rw [explainFromEvents_steps] at member
  obtain ⟨entry, _, rfl⟩ := List.mem_map.mp member
  exact (stepIn_fields ..).2.2

theorem explainFromEvents_capped :
    (explainFromEvents rfc3339 events anchor depth).steps.length ≤ min depth 8 + 1 := by
  rw [explainFromEvents_steps, List.length_map, List.length_zipIdx]
  exact List.length_take_le ..

theorem explainFromEvents_oncePerSession :
    ((explainFromEvents rfc3339 events anchor depth).steps.filterMap
      CausalStep.observedSession).Nodup := by
  have distinct := nodup_shownIdentities (eventsById events) (min depth 8 + 1) anchor.resolvedEvents
  rw [← List.zipIdx_map_fst 0 (shownEvents _ _ _), List.pairwise_map] at distinct
  rw [explainFromEvents_steps, List.filterMap_map, List.Nodup]
  refine distinct.filterMap _ ?_
  rintro left right apart session isLeft _ isRight rfl
  exact apart ((identity_of_observedSession _ _ _ isLeft).trans
    (identity_of_observedSession _ _ _ isRight).symm)

theorem omitted_iff {eventId : String} :
    Omitted events anchor (explainFromEvents rfc3339 events anchor depth) eventId ↔
      eventId ∈ anchor.resolvedEvents ∧
        ∀ first ∈ shownEvents (eventsById events) (min depth 8 + 1) anchor.resolvedEvents,
          identityIn (eventsById events) first ≠ identityIn (eventsById events) eventId := by
  unfold Omitted
  rw [forall_steps (explainFromEvents_steps rfc3339 events anchor depth) fun first =>
    identityIn (eventsById events) first ≠ identityIn (eventsById events) eventId]
  intro first firstDepth
  rw [(stepIn_fields ..).2.1]

/-- An anchor that resolves to one event, however often, is in order. -/
theorem resolvedNewestFirst_of_one (only : String)
    (one : ∀ eventId ∈ anchor.resolvedEvents, eventId = only) :
    ResolvedNewestFirst rfc3339 events anchor depth := by
  have distinct := FirstSeen.nodup_fresh_keys (identityIn (eventsById events)) []
    anchor.resolvedEvents
  have all : (FirstSeen.fresh (identityIn (eventsById events)) [] anchor.resolvedEvents).map
      (identityIn (eventsById events)) ⊆ [identityIn (eventsById events) only] := by
    intro identity member
    obtain ⟨eventId, isFresh, rfl⟩ := List.mem_map.mp member
    rw [one eventId ((FirstSeen.fresh_sublist _ [] _).subset isFresh)]
    exact List.mem_singleton_self _
  have short := (List.subperm_of_subset distinct all).length_le
  rw [List.length_map, List.length_singleton] at short
  constructor
  · rw [List.pairwise_iff_getElem]
    intro first second isFirst isSecond below
    have bounded := List.length_take_le' (min depth 8 + 1)
      (FirstSeen.fresh (identityIn (eventsById events)) [] anchor.resolvedEvents)
    unfold shownEvents at isSecond
    omega
  · intro more
    omega

theorem event_anchor_newest_first {input : String}
    (direct : (resolveDirectAnchor events input).kind = .event) :
    ResolvedNewestFirst rfc3339 events (resolveDirectAnchor events input) depth := by
  unfold resolveDirectAnchor at direct ⊢
  dsimp only at direct ⊢
  split at direct
  · cases direct
  · split at direct
    · cases direct
    · rename_i noArtifact noMission
      simp only [noArtifact, noMission]
      refine resolvedNewestFirst_of_one (trim input) ?_
      intro eventId member
      obtain ⟨event, isOne, rfl⟩ := List.mem_map.mp member
      exact of_decide_eq_true (List.mem_filter.mp isOne).2

theorem line_anchor_newest_first (lines : List BlameLine) (relPath : String) (line : UInt64) :
    ResolvedNewestFirst rfc3339 events (fileLineAnchor lines relPath line) depth := by
  cases hit : (lines.find? (·.lineNo = line)).bind BlameLine.sourceEventId with
  | none =>
      refine resolvedNewestFirst_of_one "" fun eventId member => ?_
      simp [fileLineAnchor, hit] at member
  | some eventId =>
      refine resolvedNewestFirst_of_one eventId fun other member => ?_
      simpa [fileLineAnchor, hit] using member

end Timeline

/-! ## A mission that was updated -/

/-- An event of one mission, one second after the other. -/
def eventOfMission (number : Nat) (eventType : EventType) : TraceEvent where
  eventId := ⟨Fin.ofNat _ number⟩
  eventType := eventType
  schemaVersion := 1
  payloadSchemaVersion := 1
  occurredAt := ⟨number * 1000000000⟩
  recordedAt := ⟨number * 1000000000⟩
  actor := ⟨.agent, "agent-1", none⟩
  repoId := none
  orgId := none
  projectId := none
  missionId := some ⟨"mission_1"⟩
  sessionId := none
  artifactId := none
  repoContextId := none
  confidence := .explicit
  payload := .object [("title", .string "Harden refresh")]

def firstSeconds (time : DateTime) : String :=
  if time.nanoseconds = 0 then "1970-01-01T00:00:00+00:00" else "1970-01-01T00:00:01+00:00"

end BrickTrace
