import BrickTrace.Core.Explain

/-!
# Merging source sessions into a timeline

Which sessions a merge may leave out.  A session is told by its application and the
id it has there, while the code compares a concatenation of the two, and the id alone.
-/

set_option autoImplicit false

namespace BrickTrace

/-- The application of a step and the id of its session there. -/
def CausalStep.shownSession (step : CausalStep) : Option String × Option String :=
  (step.transcript.bind (·.source), step.sessionId)

def FileSessionBlameRow.session (row : FileSessionBlameRow) : Option String × Option String :=
  (unlessEmpty row.source, unlessEmpty row.external)

theorem unlessEmpty_injective {left right : String} (same : unlessEmpty left = unlessEmpty right) :
    left = right := by
  unfold unlessEmpty at same
  by_cases isEmpty : left = ""
  · by_cases isEmpty' : right = ""
    · rw [isEmpty, isEmpty']
    · simp [isEmpty, isEmpty'] at same
  · by_cases isEmpty' : right = ""
    · simp [isEmpty, isEmpty'] at same
    · simpa [isEmpty, isEmpty'] using same

theorem unlessEmpty_eq_some_iff {text other : String} :
    unlessEmpty text = some other ↔ text = other ∧ other ≠ "" := by
  unfold unlessEmpty
  by_cases isEmpty : text = ""
  · simp only [isEmpty, if_true, reduceCtorEq, false_iff]
    rintro ⟨rfl, nonempty⟩
    exact nonempty rfl
  · simp only [isEmpty, if_false, Option.some.injEq]
    constructor
    · rintro rfl
      exact ⟨rfl, isEmpty⟩
    · exact fun same => same.1

namespace FileSessionBlameRow

theorem step_shownSession (row : FileSessionBlameRow) (depth : Nat) :
    (row.step depth).shownSession = row.session := rfl

theorem eventId_eq_of_session {left right : FileSessionBlameRow}
    (same : left.session = right.session) : left.eventId = right.eventId := by
  obtain ⟨sources, externals⟩ := Prod.mk.inj same
  rw [eventId, eventId, unlessEmpty_injective sources, unlessEmpty_injective externals]

end FileSessionBlameRow

section Steps
variable {rows : List FileSessionBlameRow} {startDepth : Nat}

theorem sourceSessionsToSteps_sessions :
    (sourceSessionsToSteps rows startDepth).map CausalStep.shownSession =
      (FirstSeen.fresh FileSessionBlameRow.eventId [] rows).map FileSessionBlameRow.session := by
  unfold sourceSessionsToSteps
  generalize FirstSeen.fresh FileSessionBlameRow.eventId [] rows = kept
  induction kept generalizing startDepth with
  | nil => rfl
  | cons row rest ih =>
      rw [List.zipIdx_cons, List.map_cons, List.map_cons, List.map_cons, ih,
        FileSessionBlameRow.step_shownSession]

/-- Rows of one synthetic id are rows of one session. -/
def IdsApart (rows : List FileSessionBlameRow) : Prop :=
  ∀ left ∈ rows, ∀ right ∈ rows, left.eventId = right.eventId → left.session = right.session

theorem sourceSessionsToSteps_keeps_iff :
    (∀ row ∈ rows, ∃ step ∈ sourceSessionsToSteps rows startDepth,
        step.shownSession = row.session) ↔ IdsApart rows := by
  have represents := FirstSeen.fresh_represents_iff FileSessionBlameRow.eventId
    FileSessionBlameRow.session (fun _ _ => FileSessionBlameRow.eventId_eq_of_session) rows
  unfold IdsApart
  rw [← represents]
  have shown : ∀ session, (∃ step ∈ sourceSessionsToSteps rows startDepth,
      step.shownSession = session) ↔
        ∃ kept ∈ FirstSeen.fresh FileSessionBlameRow.eventId [] rows, kept.session = session := by
    intro session
    rw [← List.mem_map, ← List.mem_map, sourceSessionsToSteps_sessions]
  simp only [shown]

end Steps

section Merge
variable {chain source : List CausalStep}

section Read
variable {B : Type} {read : CausalStep → B}
  (forgets : ∀ (step : CausalStep) (depth : Nat), read { step with depth := depth } = read step)
include forgets

theorem renumber_map (steps : List CausalStep) : (renumber steps).map read = steps.map read := by
  have unnumbered : (read ∘ fun entry : CausalStep × Nat => { entry.1 with depth := entry.2 }) =
      read ∘ Prod.fst := funext fun entry => forgets entry.1 entry.2
  unfold renumber
  rw [List.map_map, unnumbered, ← List.map_map, List.zipIdx_map_fst]

/-- But for the numbers, a merged timeline has the steps of the chain and the sessions that
are not linked. -/
theorem mem_map_mergeSourceStepsInto {value : B} :
    value ∈ (mergeSourceStepsInto chain source).map read ↔
      value ∈ (chain ++ source.filter fun step => !alreadyLinked chain step).map read := by
  unfold mergeSourceStepsInto
  rw [renumber_map forgets]
  exact ((List.mergeSort_perm _ _).map _).mem_iff

end Read

/-- The sessions that a merged timeline shows. -/
theorem mergeSourceStepsInto_shows_iff {session : Option String × Option String} :
    (∃ kept ∈ mergeSourceStepsInto chain source, kept.shownSession = session) ↔
      (∃ step ∈ chain, step.shownSession = session) ∨
        ∃ step ∈ source, alreadyLinked chain step = false ∧ step.shownSession = session := by
  have shown : (∃ kept ∈ mergeSourceStepsInto chain source, kept.shownSession = session) ↔
      ∃ step ∈ chain ++ source.filter fun step => !alreadyLinked chain step,
        step.shownSession = session := by
    rw [← List.mem_map, ← List.mem_map]
    exact mem_map_mergeSourceStepsInto fun _ _ => rfl
  rw [shown]
  simp only [List.mem_append, List.mem_filter, Bool.not_eq_true', or_and_right, exists_or, and_assoc]

theorem alreadyLinked_iff {step : CausalStep} :
    alreadyLinked chain step = true ↔
      ∃ id, step.sessionId = some id ∧ ∃ linked ∈ chain, linked.sessionId = some id := by
  unfold alreadyLinked linkedSessionIds
  cases step.sessionId with
  | none => simp
  | some id => simp

theorem mergeSourceStepsInto_keeps_iff :
    (∀ step ∈ source, ∃ kept ∈ mergeSourceStepsInto chain source,
        kept.shownSession = step.shownSession) ↔
      ∀ step ∈ source, alreadyLinked chain step = true →
        ∃ linked ∈ chain, linked.shownSession = step.shownSession := by
  simp only [mergeSourceStepsInto_shows_iff]
  constructor
  · intro keeps step member linked
    rcases keeps step member with found | ⟨other, -, unlinked, same⟩
    · exact found
    · obtain ⟨id, own, chainStep⟩ := alreadyLinked_iff.mp linked
      have otherLinked : alreadyLinked chain other = true :=
        alreadyLinked_iff.mpr ⟨id, (congrArg Prod.snd same).trans own, chainStep⟩
      rw [otherLinked] at unlinked
      cases unlinked
  · intro found step member
    cases linked : alreadyLinked chain step with
    | true => exact .inl (found step member linked)
    | false => exact .inr ⟨step, member, linked, rfl⟩

end Merge

/-! ## Nothing is dropped -/

/-- What a step or a row is left out for is kept. -/
structure KeepsEverySession (rows : List FileSessionBlameRow) (startDepth : Nat)
    (chain : List CausalStep) : Prop where
  listed : ∀ row ∈ rows, ∃ step ∈ sourceSessionsToSteps rows startDepth,
    step.shownSession = row.session
  merged : ∀ step ∈ sourceSessionsToSteps rows startDepth,
    ∃ kept ∈ mergeSourceStepsInto chain (sourceSessionsToSteps rows startDepth),
      kept.shownSession = step.shownSession

/-- Where the chain shows a session id, it shows it for the application of the row. -/
def LinksApart (rows : List FileSessionBlameRow) (chain : List CausalStep) : Prop :=
  ∀ row ∈ rows, row.external ≠ "" → (∃ step ∈ chain, step.sessionId = some row.external) →
    ∃ step ∈ chain, step.sessionId = some row.external ∧
      step.transcript.bind (·.source) = unlessEmpty row.source

theorem merge_keeps_every_session_iff (rows : List FileSessionBlameRow) (startDepth : Nat)
    (chain : List CausalStep) :
    KeepsEverySession rows startDepth chain ↔ IdsApart rows ∧ LinksApart rows chain := by
  have steps_of_rows : IdsApart rows → ∀ row ∈ rows,
      ∃ step ∈ sourceSessionsToSteps rows startDepth, step.shownSession = row.session :=
    sourceSessionsToSteps_keeps_iff.mpr
  have row_of_step : ∀ step ∈ sourceSessionsToSteps rows startDepth,
      ∃ row ∈ rows, row.session = step.shownSession := by
    intro step member
    have shown := List.mem_map_of_mem (f := CausalStep.shownSession) member
    rw [sourceSessionsToSteps_sessions] at shown
    obtain ⟨row, isFresh, same⟩ := List.mem_map.mp shown
    exact ⟨row, (FirstSeen.fresh_sublist _ [] rows).subset isFresh, same⟩
  constructor
  · rintro ⟨listed, merged⟩
    have apart := sourceSessionsToSteps_keeps_iff.mp listed
    refine ⟨apart, ?_⟩
    intro row member nonempty linked
    obtain ⟨step, isStep, shown⟩ := steps_of_rows apart row member
    have own : step.sessionId = some row.external :=
      (congrArg Prod.snd shown).trans (unlessEmpty_eq_some_iff.mpr ⟨rfl, nonempty⟩)
    obtain ⟨kept, isKept, same⟩ := mergeSourceStepsInto_keeps_iff.mp merged step isStep
      (alreadyLinked_iff.mpr ⟨row.external, own, linked⟩)
    exact ⟨kept, isKept, (congrArg Prod.snd same).trans own,
      (congrArg Prod.fst same).trans (congrArg Prod.fst shown)⟩
  · rintro ⟨apart, links⟩
    refine ⟨steps_of_rows apart, mergeSourceStepsInto_keeps_iff.mpr ?_⟩
    intro step member linked
    obtain ⟨row, isRow, same⟩ := row_of_step step member
    obtain ⟨id, own, chainStep⟩ := alreadyLinked_iff.mp linked
    have external := unlessEmpty_eq_some_iff.mp ((congrArg Prod.snd same).trans own)
    obtain ⟨rfl, nonempty⟩ := external
    obtain ⟨kept, isKept, shownId, shownSource⟩ := links row isRow nonempty chainStep
    refine ⟨kept, isKept, Prod.ext ?_ (shownId.trans own.symm)⟩
    exact shownSource.trans (congrArg Prod.fst same)

/-! ## One session id in two applications -/

/-- A row of a session of the application. -/
def rowOf (appId external lastSeenAt : String) : FileSessionBlameRow where
  filePath := "src/lib.rs"
  externalSessionId := some external
  sourceId := some appId
  appId := some appId
  actorId := none
  actorType := none
  lastSeenAt := lastSeenAt
  occurredAt := none
  title := none
  sourcePointer := none

/-- The chain shows a session of one application; the session of another application that
has the same id there is left out. -/
theorem merge_drops_session_of_other_source :
    ¬ ∀ (rows : List FileSessionBlameRow) (startDepth : Nat) (chain : List CausalStep),
      KeepsEverySession rows startDepth chain := by
  intro claim
  have keeps := (claim [rowOf "cursor" "s1" "2026-06-22T11:00:00Z"] 0
    [(rowOf "codex" "s1" "2026-06-22T10:00:00Z").step 0]).merged
  obtain ⟨linked, member, shown⟩ := mergeSourceStepsInto_keeps_iff.mp keeps
    ((rowOf "cursor" "s1" "2026-06-22T11:00:00Z").step 0) (List.mem_singleton.mpr rfl) (by decide)
  rw [List.mem_singleton] at member
  subst member
  revert shown
  decide

end BrickTrace
