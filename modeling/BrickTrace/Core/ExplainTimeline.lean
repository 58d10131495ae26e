import BrickTrace.Lib.Rfc3339
import BrickTrace.Lib.StableSort
import BrickTrace.Core.ExplainMerge

/-!
# The order of a merged timeline

The merge sorts by the texts of the times.  The timeline is in the order of the
instants that the texts denote exactly when the texts already are.
-/

set_option autoImplicit false

namespace BrickTrace

inductive StepOrigin where
  | chain
  | source
deriving DecidableEq

/-- `left` may stand before `right`: it is not older, and at one instant a step of the
chain is not behind a source step. -/
def MayPrecede (left right : StepOrigin × CausalStep) : Prop :=
  ∀ leftInstant rightInstant, Rfc3339.instant left.2.occurredAt = some leftInstant →
    Rfc3339.instant right.2.occurredAt = some rightInstant →
      rightInstant ≤ leftInstant ∧
        (leftInstant = rightInstant → ¬ (left.1 = .source ∧ right.1 = .chain))

section Merge
variable (chain source : List CausalStep)

/-- The steps that a merge is to show, each with where it comes from. -/
def mergedSteps : List (StepOrigin × CausalStep) :=
  chain.map (Prod.mk .chain) ++
    (source.filter fun step => !alreadyLinked chain step).map (Prod.mk .source)

/-- A merged timeline as it is to be. -/
structure MergesInOrder (merged : List CausalStep) : Prop where
  depths : merged.map CausalStep.depth = List.range merged.length
  ordered : ∃ tagged : List (StepOrigin × CausalStep), tagged.Perm (mergedSteps chain source) ∧
    merged = renumber (tagged.map Prod.snd) ∧ tagged.Pairwise MayPrecede

/-- A step with the later text is not the earlier change, nor a source step that would
pass a step of the chain at the same instant. -/
def TextsInOrder : Prop :=
  ∀ left ∈ mergedSteps chain source, ∀ right ∈ mergedSteps chain source,
    right.2.occurredAt < left.2.occurredAt → MayPrecede left right

variable {chain source}

theorem renumber_depths (steps : List CausalStep) :
    (renumber steps).map CausalStep.depth = List.range steps.length := by
  unfold renumber
  rw [List.map_map]
  have depths : (CausalStep.depth ∘ fun entry : CausalStep × Nat =>
      { entry.1 with depth := entry.2 }) = Prod.snd := rfl
  rw [depths, List.zipIdx_map_snd, List.range_eq_range']

theorem renumber_length (steps : List CausalStep) : (renumber steps).length = steps.length := by
  simp [renumber]

/-- The timeline with the origins of its steps. -/
theorem mergeSourceStepsInto_tagged :
    mergeSourceStepsInto chain source = renumber
      ((StableSort.largestFirst (·.2.occurredAt) (mergedSteps chain source)).map Prod.snd) := by
  have untagged : (mergedSteps chain source).map Prod.snd =
      chain ++ source.filter fun step => !alreadyLinked chain step := by
    simp [mergedSteps]
  have sorted := List.map_mergeSort (f := Prod.snd) (s := newestFirst)
    (r := StableSort.larger fun step : StepOrigin × CausalStep => step.2.occurredAt)
    (l := mergedSteps chain source) fun _ _ _ _ => rfl
  rw [untagged] at sorted
  unfold mergeSourceStepsInto StableSort.largestFirst
  rw [sorted]

/-- Steps of one text are in order as they come: the chain's first. -/
theorem mergedSteps_ties :
    (mergedSteps chain source).Pairwise fun left right =>
      left.2.occurredAt = right.2.occurredAt → MayPrecede left right := by
  have alike : ∀ left right : StepOrigin × CausalStep,
      ¬ (left.1 = .source ∧ right.1 = .chain) → left.2.occurredAt = right.2.occurredAt →
        MayPrecede left right := by
    intro left right apart same leftInstant rightInstant isLeft isRight
    rw [same, isRight] at isLeft
    cases isLeft
    exact ⟨Rat.le_refl, fun _ => apart⟩
  unfold mergedSteps
  rw [List.pairwise_append, List.pairwise_map, List.pairwise_map]
  refine ⟨List.pairwise_of_forall ?_, List.pairwise_of_forall ?_, ?_⟩
  · intro left right
    exact alike _ _ fun tags => by cases tags.1
  · intro left right
    exact alike _ _ fun tags => by cases tags.2
  · intro left isLeft right isRight
    obtain ⟨step, -, rfl⟩ := List.mem_map.mp isLeft
    exact alike _ _ fun tags => by cases tags.1

end Merge

/-- Whatever the steps are tagged with, a timeline shows the later of two texts first. -/
theorem textsInOrder_of_pairwise {chain source : List CausalStep}
    {tagged : List (StepOrigin × CausalStep)} (perm : tagged.Perm (mergedSteps chain source))
    (same : renumber (tagged.map Prod.snd) = mergeSourceStepsInto chain source)
    (ordered : tagged.Pairwise MayPrecede) : TextsInOrder chain source := by
  have texts : tagged.map (·.2.occurredAt) =
      (StableSort.largestFirst (·.2.occurredAt) (mergedSteps chain source)).map
        (·.2.occurredAt) := by
    have shown := congrArg (List.map CausalStep.occurredAt) (same.trans mergeSourceStepsInto_tagged)
    rwa [renumber_map fun _ _ => rfl, renumber_map fun _ _ => rfl, List.map_map, List.map_map] at shown
  have descending : tagged.Pairwise fun left right => right.2.occurredAt ≤ left.2.occurredAt := by
    have sorted : ((StableSort.largestFirst (·.2.occurredAt) (mergedSteps chain source)).map
        (·.2.occurredAt)).Pairwise fun left right => right ≤ left :=
      List.pairwise_map.mpr StableSort.pairwise_largestFirst
    rw [← texts] at sorted
    exact List.pairwise_map.mp sorted
  intro left isLeft right isRight below
  have before := StableSort.sublist_of_key_lt descending (perm.mem_iff.mpr isLeft)
    (perm.mem_iff.mpr isRight) below
  exact List.pairwise_iff_forall_sublist.mp ordered before

theorem merge_source_steps_in_order_iff (chain source : List CausalStep) :
    MergesInOrder chain source (mergeSourceStepsInto chain source) ↔ TextsInOrder chain source := by
  constructor
  · rintro ⟨-, tagged, perm, same, ordered⟩
    exact textsInOrder_of_pairwise perm same.symm ordered
  · intro inOrder
    refine ⟨?_, _, StableSort.largestFirst_perm, mergeSourceStepsInto_tagged,
      StableSort.pairwise_largestFirst_iff.mpr ⟨inOrder, mergedSteps_ties⟩⟩
    rw [mergeSourceStepsInto_tagged, renumber_depths, renumber_length]

/-! ## Two offsets -/

/-- A step of a source session with nothing but its id and its time. -/
def sessionStep (sessionId occurredAt : String) : CausalStep where
  eventId := sourceSessionId "codex" sessionId
  eventType := "source.session"
  title := none
  actorType := none
  actorId := none
  sessionId := some sessionId
  missionId := none
  missionTitle := none
  occurredAt := occurredAt
  relation := none
  note := none
  confidence := "observed"
  evidence := none
  transcript := none
  depth := 0

/-- Ten o'clock two hours east of UTC is eight o'clock, an hour before nine in UTC. -/
theorem merge_puts_older_step_first :
    ¬ ∀ chain source : List CausalStep,
      MergesInOrder chain source (mergeSourceStepsInto chain source) := by
  intro claim
  obtain ⟨-, tagged, perm, same, ordered⟩ := claim [sessionStep "s1" "2026-06-22T10:00:00+02:00"]
    [sessionStep "s2" "2026-06-22T09:00:00Z"]
  have early : Rfc3339.instant "2026-06-22T10:00:00+02:00" = some 63949334400 := by decide +kernel
  have late : Rfc3339.instant "2026-06-22T09:00:00Z" = some 63949338000 := by decide +kernel
  have inOrder := textsInOrder_of_pairwise perm same.symm ordered
  have shown : mergedSteps [sessionStep "s1" "2026-06-22T10:00:00+02:00"]
      [sessionStep "s2" "2026-06-22T09:00:00Z"] =
        [(.chain, sessionStep "s1" "2026-06-22T10:00:00+02:00"),
          (.source, sessionStep "s2" "2026-06-22T09:00:00Z")] := by rfl
  have precedes := inOrder (.chain, sessionStep "s1" "2026-06-22T10:00:00+02:00")
    (by simp [shown]) (.source, sessionStep "s2" "2026-06-22T09:00:00Z") (by simp [shown])
    (by decide)
  have older := (precedes _ _ early late).1
  revert older
  decide +kernel

end BrickTrace
