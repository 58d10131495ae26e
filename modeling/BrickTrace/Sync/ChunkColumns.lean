import BrickTrace.Sync.Supabase

/-!
# The columns of a chunk

The local event store and the upload both take the kind, the role, the actor and the text
of a chunk from the first of several places.  The store takes the first place that is
there, the upload the first that holds a text.
-/

set_option autoImplicit false

namespace BrickTrace

def kindPlaces : List (List String) := [["action_type"], ["kind"], ["type"], ["function"]]

def rolePlaces : List (List String) := [["role"], ["result", "role"], ["result", "message", "role"]]

def actorPlaces : List (List String) := [["actor_id"], ["actor", "actor_id"]]

def textPlaces : List (List String) :=
  [["text"], ["content"], ["message", "content"], ["result", "content"],
    ["result", "message", "content"], ["result", "observation"], ["result", "output"]]

/-- The uploaded row has the columns that the local store derives from its chunk. -/
structure StoredAlike (row : SupabaseChunkRow) : Prop where
  chunkKind : row.chunkKind = chunkKind row.raw
  role : row.role = chunkRole row.raw
  actorId : row.actorId = chunkActorId row.raw
  text : row.text = chunkText row.raw

/-- The first place that is there holds a text, or none does. -/
def NoTextHidden (places : List (List String)) (raw : Json) : Prop :=
  ∀ value, (places.findSome? fun path => raw.pointer path) = some value →
    Json.decodeString value = none →
      ∀ path ∈ places, (raw.pointer path).bind Json.decodeString = none

/-! ## One column -/

section Column
variable {places : List (List String)} {raw value : Json} {text : String}

/-- The first place that is there is the first that holds a text, when it does. -/
theorem firstStr_of_first_text
    (found : (places.findSome? fun path => raw.pointer path) = some value)
    (isText : Json.decodeString value = some text) : firstStr places raw = some text := by
  unfold firstStr
  induction places with
  | nil => cases found
  | cons path rest ih =>
      rw [List.findSome?_cons] at found ⊢
      cases here : raw.pointer path with
      | none =>
          rw [here] at found
          exact ih found
      | some held =>
          rw [here] at found
          cases found
          rw [Option.bind_some, isText]

theorem firstStr_eq_none_of_absent
    (absent : (places.findSome? fun path => raw.pointer path) = none) :
    firstStr places raw = none := by
  apply List.findSome?_eq_none_iff.mpr
  intro path member
  rw [List.findSome?_eq_none_iff.mp absent path member]
  rfl

theorem firstStr_eq_firstText_iff :
    firstStr places raw = firstText places raw ↔ NoTextHidden places raw := by
  unfold firstText NoTextHidden
  cases found : places.findSome? fun path => raw.pointer path with
  | none =>
      rw [firstStr_eq_none_of_absent found]
      constructor
      · intro _ value absent
        cases absent
      · intro _
        rfl
  | some held =>
      rw [Option.bind_some]
      cases isText : Json.decodeString held with
      | some text =>
          rw [firstStr_of_first_text found isText]
          constructor
          · intro _ value same noText
            cases same
            rw [isText] at noText
            cases noText
          · intro _
            rfl
      | none =>
          unfold firstStr
          rw [List.findSome?_eq_none_iff]
          constructor
          · intro nothing _ _ _
            exact nothing
          · intro hidden
            exact hidden held rfl isText

end Column

/-! ## All columns -/

/-- An uploaded chunk has the columns of the local store exactly when none of them hides a text
behind a value of another type. -/
theorem uploaded_columns_stored_alike_iff {event : TraceEvent} {rows : List SupabaseChunkRow}
    (built : supabaseChunkRows event = .ok rows) {row : SupabaseChunkRow} (member : row ∈ rows) :
    StoredAlike row ↔
      ∀ places ∈ [kindPlaces, rolePlaces, actorPlaces, textPlaces], NoTextHidden places row.raw := by
  have columns : row.chunkKind = firstStr kindPlaces row.raw ∧ row.role = firstStr rolePlaces row.raw ∧
      row.actorId = firstStr actorPlaces row.raw ∧ row.text = firstStr textPlaces row.raw := by
    unfold supabaseChunkRows at built
    split at built
    · cases built
      cases member
    · obtain ⟨repoId, _, afterRepo⟩ := Fallible.bind_eq_ok_iff.mp built
      obtain ⟨orgId, _, afterOrg⟩ := Fallible.bind_eq_ok_iff.mp afterRepo
      obtain ⟨sourceId, _, afterSource⟩ := Fallible.bind_eq_ok_iff.mp afterOrg
      obtain ⟨externalSessionId, _, rest⟩ := Fallible.bind_eq_ok_iff.mp afterSource
      cases rest
      obtain ⟨index, _, rfl⟩ := List.mem_mapIdx.mp member
      exact ⟨rfl, rfl, rfl, rfl⟩
  obtain ⟨kind, role, actor, text⟩ := columns
  simp only [List.forall_mem_cons, List.not_mem_nil, IsEmpty.forall_iff, implies_true, and_true,
    ← firstStr_eq_firstText_iff, ← kind, ← role, ← actor, ← text]
  constructor
  · intro alike
    exact ⟨alike.chunkKind, alike.role, alike.actorId, alike.text⟩
  · rintro ⟨sameKind, sameRole, sameActor, sameText⟩
    exact ⟨sameKind, sameRole, sameActor, sameText⟩

/-! ## A null before a text -/

def chunkEvent (chunk : Json) : TraceEvent where
  eventId := ⟨1⟩
  eventType := .sourceSessionObserved
  schemaVersion := 1
  payloadSchemaVersion := 1
  occurredAt := ⟨0⟩
  recordedAt := ⟨0⟩
  actor := ⟨.agent, "agent-1", none⟩
  repoId := some "repo-1"
  orgId := some ⟨"org_1"⟩
  projectId := none
  missionId := none
  sessionId := none
  artifactId := none
  repoContextId := none
  confidence := .observed
  payload := .object [("external_session_id", .string "session-1"),
    ("normalized_chunks", .array [chunk]), ("source_id", .string "codex_app")]

def spokenChunk : Json := .object [("role", .string "assistant"), ("text", .string "done")]

def blankedChunk : Json := .object [("content", .string "hello"), ("text", .null)]

theorem spoken_chunk_stored_alike :
    ∃ row, supabaseChunkRows (chunkEvent spokenChunk) = .ok [row] ∧ row.text = some "done" ∧
      StoredAlike row := by
  have sameColumns : ∀ places ∈ [kindPlaces, rolePlaces, actorPlaces, textPlaces],
      firstStr places spokenChunk = firstText places spokenChunk := by
    decide +kernel
  have built : supabaseChunkRows (chunkEvent spokenChunk) = .ok [_] := rfl
  refine ⟨_, built, by decide +kernel, ?_⟩
  apply (uploaded_columns_stored_alike_iff built (List.mem_singleton_self _)).mpr
  intro places member
  exact firstStr_eq_firstText_iff.mp (sameColumns places member)

theorem blanked_chunk_stored_differently :
    ∃ row, supabaseChunkRows (chunkEvent blankedChunk) = .ok [row] ∧ row.text = some "hello" ∧
      chunkText row.raw = none ∧ ¬ StoredAlike row := by
  refine ⟨_, rfl, by decide +kernel, by decide +kernel, ?_⟩
  intro alike
  exact absurd alike.text (by decide +kernel)

end BrickTrace
