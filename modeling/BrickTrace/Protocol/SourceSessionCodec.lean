import BrickTrace.Lib.JsonFields
import BrickTrace.Protocol.Payloads

/-!
# The payload of an observed session, read and written again

An object that is read as an observed session and written again keeps the fields
the payload knows.  The object comes back as it was when it has those fields only,
all the ones that are always written, and none that is written only if it says
something.
-/

set_option autoImplicit false

namespace BrickTrace

open Json

namespace SourceSessionObservedPayload

/-- What each field is read from in an object. -/
structure ReadFrom (entries : List (String × Json)) (payload : SourceSessionObservedPayload) :
    Prop where
  sourceId : requiredIn entries "source_id" decodeString = some payload.sourceId
  externalSessionId :
    requiredIn entries "external_session_id" decodeString = some payload.externalSessionId
  title : optionalIn entries "title" decodeString = some payload.title
  name : defaultedIn entries "name" (decodeNullable decodeString) none = some payload.name
  sourcePath : optionalIn entries "source_path" decodeString = some payload.sourcePath
  sourceUri : optionalIn entries "source_uri" decodeString = some payload.sourceUri
  sourceMtime : optionalIn entries "source_mtime" decodeString = some payload.sourceMtime
  sourceSize : optionalIn entries "source_size" decodeU64 = some payload.sourceSize
  sourceFingerprint :
    optionalIn entries "source_fingerprint" decodeString = some payload.sourceFingerprint
  parserVersion : optionalIn entries "parser_version" decodeString = some payload.parserVersion
  sessionCreatedAt :
    optionalIn entries "session_created_at" decodeString = some payload.sessionCreatedAt
  sessionUpdatedAt :
    optionalIn entries "session_updated_at" decodeString = some payload.sessionUpdatedAt
  model : optionalIn entries "model" decodeString = some payload.model
  inputTokens : optionalIn entries "input_tokens" decodeU64 = some payload.inputTokens
  outputTokens : optionalIn entries "output_tokens" decodeU64 = some payload.outputTokens
  repoPath : optionalIn entries "repo_path" decodeString = some payload.repoPath
  branch : optionalIn entries "branch" decodeString = some payload.branch
  filesChanged : optionalIn entries "files_changed" decodeU64 = some payload.filesChanged
  linesAdded : optionalIn entries "lines_added" decodeU64 = some payload.linesAdded
  linesRemoved : optionalIn entries "lines_removed" decodeU64 = some payload.linesRemoved
  touchedFiles :
    defaultedIn entries "touched_files" (decodeArray decodeString) [] = some payload.touchedFiles
  metadataJson :
    defaultedIn entries "metadata_json" (decodeNullable decodeValue) none = some payload.metadataJson
  normalizedChunks :
    defaultedIn entries "normalized_chunks" (decodeArray decodeValue) [] =
      some payload.normalizedChunks

theorem readFrom_of_decode {entries : List (String × Json)}
    {payload : SourceSessionObservedPayload} (decoded : decode (.object entries) = some payload) :
    payload.ReadFrom entries := by
  unfold decode decodeRecord at decoded
  obtain ⟨_, chain, first⟩ := Option.map_eq_some_iff.mp decoded
  clear decoded
  obtain ⟨_, sourceId, chain⟩ := required_bind_eq_some_iff.mp chain
  obtain ⟨_, externalSessionId, chain⟩ := required_bind_eq_some_iff.mp chain
  obtain ⟨_, title, chain⟩ := optional_bind_eq_some_iff.mp chain
  obtain ⟨_, name, chain⟩ := defaulted_bind_eq_some_iff.mp chain
  obtain ⟨_, sourcePath, chain⟩ := optional_bind_eq_some_iff.mp chain
  obtain ⟨_, sourceUri, chain⟩ := optional_bind_eq_some_iff.mp chain
  obtain ⟨_, sourceMtime, chain⟩ := optional_bind_eq_some_iff.mp chain
  obtain ⟨_, sourceSize, chain⟩ := optional_bind_eq_some_iff.mp chain
  obtain ⟨_, sourceFingerprint, chain⟩ := optional_bind_eq_some_iff.mp chain
  obtain ⟨_, parserVersion, chain⟩ := optional_bind_eq_some_iff.mp chain
  obtain ⟨_, sessionCreatedAt, chain⟩ := optional_bind_eq_some_iff.mp chain
  obtain ⟨_, sessionUpdatedAt, chain⟩ := optional_bind_eq_some_iff.mp chain
  obtain ⟨_, model, chain⟩ := optional_bind_eq_some_iff.mp chain
  obtain ⟨_, inputTokens, chain⟩ := optional_bind_eq_some_iff.mp chain
  obtain ⟨_, outputTokens, chain⟩ := optional_bind_eq_some_iff.mp chain
  obtain ⟨_, repoPath, chain⟩ := optional_bind_eq_some_iff.mp chain
  obtain ⟨_, branch, chain⟩ := optional_bind_eq_some_iff.mp chain
  obtain ⟨_, filesChanged, chain⟩ := optional_bind_eq_some_iff.mp chain
  obtain ⟨_, linesAdded, chain⟩ := optional_bind_eq_some_iff.mp chain
  obtain ⟨_, linesRemoved, chain⟩ := optional_bind_eq_some_iff.mp chain
  obtain ⟨_, touchedFiles, chain⟩ := defaulted_bind_eq_some_iff.mp chain
  obtain ⟨_, metadataJson, chain⟩ := defaulted_bind_eq_some_iff.mp chain
  obtain ⟨_, normalizedChunks, chain⟩ := defaulted_bind_eq_some_iff.mp chain
  cases chain
  cases first
  constructor <;> assumption

/-- An object in which every field is read gives the payload of these fields. -/
theorem ReadFrom.decode_eq {entries : List (String × Json)}
    {payload : SourceSessionObservedPayload} (read : payload.ReadFrom entries) :
    decode (.object entries) = some payload := by
  unfold decode decodeRecord
  dsimp only
  simp only [required_bind_named, optional_bind_named, defaulted_bind_named, Option.bind_some,
    read.sourceId, read.externalSessionId, read.title, read.name, read.sourcePath, read.sourceUri,
    read.sourceMtime, read.sourceSize, read.sourceFingerprint, read.parserVersion,
    read.sessionCreatedAt, read.sessionUpdatedAt, read.model, read.inputTokens, read.outputTokens,
    read.repoPath, read.branch, read.filesChanged, read.linesAdded, read.linesRemoved,
    read.touchedFiles, read.metadataJson, read.normalizedChunks]
  rfl

/-! ## Writing -/

/-- The fields in the order in which they are written, with what stands for the chunks. -/
def fields (payload : SourceSessionObservedPayload) (chunks : Option Json) :
    List (String × Option Json) :=
  [("source_id", some (.string payload.sourceId)),
    ("external_session_id", some (.string payload.externalSessionId)),
    ("title", some (encodeNullable .string payload.title)),
    ("name", payload.name.map .string),
    ("source_path", some (encodeNullable .string payload.sourcePath)),
    ("source_uri", some (encodeNullable .string payload.sourceUri)),
    ("source_mtime", some (encodeNullable .string payload.sourceMtime)),
    ("source_size", some (encodeNullable encodeU64 payload.sourceSize)),
    ("source_fingerprint", some (encodeNullable .string payload.sourceFingerprint)),
    ("parser_version", some (encodeNullable .string payload.parserVersion)),
    ("session_created_at", some (encodeNullable .string payload.sessionCreatedAt)),
    ("session_updated_at", some (encodeNullable .string payload.sessionUpdatedAt)),
    ("model", some (encodeNullable .string payload.model)),
    ("input_tokens", some (encodeNullable encodeU64 payload.inputTokens)),
    ("output_tokens", some (encodeNullable encodeU64 payload.outputTokens)),
    ("repo_path", some (encodeNullable .string payload.repoPath)),
    ("branch", some (encodeNullable .string payload.branch)),
    ("files_changed", some (encodeNullable encodeU64 payload.filesChanged)),
    ("lines_added", some (encodeNullable encodeU64 payload.linesAdded)),
    ("lines_removed", some (encodeNullable encodeU64 payload.linesRemoved)),
    ("touched_files",
      if payload.touchedFiles.isEmpty then none
      else some (.array (payload.touchedFiles.map .string))),
    ("metadata_json", payload.metadataJson)] ++ [("normalized_chunks", chunks)]

def alwaysWritten : List String :=
  ["source_id", "external_session_id", "title", "source_path", "source_uri", "source_mtime",
    "source_size", "source_fingerprint", "parser_version", "session_created_at",
    "session_updated_at", "model", "input_tokens", "output_tokens", "repo_path", "branch",
    "files_changed", "lines_added", "lines_removed"]

def fieldNames : List String :=
  alwaysWritten ++ ["name", "touched_files", "metadata_json", "normalized_chunks"]

theorem names_fields (payload : SourceSessionObservedPayload) (chunks : Option Json) :
    ((payload.fields chunks).map Prod.fst).Perm fieldNames := by
  change List.Perm ["source_id", "external_session_id", "title", "name", "source_path",
    "source_uri", "source_mtime", "source_size", "source_fingerprint", "parser_version",
    "session_created_at", "session_updated_at", "model", "input_tokens", "output_tokens",
    "repo_path", "branch", "files_changed", "lines_added", "lines_removed", "touched_files",
    "metadata_json", "normalized_chunks"] fieldNames
  decide

theorem nodup_names_fields (payload : SourceSessionObservedPayload) (chunks : Option Json) :
    ((payload.fields chunks).map Prod.fst).Nodup :=
  (names_fields payload chunks).nodup_iff.mpr (by decide)

theorem encode_eq (payload : SourceSessionObservedPayload) :
    payload.encode = .object (fieldEntries (written (payload.fields
      (if payload.normalizedChunks.isEmpty then none
        else some (.array payload.normalizedChunks))))) := by
  obtain ⟨⟩ := payload
  rename_i name _ _ _ _ _ _ _ _ _ _ _ _ _ _ _ _ touchedFiles metadataJson normalizedChunks
  cases name <;> cases touchedFiles <;> cases metadataJson <;> cases normalizedChunks <;> rfl

theorem wellFormed_encode {payload : SourceSessionObservedPayload}
    (metadata : ∀ value ∈ payload.metadataJson, WellFormed value)
    (chunks : ∀ chunk ∈ payload.normalizedChunks, WellFormed chunk) :
    payload.encode.WellFormed := by
  have count : ∀ value, WellFormed (encodeNullable encodeU64 value) :=
    WellFormed.nullable WellFormed.posInt
  rw [encode_eq]
  apply wellFormed_fieldEntries
  simp only [fields, List.cons_append, List.nil_append, List.forall_mem_cons, Option.mem_def,
    Option.some.injEq, forall_eq', WellFormed.string, WellFormed.nullable WellFormed.string, count,
    true_and]
  refine ⟨?_, ?_, metadata, ?_, fun _ none => nomatch none⟩
  · intro value isName
    obtain ⟨name, _, rfl⟩ := Option.map_eq_some_iff.mp isName
    exact .string name
  · intro value isList
    split at isList
    · cases isList
    · cases isList
      refine .array _ fun item member => ?_
      obtain ⟨path, _, rfl⟩ := List.mem_map.mp member
      exact .string path
  · intro value isList
    split at isList
    · cases isList
    · cases isList
      exact .array _ chunks

/-- What a written payload has under the name of one of its fields. -/
theorem get_encode (payload : SourceSessionObservedPayload) {name : String} {value : Option Json}
    (member : (name, value) ∈ payload.fields (if payload.normalizedChunks.isEmpty then none
      else some (.array payload.normalizedChunks))) : payload.encode.get name = value := by
  have distinct := nodup_names_fields payload (if payload.normalizedChunks.isEmpty then none
    else some (.array payload.normalizedChunks))
  rw [encode_eq]
  unfold Json.get
  dsimp only
  rw [lookup_fieldEntries (distinct.sublist (names_written_sublist _)), lookup_written distinct member]

theorem text_of_nullable (value : Option String) :
    (some (encodeNullable Json.string value)).bind decodeString = value := by
  cases value <;> rfl

/-- What a field that may hold any value is read as: null is no value. -/
def notNull : Option Json → Option Json
  | some .null => none
  | value => value

theorem readFrom_encode (payload : SourceSessionObservedPayload) {entries : List (String × Json)}
    (isEncoded : payload.encode = .object entries) :
    { payload with metadataJson := notNull payload.metadataJson }.ReadFrom entries := by
  obtain ⟨chunks, isChunks⟩ : ∃ chunks : Option Json, chunks =
      if payload.normalizedChunks.isEmpty then none else some (.array payload.normalizedChunks) :=
    ⟨_, rfl⟩
  have found : ∀ name value, (name, value) ∈ payload.fields chunks →
      entries.lookup name = value := by
    intro name value member
    rw [isChunks] at member
    have held := payload.get_encode member
    rw [isEncoded] at held
    exact held
  have required : ∀ name value, (name, some (.string value)) ∈ payload.fields chunks →
      requiredIn entries name decodeString = some value :=
    fun name value member => requiredIn_of_found (found name _ member) rfl
  have text : ∀ name value, (name, some (encodeNullable .string value)) ∈ payload.fields chunks →
      optionalIn entries name decodeString = some value :=
    fun name value member => optionalIn_of_found (found name _ member) fun _ => rfl
  have count : ∀ name value, (name, some (encodeNullable encodeU64 value)) ∈ payload.fields chunks →
      optionalIn entries name decodeU64 = some value :=
    fun name value member => optionalIn_of_found (found name _ member) fun _ => rfl
  have nameHeld : entries.lookup "name" = payload.name.map .string :=
    found "name" _ (by simp [fields])
  have filesHeld : entries.lookup "touched_files" = if payload.touchedFiles.isEmpty then none
      else some (.array (payload.touchedFiles.map .string)) :=
    found "touched_files" _ (by simp [fields])
  have chunksHeld : entries.lookup "normalized_chunks" = if payload.normalizedChunks.isEmpty then none
      else some (.array (payload.normalizedChunks.map id)) := by
    rw [List.map_id, ← isChunks]
    exact found "normalized_chunks" _ (by simp [fields])
  have metadata : defaultedIn entries "metadata_json" (decodeNullable decodeValue) none =
      some (notNull payload.metadataJson) := by
    unfold defaultedIn
    rw [found "metadata_json" payload.metadataJson (by simp [fields])]
    cases payload.metadataJson with
    | none => rfl
    | some json => cases json <;> rfl
  constructor
  case metadataJson => exact metadata
  case name => exact defaultedIn_nullable_of_found nameHeld fun _ => rfl
  case touchedFiles => exact defaultedIn_list_of_found filesHeld fun _ _ => rfl
  case normalizedChunks => exact defaultedIn_list_of_found chunksHeld fun _ _ => rfl
  case sourceId => exact required _ _ (by simp [fields])
  case externalSessionId => exact required _ _ (by simp [fields])
  case sourceSize => exact count _ _ (by simp [fields])
  case inputTokens => exact count _ _ (by simp [fields])
  case outputTokens => exact count _ _ (by simp [fields])
  case filesChanged => exact count _ _ (by simp [fields])
  case linesAdded => exact count _ _ (by simp [fields])
  case linesRemoved => exact count _ _ (by simp [fields])
  all_goals exact text _ _ (by simp [fields])

/-- A payload that was written is read back, but for metadata that says nothing. -/
theorem decode_encode (payload : SourceSessionObservedPayload) :
    decode payload.encode = some { payload with metadataJson := notNull payload.metadataJson } := by
  have read := payload.readFrom_encode payload.encode_eq
  rw [encode_eq]
  exact read.decode_eq

/-- The texts by which a session is known, and its repo, are read as they were written. -/
theorem texts_of_decode_encode {payload read : SourceSessionObservedPayload}
    (decoded : decode payload.encode = some read) :
    read.sourceId = payload.sourceId ∧ read.externalSessionId = payload.externalSessionId ∧
      read.sourceFingerprint = payload.sourceFingerprint ∧ read.repoPath = payload.repoPath := by
  rw [decode_encode] at decoded
  cases decoded
  exact ⟨rfl, rfl, rfl, rfl⟩

/-- The entries of a payload that was written without its chunks, with the chunks put back. -/
def reattachedEntries (payload : SourceSessionObservedPayload) : List (String × Json) :=
  fieldEntries (written (payload.fields (some (.array payload.normalizedChunks))))

theorem insert_chunks_encode (payload : SourceSessionObservedPayload) :
    ∃ entries, { payload with normalizedChunks := [] }.encode = .object entries ∧
      insertEntry "normalized_chunks" (.array payload.normalizedChunks) entries =
        payload.reattachedEntries := by
  refine ⟨_, encode_eq _, ?_⟩
  unfold reattachedEntries
  rw [← fieldEntries_append_singleton]
  unfold fields written
  rw [List.filterMap_append, List.filterMap_append]
  exact congrArg fieldEntries (List.append_assoc ..)

/-! ## Objects that come back as they were -/

/-- No field that the payload does not know, every field that is always written and the
chunks, and no empty field that is left out when it is written. -/
structure Canonical (entries : List (String × Json)) : Prop where
  known : ∀ entry ∈ entries, entry.1 ∈ fieldNames
  present : ∀ name ∈ alwaysWritten ++ ["normalized_chunks"], (entries.lookup name).isSome = true
  notNull : ∀ name ∈ ["name", "metadata_json"], entries.lookup name ≠ some .null
  notEmpty : entries.lookup "touched_files" ≠ some (.array [])

section Canonical
variable {entries : List (String × Json)} {payload : SourceSessionObservedPayload}

theorem ReadFrom.fields_kept_iff (read : payload.ReadFrom entries)
    (formed : WellFormed (.object entries)) :
    (∀ field ∈ payload.fields (some (.array payload.normalizedChunks)),
        entries.lookup field.1 = field.2) ↔
      (∀ name ∈ alwaysWritten ++ ["normalized_chunks"], (entries.lookup name).isSome = true) ∧
        (∀ name ∈ ["name", "metadata_json"], entries.lookup name ≠ some .null) ∧
        entries.lookup "touched_files" ≠ some (.array []) := by
  have text : ∀ name json value, entries.lookup name = some json →
      decodeString json = some value → Json.string value = json :=
    fun _ _ _ _ => encode_of_decodeString
  have count : ∀ name json value, entries.lookup name = some json →
      decodeU64 json = some value → encodeU64 value = json :=
    fun _ _ _ found => encode_of_decodeU64 (formed.of_lookup found)
  have any : ∀ json value, decodeValue json = some value → value = json :=
    fun _ _ => Option.some.inj ∘ Eq.symm
  have required : ∀ {name value}, requiredIn entries name decodeString = some value →
      (entries.lookup name = some (.string value) ↔ (entries.lookup name).isSome = true) := by
    intro name value isRead
    have kept := requiredIn_kept (text name) isRead
    exact ⟨fun _ => kept ▸ rfl, fun _ => kept⟩
  have optionalText : ∀ {name value}, optionalIn entries name decodeString = some value →
      (entries.lookup name = some (encodeNullable .string value) ↔
        (entries.lookup name).isSome = true) := fun isRead => optionalIn_kept_iff (text _) isRead
  have optionalCount : ∀ {name value}, optionalIn entries name decodeU64 = some value →
      (entries.lookup name = some (encodeNullable encodeU64 value) ↔
        (entries.lookup name).isSome = true) := fun isRead => optionalIn_kept_iff (count _) isRead
  have metadata : entries.lookup "metadata_json" = payload.metadataJson.map id ↔
      entries.lookup "metadata_json" ≠ some .null :=
    defaultedIn_nullable_kept_iff (fun json value _ => any json value) read.metadataJson
  have chunks : entries.lookup "normalized_chunks" = some (.array (payload.normalizedChunks.map id)) ↔
      (entries.lookup "normalized_chunks").isSome = true :=
    defaultedIn_list_present_iff any read.normalizedChunks
  rw [Option.map_id, id] at metadata
  rw [List.map_id] at chunks
  simp only [fields, List.cons_append, List.nil_append, List.forall_mem_cons,
    required read.sourceId, required read.externalSessionId, optionalText read.title,
    defaultedIn_nullable_kept_iff (text _) read.name, optionalText read.sourcePath,
    optionalText read.sourceUri, optionalText read.sourceMtime, optionalCount read.sourceSize,
    optionalText read.sourceFingerprint, optionalText read.parserVersion,
    optionalText read.sessionCreatedAt, optionalText read.sessionUpdatedAt,
    optionalText read.model, optionalCount read.inputTokens, optionalCount read.outputTokens,
    optionalText read.repoPath, optionalText read.branch, optionalCount read.filesChanged,
    optionalCount read.linesAdded, optionalCount read.linesRemoved,
    defaultedIn_list_kept_iff (fun json value => encode_of_decodeString) read.touchedFiles,
    metadata, chunks, alwaysWritten, List.not_mem_nil, false_imp_iff, implies_true, and_true]
  grind

theorem ReadFrom.reattached_eq_iff (read : payload.ReadFrom entries)
    (formed : WellFormed (.object entries)) :
    payload.reattachedEntries = entries ↔ Canonical entries := by
  unfold reattachedEntries
  rw [fieldEntries_written_eq_iff formed.sorted (nodup_names_fields ..), read.fields_kept_iff formed]
  have names : ∀ name, name ∈ (payload.fields (some (.array payload.normalizedChunks))).map Prod.fst ↔
      name ∈ fieldNames := fun name => (names_fields ..).mem_iff
  simp only [names]
  constructor
  · rintro ⟨⟨present, notNull, notEmpty⟩, known⟩
    exact ⟨known, present, notNull, notEmpty⟩
  · intro canonical
    exact ⟨⟨canonical.present, canonical.notNull, canonical.notEmpty⟩, canonical.known⟩

end Canonical

end SourceSessionObservedPayload

end BrickTrace
