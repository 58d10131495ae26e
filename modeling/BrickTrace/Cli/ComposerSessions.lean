import BrickTrace.Lib.Fallible
import BrickTrace.Lib.Numerals
import BrickTrace.Lib.Rfc3339
import BrickTrace.Protocol.Text
import BrickTrace.Cli.History
import Mathlib.Data.List.Destutter
import Mathlib.Data.List.Sort

/-!
# The sessions of a composer database

Cursor and its relatives keep all their sessions in one key-value database: a list of
headers, or a record for each session.  What a listing says of a session is read from
its header and its record, but the path, the size and the time of change are those of the
database, which the sessions share.
-/

set_option autoImplicit false

namespace BrickTrace

/-! ## The database -/

/-- A state database as it is on disk, with its values in the order of their keys; a value
that is not JSON is there without one. -/
structure StateDb where
  path : String
  modifiedAt : Option DateTime
  sizeBytes : UInt64
  values : List (String × Option Json)

def StateDb.readValue (db : StateDb) (key : String) : Option (Option Json) := db.values.lookup key

/-- What a listing says of a session itself, and not of the file that it is in. -/
def NativeSourceSession.ownRecords (session : NativeSourceSession) : NativeSourceSession :=
  { session with sizeBytes := 0, modifiedAt := none }

structure ComposerSessionOptions where
  sourceId : String
  parserVersion : String
  includeContextTokens : Bool
  skipBestOfN : Bool

def cursorFamilyStateDbPath (profile : SourceProfile) : Option String :=
  profile.cursorStateDbPath.or profile.sessionDbPath

/-! ## Reading a composer -/

namespace Composer

def textAt (key : String) (json : Json) : Option String := (json.get key).bind Json.decodeString

def items : Json → Option (List Json)
  | .array items => some items
  | _ => none

def entries : Json → Option (List (String × Json))
  | .object entries => some entries
  | _ => none

/-- A number, also one that is written as a text. -/
def valueToU64 (value : Json) : Option UInt64 :=
  (Json.decodeU64 value).or
    ((Json.decodeString value).bind fun text =>
      (Numerals.parseUnsigned (2 ^ 64) text).map UInt64.ofNat)

def valueToSystemTimeMs (value : Json) : Option DateTime :=
  (valueToU64 value).map fun millis => ⟨millis.toNat * 1000000⟩

def normalizeTitle (title : String) : String :=
  let words := (title.toList.splitOnP isWhiteSpace).filter fun word => !word.isEmpty
  " ".intercalate (words.map String.ofList)

def repoPathFromHeader (composer : Json) : Option String :=
  let tracked := ((composer.get "trackedGitRepos").bind items).bind List.head?
  (tracked.bind (textAt "repoPath")).or do
    let uri ← (← composer.get "workspaceIdentifier").get "uri"
    let path ← (uri.get "fsPath").or (uri.get "path")
    Json.decodeString path

def branchFromHeader (composer : Json) : Option String := do
  let tracked ← ((composer.get "trackedGitRepos").bind items).bind List.head?
  let branch ← ((tracked.get "branches").bind items).bind List.head?
  textAt "branchName" branch

def firstU64 (composer : Json) (keys : List String) : Option UInt64 :=
  (keys.filterMap fun key => composer.get key).findSome? valueToU64

def cursorFilePath (value : String) : String := (stripStart value "file://").getD value

/-- The paths of an array; an item is a path or an object that names one. -/
def stringArray (value : Json) : Option (List String) :=
  (items value).map fun all => all.filterMap fun item =>
    ((Json.decodeString item).map cursorFilePath).or
      (((textAt "path" item).map cursorFilePath).or
        (((textAt "filePath" item).map cursorFilePath).or
          ((item.get "uri").bind (textAt "fsPath"))))

def touchedFilesFromComposer (composer : Json) : List String :=
  let listed := ((["touchedFiles", "filesChanged", "changedFiles"].filterMap
    fun key => composer.get key).findSome? stringArray).getD []
  let original := (((composer.get "originalFileStates").bind entries).getD []).map fun entry =>
    cursorFilePath entry.1
  let created := ((composer.get "newlyCreatedFiles").bind stringArray).getD []
  ((listed ++ original ++ created).insertionSort (· ≤ ·)).destutter (· ≠ ·)

def bubbleIds (composer : Json) : List String :=
  (((composer.get "fullConversationHeadersOnly").bind items).getD []).filterMap fun header =>
    ((header.get "bubbleId").or (header.get "id")).bind Json.decodeString

/-! ## Flags -/

def parentLinkMetadata (composer : Json) : Option Json := do
  let ids := ((← items (← composer.get "subagentComposerIds")).filterMap Json.decodeString).filter
    (· != "")
  if ids.isEmpty then none
  else some (Json.ofFields [("subagentSessionIds", .array (ids.map .string))])

/-- The extra entries go on top of an object. -/
def mergeMetadata (base : Option Json) (extra : Json) : Json :=
  match base.getD (.object []), extra with
  | .object held, .object added =>
      .object (added.foldl (fun merged entry => Json.insertEntry entry.1 entry.2 merged) held)
  | _, _ => extra

def subagentMetadata (composerId : String) (composer : Json) : Option Json := do
  let info ← composer.get "subagentInfo"
  let _ ← entries info
  let parent := (((info.get "parentComposerId").or (info.get "parentSessionId")).bind
    Json.decodeString).getD ""
  if parent.isEmpty then none
  else some (Json.ofFields
    [("kind", .string "subagent"), ("subagentSessionId", .string composerId),
      ("parentSessionId", .string parent),
      ("cursorToolCallId", Json.encodeNullable .string (textAt "toolCallId" info)),
      ("subagentType", Json.encodeNullable .string (textAt "subagentTypeName" info))])

def nonListableMetadata (kind composerId reason : String) : Json :=
  Json.ofFields [("kind", .string kind), ("composerId", .string composerId),
    ("reason", .string reason)]

def nonListableComposerMetadata (composerId : String) (composer : Json) : Option Json :=
  let empty := (bubbleIds composer).isEmpty &&
    ((composer.get "conversationMap").bind entries).all List.isEmpty
  if (composer.get "isDraft").bind Json.decodeBool = some true then
    some (nonListableMetadata "draft" composerId "cursor_draft_composer")
  else if textAt "status" composer = some "none" && empty then
    some (nonListableMetadata "empty_composer" composerId "cursor_empty_composer")
  else if textAt "status" composer = some "aborted" && empty then
    some (nonListableMetadata "empty_composer" composerId "cursor_aborted_empty_composer")
  else none

def applyComposerDataFlags (composerId : String) (composer : Json) (session : NativeSourceSession) :
    NativeSourceSession :=
  let linked :=
    match parentLinkMetadata composer with
    | none => session
    | some link => { session with metadataJson := some (mergeMetadata session.metadataJson link) }
  match (subagentMetadata composerId composer).or (nonListableComposerMetadata composerId composer) with
  | none => linked
  | some flags =>
      { linked with
        listable := false
        metadataJson := some (mergeMetadata linked.metadataJson flags) }

/-! ## One session -/

section Session
variable (db : StateDb) (appId : String) (options : ComposerSessionOptions)

def composerHeaderSession (composerId : String) (composer : Json) : Option NativeSourceSession :=
  if options.skipBestOfN ∧
      (composer.get "isBestOfNSubcomposer").bind Json.decodeBool = some true then none
  else
    let createdAt := (composer.get "createdAt").bind valueToSystemTimeMs
    some {
      externalSessionId := composerId
      sourceAppId := appId
      title := ((textAt "name" composer).map normalizeTitle).or (some composerId)
      path := db.path
      sizeBytes := db.sizeBytes
      modifiedAt := db.modifiedAt
      parserVersion := options.parserVersion
      sessionCreatedAt := createdAt
      sessionUpdatedAt := ((composer.get "lastUpdatedAt").bind valueToSystemTimeMs).or createdAt
      model := (composer.get "modelConfig").bind (textAt "modelName")
      inputTokens :=
        if options.includeContextTokens then (composer.get "contextTokensUsed").bind valueToU64
        else none
      outputTokens := none
      repoPath := repoPathFromHeader composer
      branch := branchFromHeader composer
      filesChanged := firstU64 composer ["filesChangedCount", "fileChanges", "changedFilesCount"]
      linesAdded := firstU64 composer ["totalLinesAdded", "linesAdded"]
      linesRemoved := firstU64 composer ["totalLinesRemoved", "linesRemoved"]
      touchedFiles := touchedFilesFromComposer composer
      listable := true
      metadataJson := none }

def composerDataKeyStart : String := "composerData:"

/-- A record names its composer, or its key does; `none` is a record that cannot be read. -/
def composerDataSession (key : String) (record : Option Json) : Option (Option NativeSourceSession) := do
  let composer ← record
  let named := ((composer.get "composerId").or (composer.get "id")).bind Json.decodeString
  let composerId ← named.or (stripStart key composerDataKeyStart)
  return (composerHeaderSession db appId options composerId composer).map
    (applyComposerDataFlags composerId composer)

end Session

/-! ## Order -/

/-- The session that was updated later stands first; one without any time stands last. -/
def updatedBefore (first second : NativeSourceSession) : Bool :=
  match first.sessionUpdatedAt.or first.modifiedAt, second.sessionUpdatedAt.or second.modifiedAt with
  | _, none => true
  | none, some _ => false
  | some firstTime, some secondTime => secondTime.nanoseconds ≤ firstTime.nanoseconds

def ordered (limit : Option Nat) (sessions : List NativeSourceSession) : List NativeSourceSession :=
  let sorted := sessions.insertionSort fun first second => updatedBefore first second = true
  match limit with
  | none => sorted
  | some most => sorted.take most

/-- The time that a watermark denotes, to the nanosecond. -/
def sinceToSystemTime (since : Option String) : Option DateTime :=
  (since.bind Rfc3339.instant).map fun seconds =>
    let epoch : Nat := 86400 * Rfc3339.daysBeforeYear 1970
    ⟨((seconds - (epoch : Rat)) * 1000000000).floor⟩

/-- A session that says of no time when it was updated is always kept. -/
def filterSessionsSince (since : Option DateTime) (sessions : List NativeSourceSession) :
    List NativeSourceSession :=
  match since with
  | none => sessions
  | some mark => sessions.filter fun session =>
      session.sessionUpdatedAt.all fun updated => mark.nanoseconds < updated.nanoseconds

/-! ## Sessions from headers -/

def composerHeadersKey : String := "composer.composerHeaders"

def cursorHeadersOptions : ComposerSessionOptions where
  sourceId := "cursor_ide"
  parserVersion := "cursor-ide-composer-headers-v1"
  includeContextTokens := false
  skipBestOfN := true

/-- The flags of a session are in its record; a record that cannot be read has none. -/
def withRecordFlags (db : StateDb) (session : NativeSourceSession) : NativeSourceSession :=
  match db.readValue (composerDataKeyStart ++ session.externalSessionId) with
  | some (some record) => applyComposerDataFlags session.externalSessionId record session
  | _ => session

def headerSessions (db : StateDb) (appId : String) (composers : List (String × Json)) :
    List NativeSourceSession :=
  (composers.filterMap fun composer =>
    composerHeaderSession db appId cursorHeadersOptions composer.1 composer.2).map (withRecordFlags db)

section Listing
variable (stateDb : String → Option StateDb) (profile : SourceProfile) (limit : Option Nat)

def listSessionsFromComposerHeaders : Option (List NativeSourceSession) := do
  let db ← stateDb (← cursorFamilyStateDbPath profile)
  match db.readValue composerHeadersKey with
  | none => some []
  | some headers =>
      let composers ← entries (← (← headers).get "allComposers")
      return ordered limit
        (headerSessions db (profile.appId.getD cursorHeadersOptions.sourceId) composers)

/-! ## Sessions from records -/

/-- The parent of each subagent, by what the sessions say of themselves and of their subagents. -/
def parentBySubagent (sessions : List NativeSourceSession) : List (String × String) :=
  sessions.foldl (fun known session =>
    match session.metadataJson with
    | none => known
    | some metadata =>
        let own :=
          match textAt "parentSessionId" metadata with
          | none => known
          | some parent =>
              known.filter (·.1 != session.externalSessionId) ++ [(session.externalSessionId, parent)]
        let subagents := (((metadata.get "subagentSessionIds").bind items).getD []).filterMap
          Json.decodeString
        subagents.foldl (fun grown subagent =>
          if (grown.lookup subagent).isSome then grown
          else grown ++ [(subagent, session.externalSessionId)]) own) []

def withEntry (key : String) (value : Json) (metadata : Json) : Json :=
  mergeMetadata (some metadata) (Json.ofFields [(key, value)])

def asSubagent (parents : List (String × String)) (session : NativeSourceSession) :
    NativeSourceSession :=
  match parents.lookup session.externalSessionId with
  | none => session
  | some parent =>
      let held := session.metadataJson.getD (.object [])
      let kinded := if (textAt "kind" held).isNone then withEntry "kind" (.string "subagent") held else held
      { session with
        listable := false
        metadataJson := some (withEntry "parentSessionId" (.string parent)
          (withEntry "subagentSessionId" (.string session.externalSessionId) kinded)) }

/-- The subagents of a parent go to the first session with its id. -/
def attachSubagents (parents : List (String × String)) :
    List (String × String) → List NativeSourceSession → List NativeSourceSession
  | _, [] => []
  | left, session :: rest =>
      let marked := asSubagent parents session
      let subagents := (left.filter (·.2 == session.externalSessionId)).map Prod.fst
      let attached :=
        if subagents.isEmpty then marked
        else { marked with
          metadataJson := some (withEntry "subagentSessionIds" (.array (subagents.map .string))
            (marked.metadataJson.getD (.object []))) }
      attached :: attachSubagents parents (left.filter (·.2 != session.externalSessionId)) rest

/-- `drain` is the order that a hash map gives its entries in. -/
def attachSubagentIdsToParents (drain : List (String × String) → List (String × String))
    (sessions : List NativeSourceSession) : List NativeSourceSession :=
  let parents := parentBySubagent sessions
  attachSubagents parents (drain parents) sessions

variable (drain : List (String × String) → List (String × String))

def listSessionsFromComposerData (options : ComposerSessionOptions) :
    Option (List NativeSourceSession) := do
  let db ← stateDb (← cursorFamilyStateDbPath profile)
  let records := db.values.filter fun value => startsWith value.1 composerDataKeyStart
  let sessions ← records.mapM fun value =>
    composerDataSession db (profile.appId.getD options.sourceId) options value.1 value.2
  return ordered limit (attachSubagentIdsToParents drain (sessions.filterMap id))

/-! ## The sources -/

def cursorRecordsOptions : ComposerSessionOptions where
  sourceId := "cursor_ide"
  parserVersion := "cursor-ide-composer-data-v1"
  includeContextTokens := true
  skipBestOfN := true

def windsurfOptions : ComposerSessionOptions where
  sourceId := "windsurf"
  parserVersion := "windsurf-composer-data-v1"
  includeContextTokens := true
  skipBestOfN := true

def listCursorSessions (since : Option DateTime) : Option (List NativeSourceSession) := do
  let headed ← listSessionsFromComposerHeaders stateDb profile limit
  if headed.isEmpty then
    let recorded ← listSessionsFromComposerData stateDb profile limit drain cursorRecordsOptions
    return filterSessionsSince since recorded
  else return filterSessionsSince since headed

def listWindsurfSessions (since : Option DateTime) : Option (List NativeSourceSession) :=
  (listSessionsFromComposerData stateDb profile limit drain windsurfOptions).map
    (filterSessionsSince since)

end Listing

/-! ## The stamp of the database -/

/-- A session has the path, the size and the time of the database that it is in. -/
structure StampedBy (db : StateDb) (session : NativeSourceSession) : Prop where
  path : session.path = db.path
  sizeBytes : session.sizeBytes = db.sizeBytes
  modifiedAt : session.modifiedAt = db.modifiedAt

section Stamp
variable {db : StateDb} {appId : String} {options : ComposerSessionOptions}
  {session : NativeSourceSession}

theorem stampedBy_composerHeaderSession {composerId : String} {composer : Json}
    (read : composerHeaderSession db appId options composerId composer = some session) :
    StampedBy db session := by
  unfold composerHeaderSession at read
  split at read
  · cases read
  · cases read
    exact ⟨rfl, rfl, rfl⟩

theorem externalSessionId_of_header {composerId : String} {composer : Json}
    (read : composerHeaderSession db appId options composerId composer = some session) :
    session.externalSessionId = composerId := by
  unfold composerHeaderSession at read
  split at read
  · cases read
  · cases read
    rfl

/-- Without the stamp, a header says the same in every database at its path. -/
theorem ownRecords_of_header {other : StateDb} {elsewhere : NativeSourceSession} {composerId : String}
    {composer : Json} (samePath : other.path = db.path)
    (read : composerHeaderSession db appId options composerId composer = some session)
    (readElsewhere : composerHeaderSession other appId options composerId composer = some elsewhere) :
    elsewhere.ownRecords = session.ownRecords := by
  unfold composerHeaderSession at read readElsewhere
  split at read
  · cases read
  · rename_i taken
    rw [if_neg taken] at readElsewhere
    cases read
    cases readElsewhere
    unfold NativeSourceSession.ownRecords
    rw [samePath]

theorem withRecordFlags_of_no_record
    (unrecorded : db.readValue (composerDataKeyStart ++ session.externalSessionId) = none) :
    withRecordFlags db session = session := by
  unfold withRecordFlags
  rw [unrecorded]

theorem StampedBy.applyComposerDataFlags (stamped : StampedBy db session) (composerId : String)
    (composer : Json) : StampedBy db (applyComposerDataFlags composerId composer session) := by
  obtain ⟨path, sizeBytes, modifiedAt⟩ := stamped
  unfold Composer.applyComposerDataFlags
  cases parentLinkMetadata composer with
  | none =>
      dsimp only
      split
      · exact ⟨path, sizeBytes, modifiedAt⟩
      · exact ⟨path, sizeBytes, modifiedAt⟩
  | some link =>
      dsimp only
      split
      · exact ⟨path, sizeBytes, modifiedAt⟩
      · exact ⟨path, sizeBytes, modifiedAt⟩

theorem StampedBy.withRecordFlags (stamped : StampedBy db session) :
    StampedBy db (withRecordFlags db session) := by
  unfold Composer.withRecordFlags
  split
  · exact stamped.applyComposerDataFlags _ _
  · exact stamped

theorem stampedBy_composerDataSession {key : String} {record : Option Json}
    (read : composerDataSession db appId options key record = some (some session)) :
    StampedBy db session := by
  obtain ⟨composer, rfl, named⟩ := Option.bind_eq_some_iff.mp read
  obtain ⟨composerId, _, flagged⟩ := Option.bind_eq_some_iff.mp named
  obtain ⟨headed, header, rfl⟩ := Option.map_eq_some_iff.mp (Option.some.inj flagged)
  exact (stampedBy_composerHeaderSession header).applyComposerDataFlags _ _

theorem StampedBy.asSubagent (stamped : StampedBy db session) (parents : List (String × String)) :
    StampedBy db (asSubagent parents session) := by
  obtain ⟨path, sizeBytes, modifiedAt⟩ := stamped
  unfold Composer.asSubagent
  split
  · exact ⟨path, sizeBytes, modifiedAt⟩
  · exact ⟨path, sizeBytes, modifiedAt⟩

theorem stampedBy_attachSubagents (parents : List (String × String)) {sessions : List NativeSourceSession}
    (stamped : ∀ session ∈ sessions, StampedBy db session) (left : List (String × String)) :
    ∀ session ∈ attachSubagents parents left sessions, StampedBy db session := by
  induction sessions generalizing left with
  | nil => exact fun _ member => nomatch member
  | cons first rest ih =>
      obtain ⟨firstStamped, restStamped⟩ := List.forall_mem_cons.mp stamped
      obtain ⟨path, sizeBytes, modifiedAt⟩ := firstStamped.asSubagent parents
      intro session member
      unfold attachSubagents at member
      dsimp only at member
      rcases List.mem_cons.mp member with rfl | later
      · split
        · exact ⟨path, sizeBytes, modifiedAt⟩
        · exact ⟨path, sizeBytes, modifiedAt⟩
      · exact ih restStamped _ session later

theorem mem_of_mem_ordered {limit : Option Nat} {sessions : List NativeSourceSession}
    (member : session ∈ ordered limit sessions) : session ∈ sessions := by
  unfold ordered at member
  dsimp only at member
  split at member
  · exact (List.mem_insertionSort _).mp member
  · exact (List.mem_insertionSort _).mp (List.mem_of_mem_take member)

theorem mem_of_mem_filterSessionsSince {since : Option DateTime} {sessions : List NativeSourceSession}
    (member : session ∈ filterSessionsSince since sessions) : session ∈ sessions := by
  unfold filterSessionsSince at member
  split at member
  · exact member
  · exact (List.mem_filter.mp member).1

end Stamp

section Listed
variable {stateDb : String → Option StateDb} {profile : SourceProfile} {limit : Option Nat}
  {drain : List (String × String) → List (String × String)} {sessions : List NativeSourceSession}
  {session : NativeSourceSession}

/-- A session that is listed from headers has one of them, under its id. -/
theorem header_of_listed
    (listed : listSessionsFromComposerHeaders stateDb profile limit = some sessions)
    (member : session ∈ sessions) :
    ∃ db headers composers,
      (cursorFamilyStateDbPath profile).bind stateDb = some db ∧
      db.readValue composerHeadersKey = some (some headers) ∧
      (headers.get "allComposers").bind entries = some composers ∧
      ∃ composer ∈ composers, ∃ headed,
        composerHeaderSession db (profile.appId.getD cursorHeadersOptions.sourceId) cursorHeadersOptions
          composer.1 composer.2 = some headed ∧
        session = withRecordFlags db headed := by
  obtain ⟨path, known, opened⟩ := Option.bind_eq_some_iff.mp listed
  obtain ⟨db, found, read⟩ := Option.bind_eq_some_iff.mp opened
  cases headers : db.readValue composerHeadersKey with
  | none =>
      rw [headers] at read
      cases read
      exact nomatch member
  | some value =>
      rw [headers] at read
      obtain ⟨json, rfl, rest⟩ := Option.bind_eq_some_iff.mp read
      obtain ⟨all, named, rest⟩ := Option.bind_eq_some_iff.mp rest
      obtain ⟨composers, isObject, answer⟩ := Option.bind_eq_some_iff.mp rest
      cases answer
      obtain ⟨headed, isHeaded, rfl⟩ := List.mem_map.mp (mem_of_mem_ordered member)
      obtain ⟨composer, isComposer, header⟩ := List.mem_filterMap.mp isHeaded
      refine ⟨db, json, composers, ?_, headers, ?_, composer, isComposer, headed, header, rfl⟩
      · rw [known]
        exact found
      · rw [named]
        exact isObject

/-- A listing without a limit and a watermark has every header that is not left out. -/
theorem listed_of_header {db : StateDb} {headers : Json} {composers : List (String × Json)}
    (found : (cursorFamilyStateDbPath profile).bind stateDb = some db)
    (read : db.readValue composerHeadersKey = some (some headers))
    (named : (headers.get "allComposers").bind entries = some composers) {composer : String × Json}
    (isComposer : composer ∈ composers)
    (header : composerHeaderSession db (profile.appId.getD cursorHeadersOptions.sourceId)
      cursorHeadersOptions composer.1 composer.2 = some session) :
    ∃ sessions, listCursorSessions stateDb profile none drain none = some sessions ∧
      withRecordFlags db session ∈ sessions := by
  let headed := headerSessions db (profile.appId.getD cursorHeadersOptions.sourceId) composers
  obtain ⟨path, known, opened⟩ := Option.bind_eq_some_iff.mp found
  obtain ⟨all, isAll, isObject⟩ := Option.bind_eq_some_iff.mp named
  have listed : listSessionsFromComposerHeaders stateDb profile none = some (ordered none headed) := by
    unfold listSessionsFromComposerHeaders
    simp [known, opened, read, isAll, isObject, headed]
  have member : withRecordFlags db session ∈ ordered none headed := by
    apply (List.mem_insertionSort _).mpr
    exact List.mem_map.mpr ⟨session, List.mem_filterMap.mpr ⟨composer, isComposer, header⟩, rfl⟩
  have nonempty : ordered none headed ≠ [] := List.ne_nil_of_mem member
  refine ⟨ordered none headed, ?_, member⟩
  unfold listCursorSessions
  simp [listed, nonempty, filterSessionsSince]

theorem stampedBy_of_headers
    (listed : listSessionsFromComposerHeaders stateDb profile limit = some sessions)
    (member : session ∈ sessions) :
    ∃ db, (cursorFamilyStateDbPath profile).bind stateDb = some db ∧ StampedBy db session := by
  obtain ⟨db, headers, composers, found, _, _, composer, _, headed, header, rfl⟩ :=
    header_of_listed listed member
  exact ⟨db, found, (stampedBy_composerHeaderSession header).withRecordFlags⟩

theorem stampedBy_of_records {options : ComposerSessionOptions}
    (listed : listSessionsFromComposerData stateDb profile limit drain options = some sessions)
    (member : session ∈ sessions) :
    ∃ db, (cursorFamilyStateDbPath profile).bind stateDb = some db ∧ StampedBy db session := by
  obtain ⟨path, known, opened⟩ := Option.bind_eq_some_iff.mp listed
  obtain ⟨db, found, read⟩ := Option.bind_eq_some_iff.mp opened
  obtain ⟨recorded, each, answer⟩ := Option.bind_eq_some_iff.mp read
  refine ⟨db, ?_, ?_⟩
  · rw [known]
    exact found
  · cases answer
    have stamped : ∀ session ∈ recorded.filterMap id, StampedBy db session := by
      intro held isHeld
      obtain ⟨answer, inRecorded, shown⟩ := List.mem_filterMap.mp isHeld
      obtain ⟨value, _, taken⟩ := ((Fallible.mem_of_mapM_option each).2 answer).mp inRecorded
      cases shown
      exact stampedBy_composerDataSession taken
    exact stampedBy_attachSubagents _ stamped _ session (mem_of_mem_ordered member)

theorem mem_of_mem_listCursorSessions {since : Option DateTime}
    (listed : listCursorSessions stateDb profile limit drain since = some sessions)
    (member : session ∈ sessions) :
    (∃ headed, listSessionsFromComposerHeaders stateDb profile limit = some headed ∧
        session ∈ headed) ∨
      ∃ recorded, listSessionsFromComposerData stateDb profile limit drain cursorRecordsOptions =
        some recorded ∧ session ∈ recorded := by
  obtain ⟨headed, headers, rest⟩ := Option.bind_eq_some_iff.mp listed
  split at rest
  · obtain ⟨recorded, records, answer⟩ := Option.bind_eq_some_iff.mp rest
    cases answer
    exact Or.inr ⟨recorded, records, mem_of_mem_filterSessionsSince member⟩
  · cases rest
    exact Or.inl ⟨headed, headers, mem_of_mem_filterSessionsSince member⟩

/-- Every session that Cursor lists has the stamp of the one database. -/
theorem stampedBy_of_listCursorSessions {since : Option DateTime}
    (listed : listCursorSessions stateDb profile limit drain since = some sessions)
    (member : session ∈ sessions) :
    ∃ db, (cursorFamilyStateDbPath profile).bind stateDb = some db ∧ StampedBy db session := by
  rcases mem_of_mem_listCursorSessions listed member with
    ⟨headed, headers, isHeaded⟩ | ⟨recorded, records, isRecorded⟩
  · exact stampedBy_of_headers headers isHeaded
  · exact stampedBy_of_records records isRecorded

theorem stampedBy_of_listWindsurfSessions {since : Option DateTime}
    (listed : listWindsurfSessions stateDb profile limit drain since = some sessions)
    (member : session ∈ sessions) :
    ∃ db, (cursorFamilyStateDbPath profile).bind stateDb = some db ∧ StampedBy db session := by
  obtain ⟨recorded, records, rfl⟩ := Option.map_eq_some_iff.mp listed
  exact stampedBy_of_records records (mem_of_mem_filterSessionsSince member)

end Listed

end Composer

end BrickTrace
