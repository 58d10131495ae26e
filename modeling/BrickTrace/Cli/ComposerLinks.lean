import BrickTrace.Cli.ComposerSessions
import BrickTrace.Lib.JsonFields
import BrickTrace.Lib.TwoSidedLinks

/-!
# Parents and subagents of composers

The two listings of a composer read the flags of its record alike, but only the listing
from records then goes over all sessions and writes every link at both of its ends.  What
each of them says of a composer follows from what the records say, and so does when they
say the same.
-/

set_option autoImplicit false

namespace BrickTrace

namespace Composer

/-! ## What a listing says of a composer -/

structure ComposerFlags where
  listable : Bool
  kind : Option String
  parent : Option String
  subagents : List String
  deriving DecidableEq

/-- Subagents are compared as sets. -/
structure ComposerFlags.SameAs (first second : ComposerFlags) : Prop where
  listable : first.listable = second.listable
  kind : first.kind = second.kind
  parent : first.parent = second.parent
  subagents : ∀ id, id ∈ first.subagents ↔ id ∈ second.subagents

def flags (session : NativeSourceSession) : ComposerFlags where
  listable := session.listable
  kind := session.metadataJson.bind (textAt "kind")
  parent := session.metadataJson.bind (textAt "parentSessionId")
  subagents :=
    (((session.metadataJson.bind fun metadata => metadata.get "subagentSessionIds").bind items).getD
      []).filterMap Json.decodeString

/-! ## What a record says -/

def listedSubagents (composer : Json) : List String :=
  ((((composer.get "subagentComposerIds").bind items).getD []).filterMap Json.decodeString).filter
    (· != "")

def namedParent (composer : Json) : Option String := do
  let info ← composer.get "subagentInfo"
  let _ ← entries info
  let parent := (((info.get "parentComposerId").or (info.get "parentSessionId")).bind
    Json.decodeString).getD ""
  if parent.isEmpty then none else some parent

/-- A draft or an empty composer. -/
def unlistedKind (composer : Json) : Option String :=
  (nonListableComposerMetadata "" composer).bind (textAt "kind")

def recordKind (composer : Json) : Option String :=
  ((namedParent composer).map fun _ => "subagent").or (unlistedKind composer)

def recordFlags (composer : Json) : ComposerFlags where
  listable := (recordKind composer).isNone
  kind := recordKind composer
  parent := namedParent composer
  subagents := listedSubagents composer

/-- What is said of a composer without a record. -/
def ComposerFlags.plain : ComposerFlags where
  listable := true
  kind := none
  parent := none
  subagents := []

section Record
variable (composer : Json)

theorem parentLinkMetadata_eq :
    parentLinkMetadata composer = if (listedSubagents composer).isEmpty then none
      else some (Json.ofFields
        [("subagentSessionIds", .array ((listedSubagents composer).map .string))]) := by
  unfold parentLinkMetadata listedSubagents
  cases composer.get "subagentComposerIds" with
  | none => rfl
  | some value =>
      simp only [Option.bind_eq_bind, Option.bind_some]
      cases items value with
      | none => rfl
      | some all => rfl

theorem subagentMetadata_of_no_parent (composerId : String) (unnamed : namedParent composer = none) :
    subagentMetadata composerId composer = none := by
  unfold namedParent at unnamed
  unfold subagentMetadata
  cases found : composer.get "subagentInfo" with
  | none => rfl
  | some info =>
      cases isObject : entries info with
      | none => simp [isObject]
      | some held =>
          simp only [found, isObject, Option.bind_eq_bind, Option.bind_some] at unnamed ⊢
          split at unnamed
          · rename_i empty
            rw [if_pos empty]
          · cases unnamed

theorem subagentMetadata_of_parent (composerId : String) {parent : String}
    (named : namedParent composer = some parent) :
    ∃ toolCall typeName, subagentMetadata composerId composer = some (Json.ofFields
      [("kind", .string "subagent"), ("subagentSessionId", .string composerId),
        ("parentSessionId", .string parent), ("cursorToolCallId", toolCall),
        ("subagentType", typeName)]) := by
  unfold namedParent at named
  unfold subagentMetadata
  obtain ⟨info, found, named⟩ := Option.bind_eq_some_iff.mp named
  obtain ⟨held, isObject, named⟩ := Option.bind_eq_some_iff.mp named
  simp only [found, isObject, Option.bind_eq_bind, Option.bind_some]
  dsimp only at named
  split at named
  · cases named
  · rename_i present
    cases named
    exact ⟨_, _, if_neg present⟩

theorem nonListable_cases (composerId : String) :
    nonListableComposerMetadata composerId composer = none ∧ unlistedKind composer = none ∨
      ∃ kind reason, nonListableComposerMetadata composerId composer =
          some (nonListableMetadata kind composerId reason) ∧ unlistedKind composer = some kind := by
  unfold unlistedKind nonListableComposerMetadata
  dsimp only
  split
  · exact Or.inr ⟨_, _, rfl, rfl⟩
  · split
    · exact Or.inr ⟨_, _, rfl, rfl⟩
    · split
      · exact Or.inr ⟨_, _, rfl, rfl⟩
      · exact Or.inl ⟨rfl, rfl⟩

end Record

/-! ## What metadata say -/

/-- The metadata are an object, or there are none yet. -/
def Holds (session : NativeSourceSession) (held : List (String × Json)) : Prop :=
  session.metadataJson.getD (.object []) = .object held

section Held
variable {session : NativeSourceSession} {held : List (String × Json)}

theorem flags_of_holds (holds : Holds session held) : flags session =
    { listable := session.listable
      kind := (held.lookup "kind").bind Json.decodeString
      parent := (held.lookup "parentSessionId").bind Json.decodeString
      subagents := (((held.lookup "subagentSessionIds").bind items).getD []).filterMap
        Json.decodeString } := by
  unfold Holds at holds
  unfold flags textAt
  cases present : session.metadataJson with
  | none =>
      rw [present] at holds
      cases holds
      rfl
  | some metadata =>
      rw [present] at holds
      cases holds
      rfl

theorem mergeMetadata_of_holds (holds : Holds session held) (fields : List (String × Json)) :
    mergeMetadata session.metadataJson (Json.ofFields fields) =
      .object ((Json.fieldEntries fields).foldl
        (fun merged entry => Json.insertEntry entry.1 entry.2 merged) held) := by
  unfold Holds at holds
  unfold mergeMetadata
  rw [holds]
  rfl

theorem lookup_merged {fields : List (String × Json)} (distinct : (fields.map Prod.fst).Nodup)
    (held : List (String × Json)) (name : String) :
    ((Json.fieldEntries fields).foldl (fun merged entry => Json.insertEntry entry.1 entry.2 merged)
      held).lookup name = (fields.lookup name).or (held.lookup name) := by
  have sorted := Json.sorted_fieldEntries fields
  have apart : ((Json.fieldEntries fields).map Prod.fst).Nodup :=
    List.pairwise_map.mpr (sorted.imp fun before => before.ne)
  rw [Json.lookup_foldl_insertEntry apart, Json.lookup_fieldEntries distinct]

theorem flags_merged (holds : Holds session held) {fields : List (String × Json)}
    (distinct : (fields.map Prod.fst).Nodup) :
    flags { session with
        listable := false
        metadataJson := some (mergeMetadata session.metadataJson (Json.ofFields fields)) } =
      { listable := false
        kind := ((fields.lookup "kind").or (held.lookup "kind")).bind Json.decodeString
        parent := ((fields.lookup "parentSessionId").or (held.lookup "parentSessionId")).bind
          Json.decodeString
        subagents := ((((fields.lookup "subagentSessionIds").or
          (held.lookup "subagentSessionIds")).bind items).getD []).filterMap Json.decodeString } := by
  let marked := { session with
    listable := false
    metadataJson := some (mergeMetadata session.metadataJson (Json.ofFields fields)) }
  have merged : Holds marked _ := mergeMetadata_of_holds holds fields
  rw [flags_of_holds merged, lookup_merged distinct, lookup_merged distinct, lookup_merged distinct]

end Held

theorem filterMap_decodeString (texts : List String) :
    (texts.map Json.string).filterMap Json.decodeString = texts := by
  induction texts with
  | nil => rfl
  | cons text rest ih => exact congrArg (text :: ·) ih

/-! ## The flags of a record -/

section Applied
variable (composerId : String) (composer : Json) {session : NativeSourceSession}

/-- The link to its subagents is the first thing that a session gets. -/
def linked (session : NativeSourceSession) : NativeSourceSession :=
  match parentLinkMetadata composer with
  | none => session
  | some link => { session with metadataJson := some (mergeMetadata session.metadataJson link) }

theorem applyComposerDataFlags_eq : applyComposerDataFlags composerId composer session =
    match (subagentMetadata composerId composer).or
      (nonListableComposerMetadata composerId composer) with
    | none => linked composer session
    | some flags =>
        { linked composer session with
          listable := false
          metadataJson := some (mergeMetadata (linked composer session).metadataJson flags) } := rfl

theorem linked_listable : (linked composer session).listable = session.listable := by
  unfold linked
  split
  · rfl
  · rfl

theorem holds_linked (fresh : session.metadataJson = none) :
    ∃ held, Holds (linked composer session) held ∧ held.lookup "kind" = none ∧
      held.lookup "parentSessionId" = none ∧
      (((held.lookup "subagentSessionIds").bind items).getD []).filterMap Json.decodeString =
        listedSubagents composer := by
  unfold linked Holds
  rw [parentLinkMetadata_eq]
  by_cases empty : (listedSubagents composer).isEmpty
  · rw [if_pos empty]
    refine ⟨[], ?_, rfl, rfl, (List.isEmpty_iff.mp empty).symm⟩
    dsimp only
    rw [fresh]
    rfl
  · rw [if_neg empty]
    refine ⟨[("subagentSessionIds", .array ((listedSubagents composer).map .string))], ?_, rfl, rfl,
      filterMap_decodeString _⟩
    dsimp only
    rw [fresh]
    rfl

theorem flags_applyComposerDataFlags (fresh : session.metadataJson = none)
    (listable : session.listable = true) :
    flags (applyComposerDataFlags composerId composer session) = recordFlags composer ∧
      ∃ held, Holds (applyComposerDataFlags composerId composer session) held := by
  obtain ⟨held, holds, noKind, noParent, subagents⟩ := holds_linked composer fresh
  rw [applyComposerDataFlags_eq]
  unfold recordFlags recordKind
  cases named : namedParent composer with
  | some parent =>
      obtain ⟨toolCall, typeName, isSubagent⟩ :=
        subagentMetadata_of_parent composer composerId named
      rw [isSubagent]
      refine ⟨(flags_merged holds (by simp)).trans ?_, _, mergeMetadata_of_holds holds _⟩
      rw [← subagents]
      rfl
  | none =>
      rw [subagentMetadata_of_no_parent composer composerId named, Option.none_or]
      rcases nonListable_cases composer composerId with ⟨none, kind⟩ | ⟨name, reason, isEmpty, kind⟩
      · rw [none, kind]
        refine ⟨(flags_of_holds holds).trans ?_, held, holds⟩
        rw [noKind, noParent, subagents, linked_listable, listable]
        rfl
      · rw [isEmpty, kind]
        refine ⟨(flags_merged holds (by simp)).trans ?_, _, mergeMetadata_of_holds holds _⟩
        rw [noKind, noParent, ← subagents]
        rfl

end Applied

/-! ## The records that are listed -/

/-- A record with the composer that it names, unless it is left out. -/
def listedRow (options : ComposerSessionOptions) (value : String × Option Json) :
    Option (String × Json) := do
  let composer ← value.2
  let named := ((composer.get "composerId").or (composer.get "id")).bind Json.decodeString
  let composerId ← named.or (stripStart value.1 composerDataKeyStart)
  if options.skipBestOfN ∧
      (composer.get "isBestOfNSubcomposer").bind Json.decodeBool = some true then none
  else some (composerId, composer)

def listedRows (db : StateDb) (options : ComposerSessionOptions) : List (String × Json) :=
  (db.values.filter fun value => startsWith value.1 composerDataKeyStart).filterMap
    (listedRow options)

section Rows
variable {db : StateDb} {appId : String} {options : ComposerSessionOptions}

theorem fresh_of_header {composerId : String} {composer : Json} {session : NativeSourceSession}
    (read : composerHeaderSession db appId options composerId composer = some session) :
    session.metadataJson = none ∧ session.listable = true := by
  unfold composerHeaderSession at read
  split at read
  · cases read
  · cases read
    exact ⟨rfl, rfl⟩

theorem externalSessionId_applyComposerDataFlags (composerId : String) (composer : Json)
    (session : NativeSourceSession) :
    (applyComposerDataFlags composerId composer session).externalSessionId =
      session.externalSessionId := by
  rw [applyComposerDataFlags_eq]
  have same : (linked composer session).externalSessionId = session.externalSessionId := by
    unfold linked
    split
    · rfl
    · rfl
  split
  · exact same
  · exact same

/-- A record is read into a session that says what the record says. -/
theorem shown_of_composerDataSession {value : String × Option Json}
    {answer : Option NativeSourceSession}
    (read : composerDataSession db appId options value.1 value.2 = some answer) :
    (answer.map fun session => (session.externalSessionId, flags session)) =
      (listedRow options value).map fun row => (row.1, recordFlags row.2) := by
  obtain ⟨composer, isRecord, read⟩ := Option.bind_eq_some_iff.mp read
  obtain ⟨composerId, isNamed, read⟩ := Option.bind_eq_some_iff.mp read
  cases read
  have row : listedRow options value =
      if options.skipBestOfN ∧
          (composer.get "isBestOfNSubcomposer").bind Json.decodeBool = some true then none
      else some (composerId, composer) := by
    unfold listedRow
    rw [isRecord, Option.bind_eq_bind, Option.bind_some]
    dsimp only
    rw [isNamed]
    rfl
  rw [row]
  cases header : composerHeaderSession db appId options composerId composer with
  | none =>
      unfold composerHeaderSession at header
      split at header
      · rename_i skipped
        rw [if_pos skipped]
        rfl
      · cases header
  | some session =>
      have kept : ¬ (options.skipBestOfN ∧
          (composer.get "isBestOfNSubcomposer").bind Json.decodeBool = some true) := by
        intro skipped
        unfold composerHeaderSession at header
        rw [if_pos skipped] at header
        cases header
      obtain ⟨fresh, listable⟩ := fresh_of_header header
      rw [if_neg kept, Option.map_some, Option.map_some, Option.map_some,
        externalSessionId_applyComposerDataFlags, externalSessionId_of_header header,
        (flags_applyComposerDataFlags composerId composer fresh listable).1]

theorem holds_of_composerDataSession {key : String} {record : Option Json}
    {session : NativeSourceSession}
    (read : composerDataSession db appId options key record = some (some session)) :
    ∃ held, Holds session held := by
  obtain ⟨composer, _, read⟩ := Option.bind_eq_some_iff.mp read
  obtain ⟨composerId, _, read⟩ := Option.bind_eq_some_iff.mp read
  obtain ⟨headed, header, rfl⟩ := Option.map_eq_some_iff.mp (Option.some.inj read)
  obtain ⟨fresh, listable⟩ := fresh_of_header header
  exact (flags_applyComposerDataFlags composerId composer fresh listable).2

end Rows

/-! ## The second pass -/

/-- The parent of a composer: the last that a record of the composer names, or else the first
whose record lists the composer. -/
def parentAmong (rows : List (String × Json)) (composerId : String) : Option String :=
  TwoSidedLinks.parentOf Prod.fst (fun row => namedParent row.2) (fun row => listedSubagents row.2)
    rows composerId

def ComposerFlags.under (flags : ComposerFlags) : Option String → ComposerFlags
  | none => flags
  | some parent =>
      { flags with listable := false, kind := some (flags.kind.getD "subagent"), parent := some parent }

section SecondPass
variable (parents left : List (String × String)) {session : NativeSourceSession}

theorem parentBySubagent_eq (sessions : List NativeSourceSession) : parentBySubagent sessions =
    TwoSidedLinks.declared NativeSourceSession.externalSessionId (fun session => (flags session).parent)
      (fun session => (flags session).subagents) sessions := by
  unfold parentBySubagent TwoSidedLinks.declared
  congr 1
  funext known session
  unfold TwoSidedLinks.declare flags
  dsimp only
  cases session.metadataJson with
  | none => rfl
  | some metadata =>
      dsimp only [Option.bind_some]
      cases textAt "parentSessionId" metadata with
      | none => rfl
      | some parent => rfl

/-- What one session gets in the second pass. -/
def attached (session : NativeSourceSession) : NativeSourceSession :=
  let marked := asSubagent parents session
  let subagents := (left.filter (·.2 == session.externalSessionId)).map Prod.fst
  if subagents.isEmpty then marked
  else { marked with
    metadataJson := some (withEntry "subagentSessionIds" (.array (subagents.map .string))
      (marked.metadataJson.getD (.object []))) }

theorem attachSubagents_cons (rest : List NativeSourceSession) :
    attachSubagents parents left (session :: rest) = attached parents left session ::
      attachSubagents parents (left.filter (·.2 != session.externalSessionId)) rest := rfl

theorem mem_attachSubagents_iff {sessions : List NativeSourceSession} {listed : NativeSourceSession} :
    listed ∈ attachSubagents parents left sessions ↔
      ∃ before session after, sessions = before ++ session :: after ∧
        listed = attached parents
          (left.filter fun link => before.all (·.externalSessionId != link.2)) session := by
  induction sessions generalizing left with
  | nil => simp [attachSubagents]
  | cons first rest ih =>
      rw [attachSubagents_cons, List.mem_cons, ih]
      constructor
      · rintro (rfl | ⟨before, session, after, rfl, rfl⟩)
        · exact ⟨[], first, rest, rfl, by simp⟩
        · refine ⟨first :: before, session, after, rfl, ?_⟩
          rw [List.filter_filter]
          congr 1
          apply List.filter_congr
          intro link _
          rw [List.all_cons, Bool.and_comm, bne_comm]
      · rintro ⟨before, session, after, whole, rfl⟩
        cases before with
        | nil =>
            cases whole
            exact Or.inl (by simp)
        | cons head before =>
            cases whole
            refine Or.inr ⟨before, session, after, rfl, ?_⟩
            rw [List.filter_filter]
            congr 1
            apply List.filter_congr
            intro link _
            rw [List.all_cons, Bool.and_comm, bne_comm]

theorem flags_with (session : NativeSourceSession) (listable : Bool) (held : List (String × Json)) :
    flags { session with listable := listable, metadataJson := some (.object held) } =
      { listable := listable
        kind := (held.lookup "kind").bind Json.decodeString
        parent := (held.lookup "parentSessionId").bind Json.decodeString
        subagents := (((held.lookup "subagentSessionIds").bind items).getD []).filterMap
          Json.decodeString } := rfl

theorem flags_asSubagent {held : List (String × Json)} (holds : Holds session held) :
    flags (asSubagent parents session) =
        (flags session).under (parents.lookup session.externalSessionId) ∧
      ∃ marked, Holds (asSubagent parents session) marked := by
  unfold asSubagent
  cases parents.lookup session.externalSessionId with
  | none => exact ⟨rfl, held, holds⟩
  | some parent =>
      dsimp only
      rw [holds, flags_of_holds holds]
      -- the kind that the session has is kept
      cases kind : (held.lookup "kind").bind Json.decodeString with
      | none =>
          have unkinded : (textAt "kind" (.object held)).isNone = true := by
            unfold textAt Json.get
            rw [kind]
            rfl
          rw [if_pos unkinded]
          let marked := Json.insertEntry "parentSessionId" (.string parent)
            (Json.insertEntry "subagentSessionId" (.string session.externalSessionId)
              (Json.insertEntry "kind" (.string "subagent") held))
          refine ⟨(flags_with session false marked).trans ?_, marked, rfl⟩
          rw [Json.lookup_insertEntry_self, Json.lookup_insertEntry_of_ne (by decide),
            Json.lookup_insertEntry_of_ne (by decide), Json.lookup_insertEntry_self,
            Json.lookup_insertEntry_of_ne (by decide), Json.lookup_insertEntry_of_ne (by decide),
            Json.lookup_insertEntry_of_ne (by decide)]
          rfl
      | some name =>
          have kinded : ¬ (textAt "kind" (.object held)).isNone = true := by
            unfold textAt Json.get
            rw [kind]
            exact Bool.false_ne_true
          rw [if_neg kinded]
          let marked := Json.insertEntry "parentSessionId" (.string parent)
            (Json.insertEntry "subagentSessionId" (.string session.externalSessionId) held)
          refine ⟨(flags_with session false marked).trans ?_, marked, rfl⟩
          rw [Json.lookup_insertEntry_self, Json.lookup_insertEntry_of_ne (by decide),
            Json.lookup_insertEntry_of_ne (by decide), kind,
            Json.lookup_insertEntry_of_ne (by decide), Json.lookup_insertEntry_of_ne (by decide)]
          rfl

theorem externalSessionId_asSubagent :
    (asSubagent parents session).externalSessionId = session.externalSessionId := by
  unfold asSubagent
  split
  · rfl
  · rfl

/-- A session with subagents in the map gets those in the place of the ones that it lists. -/
theorem flags_attached {held : List (String × Json)} (holds : Holds session held) :
    flags (attached parents left session) =
      let marked := (flags session).under (parents.lookup session.externalSessionId)
      let subagents := (left.filter (·.2 == session.externalSessionId)).map Prod.fst
      if subagents.isEmpty then marked else { marked with subagents := subagents } := by
  obtain ⟨same, marked, isMarked⟩ := flags_asSubagent parents holds
  unfold attached
  dsimp only
  split
  · exact same
  · rw [← same, isMarked, flags_of_holds isMarked]
    let subagents := (left.filter (·.2 == session.externalSessionId)).map Prod.fst
    let written := Json.insertEntry "subagentSessionIds" (.array (subagents.map .string)) marked
    refine (flags_with (asSubagent parents session) _ written).trans ?_
    rw [Json.lookup_insertEntry_of_ne (by decide), Json.lookup_insertEntry_of_ne (by decide),
      Json.lookup_insertEntry_self, Option.bind_some]
    congr 1
    exact filterMap_decodeString subagents

theorem externalSessionId_attached :
    (attached parents left session).externalSessionId = session.externalSessionId := by
  unfold attached
  dsimp only
  split
  · exact externalSessionId_asSubagent parents
  · exact externalSessionId_asSubagent parents

end SecondPass

/-! ## When the listings agree -/

/-- What the record under the composer's own key says. -/
def ownRecordFlags (db : StateDb) (composerId : String) : ComposerFlags :=
  match db.readValue (composerDataKeyStart ++ composerId) with
  | some (some record) => recordFlags record
  | _ => ComposerFlags.plain

/-- What the composer's own record says is what all listed records say together, where
`earlier` are the records that are listed before the one of the composer. -/
structure LinksAgree (rows earlier : List (String × Json)) (row : String × Json)
    (own : ComposerFlags) : Prop where
  parent : own.parent = parentAmong rows row.1
  kind : own.kind = recordKind row.2 ∨ own.parent ≠ none ∧ recordKind row.2 = none
  /-- The subagents of a composer go to its first record. -/
  children : row.1 ∉ earlier.map Prod.fst → (∃ child, parentAmong rows child = some row.1) →
    ∀ id, id ∈ own.subagents ↔ parentAmong rows id = some row.1
  listed : (row.1 ∈ earlier.map Prod.fst ∨ ∀ child, parentAmong rows child ≠ some row.1) →
    ∀ id, id ∈ own.subagents ↔ id ∈ listedSubagents row.2

/-- The kind goes with the other flags. -/
structure ComposerFlags.Coherent (flags : ComposerFlags) : Prop where
  listable : flags.listable = flags.kind.isNone
  subagent : flags.parent ≠ none → flags.kind = some "subagent"

theorem coherent_recordFlags (composer : Json) : (recordFlags composer).Coherent where
  listable := rfl
  subagent := by
    intro named
    unfold recordFlags recordKind
    obtain ⟨parent, isParent⟩ := Option.ne_none_iff_exists'.mp named
    have isNamed : namedParent composer = some parent := isParent
    rw [isNamed]
    rfl

theorem coherent_ownRecordFlags (db : StateDb) (composerId : String) :
    (ownRecordFlags db composerId).Coherent := by
  unfold ownRecordFlags
  split
  · exact coherent_recordFlags _
  · exact ⟨rfl, fun absurd => (absurd rfl).elim⟩

section Agree
variable {rows earlier : List (String × Json)} {row : String × Json} {own : ComposerFlags}

/-- The kind, the parent and the place in the listing, after the second pass. -/
theorem same_under_iff (isRow : row ∈ rows) (coherent : own.Coherent) :
    (own.listable = ((recordFlags row.2).under (parentAmong rows row.1)).listable ∧
        own.kind = ((recordFlags row.2).under (parentAmong rows row.1)).kind ∧
        own.parent = ((recordFlags row.2).under (parentAmong rows row.1)).parent) ↔
      own.parent = parentAmong rows row.1 ∧
        (own.kind = recordKind row.2 ∨ own.parent ≠ none ∧ recordKind row.2 = none) := by
  cases parent : parentAmong rows row.1 with
  | none =>
      have unnamed : namedParent row.2 = none :=
        (TwoSidedLinks.parentOf_eq_none_iff Prod.fst _ _).mp parent |>.1 row isRow rfl
      constructor
      · rintro ⟨_, kind, noParent⟩
        exact ⟨noParent.trans unnamed, Or.inl kind⟩
      · rintro ⟨noParent, kind | ⟨absurd, _⟩⟩
        · refine ⟨?_, kind, noParent.trans unnamed.symm⟩
          rw [coherent.listable, kind]
          rfl
        · exact (absurd noParent).elim
  | some name =>
      constructor
      · rintro ⟨_, kind, hasParent⟩
        have present : own.parent ≠ none := by
          rw [hasParent]
          exact Option.some_ne_none name
        refine ⟨hasParent, ?_⟩
        rw [coherent.subagent present] at kind ⊢
        cases rowKind : recordKind row.2 with
        | none => exact Or.inr ⟨present, rfl⟩
        | some held =>
            have same : some "subagent" = some ((recordKind row.2).getD "subagent") := kind
            rw [rowKind] at same
            exact Or.inl same
      · rintro ⟨hasParent, kind⟩
        have present : own.parent ≠ none := by
          rw [hasParent]
          exact Option.some_ne_none name
        have isSubagent := coherent.subagent present
        have rowKind : (recordKind row.2).getD "subagent" = "subagent" := by
          rcases kind with same | ⟨_, missing⟩
          · rw [← same, isSubagent]
            rfl
          · rw [missing]
            rfl
        refine ⟨?_, ?_, hasParent⟩
        · rw [coherent.listable, isSubagent]
          rfl
        · rw [isSubagent]
          exact congrArg some rowKind.symm

theorem sameAs_attached_iff (isRow : row ∈ rows) (coherent : own.Coherent) {subagents : List String}
    (mem_subagents : ∀ id, id ∈ subagents ↔
      parentAmong rows id = some row.1 ∧ row.1 ∉ earlier.map Prod.fst) :
    (own.SameAs
      (let marked := (recordFlags row.2).under (parentAmong rows row.1)
        if subagents.isEmpty then marked else { marked with subagents := subagents })) ↔
      LinksAgree rows earlier row own := by
  have marked := same_under_iff isRow coherent
  have kept : ((recordFlags row.2).under (parentAmong rows row.1)).subagents =
      listedSubagents row.2 := by
    cases parentAmong rows row.1 with
    | none => rfl
    | some parent => rfl
  dsimp only
  cases subagents with
  | nil =>
      have none_left : row.1 ∈ earlier.map Prod.fst ∨
          ∀ child, parentAmong rows child ≠ some row.1 := by
        by_cases before : row.1 ∈ earlier.map Prod.fst
        · exact Or.inl before
        · exact Or.inr fun child isChild => nomatch (mem_subagents child).mpr ⟨isChild, before⟩
      rw [List.isEmpty_nil, if_pos rfl]
      constructor
      · rintro ⟨listable, kind, parent, subagents⟩
        obtain ⟨sameParent, sameKind⟩ := marked.mp ⟨listable, kind, parent⟩
        rw [kept] at subagents
        refine ⟨sameParent, sameKind, fun first ⟨child, isChild⟩ => ?_, fun _ => subagents⟩
        exact nomatch (mem_subagents child).mpr ⟨isChild, first⟩
      · rintro ⟨sameParent, sameKind, _, listed⟩
        obtain ⟨listable, kind, parent⟩ := marked.mpr ⟨sameParent, sameKind⟩
        refine ⟨listable, kind, parent, ?_⟩
        rw [kept]
        exact listed none_left
  | cons child rest =>
      obtain ⟨isChild, first⟩ := (mem_subagents child).mp (List.mem_cons_self ..)
      rw [List.isEmpty_cons, if_neg Bool.false_ne_true]
      constructor
      · rintro ⟨listable, kind, parent, subagents⟩
        obtain ⟨sameParent, sameKind⟩ := marked.mp ⟨listable, kind, parent⟩
        refine ⟨sameParent, sameKind, fun _ _ id => ?_, fun none_left => ?_⟩
        · rw [subagents id, mem_subagents id]
          exact and_iff_left first
        · rcases none_left with before | childless
          · exact (first before).elim
          · exact (childless child isChild).elim
      · rintro ⟨sameParent, sameKind, children, _⟩
        obtain ⟨listable, kind, parent⟩ := marked.mpr ⟨sameParent, sameKind⟩
        refine ⟨listable, kind, parent, fun id => ?_⟩
        rw [children first ⟨child, isChild⟩ id]
        exact ((mem_subagents id).trans (and_iff_left first)).symm

end Agree

section Listings
variable {db : StateDb}

theorem flags_withRecordFlags {session : NativeSourceSession} (fresh : session.metadataJson = none)
    (listable : session.listable = true) :
    flags (withRecordFlags db session) = ownRecordFlags db session.externalSessionId := by
  have plain : flags session = ComposerFlags.plain := by
    unfold flags
    rw [fresh, listable]
    rfl
  unfold withRecordFlags ownRecordFlags
  cases db.readValue (composerDataKeyStart ++ session.externalSessionId) with
  | none => exact plain
  | some value =>
      cases value with
      | none => exact plain
      | some record => exact (flags_applyComposerDataFlags _ _ fresh listable).1

theorem externalSessionId_withRecordFlags (session : NativeSourceSession) :
    (withRecordFlags db session).externalSessionId = session.externalSessionId := by
  unfold withRecordFlags
  split
  · exact externalSessionId_applyComposerDataFlags _ _ _
  · rfl

variable {rows : List (String × Json)} {sessions : List NativeSourceSession}
  (same : (sessions.map fun session => (session.externalSessionId, flags session)) =
    rows.map fun row => (row.1, recordFlags row.2))
include same

theorem parentBySubagent_eq_declared : parentBySubagent sessions =
    TwoSidedLinks.declared Prod.fst (fun row => namedParent row.2) (fun row => listedSubagents row.2)
      rows := by
  let view : List (String × ComposerFlags) → List (String × String) :=
    TwoSidedLinks.declared Prod.fst (fun shown => shown.2.parent) (fun shown => shown.2.subagents)
  calc parentBySubagent sessions
      = view (sessions.map fun session => (session.externalSessionId, flags session)) := by
        rw [parentBySubagent_eq]
        simp only [view, TwoSidedLinks.declared, List.foldl_map]
        rfl
    _ = view (rows.map fun row => (row.1, recordFlags row.2)) := by rw [same]
    _ = _ := by
        simp only [view, TwoSidedLinks.declared, List.foldl_map]
        rfl

/-- What a session gets in the second pass, by the records. -/
theorem flags_attached_of_rows {drain : List (String × String) → List (String × String)}
    (drains : ∀ known, (drain known).Perm known) {before : List NativeSourceSession}
    {session : NativeSourceSession} {held : List (String × Json)} (holds : Holds session held)
    {earlier : List (String × Json)} {row : String × Json}
    (places : (before.map fun session => (session.externalSessionId, flags session)) =
      earlier.map fun row => (row.1, recordFlags row.2))
    (place : (session.externalSessionId, flags session) = (row.1, recordFlags row.2))
    (isRow : row ∈ rows) {own : ComposerFlags} (coherent : own.Coherent) :
    own.SameAs (flags (attached (parentBySubagent sessions)
      ((drain (parentBySubagent sessions)).filter fun link =>
        before.all (·.externalSessionId != link.2)) session)) ↔
      LinksAgree rows earlier row own := by
  obtain ⟨sameId, sameFlags⟩ := Prod.mk.inj place
  have ids : before.map NativeSourceSession.externalSessionId = earlier.map Prod.fst := by
    have firsts := congrArg (List.map Prod.fst) places
    rwa [List.map_map, List.map_map] at firsts
  rw [flags_attached _ _ holds, sameId, sameFlags]
  have lookup : (parentBySubagent sessions).lookup row.1 = parentAmong rows row.1 := by
    rw [parentBySubagent_eq_declared same]
    exact TwoSidedLinks.lookup_declared ..
  rw [lookup]
  apply sameAs_attached_iff isRow coherent
  intro id
  rw [← ids]
  constructor
  · intro member
    obtain ⟨link, isLink, rfl⟩ := List.mem_map.mp member
    obtain ⟨isLink, toRow⟩ := List.mem_filter.mp isLink
    obtain ⟨isLink, apart⟩ := List.mem_filter.mp isLink
    have known := (drains _).mem_iff.mp isLink
    rw [parentBySubagent_eq_declared same] at known
    refine ⟨(TwoSidedLinks.mem_declared_iff ..).mp (eq_of_beq toRow ▸ known), ?_⟩
    intro taken
    obtain ⟨other, isOther, sameAsRow⟩ := List.mem_map.mp taken
    have differs := List.all_eq_true.mp apart other isOther
    exact bne_iff_ne.mp differs (sameAsRow.trans (eq_of_beq toRow).symm)
  · rintro ⟨isChild, first⟩
    refine List.mem_map.mpr ⟨(id, row.1), ?_, rfl⟩
    refine List.mem_filter.mpr ⟨List.mem_filter.mpr ⟨(drains _).mem_iff.mpr ?_, ?_⟩, beq_self_eq_true _⟩
    · rw [parentBySubagent_eq_declared same]
      exact (TwoSidedLinks.mem_declared_iff ..).mpr isChild
    · apply List.all_eq_true.mpr
      intro other isOther
      exact bne_iff_ne.mpr fun sameAsRow => first (List.mem_map.mpr ⟨other, isOther, sameAsRow⟩)

end Listings

/-- Two lists that show the same have the same places. -/
theorem place_of_map_eq {A B C : Type} {first : A → C} {second : B → C} {items : List A}
    {others : List B} (same : items.map first = others.map second) {before after : List A} {item : A}
    (whole : items = before ++ item :: after) :
    ∃ earlier other later, others = earlier ++ other :: later ∧
      before.map first = earlier.map second ∧ first item = second other := by
  rw [whole, List.map_append, List.map_cons] at same
  obtain ⟨earlier, rest, rfl, places, same⟩ := List.map_eq_append_iff.mp same.symm
  obtain ⟨other, later, rfl, place, _⟩ := List.map_eq_cons_iff.mp same
  exact ⟨earlier, other, later, rfl, places.symm, place.symm⟩

section Lists
variable {stateDb : String → Option StateDb} {profile : SourceProfile} {db : StateDb}
  {drain : List (String × String) → List (String × String)}

/-- The sessions that are listed from records, by what they say. -/
theorem sessions_of_records {recorded : List NativeSourceSession}
    (found : (cursorFamilyStateDbPath profile).bind stateDb = some db)
    (records : listSessionsFromComposerData stateDb profile none drain cursorRecordsOptions =
      some recorded) :
    ∃ sessions, recorded = ordered none (attachSubagentIdsToParents drain sessions) ∧
      (sessions.map fun session => (session.externalSessionId, flags session)) =
        (listedRows db cursorRecordsOptions).map (fun row => (row.1, recordFlags row.2)) ∧
      ∀ session ∈ sessions, ∃ held, Holds session held := by
  obtain ⟨path, known, opened⟩ := Option.bind_eq_some_iff.mp records
  obtain ⟨opened', isDb, read⟩ := Option.bind_eq_some_iff.mp opened
  rw [known, Option.bind_some, isDb] at found
  cases found
  obtain ⟨all, each, answer⟩ := Option.bind_eq_some_iff.mp read
  cases answer
  refine ⟨all.filterMap id, rfl, ?_, ?_⟩
  · unfold listedRows
    refine Eq.trans ?_ List.map_filterMap.symm
    exact Fallible.map_filterMap_of_mapM_option
      (fun value _ answer isRead => shown_of_composerDataSession isRead) each
  · intro session member
    obtain ⟨answer, inAll, isSession⟩ := List.mem_filterMap.mp member
    obtain ⟨value, _, isRead⟩ := ((Fallible.mem_of_mapM_option each).2 answer).mp inAll
    cases isSession
    exact holds_of_composerDataSession isRead

/-- A composer that both listings have: they say the same of it just when its own record says
what all records together say. -/
theorem listings_agree_iff (drains : ∀ known, (drain known).Perm known)
    (found : (cursorFamilyStateDbPath profile).bind stateDb = some db)
    {headed recorded : List NativeSourceSession}
    (headers : listSessionsFromComposerHeaders stateDb profile none = some headed)
    (records : listSessionsFromComposerData stateDb profile none drain cursorRecordsOptions =
      some recorded)
    {header : NativeSourceSession} (isHeaded : header ∈ headed) :
    (∀ record ∈ recorded, record.externalSessionId = header.externalSessionId →
        (flags header).SameAs (flags record)) ↔
      ∀ earlier row later, listedRows db cursorRecordsOptions = earlier ++ row :: later →
        row.1 = header.externalSessionId →
          LinksAgree (listedRows db cursorRecordsOptions) earlier row
            (ownRecordFlags db header.externalSessionId) := by
  obtain ⟨sessions, rfl, same, holds⟩ := sessions_of_records found records
  have headerFlags : flags header = ownRecordFlags db header.externalSessionId := by
    obtain ⟨db', _, _, found', _, _, composer, _, headed, read, rfl⟩ :=
      header_of_listed headers isHeaded
    cases found.symm.trans found'
    obtain ⟨fresh, listable⟩ := fresh_of_header read
    rw [externalSessionId_withRecordFlags, flags_withRecordFlags fresh listable]
  rw [headerFlags]
  have coherent := coherent_ownRecordFlags db header.externalSessionId
  constructor
  · intro agree earlier row later whole isSame
    obtain ⟨before, session, after, split, places, place⟩ := place_of_map_eq same.symm whole
    obtain ⟨held, isHeld⟩ := holds session (by simp [split])
    apply (flags_attached_of_rows same drains isHeld places.symm place.symm (by simp [whole])
      coherent).mp
    apply agree
    · apply (List.mem_insertionSort _).mpr
      exact (mem_attachSubagents_iff _ _).mpr ⟨before, session, after, split, rfl⟩
    · rw [externalSessionId_attached]
      exact (Prod.mk.inj place).1.symm.trans isSame
  · intro agree record member isSame
    have isAttached := (List.mem_insertionSort _).mp member
    obtain ⟨before, session, after, split, rfl⟩ := (mem_attachSubagents_iff _ _).mp isAttached
    obtain ⟨earlier, row, later, whole, places, place⟩ := place_of_map_eq same split
    obtain ⟨held, isHeld⟩ := holds session (by simp [split])
    rw [externalSessionId_attached] at isSame
    apply (flags_attached_of_rows same drains isHeld places place (by simp [whole]) coherent).mpr
    exact agree earlier row later whole ((Prod.mk.inj place).1.symm.trans isSame)

end Lists

/-! ## A parent that lists its subagent -/

section Family

def familyProfile : SourceProfile where
  name := "cursor"
  appId := none
  actorId := none
  actorType := none
  sessionDbPath := none
  sessionLogPath := none
  evidenceRoot := none
  cursorStateDbPath := some "/state.vscdb"

/-- Two composers with headers; the record of `a` lists `b` as a subagent. -/
def familyDb (child : Json) : StateDb where
  path := "/state.vscdb"
  modifiedAt := none
  sizeBytes := 4096
  values := [
    (composerHeadersKey, some (.object
      [("allComposers", .object [("a", .object []), ("b", .object [])])])),
    ("composerData:a", some (.object [("subagentComposerIds", .array [.string "b"])])),
    ("composerData:b", some child)]

/-- A record that names its parent. -/
def namingParent : Json := .object [("subagentInfo", .object [("parentComposerId", .string "a")])]

def shown (listing : Option (List NativeSourceSession)) : Option (List (String × ComposerFlags)) :=
  listing.map fun sessions => sessions.map fun session => (session.externalSessionId, flags session)

theorem shown_headers : shown (listSessionsFromComposerHeaders (fun _ => some (familyDb (.object [])))
    familyProfile none) = some
      [("a", ⟨true, none, none, ["b"]⟩), ("b", ⟨true, none, none, []⟩)] := by
  decide +kernel

theorem shown_records : shown (listSessionsFromComposerData (fun _ => some (familyDb (.object [])))
    familyProfile none id cursorRecordsOptions) = some
      [("a", ⟨true, none, none, ["b"]⟩), ("b", ⟨false, some "subagent", some "a", []⟩)] := by
  decide +kernel

theorem exists_of_shown {listing : Option (List NativeSourceSession)}
    {all : List (String × ComposerFlags)} (isShown : shown listing = some all)
    {one : String × ComposerFlags} (member : one ∈ all) :
    ∃ sessions session, listing = some sessions ∧ session ∈ sessions ∧
      session.externalSessionId = one.1 ∧ flags session = one.2 := by
  obtain ⟨sessions, listed, rfl⟩ := Option.map_eq_some_iff.mp isShown
  obtain ⟨session, isSession, rfl⟩ := List.mem_map.mp member
  exact ⟨sessions, session, listed, isSession, rfl, rfl⟩

/-- A subagent that only its parent knows of is listed by its header as a session of its own. -/
theorem subagent_of_listing_parent_differs :
    ¬ ∀ (stateDb : String → Option StateDb) (profile : SourceProfile)
        (drain : List (String × String) → List (String × String)),
        (∀ known, (drain known).Perm known) →
        ∀ headed recorded : List NativeSourceSession,
          listSessionsFromComposerHeaders stateDb profile none = some headed →
          listSessionsFromComposerData stateDb profile none drain cursorRecordsOptions =
            some recorded →
          ∀ header ∈ headed, ∀ record ∈ recorded,
            record.externalSessionId = header.externalSessionId →
              (flags header).SameAs (flags record) := by
  intro agree
  have isChild : ("b", (⟨true, none, none, []⟩ : ComposerFlags)) ∈
      [("a", ⟨true, none, none, ["b"]⟩), ("b", ⟨true, none, none, []⟩)] := by simp
  have isSubagent : ("b", (⟨false, some "subagent", some "a", []⟩ : ComposerFlags)) ∈
      [("a", ⟨true, none, none, ["b"]⟩), ("b", ⟨false, some "subagent", some "a", []⟩)] := by simp
  obtain ⟨headed, header, headers, isHeaded, headerId, headerFlags⟩ :=
    exists_of_shown shown_headers isChild
  obtain ⟨recorded, record, records, isRecorded, recordId, recordShown⟩ :=
    exists_of_shown shown_records isSubagent
  have same := agree _ _ _ (fun known => List.Perm.refl known) headed recorded headers records header
    isHeaded record isRecorded (recordId.trans headerId.symm)
  rw [headerFlags, recordShown] at same
  exact nomatch same.listable

theorem shown_own_headers : shown
    (listSessionsFromComposerHeaders (fun _ => some (familyDb namingParent)) familyProfile none) = some
      [("a", ⟨true, none, none, ["b"]⟩), ("b", ⟨false, some "subagent", some "a", []⟩)] := by
  decide +kernel

theorem isSome_own_records : (listSessionsFromComposerData (fun _ => some (familyDb namingParent))
    familyProfile none id cursorRecordsOptions).isSome = true := by
  decide +kernel

/-- With the link declared at both ends the condition can be read off the records. -/
theorem own_listings_agree :
    ∃ (headed recorded : List NativeSourceSession) (header : NativeSourceSession),
      listSessionsFromComposerHeaders (fun _ => some (familyDb namingParent)) familyProfile none =
        some headed ∧
      listSessionsFromComposerData (fun _ => some (familyDb namingParent)) familyProfile none id
        cursorRecordsOptions = some recorded ∧
      header ∈ headed ∧ header.externalSessionId = "b" ∧
      ((∀ record ∈ recorded, record.externalSessionId = header.externalSessionId →
          (flags header).SameAs (flags record)) ↔
        ∀ earlier row later, listedRows (familyDb namingParent) cursorRecordsOptions =
            earlier ++ row :: later → row.1 = header.externalSessionId →
          LinksAgree (listedRows (familyDb namingParent) cursorRecordsOptions) earlier row
            (ownRecordFlags (familyDb namingParent) header.externalSessionId)) := by
  have isChild : ("b", (⟨false, some "subagent", some "a", []⟩ : ComposerFlags)) ∈
      [("a", ⟨true, none, none, ["b"]⟩), ("b", ⟨false, some "subagent", some "a", []⟩)] := by simp
  obtain ⟨headed, header, headers, isHeaded, headerId, _⟩ := exists_of_shown shown_own_headers isChild
  obtain ⟨recorded, records⟩ := Option.isSome_iff_exists.mp isSome_own_records
  exact ⟨headed, recorded, header, headers, records, isHeaded, headerId,
    listings_agree_iff (fun known => List.Perm.refl known) rfl headers records isHeaded⟩

end Family

end Composer

end BrickTrace
