import BrickTrace.Cli.ComposerLinks

/-!
# Links at both of their ends

The second pass over listed composers writes each link at the child and at the parent.  The list of
a parent is replaced where the pass knows of subagents of it; where it knows of none, the list stays
as it was declared, also if its subagents went to another parent.
-/

set_option autoImplicit false

namespace BrickTrace

namespace Composer

/-! ## What the pass is meant to do -/

/-- A session lists another one exactly if it is the parent that the other one names. -/
def LinksConsistent (sessions : List NativeSourceSession) : Prop :=
  ∀ parent ∈ sessions, ∀ child ∈ sessions,
    child.externalSessionId ∈ (flags parent).subagents ↔
      (flags child).parent = some parent.externalSessionId

/-- The same session, with its subagents in any order. -/
structure SameListing (first second : NativeSourceSession) : Prop where
  rest : { first with metadataJson := none } = { second with metadataJson := none }
  metadata : ∀ key, key ≠ "subagentSessionIds" →
    first.metadataJson.bind (·.get key) = second.metadataJson.bind (·.get key)
  subagents : ∀ id, id ∈ (flags first).subagents ↔ id ∈ (flags second).subagents

/-- What the links are meant to be, in whatever order the hash maps have their entries. -/
structure AttachesLinks (sessions : List NativeSourceSession) : Prop where
  consistent : ∀ drain : List (String × String) → List (String × String),
    (∀ known, (drain known).Perm known) →
      LinksConsistent (attachSubagentIdsToParents drain sessions)
  unlisted : ∀ drain : List (String × String) → List (String × String),
    (∀ known, (drain known).Perm known) →
      ∀ session ∈ attachSubagentIdsToParents drain sessions,
        (flags session).parent ≠ none → session.listable = false
  orderFree : ∀ drain other : List (String × String) → List (String × String),
    (∀ known, (drain known).Perm known) → (∀ known, (other known).Perm known) →
      List.Forall₂ SameListing (attachSubagentIdsToParents drain sessions)
        (attachSubagentIdsToParents other sessions)

/-- A session that lists another one is the parent of something: it is named as such, or it is
the first to list an id that names no parent. -/
def ListsReplaced (sessions : List NativeSourceSession) : Prop :=
  ∀ before session after, sessions = before ++ session :: after →
    (∃ child ∈ sessions, child.externalSessionId ∈ (flags session).subagents) →
      (∃ child ∈ sessions, (flags child).parent = some session.externalSessionId) ∨
        ∃ id ∈ (flags session).subagents,
          (∀ other ∈ sessions, other.externalSessionId = id → (flags other).parent = none) ∧
            ∀ earlier ∈ before, id ∉ (flags earlier).subagents

/-! ## What the pass does -/

/-- The parent that the links of all sessions give an id. -/
def parentIn (sessions : List NativeSourceSession) (id : String) : Option String :=
  TwoSidedLinks.parentOf NativeSourceSession.externalSessionId (fun session => (flags session).parent)
    (fun session => (flags session).subagents) sessions id

theorem lookup_parentBySubagent (sessions : List NativeSourceSession) (id : String) :
    (parentBySubagent sessions).lookup id = parentIn sessions id := by
  rw [parentBySubagent_eq, TwoSidedLinks.lookup_declared]
  rfl

theorem mem_parentBySubagent_iff {sessions : List NativeSourceSession} {child parent : String} :
    (child, parent) ∈ parentBySubagent sessions ↔ parentIn sessions child = some parent := by
  rw [parentBySubagent_eq]
  exact TwoSidedLinks.mem_declared_iff ..

section Pass
variable {sessions : List NativeSourceSession}
  {drain : List (String × String) → List (String × String)}

/-- The links that are left for a session are those to it, for no session before it has its id. -/
theorem mem_left_iff (drains : ∀ known, (drain known).Perm known)
    {before after : List NativeSourceSession} {session : NativeSourceSession}
    (distinct : (sessions.map (·.externalSessionId)).Nodup)
    (whole : sessions = before ++ session :: after) (id : String) :
    id ∈ ((((drain (parentBySubagent sessions)).filter fun link =>
      before.all (·.externalSessionId != link.2)).filter (·.2 == session.externalSessionId)).map
        Prod.fst) ↔ parentIn sessions id = some session.externalSessionId := by
  have apart : ∀ other ∈ before, other.externalSessionId ≠ session.externalSessionId := by
    rw [whole, List.map_append, List.map_cons, List.nodup_append] at distinct
    exact fun other member => distinct.2.2 _ (List.mem_map_of_mem member) _ List.mem_cons_self
  rw [← mem_parentBySubagent_iff, ← (drains _).mem_iff, List.mem_map]
  constructor
  · rintro ⟨link, member, rfl⟩
    obtain ⟨isLeft, isHere⟩ := List.mem_filter.mp member
    rw [← eq_of_beq isHere]
    exact (List.mem_filter.mp isLeft).1
  · intro member
    refine ⟨_, List.mem_filter.mpr ⟨List.mem_filter.mpr ⟨member, ?_⟩, beq_self_eq_true _⟩, rfl⟩
    exact List.all_eq_true.mpr fun other isBefore => bne_iff_ne.mpr (apart other isBefore)

/-- What a session gets: the parent of its id, and the children of its id in the place of its list
if there are any. -/
theorem flags_attached_at (drains : ∀ known, (drain known).Perm known)
    {before after : List NativeSourceSession} {session : NativeSourceSession}
    {held : List (String × Json)} (holds : Holds session held)
    (distinct : (sessions.map (·.externalSessionId)).Nodup)
    (whole : sessions = before ++ session :: after) :
    let listed := attached (parentBySubagent sessions) ((drain (parentBySubagent sessions)).filter
      fun link => before.all (·.externalSessionId != link.2)) session
    (flags listed).parent = parentIn sessions session.externalSessionId ∧
      ((flags listed).parent ≠ none → listed.listable = false) ∧
      ∀ id, id ∈ (flags listed).subagents ↔
        TwoSidedLinks.ShowsChild NativeSourceSession.externalSessionId
          (fun session => (flags session).parent) (fun session => (flags session).subagents) sessions
          session id := by
  have isFlags := flags_attached (parentBySubagent sessions)
    ((drain (parentBySubagent sessions)).filter
      fun link => before.all (·.externalSessionId != link.2)) holds
  have mem_left := mem_left_iff drains distinct whole
  rw [lookup_parentBySubagent] at isFlags
  dsimp only at isFlags ⊢
  -- the own word of a session without a parent is none
  have marked : ((flags session).under (parentIn sessions session.externalSessionId)).parent =
      parentIn sessions session.externalSessionId ∧
      (parentIn sessions session.externalSessionId ≠ none →
        ((flags session).under (parentIn sessions session.externalSessionId)).listable = false) ∧
      ((flags session).under (parentIn sessions session.externalSessionId)).subagents =
        (flags session).subagents := by
    cases isParent : parentIn sessions session.externalSessionId with
    | none =>
        have silent := ((TwoSidedLinks.parentOf_eq_none_iff _ _ _).mp isParent).1 session (by simp [whole]) rfl
        exact ⟨silent, fun absurd => (absurd rfl).elim, rfl⟩
    | some parent => exact ⟨rfl, fun _ => rfl, rfl⟩
  obtain ⟨sameParent, unlisted, kept⟩ := marked
  generalize listed_eq : attached (parentBySubagent sessions)
    ((drain (parentBySubagent sessions)).filter
      fun link => before.all (·.externalSessionId != link.2)) session = listed at isFlags ⊢
  generalize left_eq : ((((drain (parentBySubagent sessions)).filter fun link =>
    before.all (·.externalSessionId != link.2)).filter (·.2 == session.externalSessionId)).map
      Prod.fst) = left at isFlags mem_left
  have isListable : listed.listable = (flags listed).listable := rfl
  unfold TwoSidedLinks.ShowsChild
  cases left with
  | nil =>
      rw [List.isEmpty_nil, if_pos rfl] at isFlags
      have childless : ∀ id, parentIn sessions id ≠ some session.externalSessionId :=
        fun id isChild => nomatch (mem_left id).mpr isChild
      rw [isListable, isFlags, sameParent, kept]
      refine ⟨rfl, unlisted, fun id => ⟨fun listed => Or.inr ⟨childless, listed⟩, ?_⟩⟩
      rintro (⟨⟨known, isChild⟩, _⟩ | ⟨_, listed⟩)
      · exact absurd isChild (childless known)
      · exact listed
  | cons first rest =>
      rw [List.isEmpty_cons, if_neg Bool.false_ne_true] at isFlags
      have isChild := (mem_left first).mp List.mem_cons_self
      rw [isListable, isFlags]
      refine ⟨sameParent, fun named => unlisted fun none => named (sameParent.trans none), fun id => ?_⟩
      rw [mem_left]
      constructor
      · exact fun isParent => Or.inl ⟨⟨first, isChild⟩, isParent⟩
      · rintro (⟨_, isParent⟩ | ⟨childless, _⟩)
        · exact isParent
        · exact absurd isChild (childless first)

theorem externalSessionId_at (before : List NativeSourceSession) (session : NativeSourceSession) :
    (attached (parentBySubagent sessions) ((drain (parentBySubagent sessions)).filter fun link =>
      before.all (·.externalSessionId != link.2)) session).externalSessionId =
        session.externalSessionId :=
  externalSessionId_attached _ _

/-- The links are consistent exactly if each session shows the children that have it as parent. -/
theorem linksConsistent_iff (drains : ∀ known, (drain known).Perm known)
    (holds : ∀ session ∈ sessions, ∃ held, Holds session held)
    (distinct : (sessions.map (·.externalSessionId)).Nodup) :
    LinksConsistent (attachSubagentIdsToParents drain sessions) ↔ ListsReplaced sessions := by
  have shows := TwoSidedLinks.showsChild_iff NativeSourceSession.externalSessionId
    (fun session => (flags session).parent) (fun session => (flags session).subagents) distinct
  refine Iff.trans ?_ shows
  have atPlace : ∀ {before session after}, sessions = before ++ session :: after → _ :=
    fun {before session after} whole =>
      flags_attached_at drains (holds session (by simp [whole])).choose_spec distinct whole
  constructor
  · intro consistent parent isParent child isChild
    obtain ⟨before, after, whole⟩ := List.append_of_mem isParent
    obtain ⟨before', after', whole'⟩ := List.append_of_mem isChild
    have here := consistent _ ((mem_attachSubagents_iff _ _).mpr ⟨before, parent, after, whole, rfl⟩) _
      ((mem_attachSubagents_iff _ _).mpr ⟨before', child, after', whole', rfl⟩)
    rw [externalSessionId_at, externalSessionId_at, (atPlace whole).2.2, (atPlace whole').1] at here
    exact here
  · intro shown parent isParent child isChild
    obtain ⟨before, first, after, whole, rfl⟩ := (mem_attachSubagents_iff _ _).mp isParent
    obtain ⟨before', second, after', whole', rfl⟩ := (mem_attachSubagents_iff _ _).mp isChild
    rw [externalSessionId_at, externalSessionId_at, (atPlace whole).2.2, (atPlace whole').1]
    exact shown first (by simp [whole]) second (by simp [whole'])

end Pass

/-! ## The order of the hash maps -/

section Order
variable (parents : List (String × String)) {session : NativeSourceSession}

theorem sameListing_attached {held : List (String × Json)} (holds : Holds session held)
    {left other : List (String × String)} (same : left.Perm other) :
    SameListing (attached parents left session) (attached parents other session) := by
  obtain ⟨_, marked, isMarked⟩ := flags_asSubagent parents holds
  have subagents : ((left.filter (·.2 == session.externalSessionId)).map Prod.fst).Perm
      ((other.filter (·.2 == session.externalSessionId)).map Prod.fst) := (same.filter _).map _
  unfold attached
  dsimp only
  rw [isMarked]
  generalize (left.filter (·.2 == session.externalSessionId)).map Prod.fst = here at subagents ⊢
  generalize (other.filter (·.2 == session.externalSessionId)).map Prod.fst = there at subagents ⊢
  cases here with
  | nil =>
      rw [subagents.nil_eq]
      exact ⟨rfl, fun _ _ => rfl, fun _ => Iff.rfl⟩
  | cons first rest =>
      cases there with
      | nil => exact absurd subagents.symm.nil_eq (List.cons_ne_nil _ _).symm
      | cons second others =>
          rw [List.isEmpty_cons, List.isEmpty_cons, if_neg Bool.false_ne_true,
            if_neg Bool.false_ne_true]
          refine ⟨rfl, fun key differs => ?_, fun id => ?_⟩
          · have written : ∀ value, (withEntry "subagentSessionIds" value (.object marked)).get key =
                marked.lookup key := fun value => Json.lookup_insertEntry_of_ne differs
            rw [Option.bind_some, Option.bind_some, written, written]
          · have listed : ∀ ids : List String, (flags { asSubagent parents session with
                metadataJson := some (withEntry "subagentSessionIds" (.array (ids.map .string))
                  (.object marked)) }).subagents = ids := by
              intro ids
              refine (congrArg ComposerFlags.subagents (flags_with (asSubagent parents session) _
                (Json.insertEntry "subagentSessionIds" (.array (ids.map .string)) marked))).trans ?_
              rw [Json.lookup_insertEntry_self, Option.bind_some]
              exact filterMap_decodeString ids
            rw [listed, listed]
            exact subagents.mem_iff

theorem forall₂_attachSubagents {sessions : List NativeSourceSession}
    (holds : ∀ session ∈ sessions, ∃ held, Holds session held) {left other : List (String × String)}
    (same : left.Perm other) :
    List.Forall₂ SameListing (attachSubagents parents left sessions)
      (attachSubagents parents other sessions) := by
  induction sessions generalizing left other with
  | nil => exact .nil
  | cons session rest ih =>
      obtain ⟨⟨held, isHeld⟩, later⟩ := List.forall_mem_cons.mp holds
      rw [attachSubagents_cons, attachSubagents_cons]
      exact .cons (sameListing_attached parents isHeld same) (ih later (same.filter _))

end Order

/-- The second pass makes the links agree exactly if each session that lists another one is the
parent of something. -/
theorem attachesLinks_iff {sessions : List NativeSourceSession}
    (holds : ∀ session ∈ sessions, ∃ held, Holds session held)
    (distinct : (sessions.map (·.externalSessionId)).Nodup) :
    AttachesLinks sessions ↔ ListsReplaced sessions := by
  constructor
  · intro attaches
    have keeps : ∀ known : List (String × String), (id known).Perm known := fun _ => List.Perm.refl _
    exact (linksConsistent_iff keeps holds distinct).mp (attaches.consistent id keeps)
  · intro replaced
    refine ⟨fun drain drains => (linksConsistent_iff drains holds distinct).mpr replaced, ?_, ?_⟩
    · intro drain drains session member named
      obtain ⟨before, first, after, whole, rfl⟩ := (mem_attachSubagents_iff _ _).mp member
      obtain ⟨held, isHeld⟩ := holds first (by simp [whole])
      exact (flags_attached_at drains isHeld distinct whole).2.1 named
    · intro drain other drains others
      exact forall₂_attachSubagents _ holds ((drains _).trans (others _).symm)

/-! ## A subagent with two parents -/

/-- A listed composer with the given metadata. -/
def composerWith (composerId : String) (metadata : List (String × Json)) : NativeSourceSession where
  externalSessionId := composerId
  sourceAppId := "cursor"
  title := none
  path := "/state.vscdb"
  sizeBytes := 4096
  modifiedAt := none
  parserVersion := "cursor-ide-composer-data-v1"
  sessionCreatedAt := none
  sessionUpdatedAt := none
  model := none
  inputTokens := none
  outputTokens := none
  repoPath := none
  branch := none
  filesChanged := none
  linesAdded := none
  linesRemoved := none
  touchedFiles := []
  listable := true
  metadataJson := some (.object metadata)

/-- The composer `a` lists `b` as its subagent. -/
def listingB : NativeSourceSession :=
  composerWith "a" [("subagentSessionIds", .array [.string "b"])]

theorem holds_composerWith (composerId : String) (metadata : List (String × Json)) :
    Holds (composerWith composerId metadata) metadata := rfl

theorem links_from_parent_side : AttachesLinks [listingB, composerWith "b" []] := by
  refine (attachesLinks_iff ?_ (by decide)).mpr ?_
  · refine List.forall_mem_cons.mpr ⟨⟨_, holds_composerWith _ _⟩, List.forall_mem_singleton.mpr ?_⟩
    exact ⟨_, holds_composerWith _ _⟩
  · rintro before session after whole ⟨child, _, listed⟩
    match before with
    | [] =>
        cases whole
        refine Or.inr ⟨"b", List.mem_singleton_self _, ?_, fun _ member => nomatch member⟩
        refine List.forall_mem_cons.mpr ⟨fun _ => rfl, List.forall_mem_singleton.mpr fun _ => rfl⟩
    | [first] =>
        cases whole
        cases listed
    | first :: second :: rest =>
        have lengths := congrArg List.length whole
        simp at lengths

/-- The composer `b` names `c` as its parent, and still stands in the list of `a`. -/
theorem stale_list_kept :
    ¬AttachesLinks [listingB, composerWith "b" [("parentSessionId", .string "c")],
      composerWith "c" []] := by
  intro attaches
  have keeps : ∀ known : List (String × String), (id known).Perm known := fun _ => List.Perm.refl _
  have holds : ∀ session ∈ [listingB, composerWith "b" [("parentSessionId", .string "c")],
      composerWith "c" []], ∃ held, Holds session held := by
    simp only [List.mem_cons, List.not_mem_nil, or_false]
    rintro session (rfl | rfl | rfl)
    · exact ⟨_, holds_composerWith _ _⟩
    · exact ⟨_, holds_composerWith _ _⟩
    · exact ⟨_, holds_composerWith _ _⟩
  have replaced := (linksConsistent_iff keeps holds (by decide)).mp (attaches.consistent id keeps)
  have lists : (composerWith "b" [("parentSessionId", .string "c")]).externalSessionId ∈
      (flags listingB).subagents := List.mem_singleton_self _
  rcases replaced [] listingB _ rfl ⟨_, by simp, lists⟩ with ⟨child, isChild, named⟩ |
      ⟨id, isListed, silent, _⟩
  · -- nothing names `a` as its parent
    simp only [List.mem_cons, List.not_mem_nil, or_false] at isChild
    rcases isChild with rfl | rfl | rfl
    · cases named
    · exact absurd named (by decide)
    · cases named
  · -- the only id in the list names a parent
    obtain rfl := List.mem_singleton.mp isListed
    have named := silent (composerWith "b" [("parentSessionId", .string "c")]) (by simp) rfl
    cases named

end Composer

end BrickTrace
