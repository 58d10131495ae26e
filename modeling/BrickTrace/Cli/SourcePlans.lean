import BrickTrace.Lib.Fallible
import BrickTrace.Lib.KeyedRows
import BrickTrace.Lib.Loops
import BrickTrace.Lib.OrderedMap
import BrickTrace.Cli.ComposerSessions

/-!
# Plans and the sessions that they name

Cursor keeps all its plans in one registry.  A refresh lists them, each with the sessions that
created, edited, referenced or built it, and stores one after the other; a plan's edges are
replaced as a whole, in one transaction with the plan.
-/

set_option autoImplicit false

namespace BrickTrace

open OrderedMap (Map)
open KeyedRows (KeyedTable)
open Composer (textAt)

namespace SourcePlans

/-! ## Plans of a registry -/

inductive SourcePlanSessionEdgeRole where
  | createdBy
  | editedBy
  | referencedBy
  | builtBy
deriving DecidableEq

/-- Roles are ordered as they are declared. -/
def SourcePlanSessionEdgeRole.rank : SourcePlanSessionEdgeRole → Nat
  | .createdBy => 0
  | .editedBy => 1
  | .referencedBy => 2
  | .builtBy => 3

instance : Ord SourcePlanSessionEdgeRole := ⟨compareOn SourcePlanSessionEdgeRole.rank⟩

instance : Std.TransOrd SourcePlanSessionEdgeRole :=
  inferInstanceAs (Std.TransCmp (compareOn SourcePlanSessionEdgeRole.rank))

instance : Std.LawfulEqOrd SourcePlanSessionEdgeRole where
  eq_of_compare {first second} same := by
    cases first <;> cases second <;> first | rfl | cases same

abbrev EdgeKey := String × SourcePlanSessionEdgeRole

instance : Ord EdgeKey := lexOrd

structure SourcePlanUpsert where
  sourceId : String
  externalPlanId : String
  title : Option String
  sourcePath : Option String
  sourceUri : Option String
  sourceMtime : Option DateTime
  parserVersion : Option String
  discoveredAt : DateTime
  lastSeenAt : DateTime
  metadataJson : Option Json

structure SourcePlanSessionEdgeUpsert where
  sourceId : String
  externalPlanId : String
  externalSessionId : String
  role : SourcePlanSessionEdgeRole
  todoIdsJson : Option Json
  discoveredAt : DateTime
  lastSeenAt : DateTime
  metadataJson : Option Json

structure SourcePlanWithEdgesUpsert where
  plan : SourcePlanUpsert
  edges : List SourcePlanSessionEdgeUpsert

/-- A plan is an object; its own id goes before the key that it is under. -/
def planObject (planId : String) (plan : Json) : Option (String × Json) :=
  (Composer.entries plan).map fun _ =>
    ((((plan.get "planId").or (plan.get "id")).bind Json.decodeString).getD planId, plan)

def readPlanRegistryEntries (registry : Json) : List (String × Json) :=
  match registry with
  | .object entries =>
      match (registry.get "plans").bind Composer.entries with
      | some plans => plans.filterMap fun entry => planObject entry.1 entry.2
      | none => entries.filterMap fun entry => planObject entry.1 entry.2
  | _ => []

/-- The sessions that a plan names in a role, with the todos of the ones that built it. -/
def sessionsInRole (plan : Json) : SourcePlanSessionEdgeRole → List (String × Option Json)
  | .createdBy => (textAt "createdBy" plan).toList.map fun session => (session, none)
  | .editedBy => texts "editedBy"
  | .referencedBy => texts "referencedBy"
  | .builtBy =>
      (((plan.get "builtBy").bind Composer.entries).getD []).map fun entry => (entry.1, some entry.2)
where
  texts (key : String) : List (String × Option Json) :=
    ((((plan.get key).bind Composer.items).getD []).filterMap Json.decodeString).map
      fun session => (session, none)

section Listing
variable (sourceId planId : String) (seenAt : DateTime)

def planEdge (session : String) (role : SourcePlanSessionEdgeRole) (todoIdsJson : Option Json) :
    SourcePlanSessionEdgeUpsert where
  sourceId := sourceId
  externalPlanId := planId
  externalSessionId := session
  role := role
  todoIdsJson := todoIdsJson
  discoveredAt := seenAt
  lastSeenAt := seenAt
  metadataJson := none

def insertPlanEdge (role : SourcePlanSessionEdgeRole)
    (edges : Map EdgeKey SourcePlanSessionEdgeUpsert) (named : String × Option Json) :
    Map EdgeKey SourcePlanSessionEdgeUpsert :=
  if trim named.1 = "" then edges
  else edges.insert (named.1, role) (planEdge sourceId planId seenAt named.1 role named.2)

def planSessionEdges (plan : Json) : List SourcePlanSessionEdgeUpsert :=
  OrderedMap.values ([.createdBy, .editedBy, .referencedBy, .builtBy].foldl
    (fun edges role =>
      (sessionsInRole plan role).foldl (insertPlanEdge sourceId planId seenAt role) edges) ∅)

end Listing

def planPath (plan : Json) : Option String :=
  (((plan.get "uri").bind fun uri => (uri.get "fsPath").or (uri.get "path")).bind
    Json.decodeString).or (textAt "path" plan)

def planUri (plan : Json) : Option String := do
  let uri ← plan.get "uri"
  match textAt "external" uri with
  | some external => return external
  | none =>
      let scheme ← textAt "scheme" uri
      let path ← ((uri.get "fsPath").or (uri.get "path")).bind Json.decodeString
      return scheme ++ "://" ++ path

def planTitle (plan : Json) : Option String :=
  ((plan.get "title").or (plan.get "name")).bind Json.decodeString

/-- The plans of a registry, out of a database that was changed at a time of its own. -/
def listPlans (sourceId : String) (modified : Option DateTime) (now : DateTime) (registry : Json) :
    List SourcePlanWithEdgesUpsert :=
  (readPlanRegistryEntries registry).map fun entry => {
    plan := {
      sourceId := sourceId
      externalPlanId := entry.1
      title := (planTitle entry.2).or (some entry.1)
      sourcePath := planPath entry.2
      sourceUri := (planUri entry.2).or ((planPath entry.2).map fun path => "file://" ++ path)
      sourceMtime := modified
      parserVersion := some "cursor-ide-plan-registry-v1"
      discoveredAt := now
      lastSeenAt := now
      metadataJson := some (.object [("raw", entry.2),
        ("sourceRecordKey", .string "composer.planRegistry")]) }
    edges := planSessionEdges sourceId entry.1 now entry.2 }

/-! ## The tables of plans and edges -/

/-- A row of `source_plans`. -/
structure SourcePlanRecord extends SourcePlanUpsert where
  createdAt : DateTime
  updatedAt : DateTime

def SourcePlanUpsert.key (plan : SourcePlanUpsert) : String × String :=
  (plan.sourceId, plan.externalPlanId)

def SourcePlanRecord.key (record : SourcePlanRecord) : String × String :=
  record.toSourcePlanUpsert.key

/-- A row of `source_plan_session_edges`, with its plan's key in place of the row number. -/
structure SourcePlanEdgeRow where
  planKey : String × String
  externalSessionId : String
  role : SourcePlanSessionEdgeRole
  todoIdsJson : Option Json
  discoveredAt : DateTime
  lastSeenAt : DateTime
  createdAt : DateTime
  updatedAt : DateTime
  metadataJson : Option Json

def SourcePlanEdgeRow.key (row : SourcePlanEdgeRow) : (String × String) × EdgeKey :=
  (row.planKey, row.externalSessionId, row.role)

structure PlanDb where
  plans : KeyedTable SourcePlanRecord.key
  edges : KeyedTable SourcePlanEdgeRow.key

inductive PlanFailure where
  | keyMismatch (message : String)
  | constraint
  | rowMissing (message : String)
  | unreadable

/-- A transaction that is not committed is rolled back. -/
def transaction {F R S : Type} (before : S) (outcome : Except F R × S) : Except F R × S :=
  match outcome with
  | (.ok result, after) => (.ok result, after)
  | (.error failure, _) => (.error failure, before)

section Upsert
variable (parses : DateTime → Bool) (now : DateTime)

def edgeRow (planKey : String × String) (edge : SourcePlanSessionEdgeUpsert) : SourcePlanEdgeRow where
  planKey := planKey
  externalSessionId := edge.externalSessionId
  role := edge.role
  todoIdsJson := edge.todoIdsJson
  discoveredAt := edge.discoveredAt
  lastSeenAt := edge.lastSeenAt
  createdAt := now
  updatedAt := now
  metadataJson := edge.metadataJson

def insertEdge (plan : SourcePlanUpsert) (db : PlanDb) (edge : SourcePlanSessionEdgeUpsert) :
    Except PlanFailure Unit × PlanDb :=
  if edge.sourceId ≠ plan.sourceId ∨ edge.externalPlanId ≠ plan.externalPlanId then
    (.error (.keyMismatch ("source plan edge key does not match plan key: " ++ edge.sourceId ++
      "/" ++ edge.externalPlanId)), db)
  else
    match db.edges.insert (edgeRow now plan.key edge) with
    | .error _ => (.error .constraint, db)
    | .ok edges => (.ok (), { db with edges := edges })

def missingPlan : PlanFailure := .rowMissing "metadata source-plan row missing after upsert"

/-- The times of a row, each of which is parsed from its text when the row is read. -/
def SourcePlanRecord.times (record : SourcePlanRecord) : List DateTime :=
  record.sourceMtime.toList ++
    [record.discoveredAt, record.lastSeenAt, record.createdAt, record.updatedAt]

def readSourcePlan (db : PlanDb) (key : String × String) : Except PlanFailure SourcePlanRecord :=
  match db.plans.find key with
  | none => .error missingPlan
  | some record => if record.times.all parses then .ok record else .error .unreadable

/-- What the transaction of an upsert writes, also when it fails later. -/
def writePlanWithEdges (input : SourcePlanWithEdgesUpsert) (db : PlanDb) :
    Except PlanFailure SourcePlanRecord × PlanDb :=
  let planned := { db with
    plans := db.plans.upsert { input.plan with createdAt := now, updatedAt := now }
      (fun held => { input.plan with createdAt := held.createdAt, updatedAt := now })
      fun _ _ => rfl }
  match planned.plans.find input.plan.key with
  | none => (.error missingPlan, planned)
  | some _ =>
      let cleared := { planned with
        edges := planned.edges.deleteWhere fun row => row.planKey == input.plan.key }
      match Loops.forEach (insertEdge now input.plan) cleared input.edges with
      | (.error failure, written) => (.error failure, written)
      | (.ok (), written) => (readSourcePlan parses written input.plan.key, written)

def upsertSourcePlanWithEdges (input : SourcePlanWithEdgesUpsert) (db : PlanDb) :
    Except PlanFailure SourcePlanRecord × PlanDb :=
  transaction db (writePlanWithEdges parses now input db)

end Upsert

/-- The plans of a source are stored one after the other, each at a time of its own. -/
def storePlan (parses : DateTime → Bool) (db : PlanDb)
    (upsert : DateTime × SourcePlanWithEdgesUpsert) : Except PlanFailure Unit × PlanDb :=
  let (outcome, after) := upsertSourcePlanWithEdges parses upsert.1 upsert.2 db
  (outcome.map fun _ => (), after)

def storePlans (parses : DateTime → Bool) (db : PlanDb)
    (upserts : List (DateTime × SourcePlanWithEdgesUpsert)) : Except PlanFailure Unit × PlanDb :=
  Loops.forEach (storePlan parses) db upserts

/-! ## What a registry declares -/

/-- The registry's object says that the session had the role, and with which todos. -/
inductive Declares (plan : Json) : String → SourcePlanSessionEdgeRole → Option Json → Prop where
  | createdBy {session : String} (named : plan.get "createdBy" = some (.string session)) :
      Declares plan session .createdBy none
  | editedBy {session : String} {sessions : List Json}
      (listed : plan.get "editedBy" = some (.array sessions)) (member : .string session ∈ sessions) :
      Declares plan session .editedBy none
  | referencedBy {session : String} {sessions : List Json}
      (listed : plan.get "referencedBy" = some (.array sessions))
      (member : .string session ∈ sessions) : Declares plan session .referencedBy none
  | builtBy {session : String} {built : List (String × Json)} {todoIds : Json}
      (listed : plan.get "builtBy" = some (.object built))
      (entry : built.reverse.lookup session = some todoIds) :
      Declares plan session .builtBy (some todoIds)

/-- The sessions, roles and todos that are stored for a plan. -/
def PlanDb.edgesOf (db : PlanDb) (key : String × String) : List (EdgeKey × Option Json) :=
  (db.edges.rows.filter fun row => row.planKey == key).map fun row =>
    ((row.externalSessionId, row.role), row.todoIdsJson)

/-! ## The edges of a plan -/

theorem lookup_map_none (sessions : List String) (session : String) (todoIds : Option Json) :
    (sessions.map fun named => (named, (none : Option Json))).reverse.lookup session =
        some todoIds ↔ session ∈ sessions ∧ todoIds = none := by
  rw [← List.map_reverse, ← List.mem_reverse]
  induction sessions.reverse with
  | nil => simp
  | cons first rest ih =>
      rw [List.map_cons, List.lookup_cons, List.mem_cons]
      by_cases same : session = first
      · rw [beq_iff_eq.mpr same]
        simp [same, eq_comm]
      · rw [beq_eq_false_iff_ne.mpr same]
        simpa [same] using ih

theorem lookup_map_some (built : List (String × Json)) (session : String) (todoIds : Option Json) :
    (built.map fun entry => (entry.1, some entry.2)).reverse.lookup session = some todoIds ↔
      ∃ todos, built.reverse.lookup session = some todos ∧ todoIds = some todos := by
  rw [← List.map_reverse]
  induction built.reverse with
  | nil => simp
  | cons first rest ih =>
      rw [List.map_cons, List.lookup_cons, List.lookup_cons]
      by_cases same : session = first.1
      · rw [beq_iff_eq.mpr same]
        simp [eq_comm]
      · rw [beq_eq_false_iff_ne.mpr same]
        exact ih

theorem mem_texts_iff (plan : Json) (key session : String) :
    session ∈ (((plan.get key).bind Composer.items).getD []).filterMap Json.decodeString ↔
      ∃ sessions, plan.get key = some (.array sessions) ∧ .string session ∈ sessions := by
  have text : ∀ value : Json, value.decodeString = some session ↔ value = .string session := by
    intro value
    cases value <;> simp [Json.decodeString]
  rw [List.mem_filterMap]
  simp only [text]
  cases plan.get key with
  | none => simp
  | some value => cases value <;> simp [Composer.items]

theorem lookup_texts (plan : Json) (key session : String) (todoIds : Option Json) :
    (sessionsInRole.texts plan key).reverse.lookup session = some todoIds ↔
      (∃ sessions, plan.get key = some (.array sessions) ∧ .string session ∈ sessions) ∧
        todoIds = none := by
  rw [sessionsInRole.texts, lookup_map_none, mem_texts_iff]

theorem lookup_sessionsInRole (plan : Json) (session : String) (role : SourcePlanSessionEdgeRole)
    (todoIds : Option Json) :
    (sessionsInRole plan role).reverse.lookup session = some todoIds ↔
      Declares plan session role todoIds := by
  cases role with
  | createdBy =>
      rw [sessionsInRole, lookup_map_none]
      constructor
      · rintro ⟨named, rfl⟩
        obtain ⟨value, held, isText⟩ := Option.bind_eq_some_iff.mp (Option.mem_toList.mp named)
        cases value <;> cases isText
        exact .createdBy held
      · rintro ⟨named⟩
        exact ⟨by simp [textAt, named, Json.decodeString], rfl⟩
  | editedBy =>
      refine (lookup_texts ..).trans ⟨?_, ?_⟩
      · rintro ⟨⟨sessions, listed, member⟩, rfl⟩
        exact .editedBy listed member
      · rintro ⟨⟩
        rename_i listed member
        exact ⟨⟨_, listed, member⟩, rfl⟩
  | referencedBy =>
      refine (lookup_texts ..).trans ⟨?_, ?_⟩
      · rintro ⟨⟨sessions, listed, member⟩, rfl⟩
        exact .referencedBy listed member
      · rintro ⟨⟩
        rename_i listed member
        exact ⟨⟨_, listed, member⟩, rfl⟩
  | builtBy =>
      rw [sessionsInRole, lookup_map_some]
      cases built : (plan.get "builtBy").bind Composer.entries with
      | none =>
          refine iff_of_false (by simp) ?_
          rintro ⟨⟩
          rename_i listed _
          rw [listed] at built
          cases built
      | some entries =>
          obtain ⟨value, listed, isObject⟩ := Option.bind_eq_some_iff.mp built
          cases value <;> cases isObject
          constructor
          · rintro ⟨todos, entry, rfl⟩
            exact .builtBy listed entry
          · rintro ⟨⟩
            rename_i todos held entry
            rw [listed] at held
            cases held
            exact ⟨todos, entry, rfl⟩

section Edges
variable {sourceId planId : String} {seenAt : DateTime}

theorem getElem?_insertPlanEdge (role other : SourcePlanSessionEdgeRole) (session : String)
    (named : String × Option Json) (edges : Map EdgeKey SourcePlanSessionEdgeUpsert) :
    (insertPlanEdge sourceId planId seenAt role edges named)[(session, other)]? =
      if (role = other ∧ trim session ≠ "") ∧ named.1 = session then
        some (planEdge sourceId planId seenAt session role named.2)
      else edges[(session, other)]? := by
  unfold insertPlanEdge
  by_cases blank : trim named.1 = ""
  · rw [if_pos blank, if_neg]
    rintro ⟨⟨_, shown⟩, rfl⟩
    exact shown blank
  · rw [if_neg blank, OrderedMap.getElem?_insert_eq]
    by_cases same : (named.1, role) = (session, other)
    · cases same
      rw [if_pos rfl, if_pos ⟨⟨rfl, blank⟩, rfl⟩]
    · rw [if_neg same, if_neg]
      rintro ⟨⟨rfl, _⟩, rfl⟩
      exact same rfl

theorem getElem?_insertPlanEdges (role other : SourcePlanSessionEdgeRole) (session : String)
    (named : List (String × Option Json)) (edges : Map EdgeKey SourcePlanSessionEdgeUpsert) :
    (named.foldl (insertPlanEdge sourceId planId seenAt role) edges)[(session, other)]? =
      if role = other ∧ trim session ≠ "" then
        ((named.reverse.lookup session).map (planEdge sourceId planId seenAt session role)).or
          edges[(session, other)]?
      else edges[(session, other)]? := by
  induction named generalizing edges with
  | nil => simp
  | cons first rest ih =>
      rw [List.foldl_cons, ih, getElem?_insertPlanEdge, List.reverse_cons, List.lookup_append]
      by_cases applies : role = other ∧ trim session ≠ ""
      · rw [if_pos applies, if_pos applies]
        cases rest.reverse.lookup session with
        | some todoIds => rfl
        | none =>
            rw [List.lookup_cons]
            by_cases same : first.1 = session
            · rw [if_pos ⟨applies, same⟩, beq_iff_eq.mpr same.symm]
              rfl
            · rw [if_neg fun both => same both.2, beq_eq_false_iff_ne.mpr (Ne.symm same)]
              rfl
      · rw [if_neg applies, if_neg applies, if_neg fun both => applies both.1]

theorem getElem?_planEdges (plan : Json) (role : SourcePlanSessionEdgeRole) (session : String) :
    ([.createdBy, .editedBy, .referencedBy, .builtBy].foldl
      (fun edges role =>
        (sessionsInRole plan role).foldl (insertPlanEdge sourceId planId seenAt role) edges)
      (∅ : Map EdgeKey SourcePlanSessionEdgeUpsert))[(session, role)]? =
      if trim session ≠ "" then
        ((sessionsInRole plan role).reverse.lookup session).map
          (planEdge sourceId planId seenAt session role)
      else none := by
  simp only [List.foldl_cons, List.foldl_nil, getElem?_insertPlanEdges]
  cases role <;> simp

theorem mem_planSessionEdges {plan : Json} {edge : SourcePlanSessionEdgeUpsert} :
    edge ∈ planSessionEdges sourceId planId seenAt plan ↔
      ∃ session role todoIds, trim session ≠ "" ∧ Declares plan session role todoIds ∧
        edge = planEdge sourceId planId seenAt session role todoIds := by
  unfold planSessionEdges
  rw [OrderedMap.mem_values_iff]
  constructor
  · rintro ⟨⟨session, role⟩, held⟩
    rw [getElem?_planEdges] at held
    split at held
    · rename_i shown
      obtain ⟨todoIds, named, rfl⟩ := Option.map_eq_some_iff.mp held
      exact ⟨session, role, todoIds, shown, (lookup_sessionsInRole ..).mp named, rfl⟩
    · cases held
  · rintro ⟨session, role, todoIds, shown, declared, rfl⟩
    refine ⟨(session, role), ?_⟩
    rw [getElem?_planEdges, if_pos shown, (lookup_sessionsInRole ..).mpr declared]
    rfl

theorem nodup_planSessionEdges (plan : Json) :
    ((planSessionEdges sourceId planId seenAt plan).map fun edge =>
      (edge.externalSessionId, edge.role)).Nodup := by
  refine OrderedMap.nodup_ids_of_keyed _ ?_
  rintro ⟨session, role⟩ edge held
  rw [getElem?_planEdges] at held
  split at held
  · obtain ⟨todoIds, _, rfl⟩ := Option.map_eq_some_iff.mp held
    rfl
  · cases held

end Edges

/-! ## One upsert -/

section Upsert
variable {parses : DateTime → Bool} {now : DateTime} {input : SourcePlanWithEdgesUpsert}
  {db : PlanDb}

/-- A failed upsert changes nothing. -/
theorem upsert_of_error {failure : PlanFailure}
    (failed : (upsertSourcePlanWithEdges parses now input db).1 = .error failure) :
    (upsertSourcePlanWithEdges parses now input db).2 = db := by
  unfold upsertSourcePlanWithEdges transaction at failed ⊢
  split
  · rename_i written
    rw [written] at failed
    cases failed
  · rfl

/-- The edges of an upsert name its plan, and no two the same session in the same role. -/
structure SourcePlanWithEdgesUpsert.Valid (input : SourcePlanWithEdgesUpsert) : Prop where
  own : ∀ edge ∈ input.edges,
    edge.sourceId = input.plan.sourceId ∧ edge.externalPlanId = input.plan.externalPlanId
  distinct : (input.edges.map fun edge => (edge.externalSessionId, edge.role)).Nodup

theorem insertEdges_eq {edges : List SourcePlanSessionEdgeUpsert} (plan : SourcePlanUpsert)
    (own : ∀ edge ∈ edges,
      edge.sourceId = plan.sourceId ∧ edge.externalPlanId = plan.externalPlanId)
    {written : KeyedTable SourcePlanEdgeRow.key}
    (inserted : (edges.map (edgeRow now plan.key)).foldlM KeyedTable.insert db.edges =
      .ok written) :
    Loops.forEach (insertEdge now plan) db edges = (.ok (), { db with edges := written }) := by
  induction edges generalizing db with
  | nil =>
      cases inserted
      rfl
  | cons edge rest ih =>
      obtain ⟨first, later⟩ := List.forall_mem_cons.mp own
      rw [List.map_cons, List.foldlM_cons] at inserted
      obtain ⟨next, isNext, inserted⟩ := Fallible.bind_eq_ok_iff.mp inserted
      have mismatch : ¬ (edge.sourceId ≠ plan.sourceId ∨ edge.externalPlanId ≠ plan.externalPlanId) :=
        fun differs => differs.elim (fun apart => apart first.1) fun apart => apart first.2
      have step : insertEdge now plan db edge = (.ok (), { db with edges := next }) := by
        unfold insertEdge
        rw [if_neg mismatch, isNext]
      have others := @ih { db with edges := next } later inserted
      rw [Loops.forEach_cons_of_ok (by rw [step]), step]
      exact others

/-- The columns of an edge that a registry decides. -/
def SourcePlanSessionEdgeUpsert.declared (edge : SourcePlanSessionEdgeUpsert) :
    EdgeKey × Option Json :=
  ((edge.externalSessionId, edge.role), edge.todoIdsJson)

theorem edgesOf_write {edges : List SourcePlanSessionEdgeUpsert} {plan : SourcePlanUpsert}
    {after : PlanDb}
    (isRows : after.edges.rows = (db.edges.rows.filter fun row => !(row.planKey == plan.key)) ++
      edges.map (edgeRow now plan.key)) (key : String × String) :
    after.edgesOf key =
      if key = plan.key then edges.map SourcePlanSessionEdgeUpsert.declared else db.edgesOf key := by
  have added : (edges.map (edgeRow now plan.key)).filter (fun row => row.planKey == key) =
      if key = plan.key then edges.map (edgeRow now plan.key) else [] := by
    split
    · rename_i same
      refine List.filter_eq_self.mpr fun row member => ?_
      obtain ⟨edge, _, rfl⟩ := List.mem_map.mp member
      exact beq_iff_eq.mpr same.symm
    · rename_i differs
      refine List.filter_eq_nil_iff.mpr fun row member => ?_
      obtain ⟨edge, _, rfl⟩ := List.mem_map.mp member
      exact fun same => differs (beq_iff_eq.mp same).symm
  unfold PlanDb.edgesOf
  rw [isRows, List.filter_append, added, List.filter_filter]
  split
  · rename_i same
    have cleared : (db.edges.rows.filter fun row => row.planKey == key && !(row.planKey == plan.key)) =
        [] := by
      refine List.filter_eq_nil_iff.mpr fun row _ => ?_
      rw [same, Bool.and_not_self]
      exact Bool.false_ne_true
    rw [cleared, List.nil_append, List.map_map]
    rfl
  · rename_i differs
    rw [List.append_nil]
    congr 1
    refine List.filter_congr fun row _ => ?_
    by_cases own : row.planKey = key
    · rw [own, beq_self_eq_true, beq_eq_false_iff_ne.mpr differs]
      rfl
    · rw [beq_eq_false_iff_ne.mpr own]
      rfl

theorem upsert_ok (valid : input.Valid)
    (dated : ∀ time ∈ input.plan.sourceMtime.toList ++
      [input.plan.discoveredAt, input.plan.lastSeenAt, now], parses time = true)
    (held : ∀ record ∈ db.plans.rows, parses record.createdAt = true) :
    ∃ record after, upsertSourcePlanWithEdges parses now input db = (.ok record, after) ∧
      (∀ kept ∈ after.plans.rows, parses kept.createdAt = true) ∧
      ∀ key, after.edgesOf key =
        if key = input.plan.key then input.edges.map SourcePlanSessionEdgeUpsert.declared
        else db.edgesOf key := by
  generalize isPlans : db.plans.upsert { input.plan with createdAt := now, updatedAt := now }
      (fun held => { input.plan with createdAt := held.createdAt, updatedAt := now })
      (fun _ _ => rfl) = plans
  have found : plans.find input.plan.key = some (((db.plans.find input.plan.key).map
      fun held => { input.plan with createdAt := held.createdAt, updatedAt := now }).getD
        { input.plan with createdAt := now, updatedAt := now }) := by
    rw [← isPlans]
    exact KeyedTable.find_upsert_self
  have nowParses : parses now = true := dated now (by simp)
  have isRecord : ∀ record, plans.find input.plan.key = some record →
      record.times = input.plan.sourceMtime.toList ++
          [input.plan.discoveredAt, input.plan.lastSeenAt, record.createdAt, now] ∧
        parses record.createdAt = true := by
    intro record stored
    rw [found] at stored
    cases earlier : db.plans.find input.plan.key with
    | none =>
        rw [earlier] at stored
        cases stored
        exact ⟨rfl, nowParses⟩
    | some before =>
        rw [earlier] at stored
        cases stored
        exact ⟨rfl, held before (KeyedTable.find_eq_some_iff.mp earlier).1⟩
  have distinct : ((input.edges.map (edgeRow now input.plan.key)).map SourcePlanEdgeRow.key).Nodup := by
    rw [List.map_map]
    refine List.Nodup.of_map Prod.snd ?_
    rw [List.map_map]
    exact valid.distinct
  have free : ∀ row ∈ input.edges.map (edgeRow now input.plan.key),
      row.key ∉ (db.edges.deleteWhere fun row => row.planKey == input.plan.key).rows.map
        SourcePlanEdgeRow.key := by
    intro row added taken
    obtain ⟨edge, _, rfl⟩ := List.mem_map.mp added
    obtain ⟨other, kept, sameKey⟩ := List.mem_map.mp taken
    have differs : (!(other.planKey == input.plan.key)) = true := (List.mem_filter.mp kept).2
    have own : other.planKey = input.plan.key := congrArg Prod.fst sameKey
    rw [own, beq_self_eq_true] at differs
    cases differs
  obtain ⟨written, inserted, rows⟩ := KeyedTable.foldlM_insert_ok distinct free
  have loop := @insertEdges_eq now ⟨plans, db.edges.deleteWhere fun row =>
    row.planKey == input.plan.key⟩ input.edges input.plan valid.own written inserted
  obtain ⟨record, stored⟩ : ∃ record, plans.find input.plan.key = some record := ⟨_, found⟩
  obtain ⟨times, createdParses⟩ := isRecord record stored
  have readable : record.times.all parses = true := by
    rw [times, List.all_eq_true]
    intro time member
    rcases List.mem_append.mp member with modified | listed
    · exact dated time (List.mem_append_left _ modified)
    · simp only [List.mem_cons, List.not_mem_nil, or_false] at listed
      rcases listed with rfl | rfl | rfl | rfl
      · exact dated _ (by simp)
      · exact dated _ (by simp)
      · exact createdParses
      · exact nowParses
  refine ⟨record, ⟨plans, written⟩, ?_, ?_, edgesOf_write rows⟩
  · unfold upsertSourcePlanWithEdges writePlanWithEdges
    simp only [isPlans, stored, loop, readSourcePlan, readable, if_true]
    rfl
  · intro kept member
    by_cases same : kept.key = input.plan.key
    · exact (isRecord kept (KeyedTable.find_eq_some_iff.mpr ⟨member, same⟩)).2
    · have untouched : plans.find kept.key = db.plans.find kept.key := by
        rw [← isPlans]
        exact KeyedTable.find_upsert_of_ne same
      have earlier := untouched.symm.trans (KeyedTable.find_eq_some_iff.mpr ⟨member, rfl⟩)
      exact held kept (KeyedTable.find_eq_some_iff.mp earlier).1

end Upsert

/-! ## All plans of a registry -/

section Registry
variable {parses : DateTime → Bool} {sourceId : String} {modified : Option DateTime}
  {now : DateTime} {registry : Json}

theorem valid_of_listPlans {input : SourcePlanWithEdgesUpsert}
    (listed : input ∈ listPlans sourceId modified now registry) : input.Valid := by
  obtain ⟨entry, _, rfl⟩ := List.mem_map.mp listed
  refine ⟨fun edge member => ?_, nodup_planSessionEdges entry.2⟩
  obtain ⟨session, role, todoIds, _, _, rfl⟩ := mem_planSessionEdges.mp member
  exact ⟨rfl, rfl⟩

/-- The times that an upsert writes with a plan are read back from their texts. -/
def Dated (parses : DateTime → Bool) (upsert : DateTime × SourcePlanWithEdgesUpsert) : Prop :=
  ∀ time ∈ upsert.2.plan.sourceMtime.toList ++
    [upsert.2.plan.discoveredAt, upsert.2.plan.lastSeenAt, upsert.1], parses time = true

/-- All upserts go through, and a plan has the edges of its last one. -/
theorem storePlans_ok {upserts : List (DateTime × SourcePlanWithEdgesUpsert)} {db : PlanDb}
    (valid : ∀ upsert ∈ upserts, upsert.2.Valid) (dated : ∀ upsert ∈ upserts, Dated parses upsert)
    (held : ∀ record ∈ db.plans.rows, parses record.createdAt = true) :
    ∃ after, storePlans parses db upserts = (.ok (), after) ∧ ∀ key,
      ((∀ upsert ∈ upserts, upsert.2.plan.key ≠ key) → after.edgesOf key = db.edgesOf key) ∧
        ∀ front upsert back, upserts = front ++ upsert :: back → upsert.2.plan.key = key →
          (∀ later ∈ back, later.2.plan.key ≠ key) →
            after.edgesOf key = upsert.2.edges.map SourcePlanSessionEdgeUpsert.declared := by
  induction upserts generalizing db with
  | nil =>
      refine ⟨db, rfl, fun key => ⟨fun _ => rfl, ?_⟩⟩
      intro front upsert back absent
      cases front <;> cases absent
  | cons first rest ih =>
      obtain ⟨validFirst, validRest⟩ := List.forall_mem_cons.mp valid
      obtain ⟨datedFirst, datedRest⟩ := List.forall_mem_cons.mp dated
      obtain ⟨record, next, upserted, heldNext, nextEdges⟩ := upsert_ok validFirst datedFirst held
      obtain ⟨after, stored, edges⟩ := ih validRest datedRest heldNext
      have step : storePlan parses db first = (.ok (), next) := by
        unfold storePlan
        rw [upserted]
        rfl
      refine ⟨after, ?_, fun key => ⟨?_, ?_⟩⟩
      · unfold storePlans
        rw [Loops.forEach_cons_of_ok (by rw [step]), step]
        exact stored
      · intro others
        obtain ⟨firstOther, restOther⟩ := List.forall_mem_cons.mp others
        rw [(edges key).1 restOther, nextEdges, if_neg (Ne.symm firstOther)]
      · intro front upsert back whole isKey last
        cases front with
        | nil =>
            obtain ⟨rfl, rfl⟩ := List.cons.inj whole
            rw [(edges key).1 last, nextEdges, if_pos isKey.symm]
        | cons _ front => exact (edges key).2 front upsert back (List.cons.inj whole).2 isKey last

/-- Storing the plans of a registry succeeds.  Afterwards each plan whose id occurs once has one
edge for each session that is not blank and each role that the plan declares, whatever was stored
for it before.  An upsert that fails changes neither plans nor edges. -/
theorem registry_edges_stored {upserts : List (DateTime × SourcePlanWithEdgesUpsert)} {db : PlanDb}
    (listed : upserts.map Prod.snd = listPlans sourceId modified now registry)
    (dated : ∀ time ∈ modified.toList ++ now :: upserts.map Prod.fst, parses time = true)
    (held : ∀ record ∈ db.plans.rows, parses record.createdAt = true) :
    (∃ after, storePlans parses db upserts = (.ok (), after) ∧
      ∀ planId plan, (planId, plan) ∈ readPlanRegistryEntries registry →
        ((readPlanRegistryEntries registry).map Prod.fst).count planId = 1 →
          ((after.edgesOf (sourceId, planId)).map Prod.fst).Nodup ∧
            ∀ session role todoIds,
              ((session, role), todoIds) ∈ after.edgesOf (sourceId, planId) ↔
                trim session ≠ "" ∧ Declares plan session role todoIds) ∧
    ∀ (time : DateTime) (input : SourcePlanWithEdgesUpsert) (before : PlanDb)
      (failure : PlanFailure),
      (upsertSourcePlanWithEdges parses time input before).1 = .error failure →
        (upsertSourcePlanWithEdges parses time input before).2 = before := by
  refine ⟨?_, fun _ _ _ _ failed => upsert_of_error failed⟩
  have isListed : ∀ upsert ∈ upserts, upsert.2 ∈ listPlans sourceId modified now registry :=
    fun upsert member => listed ▸ List.mem_map_of_mem member
  have datedAll : ∀ upsert ∈ upserts, Dated parses upsert := by
    intro upsert member time isTime
    obtain ⟨entry, _, isEntry⟩ := List.mem_map.mp (isListed upsert member)
    rw [← isEntry] at isTime
    refine dated time ?_
    simp only [List.mem_append, List.mem_cons, List.not_mem_nil, or_false] at isTime ⊢
    rcases isTime with isModified | rfl | rfl | rfl
    · exact Or.inl isModified
    · exact Or.inr (Or.inl rfl)
    · exact Or.inr (Or.inl rfl)
    · exact Or.inr (Or.inr (List.mem_map_of_mem member))
  have valid : ∀ upsert ∈ upserts, upsert.2.Valid :=
    fun upsert member => valid_of_listPlans (isListed upsert member)
  obtain ⟨after, stored, edges⟩ := storePlans_ok valid datedAll held
  refine ⟨after, stored, fun planId plan member once => ?_⟩
  obtain ⟨front, back, isSplit⟩ := List.append_of_mem member
  have isBack : ∀ entry ∈ back, entry.1 ≠ planId := by
    intro entry inBack same
    rw [isSplit, List.map_append, List.map_cons, List.count_append, List.count_cons_self] at once
    have again : 0 < (back.map Prod.fst).count planId :=
      List.count_pos_iff.mpr (same ▸ List.mem_map_of_mem inBack)
    omega
  unfold listPlans at listed
  rw [isSplit, List.map_append, List.map_cons] at listed
  obtain ⟨before, rest, rfl, _, isRest⟩ := List.map_eq_append_iff.mp listed
  obtain ⟨upsert, later, rfl, isUpsert, isLater⟩ := List.map_eq_cons_iff.mp isRest
  have last : ∀ other ∈ later, other.2.plan.key ≠ (sourceId, planId) := by
    intro other inLater same
    have inBack : other.2 ∈ later.map Prod.snd := List.mem_map_of_mem inLater
    rw [isLater] at inBack
    obtain ⟨entry, isEntry, isOther⟩ := List.mem_map.mp inBack
    rw [← isOther] at same
    exact isBack entry isEntry (congrArg Prod.snd same)
  have planEdges := (edges (sourceId, planId)).2 before upsert later rfl (by rw [isUpsert]; rfl) last
  rw [isUpsert] at planEdges
  rw [planEdges]
  refine ⟨?_, fun session role todoIds => ?_⟩
  · rw [List.map_map]
    exact nodup_planSessionEdges plan
  · rw [List.mem_map]
    constructor
    · rintro ⟨edge, isEdge, isDeclared⟩
      obtain ⟨session, role, todoIds, shown, declared, rfl⟩ := mem_planSessionEdges.mp isEdge
      cases isDeclared
      exact ⟨shown, declared⟩
    · rintro ⟨shown, declared⟩
      exact ⟨_, mem_planSessionEdges.mpr ⟨session, role, todoIds, shown, declared, rfl⟩, rfl⟩

/-- A registry of one plan, which one session edited and another one built. -/
def onePlanRegistry : Json := .object [("plan-a", .object [
  ("builtBy", .object [("session-built", .array [.string "todo-1", .string "todo-2"])]),
  ("editedBy", .array [.string "session-edited", .string "session-edited"])])]

theorem one_plan_stored :
    ∃ after, storePlans (fun _ => true) ⟨.empty, .empty⟩
        ((listPlans "cursor" none ⟨0⟩ onePlanRegistry).map fun plan => (⟨1⟩, plan)) =
          (.ok (), after) ∧
      ((after.edgesOf ("cursor", "plan-a")).map Prod.fst).Nodup ∧
      (("session-built", .builtBy), some (.array [.string "todo-1", .string "todo-2"])) ∈
        after.edgesOf ("cursor", "plan-a") ∧
      (("session-edited", .editedBy), none) ∈ after.edgesOf ("cursor", "plan-a") := by
  obtain ⟨⟨after, stored, edges⟩, _⟩ := @registry_edges_stored (fun _ => true) "cursor" none ⟨0⟩
    onePlanRegistry ((listPlans "cursor" none ⟨0⟩ onePlanRegistry).map fun plan => (⟨1⟩, plan))
    ⟨.empty, .empty⟩ (by rw [List.map_map]; exact List.map_id _) (fun _ _ => rfl) (fun _ _ => rfl)
  obtain ⟨once, declared⟩ := edges "plan-a" _ (List.mem_singleton.mpr rfl) (by rfl)
  refine ⟨after, stored, once, ?_, ?_⟩
  · exact (declared _ _ _).mpr ⟨by decide, .builtBy rfl rfl⟩
  · exact (declared _ _ _).mpr ⟨by decide, .editedBy rfl (by simp)⟩

end Registry

end SourcePlans

end BrickTrace
