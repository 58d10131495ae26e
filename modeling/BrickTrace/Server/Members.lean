import BrickTrace.Server.RepoOrg

/-!
# The members of the orgs

Membership is read through a cache of its own.  Reading it loads that cache and
touches nothing else.
-/

set_option autoImplicit false

namespace BrickTrace

open OrderedMap

namespace ServerStore

/-- The members in force: the cached ones, else those in the file. -/
def currentOrgMembers (store : ServerStore) : OrgMembersMap :=
  store.orgMembers.getD (store.orgMembersFile.getD ∅)

def memberOf (store : ServerStore) (orgId userId : String) : Bool :=
  match store.currentOrgMembers[orgId]? with
  | some members => decide (userId ∈ members)
  | none => false

@[simp] theorem ensureOrgMembersLoaded_eventLog (store : ServerStore) :
    store.ensureOrgMembersLoaded.eventLog = store.eventLog := by
  unfold ensureOrgMembersLoaded
  split <;> rfl

@[simp] theorem ensureOrgMembersLoaded_repoOrg (store : ServerStore) :
    store.ensureOrgMembersLoaded.repoOrg = store.repoOrg := by
  unfold ensureOrgMembersLoaded
  split <;> rfl

@[simp] theorem ensureOrgMembersLoaded_repoOrgFile (store : ServerStore) :
    store.ensureOrgMembersLoaded.repoOrgFile = store.repoOrgFile := by
  unfold ensureOrgMembersLoaded
  split <;> rfl

@[simp] theorem ensureOrgMembersLoaded_orgMembers (store : ServerStore) :
    store.ensureOrgMembersLoaded.orgMembers = some store.currentOrgMembers := by
  unfold ensureOrgMembersLoaded currentOrgMembers
  cases cached : store.orgMembers with
  | none => rfl
  | some map => simp [cached]

@[simp] theorem ensureOrgMembersLoaded_memberOf (store : ServerStore) :
    store.ensureOrgMembersLoaded.memberOf = store.memberOf := by
  funext orgId userId
  simp [memberOf, currentOrgMembers]

/-- The two stores differ in nothing that the log or the map of the orgs is read from. -/
structure SameRecords (before after : ServerStore) : Prop where
  eventLog : after.eventLog = before.eventLog
  current : after.currentRepoOrg = before.currentRepoOrg
  persisted : after.persistedRepoOrg = before.persistedRepoOrg
  members : after.memberOf = before.memberOf
  onFile : before.CacheOnFile → after.CacheOnFile

theorem SameRecords.refl (store : ServerStore) : SameRecords store store :=
  ⟨rfl, rfl, rfl, rfl, id⟩

theorem SameRecords.trans {first second third : ServerStore} (left : SameRecords first second)
    (right : SameRecords second third) : SameRecords first third where
  eventLog := right.eventLog.trans left.eventLog
  current := right.current.trans left.current
  persisted := right.persisted.trans left.persisted
  members := right.members.trans left.members
  onFile := right.onFile ∘ left.onFile

theorem sameRecords_ensureOrgMembersLoaded (store : ServerStore) :
    SameRecords store store.ensureOrgMembersLoaded where
  eventLog := by simp
  current := by simp [currentRepoOrg, persistedRepoOrg, rebuildRepoOrgFromLog_eq]
  persisted := by simp [persistedRepoOrg, rebuildRepoOrgFromLog_eq]
  members := by simp
  onFile := by
    intro onFile
    simpa [CacheOnFile] using onFile

theorem sameRecords_ensureRepoOrgLoaded (store : ServerStore) :
    SameRecords store store.ensureRepoOrgLoaded where
  eventLog := by simp
  current := by simp
  persisted := by simp
  members := by
    funext orgId userId
    simp [memberOf, currentOrgMembers]
  onFile := fun onFile => onFile.ensure

theorem isOrgMember_eq (store : ServerStore) (orgId userId : String) :
    store.isOrgMember orgId userId =
      (store.memberOf orgId userId, store.ensureOrgMembersLoaded) := by
  simp only [isOrgMember, orgMembersOf, ensureOrgMembersLoaded_orgMembers, Option.bind_some,
    memberOf]
  cases store.currentOrgMembers[orgId]? with
  | none => simp
  | some members =>
      simp only [Option.map_some, Option.getD_some, Prod.mk.injEq, and_true]
      rw [Bool.eq_iff_iff]
      simp [List.any_eq_true]

/-- The first of some orgs that a user is a member of; each question goes to the store. -/
def findMemberOrg (store : ServerStore) (userId : String) :
    List String → Option String × ServerStore
  | [] => (none, store)
  | orgId :: rest =>
      let (isMember, loaded) := store.isOrgMember orgId userId
      if isMember then (some orgId, loaded) else loaded.findMemberOrg userId rest

theorem findMemberOrg_fst (store : ServerStore) (userId : String) (orgIds : List String) :
    (store.findMemberOrg userId orgIds).1 =
      orgIds.find? fun orgId => store.memberOf orgId userId := by
  induction orgIds generalizing store with
  | nil => rfl
  | cons orgId rest ih =>
      simp only [findMemberOrg, isOrgMember_eq, List.find?_cons]
      cases store.memberOf orgId userId with
      | true => rfl
      | false => simp [ih]

theorem findMemberOrg_sameRecords (store : ServerStore) (userId : String)
    (orgIds : List String) : SameRecords store (store.findMemberOrg userId orgIds).2 := by
  induction orgIds generalizing store with
  | nil => exact SameRecords.refl store
  | cons orgId rest ih =>
      have loaded := sameRecords_ensureOrgMembersLoaded store
      simp only [findMemberOrg, isOrgMember_eq]
      split
      · exact loaded
      · exact loaded.trans (ih store.ensureOrgMembersLoaded)

end ServerStore

end BrickTrace
