import BrickTrace.Lib.Runs
import BrickTrace.Server.ConcurrentStore

/-!
# Whether a resolved binding stays

Once the server has answered that a repo belongs to an org it should answer so
for good, restarts included.  The file is written outside the lock that guards
the cache; the binding stays as long as no such write drops one that the file
holds by then.
-/

set_option autoImplicit false

namespace BrickTrace

open OrderedMap Interleaving

def AnswersStay (server : Server) : Prop :=
  server.shared.answers.Pairwise fun earlier later =>
    ∀ orgId, earlier.1 = later.1 → earlier.2 = some orgId → later.2 = some orgId

/-- A write of a rebuilt map keeps the bindings that the file holds at that time. -/
def KeepsFileBindings (server : Server) : ServerLabel → Prop
  | .step index =>
      match server.threads[index]?, server.shared.store.repoOrgFile with
      | some (.writeFile map _), some file => Included file map
      | _, _ => True
  | .call _ => True
  | .restart => True

/-- The map gives every answer that was given. -/
def GivesAnswers (answers : List (String × Option String)) (map : RepoOrgMap) : Prop :=
  ∀ repoId orgId, (repoId, some orgId) ∈ answers → map[repoId]? = some orgId

structure Durable (shared : Shared) : Prop where
  stay : shared.answers.Pairwise fun earlier later =>
    ∀ orgId, earlier.1 = later.1 → earlier.2 = some orgId → later.2 = some orgId
  onCache : ∀ map, shared.store.repoOrg = some map → GivesAnswers shared.answers map
  onFile : ∀ repoId orgId, (repoId, some orgId) ∈ shared.answers →
    ∃ file, shared.store.repoOrgFile = some file ∧ file[repoId]? = some orgId
  cacheInFile : ∀ map, shared.store.repoOrg = some map →
    ∃ file, shared.store.repoOrgFile = some file ∧ Included map file

/-- What a handler relies on: a map it is about to cache is safe to cache as long as
the cache is empty, and a loaded cache stays loaded. -/
def Backed (shared : Shared) : Handler → Prop
  | .setCache map _ => shared.store.repoOrg = none →
      ∃ file, shared.store.repoOrgFile = some file ∧ Included map file ∧
        GivesAnswers shared.answers map
  | .loaded _ => shared.store.repoOrg ≠ none
  | _ => True

/-- What a step leaves to the other handlers. -/
structure LeavesBacked (before after : Shared) : Prop where
  cache : before.store.repoOrg ≠ none → after.store.repoOrg ≠ none
  file : after.store.repoOrg = none → after.answers = before.answers ∧
    ∀ file, before.store.repoOrgFile = some file →
      ∃ grown, after.store.repoOrgFile = some grown ∧ Included file grown

theorem leavesBacked_of_same {before after : Shared} (cache : after.store.repoOrg = before.store.repoOrg)
    (file : after.store.repoOrgFile = before.store.repoOrgFile)
    (answers : after.answers = before.answers) : LeavesBacked before after :=
  ⟨fun loaded => by rwa [cache], fun _ => ⟨answers, fun held same =>
    ⟨held, by rwa [file], included_refl held⟩⟩⟩

theorem Backed.stable {before after : Shared} {handler : Handler} (backed : Backed before handler)
    (leaves : LeavesBacked before after) : Backed after handler := by
  cases handler with
  | setCache map next =>
      intro cold
      obtain ⟨answers, grows⟩ := leaves.file cold
      have wasCold : before.store.repoOrg = none := by
        by_contra warm
        exact leaves.cache warm cold
      obtain ⟨file, held, inFile, gives⟩ := backed wasCold
      obtain ⟨grown, now, included⟩ := grows file held
      exact ⟨grown, now, inFile.trans included, by rwa [answers]⟩
  | loaded next => exact leaves.cache backed
  | _ => trivial

/-- An answer read off the cache agrees with all answers before it. -/
theorem Durable.answer {shared : Shared} (durable : Durable shared) {map : RepoOrgMap}
    (cached : shared.store.repoOrg = some map) (repoId : String) :
    Durable (shared.answer repoId map[repoId]?) where
  stay := by
    refine List.pairwise_append.mpr ⟨durable.stay, List.pairwise_singleton .., ?_⟩
    rintro ⟨earlier, given⟩ member last isLast orgId same answered
    obtain rfl := List.mem_singleton.mp isLast
    dsimp only at same answered ⊢
    subst same answered
    exact durable.onCache map cached earlier orgId member
  onCache := by
    intro other same earlier orgId member
    obtain rfl : map = other := Option.some.inj (cached.symm.trans same)
    rcases List.mem_append.mp member with old | new
    · exact durable.onCache map cached earlier orgId old
    · have same := List.mem_singleton.mp new
      rw [Prod.mk.injEq] at same
      obtain ⟨rfl, answered⟩ := same
      exact answered.symm
  onFile := by
    intro earlier orgId member
    rcases List.mem_append.mp member with old | new
    · exact durable.onFile earlier orgId old
    · obtain ⟨file, held, included⟩ := durable.cacheInFile map cached
      have same := List.mem_singleton.mp new
      rw [Prod.mk.injEq] at same
      obtain ⟨rfl, answered⟩ := same
      exact ⟨file, held, included earlier orgId answered.symm⟩
  cacheInFile := durable.cacheInFile

/-- A write that keeps the bindings of the file. -/
theorem Durable.writeFile {shared : Shared} (durable : Durable shared) {map : RepoOrgMap}
    (keeps : ∀ file, shared.store.repoOrgFile = some file → Included file map) :
    Durable { shared with store := shared.store.writeRepoOrgFile map } where
  stay := durable.stay
  onCache := durable.onCache
  onFile := by
    intro repoId orgId member
    obtain ⟨file, held, found⟩ := durable.onFile repoId orgId member
    exact ⟨map, rfl, keeps file held repoId orgId found⟩
  cacheInFile := by
    intro cached same
    obtain ⟨file, held, included⟩ := durable.cacheInFile cached same
    exact ⟨map, rfl, included.trans (keeps file held)⟩

theorem Durable.setCache {shared : Shared} (durable : Durable shared) {map : RepoOrgMap}
    {next : OnceLoaded} (backed : Backed shared (.setCache map next)) :
    Durable { shared with store := shared.store.setRepoOrgIfEmpty map } := by
  cases cached : shared.store.repoOrg with
  | some other =>
      have unchanged : shared.store.setRepoOrgIfEmpty map = shared.store := by
        simp only [ServerStore.setRepoOrgIfEmpty, cached]
      rwa [unchanged]
  | none =>
      obtain ⟨file, held, included, gives⟩ := backed cached
      have filled : shared.store.setRepoOrgIfEmpty map = { shared.store with repoOrg := some map } := by
        simp only [ServerStore.setRepoOrgIfEmpty, cached]
      rw [filled]
      refine ⟨durable.stay, ?_, durable.onFile, ?_⟩
      · intro other same
        cases same
        exact gives
      · intro other same
        cases same
        exact ⟨file, held, included⟩

theorem Durable.record {shared : Shared} (durable : Durable shared) {map : RepoOrgMap}
    (cached : shared.store.repoOrg = some map) (bindings : List (String × String)) :
    Durable { shared with store := shared.store.recordLocked bindings } := by
  have grown : Included map (bindAll map bindings) := included_bindAll map bindings
  have recorded := ServerStore.recordLocked_repoOrg shared.store bindings
  rw [cached, Option.getD_some] at recorded
  have inFile : ∃ file, (shared.store.recordLocked bindings).repoOrgFile = some file ∧
      Included (bindAll map bindings) file := by
    rw [ServerStore.recordLocked_eq, cached]
    simp only [Option.getD_some]
    split
    · exact ⟨_, rfl, included_refl _⟩
    · rename_i unchanged
      have held : ∀ binding ∈ bindings, binding.1 ∈ map := by simpa using unchanged
      rw [bindAll_eq_self map bindings held]
      exact durable.cacheInFile map cached
  have gives : GivesAnswers shared.answers (bindAll map bindings) := fun repoId orgId member =>
    grown repoId orgId (durable.onCache map cached repoId orgId member)
  refine ⟨durable.stay, ?_, ?_, ?_⟩
  · intro other same
    rw [recorded] at same
    cases same
    exact gives
  · intro repoId orgId member
    obtain ⟨file, held, included⟩ := inFile
    exact ⟨file, held, included repoId orgId (gives repoId orgId member)⟩
  · intro other same
    rw [recorded] at same
    cases same
    exact inFile

/-! ## One step -/

abbrev Unrelated (_ : Shared) (_ _ : Handler) : Prop := True

theorem preserves_of_backed {peer : Handler → Prop} {before after : Shared}
    {mover moved : Handler}
    (durable : Durable after) (backed : Backed after moved) (leaves : LeavesBacked before after) :
    Preserves Durable Backed Unrelated peer before mover after moved where
  shared := durable
  thread := backed
  others := fun _ _ relied _ _ => ⟨relied.stable leaves, trivial, trivial⟩
  apart := fun _ _ _ _ _ _ _ => trivial

theorem leavesBacked_of_warm {before after : Shared} (warm : after.store.repoOrg ≠ none) :
    LeavesBacked before after :=
  ⟨fun _ => warm, fun cold => absurd cold warm⟩

theorem handlerStep_durable {peer : Handler → Prop} {before after : Shared}
    {mover moved : Handler}
    (durable : Durable before) (backed : Backed before mover)
    (keeps : ∀ map next file, mover = .writeFile map next →
      before.store.repoOrgFile = some file → Included file map)
    (taken : handlerStep before mover = some (after, moved)) :
    Preserves Durable Backed Unrelated peer before mover after moved := by
  have quiet : LeavesBacked before before := leavesBacked_of_same rfl rfl rfl
  cases moves_of_step taken with
  | answerCached cached =>
      have warm : before.store.repoOrg ≠ none := by simp [cached]
      exact preserves_of_backed (durable.answer cached _) trivial (leavesBacked_of_warm warm)
  | missCache cold => exact preserves_of_backed durable trivial quiet
  | alreadyLoaded cached => exact preserves_of_backed durable (by simp [Backed, cached]) quiet
  | notLoaded cold => exact preserves_of_backed durable trivial quiet
  | @readFile next map file =>
      refine preserves_of_backed durable ?_ quiet
      intro _
      refine ⟨map, file, included_refl map, ?_⟩
      intro repoId orgId member
      obtain ⟨held, same, found⟩ := durable.onFile repoId orgId member
      rw [file] at same
      cases same
      exact found
  | noFile absent => exact preserves_of_backed durable trivial quiet
  | rebuild => exact preserves_of_backed durable trivial quiet
  | @writeFile map next =>
      have keepsFile := keeps map next
      have written := durable.writeFile fun file held => keepsFile file rfl held
      refine preserves_of_backed written ?_ ⟨id, fun _ => ⟨rfl, ?_⟩⟩
      · intro _
        refine ⟨map, rfl, included_refl map, ?_⟩
        intro repoId orgId member
        obtain ⟨file, held, found⟩ := written.onFile repoId orgId member
        cases held
        exact found
      · exact fun file held => ⟨map, rfl, keepsFile file rfl held⟩
  | @setCache map next =>
      have warm : (before.store.setRepoOrgIfEmpty map).repoOrg ≠ none := by
        unfold ServerStore.setRepoOrgIfEmpty
        cases cached : before.store.repoOrg with
        | some other => simp [cached]
        | none => simp
      exact preserves_of_backed (durable.setCache backed) warm (leavesBacked_of_warm warm)
  | @lookUp repoId orgId found =>
      obtain ⟨map, cached⟩ := Option.ne_none_iff_exists'.mp backed
      rw [cached] at found
      cases found
      exact preserves_of_backed (durable.answer cached repoId) trivial (leavesBacked_of_warm backed)
  | @record bindings result =>
      obtain ⟨map, cached⟩ := Option.ne_none_iff_exists'.mp backed
      exact preserves_of_backed (durable.record cached bindings) trivial
        (leavesBacked_of_warm (by simp))
  | readIds => exact preserves_of_backed durable trivial quiet
  | appendTurn =>
      exact preserves_of_backed
        ⟨durable.stay, durable.onCache, durable.onFile, durable.cacheInFile⟩ trivial
        (leavesBacked_of_same rfl rfl rfl)
  | finish => exact preserves_of_backed durable trivial quiet
  | finishBindings => exact preserves_of_backed durable trivial quiet

/-! ## Whole runs -/

theorem start_backed (shared : Shared) (call : StoreCall) : Backed shared call.start := by
  cases call with
  | resolve repoId => trivial
  | claim repoId orgId => trivial
  | append repoId events =>
      simp only [StoreCall.start]
      cases normalizeRepoEvents repoId events <;> trivial

theorem serverNext_durable (server : Server) (label : ServerLabel)
    (holds : Holds Durable Backed Unrelated server) (keeps : KeepsFileBindings server label) :
    Holds Durable Backed Unrelated (serverNext server label) := by
  cases label with
  | call call => exact spawn_holds holds (start_backed _ call) fun _ => ⟨trivial, trivial⟩
  | step index =>
      refine advance_holds handlerStep server index holds ?_
      intro handler after moved found taken
      refine handlerStep_durable holds.shared (holds.thread index handler found) ?_ taken
      rintro map next file rfl held
      simp only [KeepsFileBindings, found, held] at keeps
      exact keeps
  | restart =>
      simp only [serverNext]
      split
      · rename_i quiescent
        refine ⟨⟨holds.shared.stay, ?_, holds.shared.onFile, ?_⟩, ?_, fun _ _ _ _ _ _ _ => trivial⟩
        · intro map loaded
          cases loaded
        · intro map loaded
          cases loaded
        · intro index handler found
          obtain ⟨result, rfl⟩ := quiescent handler (List.mem_of_getElem? found)
          trivial
      · exact holds

/-- A resolved binding stays along every run whose writes of a rebuilt map keep the
bindings that the file holds. -/
theorem resolved_binding_stays (eventLog : List LogLine) (repoOrgFile : Option RepoOrgMap)
    (labels : List ServerLabel)
    (keeps : Runs.Meets serverNext KeepsFileBindings (startServer eventLog repoOrgFile) labels) :
    Runs.Always serverNext AnswersStay (startServer eventLog repoOrgFile) labels := by
  have start : Holds Durable Backed Unrelated (startServer eventLog repoOrgFile) := by
    refine ⟨⟨List.Pairwise.nil, ?_, ?_, ?_⟩, ?_, fun _ _ _ _ _ _ _ => trivial⟩
    · intro map loaded
      cases loaded
    · intro repoId orgId member
      cases member
    · intro map loaded
      cases loaded
    · intro index handler found
      simp [startServer] at found
  exact Runs.always_mono serverNext (fun server holds => holds.shared.stay)
    (Runs.always_of_meets serverNext serverNext_durable start keeps)

/-- A repo is bound after a restart as it was before. -/
theorem resolved_binding_survives_restart :
    Runs.Always serverNext AnswersStay (startServer [] none)
      [.call (.claim "repo-a" "org-1"), .step 0, .step 0, .step 0, .step 0, .step 0, .step 0,
        .restart, .call (.resolve "repo-a"), .step 1, .step 1, .step 1, .step 1, .step 1] :=
  resolved_binding_stays [] none _
    ⟨trivial, trivial, trivial, trivial, trivial, trivial, trivial, trivial, trivial, trivial,
      trivial, trivial, trivial, trivial, trivial⟩

/-- The first handler rebuilds the map, a second one claims the repo, a third one is
told of it; then the first writes its map, and after a restart the binding is gone. -/
theorem resolved_binding_lost_by_late_write :
    ¬ Runs.Always serverNext AnswersStay (startServer [] none)
      [.call (.resolve "repo-b"), .step 0, .step 0, .step 0, .step 0,
        .call (.claim "repo-a" "org-1"), .step 1, .step 1, .step 1, .step 1, .step 1, .step 1,
        .call (.resolve "repo-a"), .step 2, .step 0, .step 0, .step 0, .restart,
        .call (.resolve "repo-a"), .step 3, .step 3, .step 3, .step 3, .step 3] := by
  intro always
  have stays := Runs.always_last _ always
  have answers : (Runs.run serverNext (startServer [] none)
      [.call (.resolve "repo-b"), .step 0, .step 0, .step 0, .step 0,
        .call (.claim "repo-a" "org-1"), .step 1, .step 1, .step 1, .step 1, .step 1, .step 1,
        .call (.resolve "repo-a"), .step 2, .step 0, .step 0, .step 0, .restart,
        .call (.resolve "repo-a"), .step 3, .step 3, .step 3, .step 3, .step 3]).shared.answers =
      [("repo-a", some "org-1"), ("repo-b", none), ("repo-a", none)] := by decide
  rw [AnswersStay, answers] at stays
  have lost := (List.pairwise_cons.mp stays).1 ("repo-a", none) (by simp) "org-1" rfl rfl
  cases lost

end BrickTrace
