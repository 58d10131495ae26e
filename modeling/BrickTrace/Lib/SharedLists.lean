import Mathlib.Data.List.Basic

/-!
# Lists that a program shares with its user

A file has settings and, in one container, lists of entries under keys.  A program keeps
entries of its own in the lists, and an entry may have things of both parties in it.  A frame
says what of the user's came through a change; frames compose, so one for each call gives one
for a run of calls.
-/

set_option autoImplicit false

namespace SharedLists

variable {K V E : Type}

/-- Nothing is lost to a filter that comes first exactly when nothing is kept of what goes. -/
theorem filterMap_filter_eq_iff {A B : Type} (keep : A → Bool) (read : A → Option B)
    (items : List A) : (items.filter keep).filterMap read = items.filterMap read ↔
      ∀ item ∈ items, keep item = false → read item = none := by
  induction items with
  | nil => exact ⟨fun _ _ member => (nomatch member), fun _ => rfl⟩
  | cons first rest ih =>
      rw [List.forall_mem_cons, ← ih]
      cases kept : keep first with
      | true =>
          rw [List.filter_cons_of_pos kept, List.filterMap_cons, List.filterMap_cons]
          cases read first with
          | none => exact ⟨fun same => ⟨nofun, same⟩, fun both => both.2⟩
          | some value =>
              exact ⟨fun same => ⟨nofun, (List.cons.inj same).2⟩, fun both => congrArg _ both.2⟩
      | false =>
          rw [List.filter_cons_of_neg (by simp [kept]), List.filterMap_cons]
          cases read first with
          | none => exact ⟨fun same => ⟨fun _ => rfl, same⟩, fun both => both.2⟩
          | some value =>
              refine ⟨fun same => ?_, fun both => nomatch both.1 rfl⟩
              -- the rest alone is too short
              have shorter : ((rest.filter keep).filterMap read).length ≤
                  (rest.filterMap read).length :=
                (List.filter_sublist.filterMap read).length_le
              have lengths := congrArg List.length same
              rw [List.length_cons] at lengths
              omega

/-! ## Entries of two parties -/

/-- Which entries have something of the program's, and what is left of an entry without that;
nothing is left of one that is the program's alone. -/
structure Parties (E : Type) where
  ours : E → Bool
  users : E → Option E
  users_of_foreign : ∀ entry, ours entry = false → users entry = some entry

namespace Parties

variable (parties : Parties E)

def Unmixed (entry : E) : Prop := parties.ours entry = true → parties.users entry = none

def foreign (entries : List E) : List E := entries.filter fun entry => !parties.ours entry

def usersPart (entries : List E) : List E := entries.filterMap parties.users

theorem usersPart_foreign (entries : List E) :
    parties.usersPart (parties.foreign entries) = parties.foreign entries := by
  induction entries with
  | nil => rfl
  | cons entry rest ih =>
      unfold usersPart foreign at ih ⊢
      cases mine : parties.ours entry with
      | true => rwa [List.filter_cons_of_neg (by simp [mine])]
      | false =>
          rw [List.filter_cons_of_pos (by simp [mine]),
            List.filterMap_cons_some (parties.users_of_foreign entry mine), ih]

theorem foreign_append_ours (entries : List E) {more : List E}
    (ours : ∀ entry ∈ more, parties.ours entry = true) :
    parties.foreign (parties.foreign entries ++ more) = parties.foreign entries := by
  have none : more.filter (fun entry => !parties.ours entry) = [] := by
    refine List.filter_eq_nil_iff.mpr fun entry member => ?_
    rw [ours entry member]
    exact Bool.false_ne_true
  unfold foreign
  rw [List.filter_append, List.filter_filter, none, List.append_nil]
  refine List.filter_congr fun entry _ => ?_
  rw [Bool.and_self]

theorem usersPart_of_unmixed {entries : List E}
    (unmixed : ∀ entry ∈ entries, parties.Unmixed entry) :
    parties.usersPart entries = parties.foreign entries := by
  induction entries with
  | nil => rfl
  | cons entry rest ih =>
      obtain ⟨here, later⟩ := List.forall_mem_cons.mp unmixed
      have rest := ih later
      unfold usersPart foreign at rest ⊢
      cases mine : parties.ours entry with
      | true => rwa [List.filter_cons_of_neg (by simp [mine]), List.filterMap_cons_none (here mine)]
      | false =>
          rw [List.filter_cons_of_pos (by simp [mine]),
            List.filterMap_cons_some (parties.users_of_foreign entry mine), rest]

theorem length_foreign_le (entries : List E) :
    (parties.foreign entries).length ≤ (parties.usersPart entries).length := by
  induction entries with
  | nil => exact Nat.le_refl _
  | cons entry rest ih =>
      unfold usersPart foreign at ih ⊢
      cases mine : parties.ours entry with
      | true =>
          rw [List.filter_cons_of_neg (by simp [mine]), List.filterMap_cons]
          split
          · exact ih
          · exact Nat.le_trans ih (Nat.le_succ _)
      | false =>
          rw [List.filter_cons_of_pos (by simp [mine]),
            List.filterMap_cons_some (parties.users_of_foreign entry mine), List.length_cons,
            List.length_cons]
          exact Nat.succ_le_succ ih

/-- An entry of both parties is lost when the program's entries are taken out whole. -/
theorem not_sublist_foreign {entries : List E} {entry : E} (member : entry ∈ entries)
    (mixed : ¬ parties.Unmixed entry) :
    ¬ (parties.usersPart entries).Sublist (parties.usersPart (parties.foreign entries)) := by
  obtain ⟨front, back, rfl⟩ := List.append_of_mem member
  have shorter : (parties.foreign (front ++ entry :: back)).length <
      (parties.usersPart (front ++ entry :: back)).length := by
    obtain ⟨mine, someLeft⟩ := Classical.not_imp.mp mixed
    obtain ⟨left, isLeft⟩ := Option.ne_none_iff_exists'.mp someLeft
    have inFront := parties.length_foreign_le front
    have inBack := parties.length_foreign_le back
    unfold usersPart foreign at inFront inBack ⊢
    rw [List.filter_append, List.filterMap_append, List.filter_cons_of_neg (by simp [mine]),
      List.filterMap_cons_some isLeft, List.length_append, List.length_append, List.length_cons]
    omega
  rw [usersPart_foreign]
  exact fun kept => absurd kept.length_le (by omega)

/-- The parties to entries made of parts, each of which is one party's. -/
def ofParts {P : Type} (parts : E → List P) (withParts : E → List P → E) (ours : P → Bool) :
    Parties E where
  ours entry := (parts entry).any ours
  users entry :=
    if (parts entry).any ours = false then some entry
    else if ((parts entry).filter fun part => !ours part).isEmpty then none
    else some (withParts entry ((parts entry).filter fun part => !ours part))
  users_of_foreign _ foreign := if_pos foreign

theorem unmixed_of_single {P : Type} {parts : E → List P} {withParts : E → List P → E}
    {ours : P → Bool} {entry : E} {part : P} (single : parts entry = [part]) :
    (ofParts parts withParts ours).Unmixed entry := by
  intro mine
  change (parts entry).any ours = true at mine
  rw [single, List.any_cons, List.any_nil, Bool.or_false] at mine
  unfold ofParts
  dsimp only
  rw [single, List.filter_cons_of_neg (by simp [mine]), List.any_cons, mine]
  rfl

end Parties

/-! ## What a file shows -/

/-- What stands under a key of the container: nothing, something that is no list, or a list. -/
inductive Place (V E : Type) where
  | missing
  | other (value : V)
  | list (entries : List E)

def Place.entries : Place V E → List E
  | .list entries => entries
  | _ => []

theorem Place.eq_list {place : Place V E} {entries : List E} (same : place.entries = entries)
    (nonempty : entries ≠ []) : place = .list entries := by
  cases place with
  | list held => rw [show held = entries from same]
  | _ => exact absurd same.symm nonempty

inductive Container (V : Type) where
  | missing
  | other (value : V)
  | empty
  | filled

structure View (K V E : Type) where
  setting : K → Option V
  container : Container V
  place : K → Place V E

/-- The user's settings are as they were, values that are no lists too, and every list and
container that was there without entries is there still; the user's entries stand in the lists
they were in, in their order. -/
structure Keeps (parties : Parties E) (before after : View K V E) : Prop where
  setting : ∀ key, after.setting key = before.setting key
  value : ∀ key value, before.place key = .other value → after.place key = .other value
  emptyList : ∀ key, before.place key = .list [] → ∃ entries, after.place key = .list entries
  entries : ∀ key, (parties.usersPart (before.place key).entries).Sublist
    (parties.usersPart (after.place key).entries)
  container : ∀ value, before.container = .other value → after.container = .other value
  emptyContainer : before.container = .empty → after.container = .empty ∨ after.container = .filled

/-! ## Frames -/

/-- What a call that goes to certain places keeps. -/
structure Frame (parties : Parties E) (touched : K → Prop) (before after : View K V E) : Prop where
  setting : ∀ key, after.setting key = before.setting key
  untouched : ∀ key, ¬ touched key → after.place key = before.place key
  value : ∀ key value, before.place key = .other value → after.place key = .other value
  entries : ∀ key, (parties.usersPart (before.place key).entries).Sublist
    (parties.usersPart (after.place key).entries)
  container : ∀ value, before.container = .other value → after.container = .other value

/-- In the places that are gone to, no list is empty and no entry is of both parties; and the
container is not empty. -/
structure Separate (parties : Parties E) (touched : K → Prop) (view : View K V E) : Prop where
  lists : ∀ key, touched key → view.place key ≠ .list []
  unmixed : ∀ key, touched key → ∀ entry ∈ (view.place key).entries, parties.Unmixed entry
  container : view.container ≠ .empty

variable {parties : Parties E} {touched : K → Prop}

theorem Frame.refl (view : View K V E) : Frame parties touched view view where
  setting _ := rfl
  untouched _ _ := rfl
  value _ _ here := here
  entries _ := List.Sublist.refl _
  container _ here := here

theorem Frame.trans {first second third : View K V E} (one : Frame parties touched first second)
    (two : Frame parties touched second third) : Frame parties touched first third where
  setting key := (two.setting key).trans (one.setting key)
  untouched key other := (two.untouched key other).trans (one.untouched key other)
  value key value here := two.value key value (one.value key value here)
  entries key := (one.entries key).trans (two.entries key)
  container value here := two.container value (one.container value here)

theorem Frame.keeps {before after : View K V E} (frame : Frame parties touched before after)
    (separate : Separate parties touched before) : Keeps parties before after where
  setting := frame.setting
  value := frame.value
  emptyList key here := by
    by_cases inReach : touched key
    · exact absurd here (separate.lists key inReach)
    · exact ⟨[], (frame.untouched key inReach).trans here⟩
  entries := frame.entries
  container := frame.container
  emptyContainer here := absurd here separate.container

theorem Keeps.refl (view : View K V E) : Keeps parties view view where
  setting _ := rfl
  value _ _ here := here
  emptyList _ here := ⟨[], here⟩
  entries _ := List.Sublist.refl _
  container _ here := here
  emptyContainer here := Or.inl here

/-- A frame for each call, from an invariant that the calls keep, is a frame for their run. -/
theorem frame_of_run {State Label Failure : Type} {next : State → Label → Except Failure State}
    {view : State → View K V E} {invariant : State → Prop}
    (step : ∀ state label after, invariant state → next state label = .ok after →
      invariant after ∧ Frame parties touched (view state) (view after))
    {labels : List Label} {start finish : State} (holds : invariant start)
    (run : labels.foldlM next start = .ok finish) :
    Frame parties touched (view start) (view finish) := by
  induction labels generalizing start with
  | nil =>
      cases run
      exact Frame.refl _
  | cons label rest ih =>
      rw [List.foldlM_cons] at run
      cases one : next start label with
      | error failure =>
          rw [one] at run
          cases run
      | ok middle =>
          rw [one] at run
          obtain ⟨later, frame⟩ := step start label middle holds one
          exact frame.trans (ih later run)

end SharedLists
