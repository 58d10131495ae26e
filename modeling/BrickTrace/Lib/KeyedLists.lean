import BrickTrace.Lib.SharedLists

/-!
# Lists in a container of a keyed document

A document is a table of values under keys.  Under one key it has a container, a table again,
and the container has lists of entries under keys.  What a format of documents says is how
tables and lists are values and how a table is changed.
-/

set_option autoImplicit false

namespace KeyedLists

open SharedLists

variable {V E : Type}

abbrev KeyTable (V : Type) : Type := List (String × V)

/-! ## Tables -/

def remove (key : String) (table : KeyTable V) : KeyTable V := table.filter fun entry => entry.1 != key

theorem lookup_remove_self (key : String) (table : KeyTable V) : (remove key table).lookup key = none := by
  unfold remove
  rw [List.lookup_eq_none_iff]
  intro entry member
  have other := (List.mem_filter.mp member).2
  exact bne_iff_ne.mpr (Ne.symm (bne_iff_ne.mp other))

theorem lookup_remove_of_ne {name key : String} (other : name ≠ key) (table : KeyTable V) :
    (remove key table).lookup name = table.lookup name := by
  unfold remove
  induction table with
  | nil => rfl
  | cons entry rest ih =>
      by_cases isKey : entry.1 = key
      · have differs : (name == entry.1) = false := beq_eq_false_iff_ne.mpr (isKey ▸ other)
        rw [List.filter_cons_of_neg (by simp [isKey]), ih, List.lookup_cons, differs]
      · rw [List.filter_cons_of_pos (by simp [isKey]), List.lookup_cons, List.lookup_cons, ih]

/-- How tables and lists are values, and how a value is put into a table. -/
structure Format (V E : Type) where
  table : KeyTable V → V
  list : List E → V
  asTable : V → Option (KeyTable V)
  asList : V → Option (List E)
  insert : String → V → KeyTable V → KeyTable V
  asTable_table : ∀ entries, asTable (table entries) = some entries
  asList_list : ∀ entries, asList (list entries) = some entries
  insert_ne_nil : ∀ key value entries, insert key value entries ≠ []
  lookup_insert_self : ∀ key value entries, (insert key value entries).lookup key = some value
  lookup_insert_of_ne : ∀ {name key} value entries, name ≠ key →
    (insert key value entries).lookup name = entries.lookup name

variable (format : Format V E) (container event : String)

/-! ## What a document shows -/

def containerOf : Option V → Container V
  | none => .missing
  | some value =>
      match format.asTable value with
      | none => .other value
      | some [] => .empty
      | some (_ :: _) => .filled

def placeOf : Option V → Place V E
  | none => .missing
  | some value =>
      match format.asList value with
      | none => .other value
      | some entries => .list entries

def listsOf (document : KeyTable V) : KeyTable V :=
  ((document.lookup container).bind format.asTable).getD []

def listIn (document : KeyTable V) : Option (List E) :=
  ((document.lookup container).bind format.asTable).bind fun lists =>
    (lists.lookup event).bind format.asList

def view (document : KeyTable V) : View String V E where
  setting key := if key = container then none else document.lookup key
  container := containerOf format (document.lookup container)
  place key := placeOf format ((listsOf format container document).lookup key)

/-! ## Changes of a document -/

def withLists (document lists : KeyTable V) : KeyTable V :=
  format.insert container (format.table lists) document

def withEntries (document lists : KeyTable V) (entries : List E) : KeyTable V :=
  withLists format container document (format.insert event (format.list entries) lists)

def dropEmpty (lists : KeyTable V) : KeyTable V :=
  match (lists.lookup event).bind format.asList with
  | some [] => remove event lists
  | _ => lists

/-- An empty list goes, and the container with it when nothing else is in it. -/
def prune (document : KeyTable V) : KeyTable V :=
  match (document.lookup container).bind format.asTable with
  | some lists =>
      if (dropEmpty format event lists).isEmpty then remove container document
      else withLists format container document (dropEmpty format event lists)
  | none => document

/-- The document once the entries with something of the program's are taken out whole; nothing
when there are none. -/
def takeOut (parties : Parties E) (document : KeyTable V) : Option (KeyTable V) :=
  match (document.lookup container).bind format.asTable with
  | none => none
  | some lists =>
      match (lists.lookup event).bind format.asList with
      | none => none
      | some entries =>
          if (parties.foreign entries).length = entries.length then none
          else some (prune format container event
            (withEntries format container event document lists (parties.foreign entries)))

/-! ## What a changed document shows -/

section

variable {format} {container event}

theorem containerOf_table (lists : KeyTable V) :
    containerOf format (some (format.table lists)) = if lists.isEmpty then .empty else .filled := by
  unfold containerOf
  dsimp only
  rw [format.asTable_table]
  cases lists <;> rfl

theorem placeOf_list (entries : List E) :
    placeOf format (some (format.list entries)) = .list entries := by
  unfold placeOf
  dsimp only
  rw [format.asList_list]

theorem listsOf_withLists (document lists : KeyTable V) :
    listsOf format container (withLists format container document lists) = lists := by
  unfold listsOf withLists
  rw [format.lookup_insert_self, Option.bind_some, format.asTable_table, Option.getD_some]

theorem listsOf_remove (document : KeyTable V) :
    listsOf format container (remove container document) = [] := by
  unfold listsOf
  rw [lookup_remove_self]
  rfl

theorem place_withLists (document lists : KeyTable V) (key : String) :
    (view format container (withLists format container document lists)).place key =
      placeOf format (lists.lookup key) := by
  unfold view
  dsimp only
  rw [listsOf_withLists]

theorem container_withLists (document lists : KeyTable V) :
    (view format container (withLists format container document lists)).container =
      if lists.isEmpty then .empty else .filled := by
  unfold view withLists
  dsimp only
  rw [format.lookup_insert_self, containerOf_table]

theorem place_remove (document : KeyTable V) (key : String) :
    (view format container (remove container document)).place key = .missing := by
  unfold view
  dsimp only
  rw [listsOf_remove]
  rfl

theorem container_remove (document : KeyTable V) :
    (view format container (remove container document)).container = .missing := by
  unfold view
  dsimp only
  rw [lookup_remove_self]
  rfl

theorem place_withEntries (document lists : KeyTable V) (entries : List E) :
    (view format container (withEntries format container event document lists entries)).place event =
      .list entries := by
  unfold withEntries
  rw [place_withLists, format.lookup_insert_self, placeOf_list]

theorem place_withEntries_of_ne {key : String} (other : key ≠ event) (document lists : KeyTable V)
    (entries : List E) :
    (view format container (withEntries format container event document lists entries)).place key =
      placeOf format (lists.lookup key) := by
  unfold withEntries
  rw [place_withLists, format.lookup_insert_of_ne _ _ other]

theorem container_withEntries (document lists : KeyTable V) (entries : List E) :
    (view format container
      (withEntries format container event document lists entries)).container = .filled := by
  unfold withEntries
  rw [container_withLists]
  exact if_neg (by simpa using format.insert_ne_nil event (format.list entries) lists)

theorem lists_of_isTable {document lists : KeyTable V}
    (found : (document.lookup container).bind format.asTable = some lists) :
    listsOf format container document = lists ∧
      ∀ value, (view format container document).container ≠ .other value := by
  obtain ⟨value, here, isTable⟩ := Option.bind_eq_some_iff.mp found
  refine ⟨by rw [listsOf, found, Option.getD_some], fun other shown => ?_⟩
  unfold view containerOf at shown
  dsimp only at shown
  rw [here] at shown
  dsimp only at shown
  rw [isTable] at shown
  cases lists <;> cases shown

theorem entries_eq_listIn (document : KeyTable V) :
    ((view format container document).place event).entries =
      (listIn format container event document).getD [] := by
  unfold view listsOf listIn
  dsimp only
  cases (document.lookup container).bind format.asTable with
  | none => rfl
  | some lists =>
      rw [Option.getD_some, Option.bind_some]
      cases lists.lookup event with
      | none => rfl
      | some value =>
          unfold placeOf
          rw [Option.bind_some]
          dsimp only
          cases format.asList value <;> rfl

theorem any_listIn (document : KeyTable V) (holds : E → Bool) :
    (listIn format container event document).any (fun entries => entries.any holds) =
      ((view format container document).place event).entries.any holds := by
  rw [entries_eq_listIn]
  cases listIn format container event document <;> rfl

/-! ## Frames -/

variable {parties : Parties E} {touched : String → Prop}

theorem frame_withLists {document lists : KeyTable V}
    (isContainer : ∀ value, (view format container document).container ≠ .other value)
    (untouched : ∀ key, ¬ touched key →
      placeOf format (lists.lookup key) = (view format container document).place key)
    (values : ∀ key value, (view format container document).place key = .other value →
      placeOf format (lists.lookup key) = .other value)
    (entries : ∀ key, (parties.usersPart ((view format container document).place key).entries).Sublist
      (parties.usersPart (placeOf format (lists.lookup key)).entries)) :
    Frame parties touched (view format container document)
      (view format container (withLists format container document lists)) := by
  refine ⟨fun key => ?_, fun key outside => ?_, fun key value here => ?_, fun key => ?_,
    fun value here => absurd here (isContainer value)⟩
  · change (if key = container then none else _) = if key = container then none else _
    split
    · rfl
    · rename_i other
      exact format.lookup_insert_of_ne _ _ other
  · rw [place_withLists]
    exact untouched key outside
  · rw [place_withLists]
    exact values key value here
  · rw [place_withLists]
    exact entries key

/-- The container may go when there is nothing of the user's in it. -/
theorem frame_remove {document : KeyTable V}
    (isContainer : ∀ value, (view format container document).container ≠ .other value)
    (nothing : ∀ key, (view format container document).place key = .missing ∨
      touched key ∧ ∃ entries, (view format container document).place key = .list entries ∧
        parties.usersPart entries = []) :
    Frame parties touched (view format container document)
      (view format container (remove container document)) := by
  refine ⟨fun key => ?_, fun key outside => ?_, fun key value here => ?_, fun key => ?_,
    fun value here => absurd here (isContainer value)⟩
  · change (if key = container then none else _) = if key = container then none else _
    split
    · rfl
    · rename_i other
      exact lookup_remove_of_ne other document
  · rw [place_remove]
    rcases nothing key with missing | ⟨inReach, _⟩
    · exact missing.symm
    · exact absurd inReach outside
  · rcases nothing key with missing | ⟨_, entries, list, _⟩
    · rw [missing] at here
      cases here
    · rw [list] at here
      cases here
  · rcases nothing key with missing | ⟨_, entries, list, noUsers⟩
    · rw [missing]
      exact List.nil_sublist _
    · rw [list]
      change (parties.usersPart entries).Sublist _
      rw [noUsers]
      exact List.nil_sublist _

theorem frame_withEntries {document : KeyTable V} {entries : List E} (inReach : touched event)
    (isContainer : ∀ value, (view format container document).container ≠ .other value)
    (isPlace : ∀ value, (view format container document).place event ≠ .other value)
    (kept : (parties.usersPart ((view format container document).place event).entries).Sublist
      (parties.usersPart entries)) :
    Frame parties touched (view format container document)
      (view format container (withEntries format container event document
        (listsOf format container document) entries)) := by
  have other {key : String} (differs : key ≠ event) :
      (format.insert event (format.list entries) (listsOf format container document)).lookup key =
        (listsOf format container document).lookup key :=
    format.lookup_insert_of_ne _ _ differs
  refine frame_withLists isContainer (fun key outside => ?_) (fun key value here => ?_) fun key => ?_
  · have differs : key ≠ event := fun same => outside (by rw [same]; exact inReach)
    rw [other differs]
    rfl
  · by_cases same : key = event
    · subst same
      exact absurd here (isPlace value)
    · rw [other same]
      exact here
  · by_cases same : key = event
    · subst same
      rw [format.lookup_insert_self, placeOf_list]
      exact kept
    · rw [other same]
      exact List.Sublist.refl _

theorem separate_withEntries {document lists : KeyTable V} {entries : List E}
    (nonempty : entries ≠ []) (unmixed : ∀ entry ∈ entries, parties.Unmixed entry) :
    Separate parties (· = event) (view format container
      (withEntries format container event document lists entries)) := by
  refine ⟨?_, ?_, ?_⟩
  · rintro key rfl empty
    rw [place_withEntries] at empty
    exact nonempty (by injection empty)
  · rintro key rfl entry member
    rw [place_withEntries] at member
    exact unmixed entry member
  · rw [container_withEntries]
    exact nofun

/-! ## Pruning -/

variable (format event) in
theorem lookup_dropEmpty (lists : KeyTable V) (key : String) :
    (dropEmpty format event lists).lookup key = lists.lookup key ∨
      key = event ∧ placeOf format (lists.lookup key) = .list [] ∧
        (dropEmpty format event lists).lookup key = none := by
  unfold dropEmpty
  split
  · rename_i found
    by_cases same : key = event
    · subst same
      obtain ⟨value, here, isList⟩ := Option.bind_eq_some_iff.mp found
      refine Or.inr ⟨rfl, ?_, lookup_remove_self key lists⟩
      unfold placeOf
      rw [here]
      dsimp only
      rw [isList]
    · exact Or.inl (lookup_remove_of_ne same lists)
  · exact Or.inl rfl

theorem place_dropEmpty_ne_nil (lists : KeyTable V) :
    placeOf format ((dropEmpty format event lists).lookup event) ≠ .list [] := by
  unfold dropEmpty
  split
  · rw [lookup_remove_self]
    exact nofun
  · rename_i filled
    intro empty
    cases here : lists.lookup event with
    | none =>
        rw [here] at empty
        cases empty
    | some value =>
        rw [here] at empty filled
        unfold placeOf at empty
        dsimp only at empty
        cases isList : format.asList value with
        | none =>
            rw [isList] at empty
            cases empty
        | some entries =>
            rw [isList] at empty
            injection empty with none
            exact filled (by rw [Option.bind_some, isList, none])

theorem entries_dropEmpty (lists : KeyTable V) (key : String) :
    (placeOf format ((dropEmpty format event lists).lookup key)).entries =
      (placeOf format (lists.lookup key)).entries := by
  rcases lookup_dropEmpty format event lists key with same | ⟨_, list, gone⟩
  · rw [same]
  · rw [list, gone]
    rfl

theorem dropEmpty_insert_nil (lists : KeyTable V) :
    dropEmpty format event (format.insert event (format.list []) lists) =
      remove event (format.insert event (format.list []) lists) := by
  unfold dropEmpty
  rw [format.lookup_insert_self, Option.bind_some, format.asList_list]

theorem place_prune {document lists : KeyTable V}
    (found : (document.lookup container).bind format.asTable = some lists) (key : String) :
    (view format container (prune format container event document)).place key =
      placeOf format ((dropEmpty format event lists).lookup key) := by
  unfold prune
  rw [found]
  dsimp only
  split
  · rename_i empty
    rw [place_remove, List.isEmpty_iff.mp empty]
    rfl
  · rw [place_withLists]

theorem container_prune {document lists : KeyTable V}
    (found : (document.lookup container).bind format.asTable = some lists) :
    (view format container (prune format container event document)).container =
      if (dropEmpty format event lists).isEmpty then .missing else .filled := by
  unfold prune
  rw [found]
  dsimp only
  split
  · exact container_remove document
  · rename_i filled
    rw [container_withLists, if_neg filled]

theorem frame_prune (document : KeyTable V) :
    Frame parties (· = event) (view format container document)
      (view format container (prune format container event document)) := by
  unfold prune
  split
  · rename_i lists found
    obtain ⟨there, isContainer⟩ := lists_of_isTable found
    have shown (key : String) : (view format container document).place key =
        placeOf format (lists.lookup key) := by
      unfold view
      rw [there]
    split
    · rename_i empty
      refine frame_remove isContainer fun key => ?_
      rw [shown]
      rcases lookup_dropEmpty format event lists key with same | ⟨rfl, list, _⟩
      · rw [List.isEmpty_iff.mp empty] at same
        rw [← same]
        exact Or.inl rfl
      · exact Or.inr ⟨rfl, [], list, rfl⟩
    · refine frame_withLists isContainer (fun key outside => ?_) (fun key value here => ?_)
        fun key => ?_
      · rw [shown]
        rcases lookup_dropEmpty format event lists key with same | ⟨rfl, _⟩
        · rw [same]
        · exact absurd rfl outside
      · rw [shown] at here
        rcases lookup_dropEmpty format event lists key with same | ⟨_, list, _⟩
        · rw [same, here]
        · rw [list] at here
          cases here
      · rw [shown, entries_dropEmpty]
  · exact Frame.refl _

/-- A pruned document has no empty list in the place, and no empty container. -/
theorem separate_prune {document lists : KeyTable V}
    (found : (document.lookup container).bind format.asTable = some lists)
    (unmixed : ∀ entry ∈ (placeOf format (lists.lookup event)).entries, parties.Unmixed entry) :
    Separate parties (· = event) (view format container (prune format container event document)) := by
  refine ⟨?_, ?_, ?_⟩
  · rintro key rfl empty
    rw [place_prune found] at empty
    exact place_dropEmpty_ne_nil lists empty
  · rintro key rfl entry member
    rw [place_prune found, entries_dropEmpty] at member
    exact unmixed entry member
  · rw [container_prune found]
    split <;> exact nofun

/-! ## What a document is that shows something -/

theorem place_eq_list {document : KeyTable V} {entries : List E}
    (shown : (view format container document).place event = .list entries) :
    ∃ lists, (document.lookup container).bind format.asTable = some lists ∧
      (lists.lookup event).bind format.asList = some entries := by
  unfold view listsOf at shown
  dsimp only at shown
  cases found : (document.lookup container).bind format.asTable with
  | none =>
      rw [found] at shown
      cases shown
  | some lists =>
      rw [found, Option.getD_some] at shown
      cases here : lists.lookup event with
      | none =>
          rw [here] at shown
          cases shown
      | some value =>
          rw [here] at shown
          unfold placeOf at shown
          dsimp only at shown
          cases isList : format.asList value with
          | none =>
              rw [isList] at shown
              cases shown
          | some items =>
              rw [isList] at shown
              cases shown
              exact ⟨lists, rfl, by rw [here]; exact isList⟩

theorem container_eq_empty {document : KeyTable V}
    (shown : (view format container document).container = .empty) :
    (document.lookup container).bind format.asTable = some [] := by
  unfold view containerOf at shown
  dsimp only at shown
  cases found : document.lookup container with
  | none =>
      rw [found] at shown
      cases shown
  | some value =>
      rw [found] at shown
      dsimp only at shown
      cases isTable : format.asTable value with
      | none =>
          rw [isTable] at shown
          cases shown
      | some lists =>
          rw [isTable] at shown
          cases lists with
          | nil => exact isTable
          | cons first rest => cases shown

theorem container_of_list {document : KeyTable V} {entries : List E}
    (shown : (view format container document).place event = .list entries) (value : V) :
    (view format container document).container ≠ .other value := by
  obtain ⟨lists, found, _⟩ := place_eq_list shown
  exact (lists_of_isTable found).2 value

theorem lists_of_empty {document : KeyTable V}
    (shown : (view format container document).container = .empty) :
    listsOf format container document = [] := by
  unfold listsOf
  rw [container_eq_empty shown]
  rfl

theorem lists_of_other {document : KeyTable V} {value : V}
    (shown : (view format container document).container = .other value) :
    listsOf format container document = [] := by
  unfold listsOf
  cases found : (document.lookup container).bind format.asTable with
  | none => rfl
  | some lists => exact absurd shown ((lists_of_isTable found).2 value)

/-! ## Taking entries out -/

theorem lookup_withEntries (document lists : KeyTable V) (entries : List E) :
    ((withEntries format container event document lists entries).lookup container).bind
      format.asTable = some (format.insert event (format.list entries) lists) := by
  unfold withEntries withLists
  rw [format.lookup_insert_self, Option.bind_some, format.asTable_table]

theorem listIn_withEntries (document lists : KeyTable V) (entries : List E) :
    listIn format container event (withEntries format container event document lists entries) =
      some entries := by
  unfold listIn
  rw [lookup_withEntries, Option.bind_some, format.lookup_insert_self, Option.bind_some,
    format.asList_list]

theorem takeOut_eq_some {document after : KeyTable V}
    (taken : takeOut format container event parties document = some after) :
    ∃ lists entries, (document.lookup container).bind format.asTable = some lists ∧
      (view format container document).place event = .list entries ∧
      after = prune format container event
        (withEntries format container event document lists (parties.foreign entries)) := by
  unfold takeOut at taken
  cases found : (document.lookup container).bind format.asTable with
  | none =>
      rw [found] at taken
      cases taken
  | some lists =>
      rw [found] at taken
      dsimp only at taken
      cases list : (lists.lookup event).bind format.asList with
      | none =>
          rw [list] at taken
          cases taken
      | some entries =>
          rw [list] at taken
          dsimp only at taken
          split at taken
          · cases taken
          · refine ⟨lists, entries, rfl, ?_, (Option.some.inj taken).symm⟩
            obtain ⟨value, here, isList⟩ := Option.bind_eq_some_iff.mp list
            unfold view
            dsimp only
            rw [(lists_of_isTable found).1, here]
            unfold placeOf
            dsimp only
            rw [isList]

theorem takeOut_of_ours {document : KeyTable V} {entries : List E} {entry : E}
    (shown : (view format container document).place event = .list entries)
    (member : entry ∈ entries) (mine : parties.ours entry = true) :
    ∃ lists, (document.lookup container).bind format.asTable = some lists ∧
      takeOut format container event parties document =
        some (prune format container event
          (withEntries format container event document lists (parties.foreign entries))) := by
  obtain ⟨lists, found, list⟩ := place_eq_list shown
  have shorter : ¬ (parties.foreign entries).length = entries.length := by
    intro same
    have all := List.length_filter_eq_length_iff.mp same entry member
    rw [mine] at all
    cases all
  refine ⟨lists, found, ?_⟩
  unfold takeOut
  rw [found]
  dsimp only
  rw [list]
  exact if_neg shorter

theorem takeOut_eq_none {document : KeyTable V}
    (taken : takeOut format container event parties document = none) :
    ∀ entry ∈ ((view format container document).place event).entries, parties.ours entry = false := by
  intro entry member
  cases mine : parties.ours entry with
  | false => rfl
  | true =>
      cases shown : (view format container document).place event with
      | list entries =>
          rw [shown] at member
          obtain ⟨lists, _, some⟩ := takeOut_of_ours shown member mine
          cases some.symm.trans taken
      | _ =>
          rw [shown] at member
          cases member

/-- What stands in the place after the program's entries are taken out, and in the others. -/
theorem takeOut_spec {document after : KeyTable V}
    (taken : takeOut format container event parties document = some after) :
    (∀ value, (view format container after).container ≠ .other value) ∧
      (∀ value, (view format container after).place event ≠ .other value) ∧
      ((view format container after).place event).entries =
        parties.foreign ((view format container document).place event).entries ∧
      ∀ key, key ≠ event →
        (view format container after).place key = (view format container document).place key := by
  obtain ⟨lists, entries, found, shown, rfl⟩ := takeOut_eq_some taken
  have written := @lookup_withEntries _ _ format container event document lists
    (parties.foreign entries)
  refine ⟨fun value other => ?_, fun value other => ?_, ?_, fun key differs => ?_⟩
  · rw [container_prune written] at other
    split at other <;> cases other
  · rw [place_prune written] at other
    rcases lookup_dropEmpty format event
      (format.insert event (format.list (parties.foreign entries)) lists) event with same | gone
    · rw [same, format.lookup_insert_self, placeOf_list] at other
      cases other
    · rw [gone.2.2] at other
      cases other
  · rw [place_prune written, entries_dropEmpty, format.lookup_insert_self, placeOf_list, shown]
    rfl
  · rw [place_prune written]
    rcases lookup_dropEmpty format event
      (format.insert event (format.list (parties.foreign entries)) lists) key with same | gone
    · rw [same, format.lookup_insert_of_ne _ _ differs, view, (lists_of_isTable found).1]
    · exact absurd gone.1 differs

/-- Where no entry is of both parties, taking out the program's is a frame. -/
theorem takeOut_keeps {document after : KeyTable V}
    (separate : Separate parties (· = event) (view format container document))
    (taken : takeOut format container event parties document = some after) :
    Separate parties (· = event) (view format container after) ∧
      Frame parties (· = event) (view format container document) (view format container after) := by
  obtain ⟨lists, entries, found, shown, rfl⟩ := takeOut_eq_some taken
  obtain ⟨there, isContainer⟩ := lists_of_isTable found
  have unmixed : ∀ entry ∈ entries, parties.Unmixed entry := by
    intro entry member
    refine separate.unmixed event rfl entry ?_
    rwa [shown]
  have kept : (parties.usersPart ((view format container document).place event).entries).Sublist
      (parties.usersPart (parties.foreign entries)) := by
    rw [shown]
    change (parties.usersPart entries).Sublist _
    rw [parties.usersPart_of_unmixed unmixed, parties.usersPart_foreign]
  have written : Frame parties (· = event) (view format container document)
      (view format container
        (withEntries format container event document lists (parties.foreign entries))) := by
    rw [← there]
    exact frame_withEntries rfl isContainer (by rw [shown]; exact fun _ other => nomatch other) kept
  refine ⟨separate_prune (lookup_withEntries document lists _) ?_, written.trans (frame_prune _)⟩
  rw [format.lookup_insert_self, placeOf_list]
  exact fun entry member => unmixed entry (List.mem_of_mem_filter member)

/-- An entry of both parties goes whole, and the user's part with it. -/
theorem takeOut_loses {document : KeyTable V} {entries : List E} {entry : E}
    (shown : (view format container document).place event = .list entries)
    (member : entry ∈ entries) (mixed : ¬ parties.Unmixed entry) :
    ∃ after, takeOut format container event parties document = some after ∧
      ¬ Keeps parties (view format container document) (view format container after) := by
  have mine : parties.ours entry = true := by
    by_contra notMine
    exact mixed fun isMine => absurd isMine notMine
  obtain ⟨lists, _, taken⟩ := takeOut_of_ours shown member mine
  refine ⟨_, taken, fun keeps => ?_⟩
  have kept := keeps.entries event
  rw [place_prune (lookup_withEntries document lists _), entries_dropEmpty,
    format.lookup_insert_self, placeOf_list, shown] at kept
  exact parties.not_sublist_foreign member mixed kept

theorem lookup_prune {document lists : KeyTable V}
    (found : (document.lookup container).bind format.asTable = some lists) :
    (prune format container event document).lookup container =
      if (dropEmpty format event lists).isEmpty then none
      else some (format.table (dropEmpty format event lists)) := by
  unfold prune
  rw [found]
  dsimp only
  split
  · exact lookup_remove_self _ _
  · exact format.lookup_insert_self _ _ _

theorem lookup_prune_of_ne {name : String} (other : name ≠ container) (document : KeyTable V) :
    (prune format container event document).lookup name = document.lookup name := by
  unfold prune
  split
  · split
    · exact lookup_remove_of_ne other _
    · exact format.lookup_insert_of_ne _ _ other
  · rfl

/-- Nothing but the container is looked at. -/
theorem lookup_takeOut {one other : KeyTable V}
    (same : one.lookup container = other.lookup container) :
    (takeOut format container event parties one).map (List.lookup container) =
      (takeOut format container event parties other).map (List.lookup container) := by
  unfold takeOut
  rw [same]
  split
  · rfl
  · split
    · rfl
    · split
      · rfl
      · rw [Option.map_some, Option.map_some, lookup_prune (lookup_withEntries _ _ _),
          lookup_prune (lookup_withEntries _ _ _)]

theorem lookup_takeOut_of_ne {document after : KeyTable V} {name : String}
    (other : name ≠ container)
    (taken : takeOut format container event parties document = some after) :
    after.lookup name = document.lookup name := by
  obtain ⟨lists, entries, _, _, rfl⟩ := takeOut_eq_some taken
  rw [lookup_prune_of_ne other]
  exact format.lookup_insert_of_ne _ _ other

/-- The program's entry goes from a list that has no other, the list goes with it, and the
container too when it has no other list. -/
theorem takeOut_single {document lists : KeyTable V} {entry : E} (mine : parties.ours entry = true) :
    ∃ after, takeOut format container event parties
        (withEntries format container event document lists [entry]) = some after ∧
      (view format container after).place event = .missing ∧
      (remove event (format.insert event (format.list [])
        (format.insert event (format.list [entry]) lists)) = [] →
          (view format container after).container = .missing) := by
  have nothing : parties.foreign [entry] = [] := List.filter_cons_of_neg (by rw [mine]; decide)
  have shown : (view format container (withEntries format container event document lists
      [entry])).place event = .list [entry] := place_withEntries document lists [entry]
  obtain ⟨inside, found, taken⟩ := takeOut_of_ours shown List.mem_cons_self mine
  rw [lookup_withEntries] at found
  cases found
  rw [nothing] at taken
  refine ⟨_, taken, ?_, fun alone => ?_⟩
  · rw [place_prune (lookup_withEntries _ _ _), dropEmpty_insert_nil, lookup_remove_self]
    rfl
  · rw [container_prune (lookup_withEntries _ _ _), dropEmpty_insert_nil, alone]
    rfl

end

end KeyedLists
