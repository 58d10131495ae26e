import Mathlib.Data.Finset.Basic
import BrickTrace.Lib.Json
import BrickTrace.Lib.OrderedMap
import BrickTrace.Lib.ReferenceGraph
import BrickTrace.Protocol.Text

/-!
# Content that Cursor stores apart

A value may refer to content that the database holds under a key of its own, and that content may
refer to more.  The resolver puts the content in the place of each reference and goes on in it.
The keys that it has seen guard only the lookup of a key, not what is done with its content.
-/

set_option autoImplicit false

namespace BrickTrace.Cursor

open OrderedMap (Map)
open ReferenceGraph (NoCycleFrom Within)

/-! ## Keys of content -/

def contentKeyPrefix : String := "composer.content."

def stripPrefix (text start : String) : Option String :=
  (text.toList.dropPrefix? start.toList).map String.ofList

def isProbableContentHash (value : String) : Bool :=
  16 ≤ value.utf8ByteSize && value.utf8ByteSize ≤ 128 &&
    value.toList.all fun char => char.isDigit || ('a' ≤ char && char ≤ 'f') || ('A' ≤ char && char ≤ 'F')

def isEmbeddedContentIdentifier (value : String) : Bool :=
  match stripPrefix value "content-" with
  | some hash => isProbableContentHash hash
  | none => isProbableContentHash value

/-- A scheme that is not followed by the other one is kept, for both fall back on the whole text. -/
def contentKeyFromStr (text : String) : Option String :=
  let trimmed := trim text
  let contentKey :=
    (stripPrefix ((stripPrefix trimmed "cursorDiskKV://").getD trimmed) "cursor://").getD trimmed
  if startsWith contentKey contentKeyPrefix then some contentKey
  else if isEmbeddedContentIdentifier contentKey then some (contentKeyPrefix ++ contentKey)
  else none

def contentKeyFromValue (value : Json) : Option String :=
  (value.decodeString.bind contentKeyFromStr).or
    ((((value.get "key").or (value.get "contentKey")).or ((value.get "contentId").or
      (value.get "id"))).bind Json.decodeString |>.bind contentKeyFromStr)

def shouldResolveContentField (key : String) : Bool :=
  let normalized := String.ofList (key.toList.map Char.toLower)
  containsText normalized "content" || endsWith normalized "id" || endsWith normalized "ids" ||
    endsWith normalized "key" || endsWith normalized "keys" || containsText normalized "hash"

/-! ## The resolver -/

/-- A computation with the set of seen keys, unless it does not come to an end. -/
abbrev Resolver (A : Type) := StateT (Finset String) Option A

section Resolve
variable (read : String → Resolver (Option Json))

/-- The content under a key, or else what is done without one. -/
def readOr (key : Option String) (otherwise : Resolver Json) : Resolver Json :=
  match key with
  | none => otherwise
  | some key => do
      match ← read key with
      | some content => return content
      | none => otherwise

mutual

def resolveIn : Json → Resolver Json
  | .string text => readOr read (contentKeyFromStr text) (return .string text)
  | .array items => return .array (← resolveItems items)
  | .object entries =>
      readOr read (contentKeyFromValue (.object entries)) do return .object (← resolveEntries entries)
  | value => return value

def resolveItems : List Json → Resolver (List Json)
  | [] => return []
  | item :: rest => do
      let resolved ← resolveIn item
      return resolved :: (← resolveItems rest)

def resolveEntries : List (String × Json) → Resolver (List (String × Json))
  | [] => return []
  | (key, child) :: rest => do
      let resolved ←
        readOr read (if shouldResolveContentField key then contentKeyFromValue child else none)
          (resolveIn child)
      return (key, resolved) :: (← resolveEntries rest)

end

end Resolve

section Store
variable (parseJson : String → Option Json) (store : Map String String)

def parseBlobValue (raw : String) : Json := (parseJson raw).getD (.string raw)

/-- A key is taken out of the seen ones before its content is resolved. -/
def readContentKey (resolve : Json → Resolver Json) (key : String) : Resolver (Option Json) := do
  if key ∈ (← get) then return none
  modify (insert key)
  let value := store[key]?
  modify (·.erase key)
  match value with
  | none => return none
  | some raw => return some (← resolve (parseBlobValue parseJson raw))

/-- Resolves through at most so many contents within each other. -/
def resolveValue : Nat → Json → Resolver Json
  | 0 => resolveIn (readContentKey parseJson store fun _ _ => none)
  | depth + 1 => resolveIn (readContentKey parseJson store (resolveValue depth))

/-! ## What resolving is for -/

section Replace
variable (content : String → Option Json)

mutual

/-- Every reference to a key that has content is replaced by it. -/
def replaceRefs : Json → Json
  | .string text => ((contentKeyFromStr text).bind content).getD (.string text)
  | .array items => .array (replaceItems items)
  | .object entries =>
      ((contentKeyFromValue (.object entries)).bind content).getD (.object (replaceEntries entries))
  | value => value

def replaceItems : List Json → List Json
  | [] => []
  | item :: rest => replaceRefs item :: replaceItems rest

def replaceEntries : List (String × Json) → List (String × Json)
  | [] => []
  | (key, child) :: rest => (key, replaceRefs child) :: replaceEntries rest

end

end Replace

section References
variable (has : String → Bool)

mutual

/-- The keys that a value refers to and that the store has. -/
def references : Json → List String
  | .string text => ((contentKeyFromStr text).filter has).toList
  | .array items => referencesOfItems items
  | .object entries =>
      match (contentKeyFromValue (.object entries)).filter has with
      | some key => [key]
      | none => referencesOfEntries entries
  | _ => []

def referencesOfItems : List Json → List String
  | [] => []
  | item :: rest => references item ++ referencesOfItems rest

def referencesOfEntries : List (String × Json) → List String
  | [] => []
  | (_, child) :: rest => references child ++ referencesOfEntries rest

end

end References

/-- The keys that the content under a key refers to. -/
def referredBy (key : String) : List String :=
  match store[key]? with
  | none => []
  | some raw => references (store.contains ·) (parseBlobValue parseJson raw)

/-- The fully resolved contents of the keys that a value leads to. -/
structure FullContent (value : Json) (content : String → Option Json) : Prop where
  held : ∀ start ∈ references (store.contains ·) value, ∀ key,
    Relation.ReflTransGen (ReferenceGraph.Leads (referredBy parseJson store)) start key →
      ∀ raw, store[key]? = some raw →
        content key = some (replaceRefs content (parseBlobValue parseJson raw))
  missing : ∀ key, store[key]? = none → content key = none

def AcyclicStore : Prop :=
  ∀ key, ¬Relation.TransGen (ReferenceGraph.Leads (referredBy parseJson store)) key key

/-- Resolving comes to an end, and in a store without cycles every reference is then replaced by
its fully resolved content. -/
structure ResolvesContent (value : Json) : Prop where
  terminates : ∃ depth, (resolveValue parseJson store depth value ∅).isSome = true
  resolved : AcyclicStore parseJson store → ∃ content, FullContent parseJson store value content ∧
    ∃ depth, resolveValue parseJson store depth value ∅ = some (replaceRefs content value, ∅)

end Store

/-! ## Running the resolver -/

section Running
variable {read : String → Resolver (Option Json)} {has : String → Bool} {seen : Finset String}

theorem run_bind {A B : Type} (first : Resolver A) (after : A → Resolver B) (seen : Finset String) :
    (first >>= after) seen = (first seen).bind fun found => after found.1 found.2 := rfl

theorem run_pure {A : Type} (value : A) (seen : Finset String) :
    (pure value : Resolver A) seen = some (value, seen) := rfl

theorem contentKeyFromValue_string (text : String) :
    contentKeyFromValue (.string text) = contentKeyFromStr text := by
  simp [contentKeyFromValue, Json.decodeString, Json.get]

theorem resolveItems_cons (item : Json) (rest : List Json) :
    resolveItems read (item :: rest) seen =
      (resolveIn read item seen).bind fun first =>
        (resolveItems read rest first.2).bind fun others => some (first.1 :: others.1, others.2) := by
  rw [resolveItems]
  simp only [run_bind, run_pure]

theorem resolveEntries_cons (key : String) (child : Json) (rest : List (String × Json)) :
    resolveEntries read ((key, child) :: rest) seen =
      (readOr read (if shouldResolveContentField key then contentKeyFromValue child else none)
        (resolveIn read child) seen).bind fun first =>
          (resolveEntries read rest first.2).bind fun others =>
            some ((key, first.1) :: others.1, others.2) := by
  rw [resolveEntries]
  simp only [run_bind, run_pure]

theorem readOr_some (key : String) (otherwise : Resolver Json) :
    readOr read (some key) otherwise seen =
      (read key seen).bind fun found =>
        match found.1 with
        | some content => some (content, found.2)
        | none => otherwise found.2 := by
  unfold readOr
  dsimp only
  rw [run_bind]
  congr 1
  funext found
  cases found.1 <;> rfl

/-- A value that is neither a text nor an object is no reference. -/
theorem contentKeyFromValue_eq_none {value : Json} (noText : Json.decodeString value = none)
    (noEntry : ∀ name, value.get name = none) : contentKeyFromValue value = none := by
  simp [contentKeyFromValue, noText, noEntry]

/-- A value that is a reference as a whole has no other. -/
theorem references_of_key {value : Json} {key : String}
    (isReference : (contentKeyFromValue value).filter has = some key) :
    references has value = [key] := by
  cases value with
  | null => rw [contentKeyFromValue_eq_none rfl fun _ => rfl] at isReference; cases isReference
  | bool flag => rw [contentKeyFromValue_eq_none rfl fun _ => rfl] at isReference; cases isReference
  | number number => rw [contentKeyFromValue_eq_none rfl fun _ => rfl] at isReference; cases isReference
  | array items => rw [contentKeyFromValue_eq_none rfl fun _ => rfl] at isReference; cases isReference
  | string text =>
      rw [contentKeyFromValue_string] at isReference
      rw [references, isReference]
      rfl
  | object entries => rw [references, isReference]

theorem replaceRefs_of_key {content : String → Option Json} {value out : Json}
    (isReference : (contentKeyFromValue value).bind content = some out) :
    replaceRefs content value = out := by
  cases value with
  | null => rw [contentKeyFromValue_eq_none rfl fun _ => rfl] at isReference; cases isReference
  | bool flag => rw [contentKeyFromValue_eq_none rfl fun _ => rfl] at isReference; cases isReference
  | number number => rw [contentKeyFromValue_eq_none rfl fun _ => rfl] at isReference; cases isReference
  | array items => rw [contentKeyFromValue_eq_none rfl fun _ => rfl] at isReference; cases isReference
  | string text =>
      rw [contentKeyFromValue_string] at isReference
      rw [replaceRefs, isReference, Option.getD_some]
  | object entries => rw [replaceRefs, isReference, Option.getD_some]

section Held
variable {content : String → Option Json}

/-- A reference is replaced by what is read, and a key without content is left to the rest. -/
theorem readOr_eq
    (missing : ∀ key, has key = false → read key seen = some (none, seen))
    (absent : ∀ key, has key = false → content key = none)
    (key : Option String) (otherwise : Resolver Json) (fallback : Json)
    (held : ∀ known, key.filter has = some known →
      ∃ found, content known = some found ∧ read known seen = some (some found, seen))
    (other : key.filter has = none → otherwise seen = some (fallback, seen)) :
    readOr read key otherwise seen = some ((key.bind content).getD fallback, seen) := by
  cases key with
  | none => exact other rfl
  | some key =>
      rw [readOr_some, Option.bind_some]
      cases isHeld : has key with
      | true =>
          obtain ⟨found, isContent, isRead⟩ := held key (by simp [isHeld])
          rw [isRead, isContent]
          rfl
      | false =>
          rw [missing key isHeld, absent key isHeld]
          exact other (by simp [isHeld])

mutual

theorem resolveIn_eq
    (missing : ∀ key, has key = false → read key seen = some (none, seen))
    (absent : ∀ key, has key = false → content key = none)
    (value : Json)
    (held : ∀ key ∈ references has value,
      ∃ found, content key = some found ∧ read key seen = some (some found, seen)) :
    resolveIn read value seen = some (replaceRefs content value, seen) := by
  cases value with
  | null => rfl
  | bool flag => rfl
  | number number => rfl
  | string text =>
      rw [resolveIn, replaceRefs]
      apply readOr_eq missing absent
      · intro known isKey
        apply held known
        rw [references, isKey]
        exact List.mem_singleton_self known
      · exact fun _ => run_pure _ seen
  | array items =>
      rw [resolveIn, run_bind, resolveItems_eq missing absent items held, replaceRefs]
      rfl
  | object entries =>
      rw [resolveIn, replaceRefs]
      apply readOr_eq missing absent
      · intro known isKey
        apply held known
        rw [references_of_key isKey]
        exact List.mem_singleton_self known
      · intro noKey
        rw [references, noKey] at held
        rw [run_bind, resolveEntries_eq missing absent entries held]
        rfl

theorem resolveItems_eq
    (missing : ∀ key, has key = false → read key seen = some (none, seen))
    (absent : ∀ key, has key = false → content key = none)
    (items : List Json)
    (held : ∀ key ∈ referencesOfItems has items,
      ∃ found, content key = some found ∧ read key seen = some (some found, seen)) :
    resolveItems read items seen = some (replaceItems content items, seen) := by
  cases items with
  | nil => rfl
  | cons item rest =>
      rw [referencesOfItems, List.forall_mem_append] at held
      rw [resolveItems_cons, resolveIn_eq missing absent item held.1, Option.bind_some, resolveItems_eq missing absent rest held.2,
        replaceItems]
      rfl

theorem resolveEntries_eq
    (missing : ∀ key, has key = false → read key seen = some (none, seen))
    (absent : ∀ key, has key = false → content key = none)
    (entries : List (String × Json))
    (held : ∀ key ∈ referencesOfEntries has entries,
      ∃ found, content key = some found ∧ read key seen = some (some found, seen)) :
    resolveEntries read entries seen = some (replaceEntries content entries, seen) := by
  cases entries with
  | nil => rfl
  | cons entry rest =>
      obtain ⟨name, child⟩ := entry
      rw [referencesOfEntries, List.forall_mem_append] at held
      have resolved := resolveIn_eq missing absent child held.1
      have field : readOr read (if shouldResolveContentField name then contentKeyFromValue child else none)
          (resolveIn read child) seen = some (replaceRefs content child, seen) := by
        split
        · have read_field := readOr_eq missing absent (contentKeyFromValue child) _ _
            (fun known isKey => held.1 known (by simp [references_of_key isKey])) fun _ => resolved
          rw [read_field]
          -- the field is looked at for a key, and so is its value
          cases isReference : (contentKeyFromValue child).bind content with
          | none => rfl
          | some out => rw [replaceRefs_of_key isReference, Option.getD_some]
        · exact resolved
      rw [resolveEntries_cons, field, Option.bind_some, resolveEntries_eq missing absent rest held.2, replaceEntries]
      rfl

end

end Held

theorem reads_of_readOr
    (missing : ∀ key, has key = false → read key seen = some (none, seen))
    (present : ∀ key found, has key = true → read key seen = some found →
      found.1.isSome = true ∧ found.2 = seen)
    {key : Option String} {otherwise : Resolver Json} {out : Json × Finset String}
    (done : readOr read key otherwise seen = some out) :
    (∃ known, key.filter has = some known ∧ (read known seen).isSome = true ∧ out.2 = seen) ∨
      key.filter has = none ∧ otherwise seen = some out := by
  cases key with
  | none => exact Or.inr ⟨rfl, done⟩
  | some key =>
      rw [readOr_some] at done
      obtain ⟨found, isRead, done⟩ := Option.bind_eq_some_iff.mp done
      cases isHeld : has key with
      | true =>
          obtain ⟨isContent, kept⟩ := present key found isHeld isRead
          obtain ⟨content, same⟩ := Option.isSome_iff_exists.mp isContent
          rw [same, Option.some.injEq] at done
          subst done
          exact Or.inl ⟨key, by simp [isHeld], by rw [isRead]; rfl, kept⟩
      | false =>
          rw [missing key isHeld, Option.some.injEq] at isRead
          subst isRead
          exact Or.inr ⟨by simp [isHeld], done⟩

mutual

/-- What is resolved has all its references read, and the seen keys are as they were. -/
theorem reads_of_resolveIn
    (missing : ∀ key, has key = false → read key seen = some (none, seen))
    (present : ∀ key found, has key = true → read key seen = some found →
      found.1.isSome = true ∧ found.2 = seen)
    (value : Json) {out : Json × Finset String}
    (done : resolveIn read value seen = some out) :
    out.2 = seen ∧ ∀ key ∈ references has value, (read key seen).isSome = true := by
  cases value with
  | null => cases done; exact ⟨rfl, fun _ member => nomatch member⟩
  | bool flag => cases done; exact ⟨rfl, fun _ member => nomatch member⟩
  | number number => cases done; exact ⟨rfl, fun _ member => nomatch member⟩
  | string text =>
      rw [resolveIn] at done
      rcases reads_of_readOr missing present done with ⟨known, isKey, isRead, kept⟩ | ⟨noKey, done⟩
      · refine ⟨kept, fun key member => ?_⟩
        rw [references, isKey] at member
        rw [List.mem_singleton.mp member]
        exact isRead
      · cases done
        refine ⟨rfl, fun key member => ?_⟩
        rw [references, noKey] at member
        cases member
  | array items =>
      rw [resolveIn, run_bind] at done
      obtain ⟨resolved, isResolved, done⟩ := Option.bind_eq_some_iff.mp done
      cases done
      exact reads_of_resolveItems missing present items isResolved
  | object entries =>
      rw [resolveIn] at done
      rcases reads_of_readOr missing present done with ⟨known, isKey, isRead, kept⟩ | ⟨noKey, done⟩
      · refine ⟨kept, fun key member => ?_⟩
        rw [references_of_key isKey] at member
        rw [List.mem_singleton.mp member]
        exact isRead
      · rw [run_bind] at done
        obtain ⟨resolved, isResolved, done⟩ := Option.bind_eq_some_iff.mp done
        cases done
        rw [references, noKey]
        exact reads_of_resolveEntries missing present entries isResolved

theorem reads_of_resolveItems
    (missing : ∀ key, has key = false → read key seen = some (none, seen))
    (present : ∀ key found, has key = true → read key seen = some found →
      found.1.isSome = true ∧ found.2 = seen)
    (items : List Json) {out : List Json × Finset String}
    (done : resolveItems read items seen = some out) :
    out.2 = seen ∧ ∀ key ∈ referencesOfItems has items, (read key seen).isSome = true := by
  cases items with
  | nil => cases done; exact ⟨rfl, fun _ member => nomatch member⟩
  | cons item rest =>
      rw [resolveItems_cons] at done
      obtain ⟨first, isFirst, done⟩ := Option.bind_eq_some_iff.mp done
      obtain ⟨others, areOthers, done⟩ := Option.bind_eq_some_iff.mp done
      cases done
      obtain ⟨kept, firstRead⟩ := reads_of_resolveIn missing present item isFirst
      rw [kept] at areOthers
      obtain ⟨restKept, restRead⟩ := reads_of_resolveItems missing present rest areOthers
      rw [referencesOfItems]
      exact ⟨restKept, List.forall_mem_append.mpr ⟨firstRead, restRead⟩⟩

theorem reads_of_resolveEntries
    (missing : ∀ key, has key = false → read key seen = some (none, seen))
    (present : ∀ key found, has key = true → read key seen = some found →
      found.1.isSome = true ∧ found.2 = seen)
    (entries : List (String × Json))
    {out : List (String × Json) × Finset String}
    (done : resolveEntries read entries seen = some out) :
    out.2 = seen ∧ ∀ key ∈ referencesOfEntries has entries, (read key seen).isSome = true := by
  cases entries with
  | nil => cases done; exact ⟨rfl, fun _ member => nomatch member⟩
  | cons entry rest =>
      obtain ⟨name, child⟩ := entry
      rw [resolveEntries_cons] at done
      obtain ⟨first, isFirst, done⟩ := Option.bind_eq_some_iff.mp done
      obtain ⟨others, areOthers, done⟩ := Option.bind_eq_some_iff.mp done
      cases done
      have field : first.2 = seen ∧ ∀ key ∈ references has child, (read key seen).isSome = true := by
        rcases reads_of_readOr missing present isFirst with ⟨known, isKey, isRead, kept⟩ | ⟨_, done⟩
        · refine ⟨kept, fun key member => ?_⟩
          have ofChild : (contentKeyFromValue child).filter has = some known := by
            split at isKey
            · exact isKey
            · cases isKey
          rw [references_of_key ofChild] at member
          rw [List.mem_singleton.mp member]
          exact isRead
        · exact reads_of_resolveIn missing present child done
      obtain ⟨kept, firstRead⟩ := field
      rw [kept] at areOthers
      obtain ⟨restKept, restRead⟩ := reads_of_resolveEntries missing present rest areOthers
      rw [referencesOfEntries]
      exact ⟨restKept, List.forall_mem_append.mpr ⟨firstRead, restRead⟩⟩

end

end Running

mutual

theorem has_of_references (has : String → Bool) (value : Json) {key : String}
    (member : key ∈ references has value) : has key = true := by
  cases value with
  | null => cases member
  | bool flag => cases member
  | number number => cases member
  | string text =>
      rw [references, Option.mem_toList] at member
      exact (Option.filter_eq_some_iff.mp member).2
  | array items => exact has_of_referencesOfItems has items member
  | object entries =>
      rw [references] at member
      split at member
      · rename_i known isKey
        rw [List.mem_singleton.mp member]
        exact (Option.filter_eq_some_iff.mp isKey).2
      · exact has_of_referencesOfEntries has entries member

theorem has_of_referencesOfItems (has : String → Bool) (items : List Json) {key : String}
    (member : key ∈ referencesOfItems has items) : has key = true := by
  cases items with
  | nil => cases member
  | cons item rest =>
      rcases List.mem_append.mp member with here | later
      · exact has_of_references has item here
      · exact has_of_referencesOfItems has rest later

theorem has_of_referencesOfEntries (has : String → Bool) (entries : List (String × Json))
    {key : String} (member : key ∈ referencesOfEntries has entries) : has key = true := by
  cases entries with
  | nil => cases member
  | cons entry rest =>
      obtain ⟨name, child⟩ := entry
      rcases List.mem_append.mp member with here | later
      · exact has_of_references has child here
      · exact has_of_referencesOfEntries has rest later

end

/-! ## Contents within contents -/

section Depth
variable {parseJson : String → Option Json} {store : Map String String}

theorem readContentKey_run (resolve : Json → Resolver Json) (key : String) :
    readContentKey parseJson store resolve key ∅ =
      match store[key]? with
      | none => some (none, ∅)
      | some raw => (resolve (parseBlobValue parseJson raw) ∅).bind fun found =>
          some (some found.1, found.2) := by
  have lookedUp : readContentKey parseJson store resolve key ∅ =
      (match store[key]? with
        | none => (pure none : Resolver (Option Json))
        | some raw => do return some (← resolve (parseBlobValue parseJson raw)))
          ((insert key ∅ : Finset String).erase key) := rfl
  rw [lookedUp, Finset.erase_insert (Finset.notMem_empty key)]
  cases store[key]? with
  | none => rfl
  | some raw => rfl

theorem contains_eq_false_iff (key : String) : store.contains key = false ↔ store[key]? = none := by
  rw [Std.ExtTreeMap.contains_eq_isSome_getElem?, Option.isSome_eq_false_iff, Option.isNone_iff_eq_none]

theorem exists_of_contains {key : String} (isHeld : store.contains key = true) :
    ∃ raw, store[key]? = some raw := by
  rw [Std.ExtTreeMap.contains_eq_isSome_getElem?] at isHeld
  exact Option.isSome_iff_exists.mp isHeld

theorem readContentKey_missing (resolve : Json → Resolver Json) (key : String)
    (absent : store.contains key = false) :
    readContentKey parseJson store resolve key ∅ = some (none, ∅) := by
  rw [readContentKey_run, (contains_eq_false_iff key).mp absent]

/-- A resolver that leaves no seen keys behind reads contents that leave none. -/
theorem readContentKey_present {resolve : Json → Resolver Json}
    (kept : ∀ value out, resolve value ∅ = some out → out.2 = ∅) (key : String)
    (found : Option Json × Finset String) (isHeld : store.contains key = true)
    (isRead : readContentKey parseJson store resolve key ∅ = some found) :
    found.1.isSome = true ∧ found.2 = ∅ := by
  obtain ⟨raw, isRaw⟩ := exists_of_contains isHeld
  rw [readContentKey_run, isRaw] at isRead
  obtain ⟨out, done, same⟩ := Option.bind_eq_some_iff.mp isRead
  cases same
  exact ⟨rfl, kept _ out done⟩

theorem nothing_keeps (value : Json) (out : Json × Finset String)
    (done : (fun _ _ => none : Json → Resolver Json) value ∅ = some out) : out.2 = ∅ := by
  cases done

theorem resolveValue_keeps (depth : Nat) (value : Json) (out : Json × Finset String)
    (done : resolveValue parseJson store depth value ∅ = some out) : out.2 = ∅ := by
  induction depth generalizing value out with
  | zero =>
      exact (reads_of_resolveIn (readContentKey_missing _)
        (readContentKey_present nothing_keeps) value done).1
  | succ depth ih =>
      exact (reads_of_resolveIn (readContentKey_missing _) (readContentKey_present ih) value done).1

theorem referredBy_eq {key raw : String} (isRaw : store[key]? = some raw) :
    referredBy parseJson store key = references (store.contains ·) (parseBlobValue parseJson raw) := by
  unfold referredBy
  rw [isRaw]

/-- What is resolved at a depth leads no further than that. -/
theorem within_of_resolved {depth : Nat} {value : Json} {out : Json × Finset String}
    (done : resolveValue parseJson store depth value ∅ = some out) :
    ∀ key ∈ references (store.contains ·) value, Within (referredBy parseJson store) depth key := by
  induction depth generalizing value out with
  | zero =>
      intro key member
      obtain ⟨raw, isRaw⟩ := exists_of_contains (has_of_references _ value member)
      have isRead := (reads_of_resolveIn (readContentKey_missing _)
        (readContentKey_present nothing_keeps) value done).2 key member
      rw [readContentKey_run, isRaw] at isRead
      cases isRead
  | succ depth ih =>
      intro key member other leads
      obtain ⟨raw, isRaw⟩ := exists_of_contains (has_of_references _ value member)
      have isRead := (reads_of_resolveIn (readContentKey_missing _)
        (readContentKey_present (resolveValue_keeps depth)) value done).2 key member
      obtain ⟨found, isFound⟩ := Option.isSome_iff_exists.mp isRead
      rw [readContentKey_run, isRaw] at isFound
      obtain ⟨inner, isInner, _⟩ := Option.bind_eq_some_iff.mp isFound
      rw [referredBy_eq isRaw] at leads
      exact ih isInner other leads

/-- What the content under a key is resolved to. -/
def contentAt (parseJson : String → Option Json) (store : Map String String) (depth : Nat)
    (key : String) : Option Json :=
  (store[key]?).bind fun raw =>
    (resolveValue parseJson store depth (parseBlobValue parseJson raw) ∅).map Prod.fst

theorem contentAt_missing {depth : Nat} (key : String) (absent : store.contains key = false) :
    contentAt parseJson store depth key = none := by
  unfold contentAt
  rw [(contains_eq_false_iff key).mp absent]
  rfl

/-- What leads no further than a depth is resolved at every depth from there on. -/
theorem resolveValue_of_within {depth : Nat} {value : Json}
    (within : ∀ key ∈ references (store.contains ·) value,
      Within (referredBy parseJson store) depth key)
    {enough most : Nat} (isEnough : depth ≤ enough) (isMost : depth ≤ most) :
    resolveValue parseJson store enough value ∅ =
      some (replaceRefs (contentAt parseJson store most) value, ∅) := by
  induction depth generalizing value enough most with
  | zero =>
      have none_held : ∀ read : String → Resolver (Option Json),
          ∀ key ∈ references (store.contains ·) value, ∃ found,
            contentAt parseJson store most key = some found ∧ read key ∅ = some (some found, ∅) :=
        fun _ key member => (within key member).elim
      cases enough with
      | zero => exact resolveIn_eq (readContentKey_missing _) contentAt_missing value (none_held _)
      | succ enough => exact resolveIn_eq (readContentKey_missing _) contentAt_missing value (none_held _)
  | succ depth ih =>
      cases enough with
      | zero => cases isEnough
      | succ enough =>
          refine resolveIn_eq (readContentKey_missing _) contentAt_missing value fun key member => ?_
          obtain ⟨raw, isRaw⟩ := exists_of_contains (has_of_references _ value member)
          have inner := within key member
          unfold Within at inner
          rw [referredBy_eq isRaw] at inner
          have here := ih inner (Nat.le_of_succ_le_succ isEnough) (Nat.le_of_succ_le isMost)
          have there := ih inner (Nat.le_of_succ_le isMost) (Nat.le_of_succ_le isMost)
          refine ⟨replaceRefs (contentAt parseJson store most) (parseBlobValue parseJson raw), ?_, ?_⟩
          · unfold contentAt at there ⊢
            rw [isRaw, Option.bind_some, there]
            rfl
          · rw [readContentKey_run, isRaw]
            dsimp only
            rw [here]
            rfl

theorem finite_referring : {key | referredBy parseJson store key ≠ []}.Finite := by
  apply (List.finite_toSet store.keys).subset
  intro key referring
  rw [Set.mem_ofPred_eq, Std.ExtTreeMap.mem_keys]
  by_contra absent
  apply referring
  unfold referredBy
  rw [Std.ExtTreeMap.getElem?_eq_none absent]

end Depth

/-- A value is resolved exactly if none of its references leads into a cycle. -/
theorem resolvesContent_iff (parseJson : String → Option Json) (store : Map String String)
    (value : Json) :
    ResolvesContent parseJson store value ↔
      NoCycleFrom (referredBy parseJson store) (references (store.contains ·) value) := by
  rw [← ReferenceGraph.exists_depth_iff finite_referring]
  constructor
  · intro resolves
    obtain ⟨depth, done⟩ := resolves.terminates
    obtain ⟨out, isDone⟩ := Option.isSome_iff_exists.mp done
    exact ⟨depth, within_of_resolved isDone⟩
  · rintro ⟨depth, within⟩
    have resolved := resolveValue_of_within within (Nat.le_refl depth) (Nat.le_refl depth)
    refine ⟨⟨depth, by rw [resolved]; rfl⟩, fun _ => ⟨contentAt parseJson store depth, ?_, depth, resolved⟩⟩
    refine ⟨fun start isStart key reaches raw isRaw => ?_, fun key absent => ?_⟩
    · have inner := (within start isStart).reached reaches
      cases depth with
      | zero => cases inner
      | succ depth =>
          unfold Within at inner
          rw [referredBy_eq isRaw] at inner
          have there := resolveValue_of_within inner (Nat.le_succ depth) (Nat.le_succ depth)
          unfold contentAt at there ⊢
          rw [isRaw, Option.bind_some, there]
          rfl
    · exact contentAt_missing key ((contains_eq_false_iff key).mpr absent)

/-- A content that is its own key. -/
theorem own_key_not_resolved :
    ¬ResolvesContent (fun _ => none)
      ((∅ : Map String String).insert "composer.content.notes" "composer.content.notes")
      (.string "composer.content.notes") := by
  intro resolves
  obtain ⟨depth, done⟩ := resolves.terminates
  obtain ⟨out, isDone⟩ := Option.isSome_iff_exists.mp done
  have isKey : contentKeyFromStr "composer.content.notes" = some "composer.content.notes" := by
    decide +kernel
  have isHeld : ((∅ : Map String String).insert "composer.content.notes"
      "composer.content.notes").contains "composer.content.notes" = true :=
    Std.ExtTreeMap.contains_insert_self
  have refers : references (((∅ : Map String String).insert "composer.content.notes"
      "composer.content.notes").contains ·) (.string "composer.content.notes") =
        ["composer.content.notes"] := by
    rw [references, isKey, Option.filter_some, if_pos isHeld]
    rfl
  have leads : ReferenceGraph.Leads (referredBy (fun _ => none) ((∅ : Map String String).insert
      "composer.content.notes" "composer.content.notes")) "composer.content.notes"
        "composer.content.notes" := by
    unfold ReferenceGraph.Leads
    rw [referredBy_eq Std.ExtTreeMap.getElem?_insert_self]
    exact refers ▸ List.mem_singleton_self _
  have within := within_of_resolved isDone "composer.content.notes"
    (refers ▸ List.mem_singleton_self _)
  exact within.not_cycle (Relation.TransGen.single leads)

end BrickTrace.Cursor
