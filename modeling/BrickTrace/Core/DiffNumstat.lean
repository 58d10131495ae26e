import BrickTrace.Lib.Fallible
import BrickTrace.Lib.NulFields
import BrickTrace.Lib.Numerals
import BrickTrace.Protocol.Payloads
import BrickTrace.Protocol.Text

/-!
# The line counts of a diff

`git diff --numstat -z` writes an entry of one field for a path that stays, and of three
fields for a path that moves: the counts with an empty path, the old path and the new one.
The fields alone tell the two apart.
-/

set_option autoImplicit false

namespace BrickTrace

inductive NumstatError where
  | notUtf8
  | missingCount (label : String)
  | invalidCount (label raw : String)
  | missingPaths
deriving DecidableEq

def NumstatError.message : NumstatError → String
  | .notUtf8 => "git numstat output was not UTF-8"
  | .missingCount label => "missing numstat " ++ label
  | .invalidCount label raw => "invalid numstat " ++ label ++ ": " ++ raw
  | .missingPaths => "git numstat rename entry was missing paths"

/-! ## Parsing -/

def parseNumstatCount (value : Option String) (label : String) : Except NumstatError (Option UInt64) :=
  match value with
  | none => .error (.missingCount label)
  | some raw =>
      if raw = "-" then .ok none
      else
        match parseU64 (trim raw) with
        | some count => .ok (some count)
        | none => .error (.invalidCount label raw)

/-- At most three parts, of which only the last may hold a tab. -/
def splitTabs (header : String) : String × Option String × Option String :=
  match splitOnce '\t' header with
  | none => (header, none, none)
  | some (first, rest) =>
      match splitOnce '\t' rest with
      | none => (first, some rest, none)
      | some (second, third) => (first, some second, some third)

def parseNumstatHeader (header : String) :
    Except NumstatError (Option UInt64 × Option UInt64 × String) := do
  let (first, second, third) := splitTabs header
  let additions ← parseNumstatCount (some first) "additions"
  let deletions ← parseNumstatCount second "deletions"
  return (additions, deletions, third.getD "")

def numstatChange (oldPath : Option String) (path : String) (additions deletions : Option UInt64) :
    DiffFileChange where
  path := path
  oldPath := oldPath
  changeKind := if oldPath.isSome then .renamed else .modified
  additions := additions
  deletions := deletions
  hunks := []
  patchId := none

/-- The loop of `parse_numstat` from one of the fields on. -/
def parseNumstatFields : List String → Except NumstatError (List DiffFileChange)
  | [] => .ok []
  | header :: rest => do
      let (additions, deletions, firstPath) ← parseNumstatHeader header
      if firstPath = "" then
        match rest with
        | oldPath :: path :: rest =>
            return numstatChange (some oldPath) path additions deletions :: (← parseNumstatFields rest)
        | _ => .error .missingPaths
      else
        return numstatChange none firstPath additions deletions :: (← parseNumstatFields rest)

def parseNumstat (output : List UInt8) : Except NumstatError (List DiffFileChange) :=
  match NulFields.fields output with
  | none => .error .notUtf8
  | some fields => parseNumstatFields fields

/-! ## What git writes -/

/-- A path as git can print it into a field. -/
structure GitPath where
  text : String
  nonempty : text ≠ ""
  nulFree : '\x00' ∉ text.toList

inductive NumstatCounts where
  | lines (additions deletions : UInt64)
  | binary

inductive NumstatEntry where
  | stays (counts : NumstatCounts) (path : GitPath)
  | moves (counts : NumstatCounts) (oldPath path : GitPath)

namespace NumstatCounts

def additions : NumstatCounts → Option UInt64
  | .lines additions _ => some additions
  | .binary => none

def deletions : NumstatCounts → Option UInt64
  | .lines _ deletions => some deletions
  | .binary => none

end NumstatCounts

def numstatCountText (count : Option UInt64) : String := (count.map fun n => n.toNat.repr).getD "-"

def NumstatCounts.text (counts : NumstatCounts) : String :=
  numstatCountText counts.additions ++ "\t" ++ numstatCountText counts.deletions ++ "\t"

namespace NumstatEntry

def fields : NumstatEntry → List String
  | .stays counts path => [counts.text ++ path.text]
  | .moves counts oldPath path => [counts.text, oldPath.text, path.text]

def change : NumstatEntry → DiffFileChange
  | .stays counts path => numstatChange none path.text counts.additions counts.deletions
  | .moves counts oldPath path =>
      numstatChange (some oldPath.text) path.text counts.additions counts.deletions

end NumstatEntry

def numstatOutput (entries : List NumstatEntry) : List UInt8 :=
  NulFields.written (entries.flatMap NumstatEntry.fields)

/-! ## Reading one entry back -/

/-- Digits and hyphens are no blanks. -/
theorem mem_numstatCountText {count : Option UInt64} {char : Char}
    (member : char ∈ (numstatCountText count).toList) : char = '-' ∨ char.isDigit = true := by
  cases count with
  | none =>
      left
      simpa [numstatCountText] using member
  | some value =>
      right
      unfold numstatCountText at member
      rw [Option.map_some, Option.getD_some, Nat.toList_repr] at member
      exact Nat.isDigit_of_mem_toDigits (by decide) (by decide) member

theorem tab_notMem_numstatCountText (count : Option UInt64) :
    '\t' ∉ (numstatCountText count).toList := by
  intro member
  rcases mem_numstatCountText member with same | digit
  · exact absurd same (by decide)
  · exact absurd digit (by decide)

theorem parseNumstatCount_text (count : Option UInt64) (label : String) :
    parseNumstatCount (some (numstatCountText count)) label = .ok count := by
  cases count with
  | none => rfl
  | some value =>
      have text : numstatCountText (some value) = value.toNat.repr := rfl
      have isDigit : ∀ char ∈ (value.toNat.repr).toList, char.isDigit = true := by
        intro char member
        rw [Nat.toList_repr] at member
        exact Nat.isDigit_of_mem_toDigits (by decide) (by decide) member
      have notHyphen : value.toNat.repr ≠ "-" := by
        intro same
        have := isDigit '-' (by rw [same]; decide)
        exact absurd this (by decide)
      have solid : ∀ char ∈ (value.toNat.repr).toList, isWhiteSpace char = false := by
        intro char member
        exact isWhiteSpace_of_isDigit (isDigit char member)
      have parsed : parseU64 (trim value.toNat.repr) = some value := by
        unfold parseU64
        rw [trim_eq_self solid, Numerals.parseUnsigned_repr value.toNat_lt, Option.map_some,
          UInt64.ofNat_toNat]
      unfold parseNumstatCount
      dsimp only
      rw [text, if_neg notHyphen, parsed]

theorem parseNumstatHeader_text (counts : NumstatCounts) (path : String) :
    parseNumstatHeader (counts.text ++ path) = .ok (counts.additions, counts.deletions, path) := by
  have tabs : splitTabs (counts.text ++ path) =
      (numstatCountText counts.additions, some (numstatCountText counts.deletions), some path) := by
    have shape : counts.text ++ path = numstatCountText counts.additions ++ String.singleton '\t' ++
        (numstatCountText counts.deletions ++ String.singleton '\t' ++ path) := by
      unfold NumstatCounts.text
      simp only [String.append_assoc]
      rfl
    unfold splitTabs
    rw [shape, splitOnce_append (tab_notMem_numstatCountText _)]
    dsimp only
    rw [splitOnce_append (tab_notMem_numstatCountText _)]
  unfold parseNumstatHeader
  rw [tabs]
  dsimp only
  rw [parseNumstatCount_text, parseNumstatCount_text]
  rfl

/-- One entry is read from its own fields, whatever comes after them. -/
theorem parseNumstatFields_entry (entry : NumstatEntry) (rest : List String) :
    parseNumstatFields (entry.fields ++ rest) =
      (parseNumstatFields rest).map (entry.change :: ·) := by
  cases entry with
  | stays counts path =>
      have unfolded : parseNumstatFields ((NumstatEntry.stays counts path).fields ++ rest) =
          (do
            let changes ← parseNumstatFields rest
            return numstatChange none path.text counts.additions counts.deletions :: changes) := by
        change parseNumstatFields ((counts.text ++ path.text) :: rest) = _
        rw [parseNumstatFields, parseNumstatHeader_text]
        exact if_neg path.nonempty
      rw [unfolded]
      cases parseNumstatFields rest <;> rfl
  | moves counts oldPath path =>
      have header : parseNumstatHeader counts.text = .ok (counts.additions, counts.deletions, "") := by
        have := parseNumstatHeader_text counts ""
        rwa [String.append_empty] at this
      have unfolded : parseNumstatFields ((NumstatEntry.moves counts oldPath path).fields ++ rest) =
          (do
            let changes ← parseNumstatFields rest
            return numstatChange (some oldPath.text) path.text counts.additions counts.deletions ::
              changes) := by
        change parseNumstatFields (counts.text :: oldPath.text :: path.text :: rest) = _
        rw [parseNumstatFields, header]
        rfl
      rw [unfolded]
      cases parseNumstatFields rest <;> rfl

theorem parseNumstatFields_entries (entries : List NumstatEntry) :
    parseNumstatFields (entries.flatMap NumstatEntry.fields) =
      .ok (entries.map NumstatEntry.change) := by
  induction entries with
  | nil => rfl
  | cons entry rest ih =>
      rw [List.flatMap_cons, parseNumstatFields_entry, ih]
      rfl

/-! ## Reading the whole output back -/

theorem NumstatCounts.text_chars {counts : NumstatCounts} {char : Char}
    (member : char ∈ counts.text.toList) : char = '\t' ∨ char = '-' ∨ char.isDigit = true := by
  unfold NumstatCounts.text at member
  simp only [String.toList_append, List.mem_append] at member
  rcases member with ((count | tab) | count) | tab
  · exact Or.inr (mem_numstatCountText count)
  · exact Or.inl (List.mem_singleton.mp tab)
  · exact Or.inr (mem_numstatCountText count)
  · exact Or.inl (List.mem_singleton.mp tab)

theorem NumstatCounts.nul_notMem_text (counts : NumstatCounts) : '\x00' ∉ counts.text.toList := by
  intro member
  rcases counts.text_chars member with tab | hyphen | digit
  · exact absurd tab (by decide)
  · exact absurd hyphen (by decide)
  · exact absurd digit (by decide)

theorem NumstatCounts.text_append_ne_empty (counts : NumstatCounts) (path : String) :
    counts.text ++ path ≠ "" := by
  intro empty
  have chars := congrArg String.toList empty
  unfold NumstatCounts.text at chars
  simp at chars

theorem NumstatEntry.nul_notMem_fields {entry : NumstatEntry} {field : String}
    (member : field ∈ entry.fields) : '\x00' ∉ field.toList := by
  cases entry with
  | stays counts path =>
      rw [List.mem_singleton.mp member, String.toList_append, List.mem_append, not_or]
      exact ⟨counts.nul_notMem_text, path.nulFree⟩
  | moves counts oldPath path =>
      simp only [NumstatEntry.fields, List.mem_cons, List.not_mem_nil, or_false] at member
      rcases member with rfl | rfl | rfl
      · exact counts.nul_notMem_text
      · exact oldPath.nulFree
      · exact path.nulFree

theorem NumstatEntry.fields_ne_empty {entry : NumstatEntry} {field : String}
    (member : field ∈ entry.fields) : field ≠ "" := by
  cases entry with
  | stays counts path =>
      rw [List.mem_singleton.mp member]
      exact counts.text_append_ne_empty path.text
  | moves counts oldPath path =>
      simp only [NumstatEntry.fields, List.mem_cons, List.not_mem_nil, or_false] at member
      rcases member with rfl | rfl | rfl
      · have := counts.text_append_ne_empty ""
        rwa [String.append_empty] at this
      · exact oldPath.nonempty
      · exact path.nonempty

/-- The entries are read back in order, with their counts and paths. -/
theorem parseNumstat_numstatOutput (entries : List NumstatEntry) :
    parseNumstat (numstatOutput entries) = .ok (entries.map NumstatEntry.change) := by
  have nulFree : ∀ field ∈ entries.flatMap NumstatEntry.fields, '\x00' ∉ field.toList := by
    intro field member
    obtain ⟨entry, _, written⟩ := List.mem_flatMap.mp member
    exact entry.nul_notMem_fields written
  have allKept : (entries.flatMap NumstatEntry.fields).filter (· ≠ "") =
      entries.flatMap NumstatEntry.fields := by
    rw [List.filter_eq_self]
    intro field member
    obtain ⟨entry, _, written⟩ := List.mem_flatMap.mp member
    exact decide_eq_true (entry.fields_ne_empty written)
  unfold parseNumstat numstatOutput
  rw [NulFields.fields_written nulFree, allKept]
  exact parseNumstatFields_entries entries

end BrickTrace
