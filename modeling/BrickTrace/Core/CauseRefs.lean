import Mathlib.Data.List.Find
import BrickTrace.Lib.AsciiCase
import BrickTrace.Lib.FirstSeen
import BrickTrace.Lib.Pieces
import BrickTrace.Lib.Utf8Slices
import BrickTrace.Core.TurnMessages

/-!
# The causes that a message names

The missions and artifacts that a text names, in the order in which it names them, each with the
relation that the words around it imply.  The text is read a word at a time, by offsets of which
those around a word cut the text in lower case, that may have other lengths.
-/

set_option autoImplicit false

namespace BrickTrace

open CaseFolding (AsciiTables toLowercase)
open FirstSeen (fresh)
open Pieces (StandsBetween)
open Utf8Slices (SliceError byteLength find isCharBoundary slice sliceFrom)

inductive InferredRelation where
  | derivedFrom
  | supersedes
  | triggeredBy
  deriving Repr, DecidableEq

structure CauseRef where
  target : String
  relation : InferredRelation
  deriving Repr, DecidableEq

def entityPrefixes : List String := ["mission_", "artifact_"]

def isIdChar (char : Char) : Bool := char.isAlphanum || char == '_' || char == '-'

def isWordBreak (char : Char) : Bool :=
  isWhiteSpace char || char ∈ [',', ';', '(', ')', '\x60', '\x22']

def trimMatches (matching : Char → Bool) (chars : List Char) : List Char :=
  ((chars.dropWhile matching).reverse.dropWhile matching).reverse

def relationFromCue (window : String) : InferredRelation :=
  if containsText window "supersede" || containsText window "replaces" ||
      containsText window "replaced" || containsText window "instead of" then .supersedes
  else if containsText window "triggered by" || containsText window "in response to" ||
      containsText window "responds to" then .triggeredBy
  else .derivedFrom

def floorFrom (text : List Char) : Nat → Nat
  | 0 => 0
  | place + 1 => if isCharBoundary text (place + 1) then place + 1 else floorFrom text place

def floorCharBoundary (text : List Char) (place : Nat) : Nat :=
  if byteLength text ≤ place then byteLength text else floorFrom text place

/-- The first argument is how far the place is from the end. -/
def ceilFrom (text : List Char) : Nat → Nat → Nat
  | 0, place => place
  | left + 1, place =>
      if isCharBoundary text place then place else ceilFrom text left (place + 1)

def ceilCharBoundary (text : List Char) (place : Nat) : Nat :=
  if byteLength text ≤ place then byteLength text
  else ceilFrom text (byteLength text - place) place

section Reading
variable (tables : AsciiTables)

def parseEntityId (text : List Char) : Except SliceError (Option String) :=
  let lower := toLowercase tables.toCaseTables text
  match entityPrefixes.find? fun start => start.toList.isPrefixOf lower with
  | none => .ok none
  | some start => do
      let rest ← sliceFrom text (byteLength start.toList)
      let body := rest.takeWhile isIdChar
      return if body.isEmpty then none else some (start ++ String.ofList body)

structure CauseScan where
  offset : Nat
  seen : List String
  refs : List CauseRef

/-- Where the word stands; the rest is the text behind the offset. -/
def wordStart (offset : Nat) (word rest : List Char) : Nat :=
  match find word rest with
  | some place => if word.isEmpty then offset else offset + place
  | none => offset

def CauseScan.note (scan : CauseScan) (lower : List Char) (start offset : Nat) :
    Option String → Except SliceError CauseScan
  | none => .ok { scan with offset }
  | some target =>
      if target ∈ scan.seen then .ok { scan with offset }
      else do
        let low := floorCharBoundary lower (start - 60)
        let high := ceilCharBoundary lower (min (offset + 60) (byteLength lower))
        let window ← slice lower low high
        let relation := relationFromCue (String.ofList window)
        return ⟨offset, target :: scan.seen, scan.refs ++ [⟨target, relation⟩]⟩

def scanWord (text lower : List Char) (scan : CauseScan) (word : List Char) :
    Except SliceError CauseScan := do
  let rest ← sliceFrom text scan.offset
  let start := wordStart scan.offset word rest
  let offset := start + byteLength word
  let named ← parseEntityId tables (trimMatches (fun char => !isIdChar char) word)
  scan.note lower start offset named

def scanWords (text lower : List Char) (scan : CauseScan) (words : List (List Char)) :
    Except SliceError CauseScan :=
  words.foldlM (scanWord tables text lower) scan

def extractCauseRefs (text : String) : Except SliceError (List CauseRef) := do
  let lower := toLowercase tables.toCaseTables text.toList
  let words := text.toList.splitOnP isWordBreak
  let scan ← scanWords tables text.toList lower ⟨0, [], []⟩ words
  return scan.refs

/-- The final message of a turn and the causes that it names. -/
def inferTurnRationale (occurredAt : String) (chunks : List ActivityChunk) :
    Except SliceError (Option String × List CauseRef) := do
  let note := selectTurnFinalMessage occurredAt chunks
  let causeRefs ← note.elim (.ok []) (extractCauseRefs tables)
  return (note, causeRefs)

end Reading

/-! ## What a text names -/

/-- The id of a word: a prefix in letters of any case, and the characters of an id behind it. -/
def namedId (word : List Char) : Option String :=
  (entityPrefixes.find? fun start =>
    (word.take start.toList.length).map Char.toLower = start.toList).bind fun start =>
      let body := (word.drop start.toList.length).takeWhile isIdChar
      if body.isEmpty then none else some (start ++ String.ofList body)

/-- What a word names once it is freed of other characters at its ends. -/
def mention (word : List Char) : Option String :=
  namedId (trimMatches (fun char => !isIdChar char) word)

/-- The ids that the words of a text name, in the order of the text. -/
def mentions (text : List Char) : List String := (text.splitOnP isWordBreak).filterMap mention

/-- The target stands in the text, whole and as it is but for the case of its prefix. -/
def NamesEntity (text : List Char) (target : String) : Prop :=
  ∃ start ∈ entityPrefixes, ∃ written body, written.map Char.toLower = start.toList ∧
    body ≠ [] ∧ (∀ char ∈ body, isIdChar char = true) ∧ target = start ++ String.ofList body ∧
    StandsBetween (fun char => !isIdChar char) (written ++ body) text

theorem toNat_of_isIdChar {char : Char} (inId : isIdChar char = true) :
    (48 ≤ char.toNat ∧ char.toNat ≤ 57) ∨ (65 ≤ char.toNat ∧ char.toNat ≤ 90) ∨
      (97 ≤ char.toNat ∧ char.toNat ≤ 122) ∨ char = '_' ∨ char = '-' := by
  unfold isIdChar at inId
  delta Char.isAlphanum Char.isAlpha Char.isUpper Char.isLower Char.isDigit at inId
  simp only [Bool.or_eq_true, Bool.and_eq_true, decide_eq_true_eq, beq_iff_eq, ge_iff_le,
    UInt32.le_iff_toNat_le, Char.toNat_val] at inId
  tauto

theorem not_isIdChar_of_isWordBreak {char : Char} (breaks : isWordBreak char = true) :
    (!isIdChar char) = true := by
  rw [Bool.not_eq_true', ← Bool.not_eq_true]
  intro inId
  rcases Bool.or_eq_true_iff.mp breaks with white | listed
  · simp only [isWhiteSpace, Bool.or_eq_true, Bool.and_eq_true, decide_eq_true_eq,
      beq_iff_eq] at white
    rcases toNat_of_isIdChar inId with digit | upper | lower | rfl | rfl
    · omega
    · omega
    · omega
    · exact absurd white (by decide)
    · exact absurd white (by decide)
  · have each : [',', ';', '(', ')', '\x60', '\x22'].all (fun other => !isIdChar other) = true := by
      decide
    have outside := List.all_eq_true.mp each char (of_decide_eq_true listed)
    rw [inId] at outside
    cases outside

/-! ## One word as an id -/

theorem byteLength_map_toLower (text : List Char) :
    byteLength (text.map Char.toLower) = byteLength text := by
  have ascii : ∀ char : Char, char.toNat < 128 → char.utf8Size = 1 := by
    intro char small
    rw [Char.utf8Size_eq_one_iff, UInt32.le_iff_toNat_le, Char.toNat_val]
    exact Nat.le_of_lt_succ small
  have each : ∀ char : Char, char.toLower.utf8Size = char.utf8Size := by
    intro char
    rcases CaseFolding.toNat_toLower char with same | ⟨_, le, moved⟩
    · rw [same]
    · rw [ascii char (by omega), ascii char.toLower (by omega)]
  unfold byteLength
  rw [List.map_map]
  exact congrArg List.sum (List.map_congr_left fun char _ => each char)

/-- The letters of a prefix are such that nothing outside ASCII becomes one of them alone. -/
theorem plain_of_mem_entityPrefixes {start : String} (member : start ∈ entityPrefixes) :
    (∀ letter ∈ start.toList, letter.toNat < 128 ∧ letter ≠ 'k') ∧
      start.toList.getLast? ≠ some 'i' := by
  have each : entityPrefixes.all (fun start => start.toList.all fun letter =>
      decide (letter.toNat < 128 ∧ letter ≠ 'k')) = true := by decide
  have ends : entityPrefixes.all (fun start => start.toList.getLast? != some 'i') = true := by decide
  have plain := List.all_eq_true.mp each start member
  refine ⟨fun letter inStart => of_decide_eq_true (List.all_eq_true.mp plain letter inStart), ?_⟩
  simpa using List.all_eq_true.mp ends start member

section Reading
variable {tables : AsciiTables}

theorem startsLower_eq {start : String} (member : start ∈ entityPrefixes) (word : List Char) :
    start.toList.isPrefixOf (toLowercase tables.toCaseTables word) =
      decide ((word.take start.toList.length).map Char.toLower = start.toList) := by
  obtain ⟨plain, ends⟩ := plain_of_mem_entityPrefixes member
  rw [Bool.eq_iff_iff, List.isPrefixOf_iff_prefix, decide_eq_true_eq]
  refine (CaseFolding.prefix_lowerFrom_iff plain ends [] word).trans ⟨?_, fun same => ?_⟩
  · rintro ⟨written, rest, rfl, lowered⟩
    have length : start.toList.length = written.length := by rw [← lowered, List.length_map]
    rw [length, List.take_left, lowered]
  · exact ⟨_, _, (List.take_append_drop start.toList.length word).symm, same⟩

theorem parseEntityId_eq (word : List Char) : parseEntityId tables word = .ok (namedId word) := by
  have sameStart : (entityPrefixes.find? fun start =>
      start.toList.isPrefixOf (toLowercase tables.toCaseTables word)) =
      entityPrefixes.find? fun start =>
        (word.take start.toList.length).map Char.toLower = start.toList :=
    List.find?_congr fun start member => startsLower_eq member word
  unfold parseEntityId namedId
  simp only [sameStart]
  cases found : entityPrefixes.find? fun start =>
      (word.take start.toList.length).map Char.toLower = start.toList with
  | none => rfl
  | some start =>
      have lowered : (word.take start.toList.length).map Char.toLower = start.toList := by
        simpa using List.find?_some found
      have size : byteLength start.toList = byteLength (word.take start.toList.length) := by
        rw [← byteLength_map_toLower (word.take _), lowered]
      have cut := Utf8Slices.sliceFrom_append (word.take start.toList.length)
        (word.drop start.toList.length)
      rw [List.take_append_drop, ← size] at cut
      simp only [cut]
      rfl

end Reading

/-! ## The window around a word -/

theorem floorFrom_spec (text : List Char) (place : Nat) :
    isCharBoundary text (floorFrom text place) = true ∧ floorFrom text place ≤ place := by
  induction place with
  | zero => exact ⟨Utf8Slices.isCharBoundary_zero text, Nat.le_refl 0⟩
  | succ place ih =>
      rw [floorFrom]
      split
      · rename_i boundary
        exact ⟨boundary, Nat.le_refl _⟩
      · exact ⟨ih.1, Nat.le_succ_of_le ih.2⟩

theorem floorCharBoundary_spec (text : List Char) (place : Nat) :
    isCharBoundary text (floorCharBoundary text place) = true ∧
      floorCharBoundary text place ≤ min place (byteLength text) := by
  unfold floorCharBoundary
  split
  · rename_i past
    exact ⟨Utf8Slices.isCharBoundary_byteLength text, Nat.le_min.mpr ⟨past, Nat.le_refl _⟩⟩
  · have spec := floorFrom_spec text place
    exact ⟨spec.1, by omega⟩

theorem ceilFrom_spec (text : List Char) {left place : Nat}
    (within : place + left = byteLength text) :
    isCharBoundary text (ceilFrom text left place) = true ∧ place ≤ ceilFrom text left place := by
  induction left generalizing place with
  | zero =>
      have isEnd : place = byteLength text := within
      rw [ceilFrom, isEnd]
      exact ⟨Utf8Slices.isCharBoundary_byteLength text, Nat.le_refl _⟩
  | succ left ih =>
      rw [ceilFrom]
      split
      · rename_i boundary
        exact ⟨boundary, Nat.le_refl _⟩
      · have spec := @ih (place + 1) (by omega)
        exact ⟨spec.1, by omega⟩

theorem ceilCharBoundary_spec (text : List Char) (place : Nat) :
    isCharBoundary text (ceilCharBoundary text place) = true ∧
      min place (byteLength text) ≤ ceilCharBoundary text place := by
  unfold ceilCharBoundary
  split
  · exact ⟨Utf8Slices.isCharBoundary_byteLength text, Nat.min_le_right _ _⟩
  · have spec := @ceilFrom_spec text (byteLength text - place) place (by omega)
    exact ⟨spec.1, by omega⟩

/-- The places of a word cut any text that is tried with them, whatever its length. -/
theorem window_ok (lower : List Char) {wordStart offset : Nat} (ordered : wordStart ≤ offset) :
    ∃ window, slice lower (floorCharBoundary lower (wordStart - 60))
      (ceilCharBoundary lower (min (offset + 60) (byteLength lower))) = .ok window := by
  have low := floorCharBoundary_spec lower (wordStart - 60)
  have high := ceilCharBoundary_spec lower (min (offset + 60) (byteLength lower))
  exact Utf8Slices.slice_of_boundaries low.1 high.1 (by omega)

/-! ## The words of a text -/

/-- What is left to read of the text stands behind the offset and word breaks. -/
def CauseScan.Before (text rest : List Char) (scan : CauseScan) : Prop :=
  ∃ read gap, text = read ++ gap ++ rest ∧ (∀ char ∈ gap, isWordBreak char = true) ∧
    scan.offset = byteLength read

def CauseScan.targets (scan : CauseScan) : List String := scan.refs.map CauseRef.target

/-- With what the word names noted, what is left to note comes from the words behind it. -/
def CauseScan.Notes (scan : CauseScan) (named : Option String) (next : CauseScan) : Prop :=
  ∀ others : List String, next.targets ++ fresh id next.seen others =
    scan.targets ++ fresh id scan.seen (named.toList ++ others)

theorem wordStart_of_gap {word : List Char} (free : ∀ char ∈ word, isWordBreak char = false)
    {gap : List Char} (breaks : ∀ char ∈ gap, isWordBreak char = true) (offset : Nat)
    (rest : List Char) : wordStart offset word (gap ++ word ++ rest) =
      if word.isEmpty then offset else offset + byteLength gap := by
  unfold wordStart
  cases word with
  | nil =>
      cases find [] (gap ++ [] ++ rest) with
      | none => rfl
      | some place => rfl
  | cons first others =>
      have apart : ∀ char ∈ gap, char ∉ first :: others := by
        intro char inGap inWord
        exact absurd (breaks char inGap) (by rw [free char inWord]; exact Bool.false_ne_true)
      rw [Utf8Slices.find_after_gap (List.cons_ne_nil first others) apart]

/-- A word is found where it stands, behind the breaks that the offset has not passed. -/
theorem before_of_word {word text rest : List Char}
    (free : ∀ char ∈ word, isWordBreak char = false) {scan : CauseScan}
    (stands : scan.Before text (word ++ rest)) :
    ∃ behind, sliceFrom text scan.offset = .ok behind ∧ ∀ next : CauseScan,
      next.offset = wordStart scan.offset word behind + byteLength word →
        next.Before text rest := by
  obtain ⟨read, gap, rfl, breaks, place⟩ := stands
  refine ⟨gap ++ word ++ rest, ?_, fun next moved => ?_⟩
  · rw [place, List.append_assoc, Utf8Slices.sliceFrom_append, List.append_assoc]
  · rw [wordStart_of_gap free breaks, place] at moved
    cases word with
    | nil => exact ⟨read, gap, rfl, breaks, moved⟩
    | cons first others =>
        refine ⟨read ++ gap ++ (first :: others), [], ?_, List.forall_mem_nil _, ?_⟩
        · rw [List.append_nil, List.append_assoc (read ++ gap)]
        · rw [moved, Utf8Slices.byteLength_append, Utf8Slices.byteLength_append]
          rfl

theorem note_spec (scan : CauseScan) (lower : List Char) {start offset : Nat}
    (ordered : start ≤ offset) (named : Option String) :
    ∃ next, scan.note lower start offset named = .ok next ∧ next.offset = offset ∧
      scan.Notes named next := by
  cases named with
  | none => exact ⟨{ scan with offset }, rfl, rfl, fun _ => rfl⟩
  | some target =>
      rw [CauseScan.note]
      by_cases known : target ∈ scan.seen
      · rw [if_pos known]
        refine ⟨{ scan with offset }, rfl, rfl, fun others => ?_⟩
        exact congrArg (scan.targets ++ ·) (if_pos known).symm
      · obtain ⟨window, cut⟩ := window_ok lower ordered
        rw [if_neg known]
        simp only [cut]
        refine ⟨_, rfl, rfl, fun others => ?_⟩
        have first : fresh id scan.seen (target :: others) =
            target :: fresh id (target :: scan.seen) others := if_neg known
        rw [Option.toList_some, List.singleton_append, first, CauseScan.targets, List.map_append,
          List.append_assoc]
        rfl

theorem filterMap_cons_toList {A B : Type} (read : A → Option B) (item : A) (rest : List A) :
    (item :: rest).filterMap read = (read item).toList ++ rest.filterMap read := by
  rw [List.filterMap_cons]
  cases read item <;> rfl

section Words
variable (tables : AsciiTables) {text : List Char} (lower : List Char) {scan : CauseScan}

theorem scanWord_spec {word rest : List Char} (free : ∀ char ∈ word, isWordBreak char = false)
    (stands : scan.Before text (word ++ rest)) :
    ∃ next, scanWord tables text lower scan word = .ok next ∧ next.Before text rest ∧
      scan.Notes (mention word) next := by
  obtain ⟨behind, cut, moves⟩ := before_of_word free stands
  obtain ⟨next, done, moved, notes⟩ := note_spec scan lower
    (Nat.le_add_right (wordStart scan.offset word behind) (byteLength word)) (mention word)
  refine ⟨next, ?_, moves next moved, notes⟩
  unfold scanWord
  rw [cut, parseEntityId_eq]
  exact done

theorem CauseScan.Before.step {item : Char} {rest : List Char}
    (stands : scan.Before text (item :: rest)) (breaks : isWordBreak item = true) :
    scan.Before text rest := by
  obtain ⟨read, gap, rfl, gapBreaks, place⟩ := stands
  refine ⟨read, gap ++ [item], by simp, ?_, place⟩
  exact List.forall_mem_append.mpr ⟨gapBreaks, List.forall_mem_singleton.mpr breaks⟩

/-- What the words name is noted once each, in the order of the text. -/
theorem scanWords_spec {rest : List Char} (stands : scan.Before text rest) :
    ∃ last, scanWords tables text lower scan (rest.splitOnP isWordBreak) = .ok last ∧
      last.targets = scan.targets ++ fresh id scan.seen (mentions rest) := by
  induction rest using Pieces.split_induction (p := isWordBreak) generalizing scan with
  | last piece free =>
      rw [← List.append_nil piece] at stands
      obtain ⟨next, done, _, notes⟩ := scanWord_spec tables lower free stands
      unfold mentions scanWords
      rw [List.splitOnP_eq_singleton free, List.foldlM_cons, done]
      refine ⟨next, rfl, ?_⟩
      have noted := notes []
      rw [fresh, List.append_nil] at noted
      rw [noted, filterMap_cons_toList, List.filterMap_nil]
  | more piece item rest free breaks ih =>
      obtain ⟨next, done, stands, notes⟩ := scanWord_spec tables lower free stands
      obtain ⟨last, finished, targets⟩ := ih (stands.step breaks)
      refine ⟨last, ?_, ?_⟩
      · unfold scanWords at finished ⊢
        rw [List.splitOnP_append_cons_of_forall_mem free item breaks, List.foldlM_cons, done]
        exact finished
      · unfold mentions
        rw [List.splitOnP_append_cons_of_forall_mem free item breaks, filterMap_cons_toList, targets]
        exact notes (mentions rest)

end Words

/-! ## The targets in the text -/

theorem mem_takeWhile_isIdChar {chars : List Char} :
    ∀ char ∈ chars.takeWhile isIdChar, isIdChar char = true :=
  fun _ member => List.mem_takeWhile_imp member

theorem namesEntity_of_namedId {word : List Char} {target : String}
    (named : namedId word = some target) : NamesEntity word target := by
  obtain ⟨start, found, ofBody⟩ := Option.bind_eq_some_iff.mp named
  have lowered : (word.take start.toList.length).map Char.toLower = start.toList := by
    simpa using List.find?_some found
  by_cases empty : ((word.drop start.toList.length).takeWhile isIdChar).isEmpty = true
  · rw [if_pos empty] at ofBody
    cases ofBody
  · rw [if_neg empty] at ofBody
    refine ⟨start, List.mem_of_find?_eq_some found, word.take start.toList.length,
      (word.drop start.toList.length).takeWhile isIdChar, lowered,
      fun none => empty (List.isEmpty_iff.mpr none), mem_takeWhile_isIdChar,
      (Option.some.inj ofBody).symm, [], (word.drop start.toList.length).dropWhile isIdChar, ?_,
      ?_, ?_⟩
    · rw [List.nil_append, List.append_assoc, List.takeWhile_append_dropWhile,
        List.take_append_drop]
    · intro char isLast
      cases isLast
    · intro char isFirst
      have ends := List.head?_dropWhile_not isIdChar (word.drop start.toList.length)
      rw [Option.mem_def.mp isFirst] at ends
      exact congrArg not ends

theorem NamesEntity.of_standsBetween {p : Char → Bool} {word text : List Char} {target : String}
    (named : NamesEntity word target) (stands : StandsBetween p word text)
    (wider : ∀ char, p char = true → (!isIdChar char) = true) : NamesEntity text target := by
  obtain ⟨start, member, written, body, lowered, solid, inId, isTarget, inner⟩ := named
  exact ⟨start, member, written, body, lowered, solid, inId, isTarget, inner.trans stands wider⟩

theorem namesEntity_of_mem_mentions {text : List Char} {target : String}
    (member : target ∈ mentions text) : NamesEntity text target := by
  obtain ⟨word, isWord, named⟩ := List.mem_filterMap.mp member
  have inWord : NamesEntity word target := (namesEntity_of_namedId named).of_standsBetween
    (Pieces.standsBetween_trimmed (fun char => !isIdChar char) word) fun _ outside => outside
  exact inWord.of_standsBetween (Pieces.standsBetween_of_mem_splitOnP isWord)
    fun _ breaks => not_isIdChar_of_isWordBreak breaks

theorem extractCauseRefs_eq (tables : AsciiTables) (text : String) :
    ∃ refs, extractCauseRefs tables text = .ok refs ∧
      refs.map CauseRef.target = fresh id [] (mentions text.toList) := by
  have stands : CauseScan.Before text.toList text.toList ⟨0, [], []⟩ :=
    ⟨[], [], rfl, List.forall_mem_nil _, rfl⟩
  obtain ⟨last, done, targets⟩ := scanWords_spec tables (toLowercase tables.toCaseTables text.toList)
    stands
  refine ⟨last.refs, ?_, targets⟩
  unfold extractCauseRefs
  simp only [done]
  rfl

theorem namesEntity_of_mem_refs {refs : List CauseRef} {text : List Char}
    (firsts : refs.map CauseRef.target = fresh id [] (mentions text)) {ref : CauseRef}
    (member : ref ∈ refs) : NamesEntity text ref.target := by
  have inFirsts := List.mem_map_of_mem (f := CauseRef.target) member
  rw [firsts] at inFirsts
  exact namesEntity_of_mem_mentions ((FirstSeen.fresh_sublist id [] _).subset inFirsts)

/-- The text is read to its end without a slice that is refused, and what it names is returned
once each, in the order in which it is named first. -/
theorem extractCauseRefs_names (tables : AsciiTables) (text : String) :
    ∃ refs, extractCauseRefs tables text = .ok refs ∧
      refs.map CauseRef.target = fresh id [] (mentions text.toList) ∧
      (refs.map CauseRef.target).Nodup ∧
      ∀ ref ∈ refs, NamesEntity text.toList ref.target := by
  obtain ⟨refs, done, firsts⟩ := extractCauseRefs_eq tables text
  refine ⟨refs, done, firsts, ?_, fun _ member => namesEntity_of_mem_refs firsts member⟩
  have distinct := FirstSeen.nodup_fresh_keys id [] (mentions text.toList)
  rwa [List.map_id, ← firsts] at distinct

example : (extractCauseRefs CaseFolding.latinTables
    "İ (Mission_7b), not mission_; it replaces `artifact_old`: see mission_7b, ...mission_ß"
      ).toOption.map (·.map fun ref => (ref.target, ref.relation)) =
    some [("mission_7b", .supersedes), ("artifact_old", .supersedes)] := by
  decide +kernel

/-- The causes of a turn are named in its final message. -/
theorem inferTurnRationale_names (tables : AsciiTables) (occurredAt : String)
    (chunks : List ActivityChunk) :
    ∃ causeRefs, inferTurnRationale tables occurredAt chunks =
        .ok (selectTurnFinalMessage occurredAt chunks, causeRefs) ∧
      ∀ ref ∈ causeRefs, ∃ text ∈ selectTurnFinalMessage occurredAt chunks,
        NamesEntity text.toList ref.target := by
  unfold inferTurnRationale
  cases selected : selectTurnFinalMessage occurredAt chunks with
  | none => exact ⟨[], rfl, List.forall_mem_nil _⟩
  | some text =>
      obtain ⟨refs, done, firsts⟩ := extractCauseRefs_eq tables text
      simp only [Option.elim, done]
      exact ⟨refs, rfl, fun ref member => ⟨text, rfl, namesEntity_of_mem_refs firsts member⟩⟩

end BrickTrace
