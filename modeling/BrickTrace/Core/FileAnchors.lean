import BrickTrace.Lib.Pieces
import BrickTrace.Core.Explain
import BrickTrace.Core.LineEvidence

/-!
# Paths that belong to a file anchor

Events and indexed sessions are matched to a file anchor by two predicates on paths.  Both
let one path end in the other at a slash.  The predicate for events compares the texts
without blanks and a leading `./`; the predicate for indexed sessions compares them as they
are, and takes the anchor for a folder as well.
-/

set_option autoImplicit false

namespace BrickTrace

/-- The anchor as the events are compared with it. -/
def anchorRel (anchor : String) : String := String.ofList (trimDotSlashes (trimChars anchor.toList))

/-- The recorded path as it is compared with an anchor. -/
def recordedRel (path : String) : String := (stripStart path "./").getD path

/-- One of the two texts is the other one or ends in it at a slash. -/
def endsAlike (path anchor : String) : Bool :=
  pathSuffixMatches path anchor || pathSuffixMatches anchor path

/-- The pairs on which folders and leading `./` make no difference. -/
structure AnchorReadAlike (anchor path : String) : Prop where
  folder : pathPrefixMatches path anchor = true →
    endsAlike (recordedRel path) (anchorRel anchor) = true
  trimmed : endsAlike (recordedRel path) (anchorRel anchor) = true →
    endsAlike path anchor = true ∨ pathPrefixMatches path anchor = true
  written : endsAlike path anchor = true →
    endsAlike (recordedRel path) (anchorRel anchor) = true

/-! ## Endings at a slash -/

theorem endsWith_iff {text ending : String} :
    endsWith text ending = true ↔ ∃ head : String, text = head ++ ending := by
  unfold endsWith
  rw [List.isSuffixOf_iff_suffix]
  constructor
  · rintro ⟨head, rebuilt⟩
    refine ⟨String.ofList head, ?_⟩
    apply String.toList_injective
    rw [String.toList_append, String.toList_ofList, rebuilt]
  · rintro ⟨head, rfl⟩
    rw [String.toList_append]
    exact List.suffix_append ..

theorem stripEnd_append (head ending : String) : stripEnd (head ++ ending) ending = some head := by
  unfold stripEnd
  rw [if_pos (endsWith_iff.mpr ⟨head, rfl⟩), String.toList_append, String.length_append,
    Nat.add_sub_cancel, ← String.length_toList, List.take_left, String.ofList_toList]

theorem eq_append_of_stripEnd {text ending head : String} (stripped : stripEnd text ending = some head) :
    text = head ++ ending := by
  cases isEnding : endsWith text ending with
  | false =>
      unfold stripEnd at stripped
      rw [isEnding] at stripped
      cases stripped
  | true =>
      obtain ⟨before, rfl⟩ := endsWith_iff.mp isEnding
      rw [stripEnd_append] at stripped
      cases stripped
      rfl

theorem pathSuffixMatches_iff {full suffix : String} :
    pathSuffixMatches full suffix = true ↔
      full = suffix ∨ endsWith full ("/" ++ suffix) = true := by
  unfold pathSuffixMatches
  rw [Bool.or_eq_true, decide_eq_true_iff, Option.any_eq_true]
  apply or_congr_right
  constructor
  · rintro ⟨head, stripped, atSlash⟩
    obtain ⟨folder, rfl⟩ := endsWith_iff.mp atSlash
    rw [eq_append_of_stripEnd stripped, String.append_assoc]
    exact endsWith_iff.mpr ⟨folder, rfl⟩
  · intro atSlash
    obtain ⟨folder, rfl⟩ := endsWith_iff.mp atSlash
    rw [← String.append_assoc]
    exact ⟨folder ++ "/", stripEnd_append .., endsWith_iff.mpr ⟨folder, rfl⟩⟩

theorem endsAlike_iff {path anchor : String} :
    endsAlike path anchor = true ↔ path = anchor ∨
      endsWith path ("/" ++ anchor) = true ∨ endsWith anchor ("/" ++ path) = true := by
  unfold endsAlike
  rw [Bool.or_eq_true, pathSuffixMatches_iff, pathSuffixMatches_iff]
  constructor
  · rintro ((same | atSlash) | (same | atSlash))
    · exact .inl same
    · exact .inr (.inl atSlash)
    · exact .inl same.symm
    · exact .inr (.inr atSlash)
  · rintro (same | atSlash | atSlash)
    · exact .inl (.inl same)
    · exact .inl (.inr atSlash)
    · exact .inr (.inr atSlash)

/-! ## The two predicates -/

theorem not_startsWith_trimDotSlashes (chars : List Char) :
    ['.', '/'].isPrefixOf (trimDotSlashes chars) = false := by
  induction chars using trimDotSlashes.induct with
  | case1 rest ih =>
      rw [trimDotSlashes]
      exact ih
  | case2 chars noDot =>
      rw [trimDotSlashes.eq_2 _ noDot]
      cases isStart : ['.', '/'].isPrefixOf chars with
      | false => rfl
      | true =>
          obtain ⟨rest, rebuilt⟩ := List.isPrefixOf_iff_prefix.mp isStart
          exact absurd rebuilt.symm (noDot rest)

theorem stripStart_anchorRel (anchor : String) : stripStart (anchorRel anchor) "./" = none := by
  have notStart : startsWith (anchorRel anchor) "./" = false := by
    unfold startsWith anchorRel
    rw [String.toList_ofList (l := trimDotSlashes (trimChars anchor.toList))]
    exact not_startsWith_trimDotSlashes _
  unfold stripStart
  rw [notStart]
  rfl

theorem pathMatchesRel_anchorRel (anchor path : String) :
    pathMatchesRel path (anchorRel anchor) = endsAlike (recordedRel path) (anchorRel anchor) := by
  rw [Bool.eq_iff_iff, endsAlike_iff]
  unfold pathMatchesRel
  rw [stripStart_anchorRel]
  simp only [Option.getD_none, Bool.or_eq_true, decide_eq_true_eq, or_assoc]
  exact Iff.rfl

theorem blamePathMatches_none (anchor path : String) :
    blamePathMatches anchor path none = (endsAlike path anchor || pathPrefixMatches path anchor) := by
  unfold blamePathMatches endsAlike
  rw [Option.any_none, Bool.or_false, Bool.or_comm (pathSuffixMatches path anchor)]
  cases same : decide (anchor = path) with
  | false => rfl
  | true =>
      have alike : pathSuffixMatches anchor path = true :=
        pathSuffixMatches_iff.mpr (.inl (of_decide_eq_true same))
      rw [alike]
      rfl

theorem pathMatchesRel_of_readAlike {anchor path : String} (alike : AnchorReadAlike anchor path) :
    pathMatchesRel path (anchorRel anchor) = blamePathMatches anchor path none := by
  rw [pathMatchesRel_anchorRel, blamePathMatches_none, Bool.eq_iff_iff, Bool.or_eq_true]
  constructor
  · exact alike.trimmed
  · rintro (written | inFolder)
    · exact alike.written written
    · exact alike.folder inFolder

/-- The parts of a path between its slashes, without one leading `./`. -/
def relComponents (path : String) : List (List Char) := (recordedRel path).toList.splitOn '/'

/-- One of the two lists of components is the end of the other. -/
def EndsInOther (left right : List (List Char)) : Prop := left <:+ right ∨ right <:+ left

theorem EndsInOther.comm {left right : List (List Char)} :
    EndsInOther left right ↔ EndsInOther right left := or_comm

theorem splitOn_suffix_iff_endsWith {path ending : String} :
    ending.toList.splitOn '/' <:+ path.toList.splitOn '/' ↔
      path = ending ∨ endsWith path ("/" ++ ending) = true := by
  have slashed : ("/" ++ ending).toList = '/' :: ending.toList := String.toList_append
  rw [Pieces.splitOn_suffix_iff, endsWith, slashed, List.isSuffixOf_iff_suffix,
    String.toList_inj, eq_comm]

theorem pathMatchesRel_iff {path rel : String} :
    pathMatchesRel path rel = true ↔ EndsInOther (relComponents rel) (relComponents path) := by
  unfold EndsInOther relComponents
  rw [splitOn_suffix_iff_endsWith, splitOn_suffix_iff_endsWith]
  unfold pathMatchesRel recordedRel
  simp only [Bool.or_eq_true, decide_eq_true_eq, or_assoc]
  constructor
  · rintro (same | pathEnds | relEnds)
    · exact .inl same
    · exact .inr (.inl pathEnds)
    · exact .inr (.inr (.inr relEnds))
  · rintro (same | pathEnds | same | relEnds)
    · exact .inl same
    · exact .inr (.inl pathEnds)
    · exact .inl same.symm
    · exact .inr (.inr relEnds)

/-- Two paths match when the components of one are the last ones of the other; which of them is
the anchor makes no difference. -/
theorem pathMatchesRel_components (path rel : String) :
    (pathMatchesRel path rel = true ↔
      relComponents rel <:+ relComponents path ∨ relComponents path <:+ relComponents rel) ∧
    pathMatchesRel path rel = pathMatchesRel rel path := by
  refine ⟨pathMatchesRel_iff, ?_⟩
  rw [Bool.eq_iff_iff, pathMatchesRel_iff, pathMatchesRel_iff, EndsInOther.comm]

example : relComponents "././src//lib.rs/" = ["." , "src", "", "lib.rs", ""].map String.toList ∧
    pathMatchesRel "././src//lib.rs/" "lib.rs/" = true ∧
    pathMatchesRel "src/oauth.rs" "auth.rs" = false ∧ pathMatchesRel "./" "src/" = true := by
  decide

end BrickTrace
