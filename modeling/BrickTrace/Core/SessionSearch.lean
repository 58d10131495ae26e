import BrickTrace.Lib.CaseFolding
import BrickTrace.Lib.Phrases
import BrickTrace.Lib.Select
import BrickTrace.Core.LineIndexing

/-!
# Searching the indexed sessions

A search asks for the sessions in which every word of a text occurs, whatever the case.  Words
of three characters or more are looked for in a full-text table that is built for the search,
and every word is looked for once more in the fields of a session, both in lower case.
-/

set_option autoImplicit false

namespace BrickTrace

open CaseFolding Phrases Select

structure SourceSessionTextQuery where
  query : String
  sourceId : Option String
  limit : Nat

/-- The full-text engine: which phrases hold of the columns of a row, and how the rows that an
expression finds are ranked.  A phrase of three characters or more holds of a row when one of
its columns has it, but for the case. -/
structure FullText (tables : CaseTables) where
  holds : List Char → List (List Char) → Bool
  bm25 : List (List (List Char)) → List (List Char) → Nat → Int
  holds_iff : ∀ phrase columns, 3 ≤ phrase.length →
    (holds phrase columns = true ↔ ∃ column ∈ columns, OccursIn tables phrase column)

/-- The full-text engine does not read the expression. -/
inductive SearchError where
  | malformedMatch
deriving DecidableEq

/-- The words of a query, as they are written. -/
def queryWords (query : String) : List (List Char) := splitWhitespace [] query.toList

namespace SourceSessionRecord

def touchedFiles (record : SourceSessionRecord) : List String :=
  (record.touchedFilesJson.map textItems).getD []

def intentText (record : SourceSessionRecord) : List Char :=
  joined ' ' ((record.title.toList ++
    (record.name.filter fun name => record.title != some name).toList).map String.toList)

def filesText (record : SourceSessionRecord) : List Char :=
  joined ' ' (record.touchedFiles.map String.toList)

/-- The columns of the full-text table. -/
def searchColumns (record : SourceSessionRecord) : List (List Char) :=
  [record.intentText, record.filesText, (record.repoPath.getD "").toList,
    (record.branch.getD "").toList, (record.model.getD "").toList]

/-- The texts of a session that a search is about. -/
def searchFields (record : SourceSessionRecord) : List (List Char) :=
  (record.title.toList ++ record.name.toList ++ record.touchedFiles ++ record.repoPath.toList ++
    record.branch.toList ++ record.model.toList).map String.toList

end SourceSessionRecord

section Search
variable (tables : CaseTables)

def searchTerms (query : String) : List (List Char) :=
  ((queryWords query).map (toLowercase tables)).filter fun term => !term.isEmpty

def recordFieldContains (record : SourceSessionRecord) (needle : List Char) : Bool :=
  let needle := toLowercase tables needle
  let inText := fun text : List Char => decide (needle <:+: toLowercase tables text)
  inText record.intentText || record.branch.any (fun text => inText text.toList) ||
    record.model.any (fun text => inText text.toList) ||
      record.repoPath.any (fun text => inText text.toList) ||
        record.touchedFiles.any fun file => inText file.toList

variable {tables} (engine : FullText tables)

/-- The rows that the expression finds, the best ones first. -/
def matchingRows (rows : List (List (List Char))) (expression : List Char) :
    Except SearchError (List Nat) :=
  match readExpression expression with
  | none => .error .malformedMatch
  | some phrases =>
      .ok (((rows.zipIdx.filter fun row => phrases.all fun phrase => engine.holds phrase row.1).map
        Prod.snd).mergeSort fun left right => engine.bm25 rows phrases left ≤ engine.bm25 rows phrases right)

def rankCandidatesFts5 (candidates : List SourceSessionRecord) (terms : List (List Char)) :
    Except SearchError (List SourceSessionRecord) :=
  let longTerms := terms.filter fun term => 3 ≤ term.length
  let survives := fun record => terms.all (recordFieldContains tables record)
  if longTerms.isEmpty then .ok (candidates.filter survives)
  else
    (matchingRows engine (candidates.map SourceSessionRecord.searchColumns)
      (conjunction longTerms)).map fun ordered =>
        (ordered.filterMap fun rowid => candidates[rowid]?).filter survives

variable (rfc3339 : DateTime → String) (db : MetadataDb)

def searchCandidates (sourceId : Option String) : List SourceSessionRecord :=
  (db.sessions.rows.filter fun record =>
    sourceId.all (· == record.sourceId) && record.listable).mergeSort (lastSeenFirst rfc3339)

/-- The sessions that a query finds, cut to a limit. -/
def searchWithin (query : String) (sourceId : Option String) (limit : Nat) :
    Except SearchError (List SourceSessionRecord) :=
  let terms := searchTerms tables query
  let candidates := searchCandidates rfc3339 db sourceId
  if terms.isEmpty then .ok (candidates.take limit)
  else (rankCandidatesFts5 engine candidates terms).map (List.take limit)

def querySourceSessionsText (query : SourceSessionTextQuery) :
    Except SearchError (List SourceSessionRecord) :=
  searchWithin engine rfc3339 db query.query query.sourceId
    (MetadataDb.normalizedLimit query.limit)

/-! ## What is to be found -/

variable (tables) in
/-- Every word occurs in some field, whatever its case. -/
def HasEveryWord (record : SourceSessionRecord) (query : String) : Prop :=
  ∀ word ∈ queryWords query, ∃ field ∈ record.searchFields, OccursIn tables word field

variable (tables) in
instance (record : SourceSessionRecord) (query : String) :
    Decidable (HasEveryWord tables record query) :=
  inferInstanceAs (Decidable (∀ word ∈ queryWords query, _))

/-- A limit that leaves no session out gives the sessions with every word, each once. -/
def FindsSessions (query : String) (sourceId : Option String) : Prop :=
  ∀ limit, db.sessions.rows.length ≤ limit →
    ∃ found, searchWithin engine rfc3339 db query sourceId limit = .ok found ∧
      found.Perm (db.sessions.rows.filter fun record =>
        sourceId.all (· == record.sourceId) && record.listable &&
          decide (HasEveryWord tables record query))

variable (tables) in
/-- Every word that occurs in the session, but for its case, stands in a field with the same
small sigmas once both are in lower case. -/
def SigmasAgree (record : SourceSessionRecord) (query : String) : Prop :=
  ∀ word ∈ queryWords query, ∃ field ∈ record.searchFields,
    toLowercase tables word <:+: toLowercase tables field

end Search

/-! ## Words -/

theorem splitWhitespace_words {current text : List Char}
    (word : ∀ char ∈ current, isWhiteSpace char = false) :
    ∀ found ∈ splitWhitespace current text,
      found ≠ [] ∧ ∀ char ∈ found, isWhiteSpace char = false := by
  induction text generalizing current with
  | nil =>
      intro found member
      unfold splitWhitespace at member
      split at member
      · exact absurd member List.not_mem_nil
      · next notEmpty =>
        rw [List.mem_singleton.mp member]
        exact ⟨fun none => notEmpty (List.isEmpty_iff.mpr none), word⟩
  | cons char rest ih =>
      intro found member
      unfold splitWhitespace at member
      split at member
      · split at member
        · exact ih (fun _ none => absurd none List.not_mem_nil) found member
        · next notEmpty =>
          rcases List.mem_cons.mp member with rfl | later
          · exact ⟨fun none => notEmpty (List.isEmpty_iff.mpr none), word⟩
          · exact ih (fun _ none => absurd none List.not_mem_nil) found later
      · next notBlank =>
        refine ih ?_ found member
        intro other isOther
        rcases List.mem_append.mp isOther with before | here
        · exact word other before
        · rw [List.mem_singleton.mp here]
          exact Bool.not_eq_true _ ▸ notBlank

theorem queryWords_spec {query : String} {word : List Char} (member : word ∈ queryWords query) :
    word ≠ [] ∧ ' ' ∉ word := by
  obtain ⟨notEmpty, plain⟩ :=
    splitWhitespace_words (fun _ none => absurd none List.not_mem_nil) word member
  refine ⟨notEmpty, fun blank => ?_⟩
  exact absurd (plain ' ' blank) (by decide)

/-! ## Fields -/

section Fields
variable {tables : CaseTables} {record : SourceSessionRecord}

theorem toLowercase_joined (parts : List (List Char)) :
    toLowercase tables (joined ' ' parts) = joined ' ' (parts.map (toLowercase tables)) := by
  induction parts with
  | nil => rfl
  | cons part rest ih =>
      cases rest with
      | nil => rfl
      | cons next more =>
          have split : joined ' ' (part :: next :: more) = part ++ ' ' :: joined ' ' (next :: more) :=
            rfl
          rw [split, toLowercase_blank, ih]
          rfl

theorem fold_joined (parts : List (List Char)) :
    fold tables (joined ' ' parts) = joined ' ' (parts.map (fold tables)) := by
  induction parts with
  | nil => rfl
  | cons part rest ih =>
      cases rest with
      | nil => rfl
      | cons next more =>
          have split : joined ' ' (part :: next :: more) = part ++ ' ' :: joined ' ' (next :: more) :=
            rfl
          rw [split, fold_blank, ih]
          rfl

/-- A name that is the title as well is left out of the intent, which loses nothing. -/
theorem exists_intent_iff (title name : Option String) (shows : List Char → Prop) :
    (∃ text ∈ (title.toList ++ (name.filter fun name => title != some name).toList).map
      String.toList, shows text) ↔ ∃ text ∈ (title.toList ++ name.toList).map String.toList, shows text := by
  cases name with
  | none => exact Iff.rfl
  | some name =>
      by_cases same : title = some name
      · subst same
        simp
      · simp [same]

/-- What a field shows, each field by itself. -/
theorem exists_field_iff (record : SourceSessionRecord) (shows : List Char → Prop) :
    (∃ field ∈ record.searchFields, shows field) ↔
      (∃ text ∈ (record.title.toList ++
        (record.name.filter fun name => record.title != some name).toList).map String.toList,
          shows text) ∨
      (∃ text ∈ record.touchedFiles.map String.toList, shows text) ∨
      (∃ text, record.repoPath = some text ∧ shows text.toList) ∨
      (∃ text, record.branch = some text ∧ shows text.toList) ∨
      ∃ text, record.model = some text ∧ shows text.toList := by
  rw [exists_intent_iff]
  unfold SourceSessionRecord.searchFields
  simp only [List.map_append, List.mem_append, List.mem_map, Option.mem_toList, or_and_right,
    exists_or, or_assoc, exists_exists_and_eq_and]

/-- The check of the code finds what stands in a field, both in lower case. -/
theorem recordFieldContains_iff {word : List Char} (notEmpty : word ≠ []) (noBlank : ' ' ∉ word) :
    recordFieldContains tables record (toLowercase tables word) = true ↔
      ∃ field ∈ record.searchFields, toLowercase tables word <:+: toLowercase tables field := by
  have filled : toLowercase tables word ≠ [] := toLowercase_eq_nil.not.mpr notEmpty
  have free : ' ' ∉ toLowercase tables word := blank_mem_toLowercase.not.mpr noBlank
  have inIntent : toLowercase tables word <:+: toLowercase tables record.intentText ↔
      ∃ text ∈ (record.title.toList ++
        (record.name.filter fun name => record.title != some name).toList).map String.toList,
          toLowercase tables word <:+: toLowercase tables text := by
    unfold SourceSessionRecord.intentText
    rw [toLowercase_joined, infix_joined_iff free filled]
    simp only [List.mem_map, exists_exists_and_eq_and]
  rw [exists_field_iff, ← inIntent]
  unfold recordFieldContains
  rw [toLowercase_toLowercase]
  simp only [Bool.or_eq_true, decide_eq_true_eq, Option.any_eq_true, List.any_eq_true, List.mem_map,
    exists_exists_and_eq_and]
  constructor
  · rintro ((((intent | branch) | model) | repo) | file)
    · exact Or.inl intent
    · exact Or.inr (Or.inr (Or.inr (Or.inl branch)))
    · exact Or.inr (Or.inr (Or.inr (Or.inr model)))
    · exact Or.inr (Or.inr (Or.inl repo))
    · exact Or.inr (Or.inl file)
  · rintro (intent | file | repo | branch | model)
    · exact Or.inl (Or.inl (Or.inl (Or.inl intent)))
    · exact Or.inr file
    · exact Or.inl (Or.inr repo)
    · exact Or.inl (Or.inl (Or.inl (Or.inr branch)))
    · exact Or.inl (Or.inl (Or.inr model))

/-- The columns of the full-text table have what the fields have. -/
theorem exists_column_iff {word : List Char} (notEmpty : word ≠ []) (noBlank : ' ' ∉ word) :
    (∃ column ∈ record.searchColumns, OccursIn tables word column) ↔
      ∃ field ∈ record.searchFields, OccursIn tables word field := by
  have filled : fold tables word ≠ [] := fold_eq_nil.not.mpr notEmpty
  have free : ' ' ∉ fold tables word := blank_mem_fold.not.mpr noBlank
  have inJoined : ∀ parts : List (List Char), OccursIn tables word (joined ' ' parts) ↔
      ∃ text ∈ parts, OccursIn tables word text := by
    intro parts
    unfold OccursIn
    rw [fold_joined, infix_joined_iff free filled]
    simp only [List.mem_map, exists_exists_and_eq_and]
  have inOptional : ∀ text : Option String, OccursIn tables word (text.getD "").toList ↔
      ∃ held, text = some held ∧ OccursIn tables word held.toList := by
    intro text
    cases text with
    | none =>
        refine iff_of_false ?_ (by simp)
        exact fun within => filled (List.infix_nil.mp within)
    | some held => simp
  rw [exists_field_iff]
  unfold SourceSessionRecord.searchColumns SourceSessionRecord.intentText
    SourceSessionRecord.filesText
  simp only [List.mem_cons, List.not_mem_nil, or_false, exists_eq_or_imp, exists_eq_left, inJoined,
    inOptional]

end Fields

/-! ## Candidates -/

section Answer
variable {tables : CaseTables} {engine : FullText tables} {query : String}

theorem searchTerms_eq (query : String) :
    searchTerms tables query = (queryWords query).map (toLowercase tables) := by
  unfold searchTerms
  apply List.filter_eq_self.mpr
  intro term member
  obtain ⟨word, isWord, rfl⟩ := List.mem_map.mp member
  have notEmpty : toLowercase tables word ≠ [] :=
    toLowercase_eq_nil.not.mpr (queryWords_spec isWord).1
  simpa using notEmpty

theorem survives_iff (record : SourceSessionRecord) (query : String) :
    (searchTerms tables query).all (recordFieldContains tables record) = true ↔
      SigmasAgree tables record query := by
  rw [searchTerms_eq, List.all_map, List.all_eq_true]
  unfold SigmasAgree
  apply forall₂_congr
  intro word isWord
  obtain ⟨notEmpty, noBlank⟩ := queryWords_spec isWord
  exact recordFieldContains_iff notEmpty noBlank

theorem hasEveryWord_of_sigmasAgree {record : SourceSessionRecord}
    (agree : SigmasAgree tables record query) : HasEveryWord tables record query := by
  intro word isWord
  obtain ⟨field, isField, within⟩ := agree word isWord
  exact ⟨field, isField, occursIn_of_lowercase within⟩

/-- The full-text table has the long words of a session that has every word. -/
theorem holds_of_hasEveryWord {record : SourceSessionRecord}
    (every : HasEveryWord tables record query) :
    ∀ phrase ∈ (searchTerms tables query).filter (fun term => 3 ≤ term.length),
      engine.holds phrase record.searchColumns = true := by
  intro phrase member
  obtain ⟨isTerm, long⟩ := List.mem_filter.mp member
  rw [searchTerms_eq] at isTerm
  obtain ⟨word, isWord, rfl⟩ := List.mem_map.mp isTerm
  obtain ⟨notEmpty, noBlank⟩ := queryWords_spec isWord
  obtain ⟨field, isField, occurs⟩ := every word isWord
  rw [engine.holds_iff _ _ (of_decide_eq_true long)]
  simp only [occursIn_toLowercase_iff]
  exact (exists_column_iff notEmpty noBlank).mpr ⟨field, isField, occurs⟩

/-- Row numbers lead back to the candidates. -/
theorem filterMap_rowids {A : Type} (keep : A → Bool) (items : List A) :
    ((items.zipIdx.filter fun row => keep row.1).map Prod.snd).filterMap (fun rowid => items[rowid]?) =
      items.filter keep := by
  rw [List.filterMap_map]
  have found : ∀ row ∈ items.zipIdx.filter (fun row => keep row.1),
      ((fun rowid => items[rowid]?) ∘ Prod.snd) row = some row.1 :=
    fun row member => List.mem_zipIdx_iff_getElem?.mp (List.mem_of_mem_filter member)
  rw [List.filterMap_congr found]
  change (items.zipIdx.filter fun row => keep row.1).filterMap (some ∘ Prod.fst) = _
  rw [List.filterMap_eq_map]
  have first : (items.zipIdx.map Prod.fst).filter keep =
      (items.zipIdx.filter (keep ∘ Prod.fst)).map Prod.fst := List.filter_map
  rw [List.zipIdx_map_fst] at first
  exact first.symm

variable (engine) in
/-- The expression of terms without a NUL finds the rows of which all hold. -/
theorem matchingRows_perm (candidates : List SourceSessionRecord) {terms : List (List Char)}
    (filled : terms ≠ []) (plain : ∀ term ∈ terms, nul ∉ term) :
    ∃ ordered, matchingRows engine (candidates.map SourceSessionRecord.searchColumns)
        (conjunction terms) = .ok ordered ∧
      (ordered.filterMap fun rowid => candidates[rowid]?).Perm
        (candidates.filter fun record => terms.all fun phrase =>
          engine.holds phrase record.searchColumns) := by
  unfold matchingRows
  rw [readExpression_conjunction filled, if_neg (by simpa using plain)]
  refine ⟨_, rfl, ?_⟩
  refine ((List.mergeSort_perm _ _).filterMap _).trans ?_
  have rows := filterMap_rowids (fun record : SourceSessionRecord => terms.all fun phrase =>
    engine.holds phrase record.searchColumns) candidates
  rw [← rows, List.zipIdx_map, List.filter_map, List.map_map]
  exact List.Perm.refl _

theorem matchingRows_of_nul (rows : List (List (List Char))) {terms : List (List Char)}
    (hasNul : ∃ term ∈ terms, nul ∈ term) :
    matchingRows engine rows (conjunction terms) = .error .malformedMatch := by
  obtain ⟨term, isTerm, nulInTerm⟩ := hasNul
  unfold matchingRows
  rw [readExpression_conjunction (List.ne_nil_of_mem isTerm), if_pos ⟨term, isTerm, nulInTerm⟩]

variable (engine) in
/-- What the candidates are ranked to, as far as they can be. -/
theorem rankCandidatesFts5_spec (candidates : List SourceSessionRecord) (query : String) :
    (∃ ranked, rankCandidatesFts5 engine candidates (searchTerms tables query) = .ok ranked ∧
      ranked.Perm (candidates.filter fun record =>
        (searchTerms tables query).all (recordFieldContains tables record)) ∧
      ∀ term ∈ searchTerms tables query, 3 ≤ term.length → nul ∉ term) ∨
    (rankCandidatesFts5 engine candidates (searchTerms tables query) = .error .malformedMatch ∧
      ∃ term ∈ searchTerms tables query, 3 ≤ term.length ∧ nul ∈ term) := by
  unfold rankCandidatesFts5
  dsimp only
  by_cases noLong : (searchTerms tables query).filter (fun term => 3 ≤ term.length) = []
  · rw [if_pos (List.isEmpty_iff.mpr noLong)]
    refine Or.inl ⟨_, rfl, List.Perm.refl _, fun term isTerm long => ?_⟩
    exact absurd (decide_eq_true long) (List.filter_eq_nil_iff.mp noLong term isTerm)
  rw [if_neg (List.isEmpty_iff.not.mpr noLong)]
  by_cases hasNul : ∃ term ∈ (searchTerms tables query).filter (fun term => 3 ≤ term.length), nul ∈ term
  · rw [matchingRows_of_nul _ hasNul]
    obtain ⟨term, member, nulInTerm⟩ := hasNul
    obtain ⟨isTerm, long⟩ := List.mem_filter.mp member
    exact Or.inr ⟨rfl, term, isTerm, of_decide_eq_true long, nulInTerm⟩
  · have plain : ∀ term ∈ (searchTerms tables query).filter (fun term => 3 ≤ term.length),
        nul ∉ term := fun term member nulInTerm => hasNul ⟨term, member, nulInTerm⟩
    obtain ⟨ordered, read, found⟩ := matchingRows_perm engine candidates noLong plain
    rw [read]
    refine Or.inl ⟨_, rfl, (found.filter _).trans ?_, fun term isTerm long =>
      plain term (List.mem_filter.mpr ⟨isTerm, decide_eq_true long⟩)⟩
    rw [List.filter_filter]
    refine List.Perm.of_eq (List.filter_congr ?_)
    intro record _
    -- a session that survives is in the full-text table
    cases survives : (searchTerms tables query).all (recordFieldContains tables record) with
    | false => rfl
    | true =>
        have every := hasEveryWord_of_sigmasAgree ((survives_iff record query).mp survives)
        rw [Bool.true_and, List.all_eq_true]
        exact holds_of_hasEveryWord every

theorem searchCandidates_perm (rfc3339 : DateTime → String) (db : MetadataDb)
    (sourceId : Option String) : (searchCandidates rfc3339 db sourceId).Perm
      (db.sessions.rows.filter fun record =>
        sourceId.all (· == record.sourceId) && record.listable) :=
  List.mergeSort_perm _ _

variable (engine) in
/-- A limit that covers the sessions gives those that survive, or the expression is not read. -/
theorem searchWithin_spec (rfc3339 : DateTime → String) (db : MetadataDb) (query : String)
    (sourceId : Option String) {limit : Nat} (large : db.sessions.rows.length ≤ limit) :
    (∃ found, searchWithin engine rfc3339 db query sourceId limit = .ok found ∧
      found.Perm ((db.sessions.rows.filter fun record =>
        sourceId.all (· == record.sourceId) && record.listable).filter fun record =>
          (searchTerms tables query).all (recordFieldContains tables record)) ∧
      ∀ term ∈ searchTerms tables query, 3 ≤ term.length → nul ∉ term) ∨
    (searchWithin engine rfc3339 db query sourceId limit = .error .malformedMatch ∧
      ∃ term ∈ searchTerms tables query, 3 ≤ term.length ∧ nul ∈ term) := by
  have candidates := searchCandidates_perm rfc3339 db sourceId
  have few : (searchCandidates rfc3339 db sourceId).length ≤ limit := by
    rw [candidates.length_eq]
    exact (List.length_filter_le _ _).trans large
  unfold searchWithin
  dsimp only
  by_cases noTerms : searchTerms tables query = []
  · rw [if_pos (List.isEmpty_iff.mpr noTerms), List.take_of_length_le few, noTerms]
    refine Or.inl ⟨_, rfl, ?_, fun _ none => absurd none List.not_mem_nil⟩
    exact candidates.trans (List.Perm.of_eq (List.filter_eq_self.mpr fun _ _ => rfl).symm)
  rw [if_neg (List.isEmpty_iff.not.mpr noTerms)]
  rcases rankCandidatesFts5_spec engine (searchCandidates rfc3339 db sourceId) query with
    ⟨ranked, done, perm, plain⟩ | ⟨failed, hasNul⟩
  · rw [done]
    refine Or.inl ⟨_, rfl, ?_, plain⟩
    rw [List.take_of_length_le]
    · exact perm.trans (candidates.filter _)
    · rw [perm.length_eq]
      exact (List.length_filter_le _ _).trans few
  · rw [failed]
    exact Or.inr ⟨rfl, hasNul⟩

end Answer

/-- A search finds the sessions with every word exactly when no word of three characters or
more has a NUL, and the sessions with every word have it with the sigmas that its lower case
has. -/
theorem search_finds_sessions_iff {tables : CaseTables} (engine : FullText tables)
    (rfc3339 : DateTime → String) (db : MetadataDb) (query : String) (sourceId : Option String) :
    FindsSessions engine rfc3339 db query sourceId ↔
      (∀ word ∈ queryWords query, 3 ≤ (toLowercase tables word).length →
        nul ∉ toLowercase tables word) ∧
      ∀ record ∈ db.sessions.rows, sourceId.all (· == record.sourceId) = true →
        record.listable = true → HasEveryWord tables record query →
          SigmasAgree tables record query := by
  have terms : (∀ term ∈ searchTerms tables query, 3 ≤ term.length → nul ∉ term) ↔
      ∀ word ∈ queryWords query, 3 ≤ (toLowercase tables word).length →
        nul ∉ toLowercase tables word := by
    rw [searchTerms_eq, List.forall_mem_map]
  rw [← terms]
  have asked : (db.sessions.rows.filter fun record => sourceId.all (· == record.sourceId) &&
      record.listable && decide (HasEveryWord tables record query)) =
        (db.sessions.rows.filter fun record => sourceId.all (· == record.sourceId) &&
          record.listable).filter fun record => decide (HasEveryWord tables record query) := by
    rw [List.filter_filter]
    exact List.filter_congr fun record _ => Bool.and_comm _ _
  unfold FindsSessions
  rw [asked]
  constructor
  · intro finds
    obtain ⟨found, done, expected⟩ := finds _ le_rfl
    rcases searchWithin_spec engine rfc3339 db query sourceId le_rfl with
      ⟨others, alike, perm, plain⟩ | ⟨failed, _⟩
    · cases alike.symm.trans done
      refine ⟨plain, fun record member ofSource listable every => ?_⟩
      have same := filter_eq_of_length_le (fun record _ survives => decide_eq_true
        (hasEveryWord_of_sigmasAgree ((survives_iff record query).mp survives)))
        (expected.symm.trans perm).length_eq.le record
        (List.mem_filter.mpr ⟨member, by rw [ofSource, listable]; rfl⟩)
      exact (survives_iff record query).mp (same.symm.trans (decide_eq_true every))
    · cases failed.symm.trans done
  · rintro ⟨plain, agree⟩ limit large
    rcases searchWithin_spec engine rfc3339 db query sourceId large with
      ⟨found, done, perm, _⟩ | ⟨_, term, isTerm, long, hasNul⟩
    · refine ⟨found, done, perm.trans (List.Perm.of_eq (List.filter_congr ?_))⟩
      intro record member
      obtain ⟨inDb, chosen⟩ := List.mem_filter.mp member
      rw [Bool.and_eq_true] at chosen
      rw [Bool.eq_iff_iff, survives_iff, decide_eq_true_eq]
      exact ⟨hasEveryWord_of_sigmasAgree, agree record inDb chosen.1 chosen.2⟩
    · exact absurd hasNul (plain term isTerm long)

/-- A text whose sigmas are all small ones within a word. -/
def NoSigmaForms (text : List Char) : Prop := capitalSigma ∉ text ∧ finalSigma ∉ text

/-- Without other sigmas, in the query or in the fields, every word that occurs is found. -/
theorem sigmasAgree_of_noSigmaForms {tables : CaseTables} {record : SourceSessionRecord}
    {query : String} (words : ∀ word ∈ queryWords query, NoSigmaForms word)
    (fields : ∀ field ∈ record.searchFields, NoSigmaForms field)
    (every : HasEveryWord tables record query) : SigmasAgree tables record query := by
  intro word isWord
  obtain ⟨field, isField, occurs⟩ := every word isWord
  refine ⟨field, isField, ?_⟩
  obtain ⟨noCapital, noFinal⟩ := words word isWord
  obtain ⟨fieldCapital, fieldFinal⟩ := fields field isField
  rw [toLowercase_eq_fold noCapital noFinal, toLowercase_eq_fold fieldCapital fieldFinal]
  exact occurs

/-! ## A word that ends in a sigma -/

def greekLetters : List (Char × Char) :=
  [('Ο', 'ο'), ('Δ', 'δ'), ('Σ', 'σ'), ('Η', 'η'), ('Μ', 'μ'), ('Α', 'α'), ('Ν', 'ν')]

/-- The tables for the letters above; every other character has no case. -/
def greekTables : CaseTables where
  lower char := [(greekLetters.lookup char).getD char]
  cased char := greekLetters.any fun letter => letter.1 = char ∨ letter.2 = char
  caseIgnorable _ := false
  lower_stable char small member := by
    have isSmall : small = (greekLetters.lookup char).getD char := List.mem_singleton.mp member
    rw [isSmall]
    cases found : greekLetters.lookup char with
    | none => simp [found]
    | some letter =>
        have settled : ∀ entry ∈ greekLetters, greekLetters.lookup entry.2 = none := by decide
        have none := settled (char, letter) (OrderedMap.mem_of_lookup found)
        simp [none]
  lower_ne_nil _ := List.cons_ne_nil _ _
  lower_capitalSigma := by decide
  finalSigma_mem_lower char := by
    cases found : greekLetters.lookup char with
    | none => simp [eq_comm]
    | some letter =>
        have apart : ∀ entry ∈ greekLetters, finalSigma ≠ entry.2 ∧ entry.1 ≠ finalSigma := by decide
        have here := apart (char, letter) (OrderedMap.mem_of_lookup found)
        simp [here.1, here.2]
  blank_mem_lower char := by
    cases found : greekLetters.lookup char with
    | none => simp [eq_comm]
    | some letter =>
        have apart : ∀ entry ∈ greekLetters, ' ' ≠ entry.2 ∧ entry.1 ≠ ' ' := by decide
        have here := apart (char, letter) (OrderedMap.mem_of_lookup found)
        simp [here.1, here.2]
  blank_apart := by decide

def greekSearch : FullText greekTables where
  holds phrase columns := columns.any fun column => OccursIn greekTables phrase column
  bm25 _ _ _ := 0
  holds_iff phrase columns _ := by simp

def titledDb (title : String) : MetadataDb :=
  { MetadataDb.new with
    sessions := ⟨[{ editedSession "a.rs" with title := some title }], List.nodup_singleton _⟩ }

/-- The title has the word as it is written, and the search does not find it. -/
theorem word_with_sigma_not_found :
    ¬ FindsSessions greekSearch epochText (titledDb "ΟΔΟΣΗΜΑΝΣΗ") "ΟΔΟΣ" none := by
  have silent : (searchWithin greekSearch epochText (titledDb "ΟΔΟΣΗΜΑΝΣΗ") "ΟΔΟΣ" none 1).map
      List.length = .ok 0 := by
    decide +kernel
  have one : ((titledDb "ΟΔΟΣΗΜΑΝΣΗ").sessions.rows.filter fun record =>
      Option.all (· == record.sourceId) none && record.listable &&
        decide (HasEveryWord greekTables record "ΟΔΟΣ")).length = 1 := by
    decide +kernel
  intro finds
  obtain ⟨found, done, expected⟩ := finds 1 le_rfl
  rw [done] at silent
  have empty := Except.ok.inj silent
  rw [expected.length_eq] at empty
  exact absurd (one.symm.trans empty) (by decide)

end BrickTrace
