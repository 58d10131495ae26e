import BrickTrace.Lib.ShellWords
import BrickTrace.Lib.SqlText

/-!
# The command that reads a session

An explanation hands out commands that print the chunks of a session: `sqlite3` on the
event database, with a query that has the source and the session as literals.  The query
is a word between double quotes.  Both ids may come from another machine.
-/

set_option autoImplicit false

namespace BrickTrace

open ShellWords (staysLiteral doubleQuote)

/-! ## The command -/

/-- A text as an SQL literal, its quotation marks doubled. -/
def sqlLiteral (text : String) : String := "'" ++ String.ofList (SqlText.doubled text.toList) ++ "'"

def rawColumn (preview : Bool) : String :=
  if preview then "substr(raw_json, 1, 2000) AS raw_preview" else "raw_json"

def chunkLimit (preview : Bool) : String := if preview then " LIMIT 120" else ""

def readSessionSql (metadataDb source sessionId : String) (preview : Bool) : String :=
  "ATTACH DATABASE " ++ sqlLiteral metadataDb ++
    " AS metadata; WITH unified AS (SELECT chunk_index, occurred_at AS created_at, " ++
    "chunk_kind AS action_type, json_extract(raw_json, " ++ "'$.function'" ++ ") AS function, " ++
    rawColumn preview ++ " FROM brick_event_chunks WHERE source_id=" ++ sqlLiteral source ++
    " AND external_session_id=" ++ sqlLiteral sessionId ++
    "), legacy AS (SELECT c.chunk_index, c.created_at, c.action_type, c.function, " ++
    rawColumn preview ++ " FROM metadata.source_session_chunks c JOIN metadata.source_sessions s " ++
    "ON s.source_session_id = c.source_session_id WHERE s.source_id=" ++ sqlLiteral source ++
    " AND s.external_session_id=" ++ sqlLiteral sessionId ++
    ") SELECT * FROM (SELECT * FROM unified UNION ALL SELECT * FROM legacy " ++
    "WHERE NOT EXISTS (SELECT 1 FROM unified)) ORDER BY chunk_index" ++ chunkLimit preview ++ ";"

/-- `paths` are those of the event database and of the metadata database. -/
def readSessionSqliteCommand (paths : Option (String × String)) (source sessionId : String)
    (preview : Bool) : String :=
  match paths with
  | none =>
      "# local event/chunk DB unavailable; session source=" ++ source ++ " external_session_id=" ++
        sessionId
  | some (eventDb, metadataDb) =>
      "sqlite3" ++ " " ++ "-json" ++ " " ++ "\"" ++ eventDb ++ "\"" ++ " " ++ "\"" ++
        readSessionSql metadataDb source sessionId preview ++ "\""

def readSessionCommand (paths : Option (String × String)) (source sessionId : String) : String :=
  readSessionSqliteCommand paths source sessionId false

def readSessionPreviewCommand (paths : Option (String × String)) (source sessionId : String) : String :=
  readSessionSqliteCommand paths source sessionId true

/-! ## What it should say -/

/-- A part of the query; the ids stand in it as literals only. -/
inductive QueryPart where
  | code (text : String)
  | literal (text : String)
  | sourceId
  | externalSessionId

def QueryPart.pieces (source sessionId : String) : QueryPart → List SqlText.Piece
  | .code text => text.toList.map .code
  | .literal text => [.literal text.toList]
  | .sourceId => [.literal source.toList]
  | .externalSessionId => [.literal sessionId.toList]

def sessionQuery (metadataDb : String) (preview : Bool) : List QueryPart :=
  [.code "ATTACH DATABASE ", .literal metadataDb,
    .code " AS metadata; WITH unified AS (SELECT chunk_index, occurred_at AS created_at, ",
    .code "chunk_kind AS action_type, json_extract(raw_json, ", .literal "$.function",
    .code ") AS function, ", .code (rawColumn preview),
    .code " FROM brick_event_chunks WHERE source_id=", .sourceId,
    .code " AND external_session_id=", .externalSessionId,
    .code "), legacy AS (SELECT c.chunk_index, c.created_at, c.action_type, c.function, ",
    .code (rawColumn preview),
    .code " FROM metadata.source_session_chunks c JOIN metadata.source_sessions s ",
    .code "ON s.source_session_id = c.source_session_id WHERE s.source_id=", .sourceId,
    .code " AND s.external_session_id=", .externalSessionId,
    .code ") SELECT * FROM (SELECT * FROM unified UNION ALL SELECT * FROM legacy ",
    .code "WHERE NOT EXISTS (SELECT 1 FROM unified)) ORDER BY chunk_index",
    .code (chunkLimit preview), .code ";"]

/-- A shell reads the command as four literal words, the last of which is the query with the
ids as literals. -/
def ReadsAsMeant (eventDb metadataDb source sessionId : String) (preview : Bool) (command : String) :
    Prop :=
  ∃ sql,
    ShellWords.words .unquoted none command.toList =
      some ["sqlite3".toList, "-json".toList, eventDb.toList, sql] ∧
    SqlText.pieces .code sql =
      some ((sessionQuery metadataDb preview).flatMap (QueryPart.pieces source sessionId))

/-- Neither a quoted word nor a literal gives the character a meaning. -/
def isPlain (char : Char) : Bool :=
  char ∉ [doubleQuote, ShellWords.singleQuote, ShellWords.backquote, '$', ShellWords.backslash,
    ShellWords.nul]

def isPlainPath (path : String) : Bool := path.toList.all isPlain

/-- An id that stands for itself between double quotes. -/
def StandsForItself (id : String) : Prop := staysLiteral none id.toList = true

instance (id : String) : Decidable (StandsForItself id) := inferInstanceAs (Decidable (_ = true))

/-! ## Literals between double quotes -/

/-- An apostrophe is neither quoted by a backslash nor expanded after a dollar sign. -/
theorem literalBefore_quote (char : Char) :
    ShellWords.literalBefore char (some SqlText.quote) = ShellWords.literalBefore char none := by
  have unescaped : (some SqlText.quote).any (· ∈ ShellWords.escapable) = false := by decide
  have unexpanded : (some SqlText.quote).any ShellWords.startsExpansion = false := by decide
  unfold ShellWords.literalBefore
  rw [unescaped, unexpanded]
  rfl

theorem literalBefore_self (next : Option Char) :
    ShellWords.literalBefore SqlText.quote next = true := rfl

theorem staysLiteral_doubled (value : List Char) :
    staysLiteral (some SqlText.quote) (SqlText.doubled value) = staysLiteral none value := by
  induction value with
  | nil => rfl
  | cons char rest ih =>
      have head : (SqlText.doubled rest).head?.or (some SqlText.quote) =
          rest.head?.or (some SqlText.quote) := by
        cases rest with
        | nil => rfl
        | cons next later =>
            by_cases isQuote : next = SqlText.quote
            · simp [SqlText.doubled, isQuote]
            · simp [SqlText.doubled, isQuote]
      by_cases isQuote : char = SqlText.quote
      · subst isQuote
        have shape : SqlText.doubled (SqlText.quote :: rest) =
            SqlText.quote :: SqlText.quote :: SqlText.doubled rest := rfl
        rw [shape, staysLiteral, staysLiteral, staysLiteral, ih, literalBefore_self, literalBefore_self,
          literalBefore_self, Bool.true_and, Bool.true_and]
      · have shape : SqlText.doubled (char :: rest) = char :: SqlText.doubled rest := by
          simp [SqlText.doubled, isQuote]
        rw [shape, staysLiteral, staysLiteral, ih, head]
        congr 1
        cases rest with
        | nil => exact literalBefore_quote char
        | cons next later => rfl

/-- A literal stands for itself exactly when its value does. -/
theorem staysLiteral_literal (after : Option Char) (value : List Char) :
    staysLiteral after (SqlText.literal value) = staysLiteral none value := by
  have close : staysLiteral after [SqlText.quote] = true := rfl
  unfold SqlText.literal
  rw [staysLiteral, literalBefore_self, Bool.true_and, ShellWords.staysLiteral_append, close,
    Bool.and_true]
  exact staysLiteral_doubled value

theorem literalBefore_of_plain {char : Char} (plain : isPlain char = true) (next : Option Char) :
    ShellWords.literalBefore char next = true := by
  simp only [isPlain, decide_eq_true_eq, List.mem_cons, List.not_mem_nil, or_false, not_or] at plain
  obtain ⟨notDouble, _, notGrave, notDollar, notBackslash, notNul⟩ := plain
  simp [ShellWords.literalBefore, notDouble, notGrave, notDollar, notBackslash, notNul]

theorem staysLiteral_of_plain {chars : List Char} (plain : chars.all isPlain = true)
    (after : Option Char) : staysLiteral after chars = true := by
  induction chars with
  | nil => rfl
  | cons char rest ih =>
      rw [List.all_cons, Bool.and_eq_true] at plain
      rw [staysLiteral, literalBefore_of_plain plain.1, Bool.true_and]
      exact ih plain.2

/-- There is no NUL in a text that stands for itself. -/
theorem nul_notMem_of_staysLiteral {after : Option Char} {chars : List Char}
    (literal : staysLiteral after chars = true) : SqlText.nul ∉ chars := by
  induction chars with
  | nil => exact List.not_mem_nil
  | cons char rest ih =>
      rw [staysLiteral, Bool.and_eq_true] at literal
      intro member
      rcases List.mem_cons.mp member with rfl | later
      · have absurdity : ShellWords.literalBefore SqlText.nul (rest.head?.or after) = false := rfl
        rw [absurdity] at literal
        cases literal.1
      · exact ih literal.2 later

/-! ## The query as a text -/

namespace QueryPart

/-- The value of a part that is a literal. -/
def value (source sessionId : String) : QueryPart → Option String
  | .code _ => none
  | .literal text => some text
  | .sourceId => some source
  | .externalSessionId => some sessionId

def isLiteral : QueryPart → Bool
  | .code _ => false
  | _ => true

/-- The code of the query is plain, and each literal is followed by code. -/
inductive Readable : List QueryPart → Prop
  | nil : Readable []
  | code {chars : List Char} {parts : List QueryPart} (plain : chars.all isPlain = true)
      (isCode : SqlText.isCode chars = true) (rest : Readable parts) :
      Readable (.code (String.ofList chars) :: parts)
  | literal {part : QueryPart} {char : Char} {chars : List Char} {parts : List QueryPart}
      (isLiteral : part.isLiteral = true) (notQuote : char ≠ SqlText.quote)
      (rest : Readable (.code (String.ofList (char :: chars)) :: parts)) :
      Readable (part :: .code (String.ofList (char :: chars)) :: parts)

variable {source sessionId : String} {parts : List QueryPart}

theorem write_cons (part : QueryPart) :
    SqlText.write ((part :: parts).flatMap (pieces source sessionId)) =
      SqlText.write (part.pieces source sessionId) ++
        SqlText.write (parts.flatMap (pieces source sessionId)) := by
  rw [List.flatMap_cons, SqlText.write, List.flatMap_append]
  rfl

theorem write_code (text : String) :
    SqlText.write ((QueryPart.code text).pieces source sessionId) = text.toList := by
  simp [pieces, SqlText.write, List.flatMap_map, SqlText.Piece.text]

theorem pieces_of_isLiteral (source sessionId : String) {part : QueryPart}
    (literal : part.isLiteral = true) :
    ∃ text, part.value source sessionId = some text ∧
      part.pieces source sessionId = [.literal text.toList] := by
  cases part with
  | code text => cases literal
  | literal text => exact ⟨text, rfl, rfl⟩
  | sourceId => exact ⟨source, rfl, rfl⟩
  | externalSessionId => exact ⟨sessionId, rfl, rfl⟩

theorem write_literal {part : QueryPart} {text : String}
    (shown : part.pieces source sessionId = [.literal text.toList]) :
    SqlText.write (part.pieces source sessionId) = SqlText.literal text.toList := by
  rw [shown]
  simp [SqlText.write, SqlText.Piece.text]

/-- A readable query whose literals have no NUL is read as it is written. -/
theorem pieces_readable (isReadable : Readable parts)
    (plain : ∀ part ∈ parts, ∀ text, part.value source sessionId = some text →
      SqlText.nul ∉ text.toList) :
    SqlText.pieces .code (SqlText.write (parts.flatMap (pieces source sessionId))) =
      some (parts.flatMap (pieces source sessionId)) := by
  induction isReadable with
  | nil => rfl
  | code _ isCode _ ih =>
      have read := ih (List.forall_mem_cons.mp plain).2
      rw [write_cons, write_code, String.toList_ofList, SqlText.pieces_code isCode, read,
        List.flatMap_cons, pieces, String.toList_ofList]
      rfl
  | literal isLiteral notQuote _ ih =>
      obtain ⟨here, others⟩ := List.forall_mem_cons.mp plain
      obtain ⟨text, isValue, shown⟩ := pieces_of_isLiteral source sessionId isLiteral
      have read := ih others
      rw [write_cons, write_literal shown, SqlText.pieces_literal (here text isValue), read]
      · simp only [List.flatMap_cons, shown]
        rfl
      · rw [write_cons, write_code, String.toList_ofList]
        exact fun same => notQuote (Option.some.inj same)

/-- A readable query stands for itself exactly when the values of its literals do. -/
theorem staysLiteral_readable_iff (isReadable : Readable parts) (after : Option Char) :
    staysLiteral after (SqlText.write (parts.flatMap (pieces source sessionId))) = true ↔
      ∀ part ∈ parts, ∀ text, part.value source sessionId = some text → StandsForItself text := by
  induction isReadable with
  | nil => simp [SqlText.write, staysLiteral]
  | code plain _ _ ih =>
      rw [write_cons, ShellWords.staysLiteral_append, Bool.and_eq_true, List.forall_mem_cons,
        write_code, String.toList_ofList, staysLiteral_of_plain plain]
      refine and_congr ?_ ih
      constructor
      · intro _ text none
        cases none
      · intro _
        rfl
  | literal isLiteral _ _ ih =>
      obtain ⟨text, isValue, shown⟩ := pieces_of_isLiteral source sessionId isLiteral
      rw [write_cons, ShellWords.staysLiteral_append, Bool.and_eq_true, List.forall_mem_cons,
        write_literal shown, staysLiteral_literal, isValue]
      refine and_congr ?_ ih
      exact ⟨fun literal _ same => Option.some.inj same ▸ literal, fun each => each text rfl⟩

end QueryPart

theorem toList_sqlLiteral (text : String) :
    (sqlLiteral text).toList = SqlText.literal text.toList := by
  unfold sqlLiteral SqlText.literal
  simp [SqlText.quote]

theorem toList_readSessionSql (metadataDb source sessionId : String) (preview : Bool) :
    (readSessionSql metadataDb source sessionId preview).toList =
      SqlText.write ((sessionQuery metadataDb preview).flatMap (QueryPart.pieces source sessionId)) := by
  have function : "'$.function'".toList = SqlText.literal "$.function".toList := rfl
  have literal : ∀ text : List Char, SqlText.write [.literal text] = SqlText.literal text := by
    intro text
    simp [SqlText.write, SqlText.Piece.text]
  unfold readSessionSql sessionQuery
  simp only [QueryPart.write_cons, QueryPart.write_code, String.toList_append, toList_sqlLiteral, function]
  simp only [QueryPart.pieces, literal, List.flatMap_nil, List.append_assoc]
  simp only [SqlText.write, List.flatMap_nil, List.append_nil]

theorem readable_sessionQuery (metadataDb : String) (preview : Bool) :
    QueryPart.Readable (sessionQuery metadataDb preview) := by
  unfold sessionQuery rawColumn chunkLimit
  cases preview
  all_goals
    repeat' first
      | exact .nil
      | apply QueryPart.Readable.code (by decide) (by decide)
      | apply QueryPart.Readable.literal rfl (by decide)

/-! ## The command as words -/

variable {eventDb metadataDb : String}

/-- `sqlite3` with a query between double quotes. -/
def sqliteCommand (eventDb query : String) : String :=
  "sqlite3" ++ " " ++ "-json" ++ " " ++ "\"" ++ eventDb ++ "\"" ++ " " ++ "\"" ++ query ++ "\""

theorem toList_sqliteCommand (eventDb query : String) :
    (sqliteCommand eventDb query).toList =
      "sqlite3".toList ++ ' ' :: ("-json".toList ++ ' ' :: (doubleQuote :: (eventDb.toList ++
        doubleQuote :: ' ' :: (doubleQuote :: (query.toList ++ [doubleQuote]))))) := by
  have quoted : "\"".toList = [doubleQuote] := rfl
  have spaced : " ".toList = [' '] := rfl
  unfold sqliteCommand
  simp only [String.toList_append, quoted, spaced, List.append_assoc, List.cons_append,
    List.nil_append]

/-- With a plain path, the command has three words and those of its query. -/
theorem words_sqliteCommand (plainEvent : isPlainPath eventDb = true) (query : String) :
    ShellWords.words .unquoted none (sqliteCommand eventDb query).toList =
      (ShellWords.words .double (some []) (query.toList ++ [doubleQuote])).map
        (["sqlite3".toList, "-json".toList, eventDb.toList] ++ ·) := by
  rw [toList_sqliteCommand]
  generalize query.toList ++ [doubleQuote] = query
  have program : ∀ rest, ShellWords.words .unquoted none ("sqlite3".toList ++ ' ' :: rest) =
      (ShellWords.words .unquoted none rest).map ("sqlite3".toList :: ·) :=
    ShellWords.words_plain (List.all_eq_true.mp (by decide))
  have flag : ∀ rest, ShellWords.words .unquoted none ("-json".toList ++ ' ' :: rest) =
      (ShellWords.words .unquoted none rest).map ("-json".toList :: ·) :=
    ShellWords.words_plain (List.all_eq_true.mp (by decide))
  have opened : ShellWords.words .unquoted none (doubleQuote :: query) =
      ShellWords.words .double (some []) query := rfl
  rw [program, flag, ShellWords.words_quoted (staysLiteral_of_plain plainEvent _), opened,
    Option.map_map, Option.map_map]
  rfl

/-- The query is a word as it is exactly when both ids stand for themselves. -/
theorem staysLiteral_readSessionSql_iff (plainMetadata : isPlainPath metadataDb = true)
    (source sessionId : String) (preview : Bool) :
    staysLiteral (some doubleQuote) (readSessionSql metadataDb source sessionId preview).toList =
        true ↔ StandsForItself source ∧ StandsForItself sessionId := by
  have path : StandsForItself metadataDb := staysLiteral_of_plain plainMetadata none
  have function : StandsForItself "$.function" := by decide
  rw [toList_readSessionSql,
    QueryPart.staysLiteral_readable_iff (readable_sessionQuery metadataDb preview)]
  simp only [sessionQuery, List.forall_mem_cons, QueryPart.value, Option.some.injEq, forall_eq',
    path, function, reduceCtorEq, IsEmpty.forall_iff, implies_true, List.not_mem_nil, true_and,
    and_true]
  tauto

/-- The query is read with the ids as literals when they stand for themselves. -/
theorem pieces_readSessionSql (plainMetadata : isPlainPath metadataDb = true)
    {source sessionId : String} (sourceStands : StandsForItself source)
    (sessionStands : StandsForItself sessionId) (preview : Bool) :
    SqlText.pieces .code (readSessionSql metadataDb source sessionId preview).toList =
      some ((sessionQuery metadataDb preview).flatMap (QueryPart.pieces source sessionId)) := by
  have literal := (staysLiteral_readSessionSql_iff plainMetadata source sessionId preview).mpr
    ⟨sourceStands, sessionStands⟩
  have isReadable := readable_sessionQuery metadataDb preview
  rw [toList_readSessionSql] at literal ⊢
  apply QueryPart.pieces_readable isReadable
  intro part member text isValue
  exact nul_notMem_of_staysLiteral
    ((QueryPart.staysLiteral_readable_iff isReadable _).mp literal part member text isValue)

theorem readsAsMeant_iff (plainEvent : isPlainPath eventDb = true)
    (plainMetadata : isPlainPath metadataDb = true) (source sessionId : String) (preview : Bool) :
    ReadsAsMeant eventDb metadataDb source sessionId preview
        (readSessionSqliteCommand (some (eventDb, metadataDb)) source sessionId preview) ↔
      StandsForItself source ∧ StandsForItself sessionId := by
  rw [← staysLiteral_readSessionSql_iff plainMetadata source sessionId preview,
    ← ShellWords.words_quoted_iff]
  have command : readSessionSqliteCommand (some (eventDb, metadataDb)) source sessionId preview =
      sqliteCommand eventDb (readSessionSql metadataDb source sessionId preview) := rfl
  unfold ReadsAsMeant
  rw [command, words_sqliteCommand plainEvent]
  constructor
  · rintro ⟨sql, isWords, isPieces⟩
    obtain ⟨read, isRead, same⟩ := Option.map_eq_some_iff.mp isWords
    have last : read = [sql] := by simpa using same
    have text : sql = (readSessionSql metadataDb source sessionId preview).toList := by
      rw [toList_readSessionSql, SqlText.write_of_pieces isPieces]
      rfl
    rw [isRead, last, text]
  · intro isRead
    refine ⟨(readSessionSql metadataDb source sessionId preview).toList, ?_, ?_⟩
    · rw [isRead]
      rfl
    · have stand := (staysLiteral_readSessionSql_iff plainMetadata source sessionId preview).mp
        ((ShellWords.words_quoted_iff _).mp isRead)
      exact pieces_readSessionSql plainMetadata stand.1 stand.2 preview

end BrickTrace
