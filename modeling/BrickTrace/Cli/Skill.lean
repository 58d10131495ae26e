import BrickTrace.Lib.MarkedBlocks
import BrickTrace.Lib.Numerals
import BrickTrace.Lib.Phrases
import BrickTrace.Protocol.Text

/-!
# Brick's skill

Each client reads its skills under the user's home, and Brick's is one file there.  A marker with
a version shows that a file is Brick's; a file without the marker is the user's own.
-/

set_option autoImplicit false

namespace BrickTrace.Skill

open MarkedBlocks (find)

/-! ## The file that is installed -/

def skillVersion : Nat := 4

def skillMarkerPrefix : List Char := "<!-- brick:skill v=".toList

def description : List Char := [
    "Recall WHY this codebase looks the way it does — the causal history across every AI ",
    "tool that touched it. Use when investigating what caused a bug, explaining why some ",
    "behavior or code exists, tracing what introduced a change, answering a \"how did ",
    "this happen\" or \"why is this broken\" question, or reviewing code before you ",
    "change it. Reach for this skill BEFORE grep, git log, reading files top-to-bottom, ",
    "or web search — `brick explain` is the first move for any cause/history question."].flatMap
    String.toList

def skillBodyLines : List String := [
    "# Brick — causal memory of this codebase",
    "",
    "Brick answers WHY code looks the way it does, across every AI tool that has touched",
    "this repo. It is the history layer git does not have: for any file it returns the",
    "timeline of AI sessions that changed it, newest first, each with a transcript",
    "pointer. Its agent surface is one MCP tool: `explain` (read WHY). It is read-only.",
    "",
    "## When the task is about CAUSE or HISTORY",
    "",
    "The moment a task is about why something is the way it is — what caused a bug, why a",
    "behavior exists, what introduced a change, or understanding code before you touch it",
    "— your FIRST move is `explain`, before grep, `git log`, reading files top-to-bottom,",
    "or fetching the issue tracker:",
    "",
    "```",
    "brick explain <path>:<line>",
    "brick explain <path>:<start>-<end>   # explain a whole block at once",
    "```",
    "",
    "(Or call the `explain` MCP tool.) The anchor can also be a whole file, an artifact,",
    "a mission, or an event id. It returns a `causal_chain`: a newest-first timeline of",
    "the sessions that touched the anchor — who changed it, WHEN, the `mission_title`",
    "they did it under, and whether another session is editing the file right now. depth",
    "0 is the most recent change; higher depth is older.",
    "",
    "**What counts as a real Brick record.** A timeline step carrying an `actor_id`, a",
    "`mission_title`, or `confidence: explicit` IS provenance — treat it as useful history",
    "even when its `note` is null or shallow. If `causal_chain` is non-empty, Brick",
    "succeeded: do NOT call it useless just because the top-level note says file-level",
    "fallback or no exact line-level record. Only fall back to git/grep when `explain`",
    "returns an empty `causal_chain` or an explicit \"No Brick record\" note.",
    "",
    "**Follow `next_action` and go deeper than the `note`.** A step's `note` is only that",
    "turn's CLOSING narration, which is often NOT the root cause. When `explain` returns",
    "`next_action.kind = \"read_transcript\"`, run its bounded preview `command` before",
    "concluding WHY; use `full_command` only when the preview is insufficient. If there",
    "is no `next_action` but the note doesn't answer your question, run the step's",
    "`transcript.read_session` command and read the original tool calls, errors, and",
    "reasoning end-to-end. The real cause lives in that deep read.",
    "",
    "",
    "## After you change code",
    "",
    "Nothing to record: Brick recovers the WHY of your edits from the session transcript",
    "automatically, so the next agent's `explain` will surface what you did and why."]

def skillBody : List Char := Phrases.joined '\n' (skillBodyLines.map String.toList) ++ ['\n']

/-- The lines before the marker. -/
def frontmatter : List Char :=
  "---\nname: brick\ndescription: ".toList ++ description ++ "\nalways: true\n---\n".toList

def skillMd : List Char :=
  frontmatter ++ skillMarkerPrefix ++ (toString skillVersion).toList ++ " -->\n".toList ++
    skillBody.dropWhile isWhiteSpace

/-! ## The operations -/

inductive SkillAction where
  | installed
  | updated
  | unchanged
  | removed
  | absent
  | present
  | stale
deriving DecidableEq

inductive SkillClient where
  | claude
  | codex
  | cursor
  | gemini
  | orgii
  | windsurf
deriving DecidableEq

/-- A path under the home directory. -/
abbrev Path : Type := List String

def SkillClient.skillsRoot : SkillClient → Path
  | .claude => [".claude", "skills"]
  | .codex => [".agents", "skills"]
  | .cursor => [".cursor", "skills"]
  | .gemini => [".gemini", "skills"]
  | .orgii => [".orgii", "skills"]
  | .windsurf => [".codeium", "windsurf", "skills"]

def SkillClient.skillPath (client : SkillClient) : Path :=
  client.skillsRoot ++ ["brick", "SKILL.md"]

/-- The file that is written first and then renamed. -/
def SkillClient.tempPath (client : SkillClient) : Path :=
  client.skillsRoot ++ ["brick", "SKILL.md.tmp"]

/-- A file that is there has a text, or bytes that are none. -/
inductive SkillFile where
  | missing
  | binary
  | text (content : List Char)

abbrev Home : Type := Path → SkillFile

def Home.put (home : Home) (path : Path) (file : SkillFile) : Home :=
  fun other => if other = path then file else home other

/-- The step of a write or of a removal that fails. -/
inductive Fault where
  | directory
  | temp
  | rename
  | remove

def shownPath (path : Path) : String := "/".intercalate path

def readExisting (home : Home) (path : Path) : Except String (Option (List Char)) :=
  match home path with
  | .missing => .ok none
  | .binary => .error ("failed to read " ++ shownPath path)
  | .text content => .ok (some content)

/-- The version after the first marker; a file without a marker is taken for a current one. -/
def classify (content : List Char) : SkillAction :=
  match find content skillMarkerPrefix with
  | some index =>
      let after := content.drop (index + skillMarkerPrefix.length)
      let version := (Numerals.parseUnsigned (2 ^ 32)
        (String.ofList (after.takeWhile Char.isDigit))).getD 0
      if version = skillVersion then .present else .stale
  | none => .present

def writeAtomic (fault : Option Fault) (client : SkillClient) (content : List Char) (home : Home) :
    Except String Unit × Home :=
  match fault with
  | some .directory =>
      (.error ("failed to create " ++ shownPath (client.skillsRoot ++ ["brick"])), home)
  | some .temp => (.error ("failed to write " ++ shownPath client.tempPath), home)
  | some .rename => (.error ("failed to install skill at " ++ shownPath client.skillPath),
      home.put client.tempPath (.text content))
  | _ => (.ok (), (home.put client.tempPath .missing).put client.skillPath (.text content))

def install (client : SkillClient) (force : Bool) (fault : Option Fault) (home : Home) :
    Except String SkillAction × Home :=
  match readExisting home client.skillPath with
  | .error failure => (.error failure, home)
  | .ok (some existing) =>
      if classify existing = .present ∧ force = false then (.ok .unchanged, home)
      else
        match writeAtomic fault client skillMd home with
        | (.error failure, after) => (.error failure, after)
        | (.ok _, after) => (.ok .updated, after)
  | .ok none =>
      match writeAtomic fault client skillMd home with
      | (.error failure, after) => (.error failure, after)
      | (.ok _, after) => (.ok .installed, after)

/-- Any file at the path goes, whatever is in it. -/
def uninstall (client : SkillClient) (fault : Option Fault) (home : Home) :
    Except String SkillAction × Home :=
  match readExisting home client.skillPath with
  | .error failure => (.error failure, home)
  | .ok none => (.ok .absent, home)
  | .ok (some _) =>
      match fault with
      | some .remove => (.error ("failed to remove skill at " ++ shownPath client.skillPath), home)
      | _ => (.ok .removed, home.put client.skillPath .missing)

def status (client : SkillClient) (home : Home) : Except String SkillAction :=
  (readExisting home client.skillPath).map fun existing =>
    match existing with
    | some content => classify content
    | none => .absent

/-- Calls without force. -/
inductive SkillCall where
  | install (client : SkillClient) (fault : Option Fault)
  | uninstall (client : SkillClient) (fault : Option Fault)
  | status (client : SkillClient)

def SkillCall.run (home : Home) : SkillCall → Except String SkillAction × Home
  | .install client fault => Skill.install client false fault home
  | .uninstall client fault => Skill.uninstall client fault home
  | .status client => (Skill.status client home, home)

def afterCalls (home : Home) (calls : List SkillCall) : Home :=
  calls.foldl (fun home call => (call.run home).2) home

/-! ## The installed file is current -/

theorem notMem_description : '<' ∉ description := by
  have parts {letters chars : List Char} (absent : '<' ∉ chars) (rest : '<' ∉ letters) :
      '<' ∉ (String.ofList chars).toList ++ letters := by
    rw [String.toList_ofList]
    exact List.not_mem_append absent rest
  unfold description
  repeat' refine parts (by decide) ?_
  exact List.not_mem_nil

theorem notMem_frontmatter : '<' ∉ frontmatter := by
  unfold frontmatter
  exact List.not_mem_append (List.not_mem_append (by decide) notMem_description) (by decide)

theorem skillMarkerPrefix_eq :
    skillMarkerPrefix = '<' :: "!-- brick:skill v=".toList := by decide

theorem classify_eq {front back : List Char} (free : ¬ skillMarkerPrefix <:+: front) :
    classify (front ++ skillMarkerPrefix ++ back) =
      if (Numerals.parseUnsigned (2 ^ 32) (String.ofList (back.takeWhile Char.isDigit))).getD 0 =
        skillVersion then .present else .stale := by
  have fresh : '<' ∉ "!-- brick:skill v=".toList := by decide
  have found : find (front ++ skillMarkerPrefix ++ back) skillMarkerPrefix = some front.length := by
    rw [skillMarkerPrefix_eq] at free ⊢
    exact MarkedBlocks.find_marker fresh free back
  have after : (front ++ skillMarkerPrefix ++ back).drop
      (front.length + skillMarkerPrefix.length) = back := by
    rw [← List.length_append, List.drop_left]
  unfold classify
  rw [found]
  dsimp only
  rw [after]

/-- The installed file is taken for a current one. -/
theorem classify_skillMd : classify skillMd = .present := by
  have free : ¬ skillMarkerPrefix <:+: frontmatter := by
    rw [skillMarkerPrefix_eq]
    exact fun occurs => notMem_frontmatter (occurs.subset List.mem_cons_self)
  have shape : skillMd = frontmatter ++ skillMarkerPrefix ++
      ('4' :: ' ' :: ("-->\n".toList ++ skillBody.dropWhile isWhiteSpace)) := by
    have version : (toString skillVersion).toList ++ " -->\n".toList =
        '4' :: ' ' :: "-->\n".toList := by decide
    unfold skillMd
    rw [List.append_assoc (frontmatter ++ skillMarkerPrefix), version, List.append_assoc]
    rfl
  rw [shape, classify_eq free]
  have digits : ('4' :: ' ' :: ("-->\n".toList ++ skillBody.dropWhile isWhiteSpace)).takeWhile
      Char.isDigit = ['4'] := rfl
  rw [digits]
  decide

theorem marker_infix_skillMd : skillMarkerPrefix <:+: skillMd :=
  ⟨frontmatter, (toString skillVersion).toList ++ " -->\n".toList ++
    skillBody.dropWhile isWhiteSpace, by unfold skillMd; simp only [List.append_assoc]⟩

/-! ## One call -/

theorem Home.put_self (home : Home) (path : Path) (file : SkillFile) :
    home.put path file path = file := if_pos rfl

theorem Home.put_of_ne (home : Home) {path other : Path} (file : SkillFile) (differs : other ≠ path) :
    home.put path file other = home other := if_neg differs

theorem skillPath_ne_tempPath (client other : SkillClient) : client.skillPath ≠ other.tempPath := by
  cases client <;> cases other <;> decide

theorem skillPath_injective {client other : SkillClient}
    (same : client.skillPath = other.skillPath) : client = other := by
  revert same
  cases client <;> cases other <;> decide

/-- A file of the user's own has no marker in it. -/
def Marked (file : SkillFile) : Prop :=
  ∃ content, file = .text content ∧ skillMarkerPrefix <:+: content

def Foreign (file : SkillFile) : Prop := file ≠ .missing ∧ ¬ Marked file

theorem classify_of_foreign {content : List Char} (free : ¬ skillMarkerPrefix <:+: content) :
    classify content = .present := by
  unfold classify
  rw [MarkedBlocks.find_eq_none_iff.mpr free]

/-- What a write leaves in the place of a skill file, and elsewhere. -/
theorem writeAtomic_spec (fault : Option Fault) (client : SkillClient) (content : List Char)
    (home : Home) :
    ((writeAtomic fault client content home).2 client.skillPath = home client.skillPath ∨
      (writeAtomic fault client content home).2 client.skillPath = .text content) ∧
    ∀ other, other ≠ client.skillPath → other ≠ client.tempPath →
      (writeAtomic fault client content home).2 other = home other := by
  have apart := skillPath_ne_tempPath client client
  have renamed : ((home.put client.tempPath .missing).put client.skillPath (.text content))
      client.skillPath = .text content := Home.put_self _ _ _
  have others (other : Path) (notPath : other ≠ client.skillPath) (notTemp : other ≠ client.tempPath)
      (file : SkillFile) : ((home.put client.tempPath file).put client.skillPath (.text content))
        other = home other := by
    rw [Home.put_of_ne _ _ notPath, Home.put_of_ne _ _ notTemp]
  cases fault with
  | none => exact ⟨Or.inr renamed, fun other one two => others other one two _⟩
  | some fault =>
      cases fault with
      | directory => exact ⟨Or.inl rfl, fun _ _ _ => rfl⟩
      | temp => exact ⟨Or.inl rfl, fun _ _ _ => rfl⟩
      | rename => exact ⟨Or.inl (Home.put_of_ne _ _ apart), fun other _ two => Home.put_of_ne _ _ two⟩
      | remove => exact ⟨Or.inr renamed, fun other one two => others other one two _⟩

theorem install_home (client : SkillClient) (force : Bool) (fault : Option Fault) (home : Home) :
    (install client force fault home).2 = home ∨
      (home client.skillPath = .missing ∨ ∃ content, home client.skillPath = .text content ∧
          ¬ (classify content = .present ∧ force = false)) ∧
        (install client force fault home).2 = (writeAtomic fault client skillMd home).2 := by
  unfold install readExisting
  cases held : home client.skillPath with
  | missing =>
      refine Or.inr ⟨Or.inl rfl, ?_⟩
      dsimp only
      cases writeAtomic fault client skillMd home with
      | mk result after => cases result <;> rfl
  | binary => exact Or.inl rfl
  | text content =>
      dsimp only
      by_cases current : classify content = .present ∧ force = false
      · exact Or.inl (by rw [if_pos current])
      · refine Or.inr ⟨Or.inr ⟨content, rfl, current⟩, ?_⟩
        rw [if_neg current]
        cases writeAtomic fault client skillMd home with
        | mk result after => cases result <;> rfl

theorem uninstall_text {home : Home} {client : SkillClient} {content : List Char}
    {fault : Option Fault} (held : home client.skillPath = .text content)
    (removes : fault ≠ some .remove) :
    uninstall client fault home = (.ok .removed, home.put client.skillPath .missing) := by
  unfold uninstall readExisting
  rw [held]
  cases fault with
  | none => rfl
  | some fault =>
      cases fault with
      | remove => exact absurd rfl removes
      | _ => rfl

theorem uninstall_home (client : SkillClient) (fault : Option Fault) (home : Home) :
    (uninstall client fault home).2 = home ∨
      fault ≠ some .remove ∧ (∃ content, home client.skillPath = .text content) ∧
        (uninstall client fault home).2 = home.put client.skillPath .missing := by
  cases held : home client.skillPath with
  | missing =>
      unfold uninstall readExisting
      rw [held]
      exact Or.inl rfl
  | binary =>
      unfold uninstall readExisting
      rw [held]
      exact Or.inl rfl
  | text content =>
      by_cases removes : fault = some .remove
      · subst removes
        unfold uninstall readExisting
        rw [held]
        exact Or.inl rfl
      · exact Or.inr ⟨removes, ⟨content, rfl⟩, by rw [uninstall_text held removes]⟩

/-- What a call does to a client's file. -/
theorem file_after (home : Home) (call : SkillCall) (client : SkillClient) :
    (call.run home).2 client.skillPath = home client.skillPath ∨
      (∃ fault, call = .uninstall client fault ∧ fault ≠ some .remove ∧
        (∃ content, home client.skillPath = .text content) ∧
        (call.run home).2 client.skillPath = .missing) ∨
      (home client.skillPath = .missing ∨ Marked (home client.skillPath)) ∧
        (call.run home).2 client.skillPath = .text skillMd := by
  cases call with
  | install other fault =>
      change (install other false fault home).2 client.skillPath = _ ∨ _ ∨
        _ ∧ (install other false fault home).2 client.skillPath = _
      rcases install_home other false fault home with same | ⟨stale, written⟩
      · exact Or.inl (by rw [same])
      · rw [written]
        obtain ⟨here, elsewhere⟩ := writeAtomic_spec fault other skillMd home
        by_cases same : client = other
        · subst same
          refine here.imp id fun put => Or.inr ⟨stale.imp id ?_, put⟩
          rintro ⟨content, isText, notCurrent⟩
          refine ⟨content, isText, ?_⟩
          by_contra free
          exact notCurrent ⟨classify_of_foreign free, rfl⟩
        · exact Or.inl (elsewhere _ (fun paths => same (skillPath_injective paths))
            (skillPath_ne_tempPath client other))
  | uninstall other fault =>
      rcases uninstall_home other fault home with same | ⟨removes, isText, gone⟩
      · exact Or.inl (congrFun same _)
      · by_cases same : client = other
        · subst same
          exact Or.inr (Or.inl ⟨fault, rfl, removes, isText,
            (congrFun gone _).trans (Home.put_self _ _ _)⟩)
        · exact Or.inl ((congrFun gone _).trans
            (Home.put_of_ne _ _ fun paths => same (skillPath_injective paths)))
  | status other => exact Or.inl rfl

/-! ## Runs -/

/-- In every state of the run, the next call leaves the files that have no marker. -/
def LeavesForeign (home : Home) : List SkillCall → Prop
  | [] => True
  | call :: rest =>
      (∀ client : SkillClient, Foreign (home client.skillPath) →
        (call.run home).2 client.skillPath = home client.skillPath) ∧
      LeavesForeign (call.run home).2 rest

/-- No file without the marker is there for an uninstall to remove. -/
def Spared (home : Home) (calls : List SkillCall) : Prop :=
  ∀ (client : SkillClient) content fault, home client.skillPath = .text content →
    ¬ skillMarkerPrefix <:+: content → SkillCall.uninstall client fault ∈ calls →
      fault = some .remove

theorem foreign_text {content : List Char} (free : ¬ skillMarkerPrefix <:+: content) :
    Foreign (.text content) :=
  ⟨nofun, fun ⟨_, same, marked⟩ => free (by cases same; exact marked)⟩

theorem leavesForeign_iff (home : Home) (calls : List SkillCall) :
    LeavesForeign home calls ↔ Spared home calls := by
  induction calls generalizing home with
  | nil => exact ⟨fun _ _ _ _ _ _ member => (nomatch member), fun _ => trivial⟩
  | cons call rest ih =>
      change _ ∧ LeavesForeign (call.run home).2 rest ↔ _
      rw [ih]
      constructor
      · rintro ⟨step, later⟩ client content fault held free member
        have same := step client (by rw [held]; exact foreign_text free)
        rcases List.mem_cons.mp member with rfl | member
        · by_contra removes
          change (uninstall client fault home).2 _ = _ at same
          rw [uninstall_text held removes, held] at same
          exact nomatch (Home.put_self home client.skillPath .missing).symm.trans same
        · exact later client content fault (same.trans held) free member
      · intro spared
        refine ⟨fun client foreign => ?_, fun client content fault held free member => ?_⟩
        · rcases file_after home call client with
            same | ⟨fault, rfl, removes, ⟨content, held⟩, _⟩ | ⟨missing | marked, _⟩
          · exact same
          · refine absurd (spared client content fault held ?_ List.mem_cons_self) removes
            exact fun occurs => foreign.2 ⟨content, held, occurs⟩
          · exact absurd missing foreign.1
          · exact absurd marked foreign.2
        · rcases file_after home call client with
            same | ⟨_, _, _, _, gone⟩ | ⟨_, written⟩
          · exact spared client content fault (same.symm.trans held) free
              (List.mem_cons_of_mem _ member)
          · exact nomatch gone.symm.trans held
          · cases written.symm.trans held
            exact absurd marker_infix_skillMd free

/-! ## Files with the marker -/

theorem status_of_text {home : Home} {client : SkillClient} {content : List Char}
    (held : home client.skillPath = .text content) :
    status client home = .ok (classify content) := by
  unfold status readExisting
  rw [held]
  rfl

theorem install_of_current {home : Home} {client : SkillClient} {content : List Char}
    (held : home client.skillPath = .text content) (current : classify content = .present)
    (fault : Option Fault) : install client false fault home = (.ok .unchanged, home) := by
  unfold install readExisting
  rw [held]
  exact if_pos ⟨current, rfl⟩

/-- An install that nothing goes wrong with makes a text at the path current. -/
theorem install_of_text {home : Home} {client : SkillClient} {content : List Char}
    (held : home client.skillPath = .text content) : ∃ action installed current,
      install client false none home = (.ok action, installed) ∧
        installed client.skillPath = .text current ∧ classify current = .present := by
  by_cases isCurrent : classify content = .present
  · exact ⟨.unchanged, home, content, install_of_current held isCurrent none, held, isCurrent⟩
  · refine ⟨.updated, _, skillMd, ?_, Home.put_self (home.put client.tempPath .missing) _ _,
      classify_skillMd⟩
    unfold install readExisting
    rw [held]
    exact if_neg fun both => isCurrent both.1

/-- An install makes a file with the marker current, another one leaves it, and an uninstall
removes that file and no other. -/
def MarkedServed (home : Home) : Prop :=
  ∀ client : SkillClient, Marked (home client.skillPath) →
    (∃ action installed, install client false none home = (.ok action, installed) ∧
      status client installed = .ok .present ∧
      ∀ fault, install client false fault installed = (.ok .unchanged, installed)) ∧
    ∃ left, uninstall client none home = (.ok .removed, left) ∧
      left client.skillPath = .missing ∧ ∀ path, path ≠ client.skillPath → left path = home path

theorem markedServed (home : Home) : MarkedServed home := by
  rintro client ⟨content, held, _⟩
  constructor
  · obtain ⟨action, installed, current, done, text, isCurrent⟩ := install_of_text held
    refine ⟨action, installed, done, ?_, install_of_current text isCurrent⟩
    rw [status_of_text text, isCurrent]
  · exact ⟨_, uninstall_text held nofun, Home.put_self _ _ _,
      fun path other => Home.put_of_ne _ _ other⟩

/-- Every state of a run leaves the user's own files, and serves those with the marker, exactly
in the runs in which an uninstall finds no file of the user's to remove. -/
theorem files_spared_iff (home : Home) (calls : List SkillCall) :
    LeavesForeign home calls ∧ MarkedServed (afterCalls home calls) ↔ Spared home calls :=
  ⟨fun both => (leavesForeign_iff home calls).mp both.1,
    fun spared => ⟨(leavesForeign_iff home calls).mpr spared, markedServed _⟩⟩

/-- A skill that the user wrote, at the path of Brick's. -/
def ownSkill : Home :=
  fun path => if path = SkillClient.claude.skillPath then .text "# Mine".toList else .missing

theorem ownSkill_removed : ¬ LeavesForeign ownSkill [.uninstall .claude none] := by
  intro leaves
  have held : ownSkill SkillClient.claude.skillPath = .text "# Mine".toList := if_pos rfl
  have same := leaves.1 .claude (by
    rw [held]
    exact foreign_text (by decide))
  have removes : (none : Option Fault) ≠ some .remove := nofun
  change (uninstall .claude none ownSkill).2 _ = _ at same
  rw [uninstall_text held removes, held] at same
  exact nomatch (Home.put_self ownSkill SkillClient.claude.skillPath .missing).symm.trans same

end BrickTrace.Skill
