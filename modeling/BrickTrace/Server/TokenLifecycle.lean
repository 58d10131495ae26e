import BrickTrace.Lib.LastWrite
import BrickTrace.Lib.Runs
import BrickTrace.Server.TokenCommands

/-!
# Which secrets are accepted

A run of the token commands is told by their answers.  The table of the file
holds one record for each label whose last answer issued a secret, with the
scopes and the access of the label's last creation; so the accepted secrets are
the ones issued last.
-/

set_option autoImplicit false

namespace BrickTrace

open LastWrite

/-- A command and its answer. -/
structure TokenEntry where
  call : TokenCall
  answer : Except TokenFailure TokenReport
deriving DecidableEq

structure TokenIssue where
  label : String
  secret : String
  expiresAt : Option DateTime

/-- What a label was created with. -/
structure TokenGrant where
  scopes : List Scope
  access : Access
  actorId : Option String

namespace TokenEntry

/-- The label whose token the command created, rotated or revoked. -/
def touched (entry : TokenEntry) : Option String :=
  match entry.answer with
  | .ok (.created label _ _ _ _) => some label
  | .ok (.rotated label _ _) => some label
  | .ok (.revoked label) => some label
  | _ => none

def created (entry : TokenEntry) : Option String :=
  match entry.answer with
  | .ok (.created label _ _ _ _) => some label
  | _ => none

def issue (entry : TokenEntry) : Option TokenIssue :=
  match entry.answer with
  | .ok (.created label _ expiresAt _ plaintext) => some ⟨label, plaintext, expiresAt⟩
  | .ok (.rotated label expiresAt plaintext) => some ⟨label, plaintext, expiresAt⟩
  | _ => none

def grant (entry : TokenEntry) : Option TokenGrant :=
  match entry.call.command, entry.answer with
  | .create _ scopes write _ actorId, .ok (.created _ _ _ _ _) =>
      (parseScopes scopes).toOption.map fun parsed =>
        ⟨parsed, if write then .write else .read, actorId⟩
  | _, _ => none

def Touches (label : String) (entry : TokenEntry) : Prop := entry.touched = some label

def Creates (label : String) (entry : TokenEntry) : Prop := entry.created = some label

theorem touches_of_issue {entry : TokenEntry} {issue : TokenIssue}
    (issued : entry.issue = some issue) : entry.Touches issue.label := by
  obtain ⟨call, answer⟩ := entry
  cases answer with
  | error failure => cases issued
  | ok report =>
      cases report with
      | created => cases issued; rfl
      | rotated => cases issued; rfl
      | revoked => cases issued
      | notFound => cases issued

theorem touches_of_creates {entry : TokenEntry} {label : String} (creates : entry.Creates label) :
    entry.Touches label := by
  obtain ⟨call, answer⟩ := entry
  cases answer with
  | error failure => cases creates
  | ok report =>
      cases report with
      | created => cases creates; rfl
      | rotated => cases creates
      | revoked => cases creates
      | notFound => cases creates

end TokenEntry

structure TokenRun where
  file : TokensFile
  answered : List TokenEntry

namespace TokenRun

/-- A data directory without a table. -/
def start : TokenRun := ⟨.missing, []⟩

def next (times : TimeText) (hashToken : String → String) (run : TokenRun) (call : TokenCall) :
    TokenRun :=
  match runTokenCommand times hashToken run.file call with
  | .ok (file, report) => ⟨file, run.answered ++ [⟨call, .ok report⟩]⟩
  | .error failure => ⟨run.file, run.answered ++ [⟨call, .error failure⟩]⟩

end TokenRun

/-! ## What one command changes -/

def tokenOf (hashToken : String → String) (issue : TokenIssue) (grant : TokenGrant) : TokenRecord :=
  { label := issue.label
    tokenSha256 := hashToken issue.secret
    scopes := grant.scopes
    access := grant.access
    expiresAt := issue.expiresAt
    actorId := grant.actorId }

/-- The record once a secret is issued for its label. -/
def TokenRecord.reissued (hashToken : String → String) (issue : TokenIssue) (record : TokenRecord) :
    TokenRecord :=
  if record.label = issue.label then
    { record with tokenSha256 := hashToken issue.secret, expiresAt := issue.expiresAt }
  else record

inductive TableChange (hashToken : String → String) (entry : TokenEntry) (store : TokenStore) :
    TokenStore → Prop where
  | created (issue : TokenIssue) (grant : TokenGrant) (issued : entry.issue = some issue)
      (granted : entry.grant = some grant) (creates : entry.Creates issue.label)
      (absent : issue.label ∉ store.labels) :
      TableChange hashToken entry store (store.add (tokenOf hashToken issue grant))
  | rotated (issue : TokenIssue) (issued : entry.issue = some issue)
      (quiet : entry.created = none) (present : issue.label ∈ store.labels) :
      TableChange hashToken entry store
        ⟨store.tokens.map (TokenRecord.reissued hashToken issue)⟩
  | revoked (label : String) (touches : entry.Touches label) (silent : entry.issue = none)
      (quiet : entry.created = none) :
      TableChange hashToken entry store ⟨store.tokens.filter (·.label != label)⟩
  | kept (untouched : entry.touched = none) : TableChange hashToken entry store store

namespace TokenStore

variable {store : TokenStore} {label : String}

theorem label_mem_labels {record : TokenRecord} (member : record ∈ store.tokens) :
    record.label ∈ store.labels := List.mem_map_of_mem member

/-- Where labels are distinct the first record with a label is the only one. -/
theorem rotateByLabel_of_nodup (nodup : store.labels.Nodup) (hashToken : String → String)
    (issue : TokenIssue) (present : issue.label ∈ store.labels) :
    store.rotateByLabel issue.label (hashToken issue.secret) issue.expiresAt =
      (⟨store.tokens.map (TokenRecord.reissued hashToken issue)⟩, true) := by
  obtain ⟨tokens⟩ := store
  unfold rotateByLabel
  cases found : tokens.findIdx? (·.label == issue.label) with
  | none =>
      obtain ⟨record, member, same⟩ := List.mem_map.mp present
      have differs := List.findIdx?_eq_none_iff.mp found record member
      simp [same] at differs
  | some index =>
      obtain ⟨inside, same, -⟩ := List.findIdx?_eq_some_iff_getElem.mp found
      have sameLabel : tokens[index].label = issue.label := by simpa using same
      have edited : tokens.modify index
            (fun token => { token with tokenSha256 := hashToken issue.secret
                                       expiresAt := issue.expiresAt }) =
          tokens.map (TokenRecord.reissued hashToken issue) := by
        apply List.ext_getElem (by simp)
        intro position before after
        have within : position < tokens.length := by simpa using after
        rw [List.getElem_modify, List.getElem_map]
        by_cases here : index = position
        · subst here
          rw [if_pos rfl, TokenRecord.reissued, if_pos sameLabel]
        · have other : tokens[position].label ≠ issue.label := by
            intro equal
            have sameLabels : (tokens.map TokenRecord.label).get ⟨index, by simpa using inside⟩ =
                (tokens.map TokenRecord.label).get ⟨position, by simpa using within⟩ := by
              rw [List.get_eq_getElem, List.get_eq_getElem, List.getElem_map, List.getElem_map,
                sameLabel, equal]
            exact here (congrArg Fin.val (nodup.injective_get sameLabels))
          rw [if_neg here, TokenRecord.reissued, if_neg other]
      simp only [edited]

theorem rotateByLabel_of_notMem (absent : label ∉ store.labels) (newTokenSha256 : String)
    (expiresAt : Option DateTime) :
    store.rotateByLabel label newTokenSha256 expiresAt = (store, false) := by
  have missing : store.tokens.findIdx? (·.label == label) = none := by
    apply List.findIdx?_eq_none_iff.mpr
    intro record member
    refine beq_eq_false_iff_ne.mpr ?_
    rintro rfl
    exact absent (label_mem_labels member)
  simp only [rotateByLabel, missing]

end TokenStore

/-! ### From a command to its change -/

section Changes
variable {times : TimeText} {hashToken : String → String} {file file' : TokensFile}
  {store : TokenStore} {now : DateTime} {generated : String} {report : TokenReport}

theorem createToken_of_ok {label : String} {scopes : List String} {write : Bool}
    {expiresInDays : Option UInt32} {actorId : Option String}
    (loaded : TokenStore.load times file = some store)
    (done : createToken times hashToken file now generated label scopes write expiresInDays actorId =
      .ok (file', report)) :
    label ∉ store.labels ∧ ∃ parsed expiresAt, parseScopes scopes = .ok parsed ∧
      report = .created label write expiresAt actorId generated ∧
      TokenStore.load times file' = some (store.add
        (tokenOf hashToken ⟨label, generated, expiresAt⟩
          ⟨parsed, if write then .write else .read, actorId⟩)) := by
  simp only [createToken, loaded] at done
  by_cases taken : label ∈ store.labels
  · rw [if_pos taken] at done
    cases done
  · rw [if_neg taken] at done
    cases parsing : parseScopes scopes with
    | error failure => simp [parsing, bind, Except.bind] at done
    | ok parsed =>
        cases expiring : expiresInDays.mapM (daysAfter now) with
        | error failure => simp [parsing, expiring, bind, Except.bind] at done
        | ok expiresAt =>
            simp only [parsing, expiring, bind, Except.bind, pure, Except.pure] at done
            cases done
            exact ⟨taken, parsed, expiresAt, rfl, rfl, TokenStore.load_save times _⟩

theorem revokeToken_of_ok {label : String} (loaded : TokenStore.load times file = some store)
    (done : revokeToken times file label = .ok (file', report)) :
    (report = .revoked label ∧ TokenStore.load times file' =
        some ⟨store.tokens.filter (·.label != label)⟩) ∨
      (report = .notFound label ∧ file' = file) := by
  simp only [revokeToken, loaded, TokenStore.removeByLabel] at done
  split at done
  · rename_i left removed
    obtain ⟨rfl, -⟩ := Prod.mk.inj removed
    cases done
    exact Or.inl ⟨rfl, TokenStore.load_save times _⟩
  · cases done
    exact Or.inr ⟨rfl, rfl⟩

theorem rotateToken_of_ok {label : String} {expiresInDays : Option UInt32}
    (nodup : store.labels.Nodup) (loaded : TokenStore.load times file = some store)
    (done : rotateToken times hashToken file now generated label expiresInDays =
      .ok (file', report)) :
    label ∈ store.labels ∧ ∃ expiresAt, rotatedExpiry now store label expiresInDays = .ok expiresAt ∧
      report = .rotated label expiresAt generated ∧
      TokenStore.load times file' = some
        ⟨store.tokens.map (TokenRecord.reissued hashToken ⟨label, generated, expiresAt⟩)⟩ := by
  simp only [rotateToken, loaded] at done
  cases expiring : rotatedExpiry now store label expiresInDays with
  | error failure => simp [expiring, bind, Except.bind] at done
  | ok expiresAt =>
      simp only [expiring, bind, Except.bind] at done
      by_cases present : label ∈ store.labels
      · have rotated := TokenStore.rotateByLabel_of_nodup nodup hashToken
          ⟨label, generated, expiresAt⟩ present
        rw [rotated] at done
        cases done
        exact ⟨present, expiresAt, rfl, rfl, TokenStore.load_save times _⟩
      · rw [TokenStore.rotateByLabel_of_notMem present] at done
        cases done

/-- Every command leaves a readable table, changed as its answer tells. -/
theorem next_cases (hashToken : String → String) (run : TokenRun) (call : TokenCall) (nodup : store.labels.Nodup)
    (loaded : TokenStore.load times run.file = some store) :
    ∃ entry changed, (run.next times hashToken call).answered = run.answered ++ [entry] ∧
      TokenStore.load times (run.next times hashToken call).file = some changed ∧
      TableChange hashToken entry store changed := by
  obtain ⟨command, now, generated⟩ := call
  unfold TokenRun.next
  cases ran : runTokenCommand times hashToken run.file ⟨command, now, generated⟩ with
  | error failure => exact ⟨_, store, rfl, loaded, .kept rfl⟩
  | ok outcome =>
      obtain ⟨file', report⟩ := outcome
      refine ⟨⟨⟨command, now, generated⟩, .ok report⟩, ?_⟩
      cases command with
      | create label scopes write expiresInDays actorId =>
          obtain ⟨absent, parsed, expiresAt, parsing, rfl, grown⟩ := createToken_of_ok loaded ran
          refine ⟨_, rfl, grown, .created _ _ rfl ?_ rfl absent⟩
          simp [TokenEntry.grant, parsing, Except.toOption]
      | rotate label expiresInDays =>
          obtain ⟨present, expiresAt, -, rfl, changed⟩ := rotateToken_of_ok nodup loaded ran
          exact ⟨_, rfl, changed, .rotated _ rfl rfl present⟩
      | revoke label =>
          rcases revokeToken_of_ok loaded ran with ⟨rfl, left⟩ | ⟨rfl, rfl⟩
          · exact ⟨_, rfl, left, .revoked label rfl rfl rfl⟩
          · exact ⟨store, rfl, loaded, .kept rfl⟩

end Changes

/-! ## What the table holds -/

/-- The label's last answer issued the record's secret, its last creation the rest. -/
def Current (hashToken : String → String) (answered : List TokenEntry) (record : TokenRecord) :
    Prop :=
  ∃ issuing creating issue grant,
    IsLast (TokenEntry.Touches record.label) answered issuing ∧
    IsLast (TokenEntry.Creates record.label) answered creating ∧
    issuing.issue = some issue ∧ creating.grant = some grant ∧
    record = tokenOf hashToken issue grant

structure Describes (hashToken : String → String) (answered : List TokenEntry)
    (store : TokenStore) : Prop where
  labelsNodup : store.labels.Nodup
  holds : ∀ record, record ∈ store.tokens ↔ Current hashToken answered record

section Appending
variable {hashToken : String → String} {answered : List TokenEntry} {entry : TokenEntry}
  {record : TokenRecord} {issue : TokenIssue} {grant : TokenGrant}

theorem current_append_of_untouched (untouched : ¬ entry.Touches record.label) :
    Current hashToken (answered ++ [entry]) record ↔ Current hashToken answered record := by
  have uncreated : ¬ entry.Creates record.label := fun creates =>
    untouched (TokenEntry.touches_of_creates creates)
  simp only [Current, isLast_append_singleton_iff, untouched, uncreated, false_and, false_or,
    not_false_eq_true, true_and]

theorem current_append_of_created (issued : entry.issue = some issue)
    (granted : entry.grant = some grant) (creates : entry.Creates record.label) :
    Current hashToken (answered ++ [entry]) record ↔ record = tokenOf hashToken issue grant := by
  have touches := TokenEntry.touches_of_creates creates
  simp only [Current, isLast_append_singleton_iff, touches, creates, true_and, not_true_eq_false,
    false_and, or_false]
  constructor
  · rintro ⟨_, _, _, _, rfl, rfl, otherIssue, otherGrant, same⟩
    rw [issued] at otherIssue
    rw [granted] at otherGrant
    cases otherIssue
    cases otherGrant
    exact same
  · intro same
    exact ⟨entry, entry, issue, grant, rfl, rfl, issued, granted, same⟩

theorem current_append_of_reissued (issued : entry.issue = some issue)
    (quiet : entry.created = none) (same : record.label = issue.label) :
    Current hashToken (answered ++ [entry]) record ↔
      ∃ creating grant, IsLast (TokenEntry.Creates issue.label) answered creating ∧
        creating.grant = some grant ∧ record = tokenOf hashToken issue grant := by
  have touches := TokenEntry.touches_of_issue issued
  have uncreated : ¬ entry.Creates issue.label := by simp [TokenEntry.Creates, quiet]
  simp only [Current, same, isLast_append_singleton_iff, touches, uncreated, true_and,
    not_true_eq_false, false_and, or_false, false_or, not_false_eq_true]
  constructor
  · rintro ⟨_, creating, _, grant, rfl, last, otherIssue, granted, told⟩
    rw [issued] at otherIssue
    cases otherIssue
    exact ⟨creating, grant, last, granted, told⟩
  · rintro ⟨creating, grant, last, granted, told⟩
    exact ⟨entry, creating, issue, grant, rfl, last, issued, granted, told⟩

theorem not_current_append_of_revoked (touches : entry.Touches record.label)
    (silent : entry.issue = none) : ¬ Current hashToken (answered ++ [entry]) record := by
  rintro ⟨issuing, _, _, _, last, -, issued, -⟩
  rcases isLast_append_singleton_iff.mp last with ⟨-, rfl⟩ | ⟨untouched, -⟩
  · rw [silent] at issued
    cases issued
  · exact untouched touches

end Appending

section Describing
variable {hashToken : String → String} {answered : List TokenEntry} {entry : TokenEntry}
  {store : TokenStore}

theorem describes_start : Describes hashToken [] ⟨[]⟩ where
  labelsNodup := List.nodup_nil
  holds := by
    intro record
    have never : ¬ Current hashToken [] record := by
      rintro ⟨_, _, _, _, ⟨_, _, split, -⟩, -⟩
      simp at split
    simp [never]

theorem describes_add {issue : TokenIssue} {grant : TokenGrant} (issued : entry.issue = some issue)
    (granted : entry.grant = some grant) (creates : entry.Creates issue.label)
    (absent : issue.label ∉ store.labels) (before : Describes hashToken answered store) :
    Describes hashToken (answered ++ [entry]) (store.add (tokenOf hashToken issue grant)) where
  labelsNodup := by
    have grown : (store.add (tokenOf hashToken issue grant)).labels =
        store.labels ++ [issue.label] := by simp [TokenStore.add, TokenStore.labels, tokenOf]
    rw [grown]
    exact before.labelsNodup.append (List.nodup_singleton _) (by simpa using absent)
  holds := by
    intro record
    simp only [TokenStore.add, List.mem_append, List.mem_singleton]
    by_cases same : record.label = issue.label
    · have unheld : record ∉ store.tokens := by
        intro member
        exact absent (same ▸ TokenStore.label_mem_labels member)
      rw [current_append_of_created issued granted (by rwa [same])]
      simp [unheld]
    · have untouched : ¬ entry.Touches record.label := by
        intro touches
        rw [TokenEntry.Touches, TokenEntry.touches_of_issue issued] at touches
        exact same (Option.some.inj touches).symm
      have other : record ≠ tokenOf hashToken issue grant := by
        rintro rfl
        exact same rfl
      rw [current_append_of_untouched untouched, ← before.holds]
      simp [other]

theorem describes_reissue {issue : TokenIssue} (issued : entry.issue = some issue)
    (quiet : entry.created = none) (present : issue.label ∈ store.labels)
    (before : Describes hashToken answered store) :
    Describes hashToken (answered ++ [entry])
      ⟨store.tokens.map (TokenRecord.reissued hashToken issue)⟩ where
  labelsNodup := by
    have kept : ∀ record, (TokenRecord.reissued hashToken issue record).label = record.label := by
      intro record
      unfold TokenRecord.reissued
      split <;> rfl
    have labels : TokenStore.labels ⟨store.tokens.map (TokenRecord.reissued hashToken issue)⟩ =
        store.labels := by simp [TokenStore.labels, Function.comp_def, kept]
    rw [labels]
    exact before.labelsNodup
  holds := by
    intro record
    by_cases same : record.label = issue.label
    · rw [current_append_of_reissued issued quiet same]
      constructor
      · intro member
        obtain ⟨old, held, rfl⟩ := List.mem_map.mp member
        obtain ⟨_, creating, oldIssue, grant, -, last, -, granted, rfl⟩ := (before.holds old).mp held
        have sameLabel : oldIssue.label = issue.label := by
          unfold TokenRecord.reissued at same
          split at same
          · rename_i equal
            exact equal
          · exact same
        refine ⟨creating, grant, ?_, granted, ?_⟩
        · rwa [← sameLabel]
        · simp [TokenRecord.reissued, tokenOf, sameLabel]
      · rintro ⟨creating, grant, last, granted, rfl⟩
        obtain ⟨old, held, sameLabel⟩ := List.mem_map.mp present
        obtain ⟨_, oldCreating, oldIssue, oldGrant, -, oldLast, -, oldGranted, rfl⟩ :=
          (before.holds old).mp held
        have oldLabel : oldIssue.label = issue.label := sameLabel
        have sameCreation : creating = oldCreating := by
          refine last.unique ?_
          rwa [← oldLabel]
        rw [sameCreation, oldGranted] at granted
        cases granted
        refine List.mem_map.mpr ⟨_, held, ?_⟩
        simp [TokenRecord.reissued, tokenOf, oldLabel]
    · have untouched : ¬ entry.Touches record.label := by
        intro touches
        rw [TokenEntry.Touches, TokenEntry.touches_of_issue issued] at touches
        exact same (Option.some.inj touches).symm
      rw [current_append_of_untouched untouched, ← before.holds]
      constructor
      · intro member
        obtain ⟨old, held, rfl⟩ := List.mem_map.mp member
        have differs : old.label ≠ issue.label := by
          intro equal
          exact same (by simp [TokenRecord.reissued, equal])
        rwa [TokenRecord.reissued, if_neg differs]
      · intro held
        exact List.mem_map.mpr ⟨record, held, by rw [TokenRecord.reissued, if_neg same]⟩

theorem describes_remove {label : String} (touches : entry.Touches label)
    (silent : entry.issue = none) (before : Describes hashToken answered store) :
    Describes hashToken (answered ++ [entry]) ⟨store.tokens.filter (·.label != label)⟩ where
  labelsNodup := before.labelsNodup.sublist (List.filter_sublist.map _)
  holds := by
    intro record
    simp only [List.mem_filter, bne_iff_ne, ne_eq]
    by_cases same : record.label = label
    · have gone : ¬ Current hashToken (answered ++ [entry]) record := by
        rw [← same] at touches
        exact not_current_append_of_revoked touches silent
      simp [same, gone]
    · have untouched : ¬ entry.Touches record.label := by
        intro other
        rw [TokenEntry.Touches, touches] at other
        exact same (Option.some.inj other).symm
      rw [current_append_of_untouched untouched, ← before.holds]
      simp [same]

theorem describes_changed {changed : TokenStore} (before : Describes hashToken answered store)
    (change : TableChange hashToken entry store changed) :
    Describes hashToken (answered ++ [entry]) changed := by
  cases change with
  | created issue grant issued granted creates absent =>
      exact describes_add issued granted creates absent before
  | rotated issue issued quiet present => exact describes_reissue issued quiet present before
  | revoked label touches silent quiet => exact describes_remove touches silent before
  | kept untouched =>
      refine ⟨before.labelsNodup, fun record => ?_⟩
      rw [before.holds, current_append_of_untouched (by simp [TokenEntry.Touches, untouched])]

end Describing

def Readable (times : TimeText) (hashToken : String → String) (run : TokenRun) : Prop :=
  ∃ store, TokenStore.load times run.file = some store ∧ Describes hashToken run.answered store

/-- The table that a run leaves is told by its answers. -/
theorem readable_run (times : TimeText) (hashToken : String → String) (calls : List TokenCall) :
    Readable times hashToken (Runs.run (TokenRun.next times hashToken) .start calls) := by
  have step : ∀ run call, Readable times hashToken run →
      Readable times hashToken (run.next times hashToken call) := by
    rintro run call ⟨store, loaded, describes⟩
    obtain ⟨entry, changed, answered, left, change⟩ :=
      next_cases hashToken run call describes.labelsNodup loaded
    refine ⟨changed, left, ?_⟩
    rw [answered]
    exact describes_changed describes change
  exact Runs.run_of_step (TokenRun.next times hashToken) step calls
    ⟨⟨[]⟩, rfl, describes_start⟩

/-! ## Authorization -/

def issuedSecrets (answered : List TokenEntry) : List String :=
  answered.filterMap fun entry => entry.issue.map TokenIssue.secret

/-- The server that loads the file lets the secret through. -/
def Accepts (times : TimeText) (hashToken : String → String) (file : TokensFile)
    (presented : String) (target : ResourceTarget) (required : Access) (now : DateTime) : Prop :=
  ∃ store identity, TokenStore.load times file = some store ∧
    store.authorizeAt hashToken presented target required now = .ok identity

/-- The secret is the one last issued for a label that was not revoked since, it has not
expired, and the label's last creation gave it the access and a scope for the target. -/
def Granted (answered : List TokenEntry) (presented : String) (target : ResourceTarget)
    (required : Access) (now : DateTime) : Prop :=
  ∃ issuing creating issue grant,
    IsLast (TokenEntry.Touches issue.label) answered issuing ∧
    issuing.issue = some issue ∧ issue.secret = presented ∧
    IsLast (TokenEntry.Creates issue.label) answered creating ∧ creating.grant = some grant ∧
    (∀ expiry, issue.expiresAt = some expiry → now.nanoseconds < expiry.nanoseconds) ∧
    grant.access.permits required = true ∧ ∃ scope ∈ grant.scopes, scopeMatches scope target = true

section Authorization
variable {hashToken : String → String} {answered : List TokenEntry} {store : TokenStore}
  {presented : String} {target : ResourceTarget} {required : Access} {now : DateTime}

theorem issue_unique (distinct : (issuedSecrets answered).Nodup) {first second : TokenEntry}
    {one other : TokenIssue} (firstMember : first ∈ answered) (secondMember : second ∈ answered)
    (issued : first.issue = some one) (reissued : second.issue = some other)
    (same : one.secret = other.secret) : first = second := by
  obtain ⟨before, after, rfl⟩ := List.append_of_mem firstMember
  have split : issuedSecrets (before ++ first :: after) =
      issuedSecrets before ++ one.secret :: issuedSecrets after := by
    simp [issuedSecrets, List.filterMap_append, issued]
  rw [split, List.nodup_middle, List.nodup_cons] at distinct
  have elsewhere : second ∉ before ++ after := by
    intro member
    refine distinct.1 ?_
    rw [same, issuedSecrets, issuedSecrets, ← List.filterMap_append]
    exact List.mem_filterMap.mpr ⟨second, member, by rw [reissued]; rfl⟩
  simp only [List.mem_append, List.mem_cons] at secondMember elsewhere
  tauto

theorem exists_authorizeAt_ok_iff :
    (∃ identity, store.authorizeAt hashToken presented target required now = .ok identity) ↔
      ∃ record, store.lookup hashToken presented = some record ∧
        record.isExpired now = false ∧ record.authorizes target required = true := by
  unfold TokenStore.authorizeAt
  cases found : store.lookup hashToken presented with
  | none => simp
  | some record =>
      cases expired : record.isExpired now with
      | true => simp [expired]
      | false =>
          cases authorized : record.authorizes target required with
          | true => simp [expired, authorized]
          | false => simp [expired, authorized]

theorem isExpired_eq_false_iff {record : TokenRecord} :
    record.isExpired now = false ↔
      ∀ expiry, record.expiresAt = some expiry → now.nanoseconds < expiry.nanoseconds := by
  unfold TokenRecord.isExpired
  cases record.expiresAt with
  | none => simp
  | some expiry => simp

/-- The first record with the hash of a secret is the one it was issued for. -/
theorem lookup_eq_some_iff (describes : Describes hashToken answered store)
    (distinct : (issuedSecrets answered).Nodup)
    (injective : ∀ secret ∈ issuedSecrets answered, hashToken secret = hashToken presented →
      secret = presented) (record : TokenRecord) :
    store.lookup hashToken presented = some record ↔
      ∃ issuing creating issue grant,
        IsLast (TokenEntry.Touches issue.label) answered issuing ∧ issuing.issue = some issue ∧
        issue.secret = presented ∧ IsLast (TokenEntry.Creates issue.label) answered creating ∧
        creating.grant = some grant ∧ record = tokenOf hashToken issue grant := by
  have found_of_lookup : ∀ found, store.lookup hashToken presented = some found →
      ∃ issuing creating issue grant,
        IsLast (TokenEntry.Touches issue.label) answered issuing ∧ issuing.issue = some issue ∧
        issue.secret = presented ∧ IsLast (TokenEntry.Creates issue.label) answered creating ∧
        creating.grant = some grant ∧ found = tokenOf hashToken issue grant := by
    intro found looked
    have sameHash : found.tokenSha256 = hashToken presented := by
      simpa using List.find?_some looked
    obtain ⟨issuing, creating, issue, grant, last, lastCreation, issued, granted, rfl⟩ :=
      (describes.holds found).mp (List.mem_of_find?_eq_some looked)
    have member : issue.secret ∈ issuedSecrets answered :=
      List.mem_filterMap.mpr ⟨issuing, last.mem, by rw [issued]; rfl⟩
    exact ⟨issuing, creating, issue, grant, last, issued, injective _ member sameHash,
      lastCreation, granted, rfl⟩
  constructor
  · exact found_of_lookup record
  · rintro ⟨issuing, creating, issue, grant, last, issued, rfl, lastCreation, granted, rfl⟩
    have held : tokenOf hashToken issue grant ∈ store.tokens :=
      (describes.holds _).mpr
        ⟨issuing, creating, issue, grant, last, lastCreation, issued, granted, rfl⟩
    cases looked : store.lookup hashToken issue.secret with
    | none =>
        have differs := List.find?_eq_none.mp looked _ held
        simp [tokenOf] at differs
    | some found =>
        obtain ⟨otherIssuing, otherCreating, otherIssue, otherGrant, otherLast, otherIssued, same,
          otherLastCreation, otherGranted, rfl⟩ := found_of_lookup found looked
        have sameIssuing : otherIssuing = issuing :=
          issue_unique distinct otherLast.mem last.mem otherIssued issued same
        rw [sameIssuing, issued] at otherIssued
        cases otherIssued
        have sameCreating := otherLastCreation.unique lastCreation
        rw [sameCreating, granted] at otherGranted
        cases otherGranted
        rfl

theorem accepts_iff_granted {times : TimeText} {file : TokensFile}
    (loaded : TokenStore.load times file = some store)
    (describes : Describes hashToken answered store)
    (distinct : (issuedSecrets answered).Nodup)
    (injective : ∀ secret ∈ issuedSecrets answered, hashToken secret = hashToken presented →
      secret = presented) :
    Accepts times hashToken file presented target required now ↔
      Granted answered presented target required now := by
  have authorized : Accepts times hashToken file presented target required now ↔
      ∃ record, store.lookup hashToken presented = some record ∧
        record.isExpired now = false ∧ record.authorizes target required = true := by
    rw [← exists_authorizeAt_ok_iff]
    simp [Accepts, loaded]
  rw [authorized]
  simp only [lookup_eq_some_iff describes distinct injective, isExpired_eq_false_iff,
    TokenRecord.authorizes, Bool.and_eq_true, List.any_eq_true]
  constructor
  · rintro ⟨_, ⟨issuing, creating, issue, grant, last, issued, same, lastCreation, granted, rfl⟩,
      unexpired, permits, scope⟩
    exact ⟨issuing, creating, issue, grant, last, issued, same, lastCreation, granted, unexpired,
      permits, scope⟩
  · rintro ⟨issuing, creating, issue, grant, last, issued, same, lastCreation, granted, unexpired,
      permits, scope⟩
    exact ⟨_, ⟨issuing, creating, issue, grant, last, issued, same, lastCreation, granted, rfl⟩,
      unexpired, permits, scope⟩

/-- What a label's secret was before an answer about the label is granted no more. -/
theorem not_granted_of_touched (distinct : (issuedSecrets answered).Nodup)
    {earlier later : List TokenEntry} {entry issuing : TokenEntry} {issue : TokenIssue}
    (split : answered = earlier ++ entry :: later) (member : issuing ∈ earlier)
    (issued : issuing.issue = some issue) (touches : entry.Touches issue.label) :
    ¬ Granted answered issue.secret target required now := by
  subst split
  rintro ⟨other, _, otherIssue, _, last, otherIssued, same, -⟩
  have sameEntry : other = issuing :=
    issue_unique distinct last.mem (List.mem_append_left _ member) otherIssued issued same
  subst sameEntry
  rw [issued] at otherIssued
  cases otherIssued
  have late : other ∈ entry :: later := last.mem_of_writer touches
  have secret : ∀ entries : List TokenEntry, other ∈ entries →
      issue.secret ∈ issuedSecrets entries := fun entries inside =>
    List.mem_filterMap.mpr ⟨other, inside, by rw [issued]; rfl⟩
  rw [issuedSecrets, List.filterMap_append] at distinct
  exact (List.disjoint_of_nodup_append distinct) (secret earlier member) (secret _ late)

end Authorization

/-- Over every run of the commands the accepted secrets are the ones last issued, a secret once
replaced or revoked is never accepted again, and a rotation changes the secret and the expiry
of its label and nothing else. -/
theorem secret_accepted_iff_last_issued (times : TimeText) (hashToken : String → String)
    (calls : List TokenCall) (presented : String) (target : ResourceTarget) (required : Access)
    (now : DateTime)
    (distinct :
      (issuedSecrets (Runs.run (TokenRun.next times hashToken) .start calls).answered).Nodup)
    (injective : Set.InjOn hashToken {secret | secret = presented ∨
      secret ∈ issuedSecrets (Runs.run (TokenRun.next times hashToken) .start calls).answered}) :
    let run := Runs.run (TokenRun.next times hashToken) .start calls
    (Accepts times hashToken run.file presented target required now ↔
      Granted run.answered presented target required now) ∧
    (∀ earlier entry later issuing issue, run.answered = earlier ++ entry :: later →
      issuing ∈ earlier → issuing.issue = some issue → issue.secret = presented →
      entry.Touches issue.label →
      ¬ Accepts times hashToken run.file presented target required now) ∧
    ∀ call label expiresInDays, call.command = .rotate label expiresInDays →
      ∃ store, TokenStore.load times run.file = some store ∧ store.labels.Nodup ∧
        ((run.next times hashToken call).file = run.file ∨
          ∃ issue : TokenIssue, issue.label = label ∧ issue.secret = call.generated ∧
            rotatedExpiry call.now store label expiresInDays = .ok issue.expiresAt ∧
            TokenStore.load times (run.next times hashToken call).file =
              some ⟨store.tokens.map (TokenRecord.reissued hashToken issue)⟩) := by
  intro run
  obtain ⟨store, loaded, describes⟩ := readable_run times hashToken calls
  have unlike : ∀ secret ∈ issuedSecrets run.answered, hashToken secret = hashToken presented →
      secret = presented := fun secret member same =>
    injective (Or.inr member) (Or.inl rfl) same
  have accepted : Accepts times hashToken run.file presented target required now ↔
      Granted run.answered presented target required now :=
    accepts_iff_granted loaded describes distinct unlike
  refine ⟨accepted, ?_, ?_⟩
  · rintro earlier entry later issuing issue split member issued rfl touches
    rw [accepted]
    exact not_granted_of_touched distinct split member issued touches
  · rintro ⟨command, readAt, generated⟩ label expiresInDays rfl
    refine ⟨store, loaded, describes.labelsNodup, ?_⟩
    unfold TokenRun.next
    cases ran : runTokenCommand times hashToken run.file
      ⟨.rotate label expiresInDays, readAt, generated⟩ with
    | error failure => exact Or.inl rfl
    | ok outcome =>
        obtain ⟨-, expiresAt, expiring, -, changed⟩ :=
          rotateToken_of_ok describes.labelsNodup loaded ran
        exact Or.inr ⟨⟨label, generated, expiresAt⟩, rfl, rfl, expiring, changed⟩

/-! ### A token rotated once -/

/-- One time as the server writes it; any other one as a signed number. -/
def sampleTimes : TimeText where
  write time :=
    if time = ⟨1784800800000000000⟩ then "2026-07-23T10:00:00Z"
    else if time.nanoseconds < 0 then
      String.ofList ('-' :: Nat.toDigits 10 time.nanoseconds.natAbs)
    else String.ofList ('+' :: Nat.toDigits 10 time.nanoseconds.natAbs)
  read text :=
    match text.toList with
    | '-' :: digits => some ⟨-(Nat.ofDigitChars 10 digits 0 : Nat)⟩
    | '+' :: digits => some ⟨(Nat.ofDigitChars 10 digits 0 : Nat)⟩
    | _ => if text = "2026-07-23T10:00:00Z" then some ⟨1784800800000000000⟩ else none
  read_write := by
    intro time
    by_cases special : time = ⟨1784800800000000000⟩
    · rw [if_pos special, special]
      rfl
    · rw [if_neg special]
      obtain ⟨nanoseconds⟩ := time
      by_cases negative : nanoseconds < 0
      · simp only [negative, if_true, String.toList_ofList, Nat.ofDigitChars_ten_toDigits]
        congr 2
        omega
      · simp only [negative, if_false, String.toList_ofList, Nat.ofDigitChars_ten_toDigits]
        congr 2
        omega

def firstSampleToken : String := "brick_5d0f3a9c7e1b42668a04c1de97f2b350"

def secondSampleToken : String := "brick_0c83be41f6a2497db15e60d8723fa94c"

/-- The hashes of the two tokens. -/
def sampleHash (plaintext : String) : String :=
  if plaintext = firstSampleToken then
    "a23ec013e5f7a7925851773486858b59bc57fb99dc595d333a22d22e7597c0e3"
  else if plaintext = secondSampleToken then
    "0d922513c3b352bddf32d6893888586526be863ddfd9449ba8b2b8acd09bd5de"
  else plaintext

def sampleCalls : List TokenCall :=
  [⟨.create "ci" ["repo:brick"] false (some 30) none, ⟨1782208800000000000⟩, firstSampleToken⟩,
    ⟨.rotate "ci" none, ⟨1782295200000000000⟩, secondSampleToken⟩]

def sampleEntries : List TokenEntry :=
  [⟨⟨.create "ci" ["repo:brick"] false (some 30) none, ⟨1782208800000000000⟩, firstSampleToken⟩,
      .ok (.created "ci" false (some ⟨1784800800000000000⟩) none firstSampleToken)⟩,
    ⟨⟨.rotate "ci" none, ⟨1782295200000000000⟩, secondSampleToken⟩,
      .ok (.rotated "ci" (some ⟨1784800800000000000⟩) secondSampleToken)⟩]

theorem answered_sample :
    (Runs.run (TokenRun.next sampleTimes sampleHash) .start sampleCalls).answered =
      sampleEntries := by
  decide +kernel

theorem injOn_sampleHash : Set.InjOn sampleHash {secret | secret = firstSampleToken ∨
    secret ∈ issuedSecrets sampleEntries} := by
  have among : ∀ secret ∈ {secret | secret = firstSampleToken ∨
      secret ∈ issuedSecrets sampleEntries},
      secret ∈ [firstSampleToken, secondSampleToken] := by
    rintro secret (rfl | member)
    · exact List.mem_cons_self
    · exact member
  have distinct : ∀ first ∈ [firstSampleToken, secondSampleToken],
      ∀ second ∈ [firstSampleToken, secondSampleToken],
      sampleHash first = sampleHash second → first = second := by decide +kernel
  intro first firstMember second secondMember same
  exact distinct first (among first firstMember) second (among second secondMember) same

theorem rotated_secret_of_sample_refused :
    ¬ Accepts sampleTimes sampleHash
      (Runs.run (TokenRun.next sampleTimes sampleHash) .start sampleCalls).file
      firstSampleToken (.repo "brick" none) .read ⟨1782295200000000001⟩ :=
  (secret_accepted_iff_last_issued sampleTimes sampleHash sampleCalls firstSampleToken
    (.repo "brick" none) .read ⟨1782295200000000001⟩
    (by rw [answered_sample]; decide +kernel)
    (by rw [answered_sample]; exact injOn_sampleHash)).2.1
    [sampleEntries[0]] sampleEntries[1] [] sampleEntries[0]
    ⟨"ci", firstSampleToken, some ⟨1784800800000000000⟩⟩ answered_sample List.mem_cons_self
    rfl rfl rfl

end BrickTrace
