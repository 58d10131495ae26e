import BrickTrace.Lib.CursorPages
import BrickTrace.Server.Append

/-!
# Reading the server's log page by page

`list_events_page` is a page, in the sense of `CursorPages`, of the numbered
lines of the log.  A client that follows the cursors reads the matching events,
also while the log grows.
-/

set_option autoImplicit false

namespace BrickTrace

/-- The events of a repo filter, each with the number of its line. -/
def numbered (repoId : Option String) (entries : List SequencedEvent) : List (Nat × TraceEvent) :=
  (entries.filter fun entry => repoMatches entry.event.repoId repoId).map fun entry =>
    (entry.sequence, entry.event)

def matchingEvents (repoId : Option String) (log : List LogLine) : List TraceEvent :=
  (logEvents log).filter fun event => repoMatches event.repoId repoId

def normalizedLimit (limit : Option Nat) : Nat :=
  min (max (limit.getD defaultEventLimit) 1) maxEventLimit

theorem normalizedLimit_pos (limit : Option Nat) : 0 < normalizedLimit limit := by
  simp [normalizedLimit, maxEventLimit]

theorem numbered_cons (repoId : Option String) (entry : SequencedEvent)
    (rest : List SequencedEvent) :
    numbered repoId (entry :: rest) =
      if repoMatches entry.event.repoId repoId then
        (entry.sequence, entry.event) :: numbered repoId rest
      else numbered repoId rest := by
  unfold numbered
  rw [List.filter_cons]
  split <;> rfl

theorem map_snd_numbered (repoId : Option String) (lineIndex : Nat) (log : List LogLine) :
    (numbered repoId (sequencedEvents lineIndex log)).map Prod.snd = matchingEvents repoId log := by
  rw [matchingEvents, ← map_event_sequencedEvents lineIndex, List.filter_map, numbered,
    List.map_map]
  rfl

/-! ## Line numbers -/

theorem sequence_bounds {lineIndex : Nat} {log : List LogLine} {entry : SequencedEvent}
    (member : entry ∈ sequencedEvents lineIndex log) :
    lineIndex < entry.sequence ∧ entry.sequence ≤ lineIndex + log.length := by
  induction log generalizing lineIndex with
  | nil => simp [sequencedEvents] at member
  | cons line rest ih =>
      cases line with
      | blank =>
          have bounds := ih member
          rw [List.length_cons]
          omega
      | event event =>
          rw [List.length_cons]
          rcases List.mem_cons.mp member with rfl | later
          · dsimp only
            omega
          · have bounds := ih later
            omega

theorem pairwise_sequencedEvents (lineIndex : Nat) (log : List LogLine) :
    (sequencedEvents lineIndex log).Pairwise fun first second =>
      first.sequence < second.sequence := by
  induction log generalizing lineIndex with
  | nil => exact List.Pairwise.nil
  | cons line rest ih =>
      cases line with
      | blank => exact ih (lineIndex + 1)
      | event event =>
          refine List.pairwise_cons.mpr ⟨?_, ih (lineIndex + 1)⟩
          intro entry later
          exact (sequence_bounds later).1

theorem sequencedEvents_append (lineIndex : Nat) (first second : List LogLine) :
    sequencedEvents lineIndex (first ++ second) =
      sequencedEvents lineIndex first ++ sequencedEvents (lineIndex + first.length) second := by
  induction first generalizing lineIndex with
  | nil => rfl
  | cons line rest ih =>
      have shift : lineIndex + 1 + rest.length = lineIndex + (line :: rest).length := by
        rw [List.length_cons]
        omega
      cases line with
      | blank => simpa only [sequencedEvents, List.cons_append, shift] using ih (lineIndex + 1)
      | event event =>
          simp only [sequencedEvents, List.cons_append, ih, shift]

theorem increasing_numbered (repoId : Option String) (lineIndex : Nat) (log : List LogLine) :
    CursorPages.Increasing (numbered repoId (sequencedEvents lineIndex log)) := by
  rw [numbered, CursorPages.Increasing, List.pairwise_map]
  exact (pairwise_sequencedEvents lineIndex log).filter _

theorem numbered_isPrefix (repoId : Option String) {earlier later : List LogLine}
    (grown : earlier <+: later) :
    numbered repoId (sequencedEvents 0 earlier) <+: numbered repoId (sequencedEvents 0 later) := by
  obtain ⟨added, rfl⟩ := grown
  rw [sequencedEvents_append, numbered, numbered, List.filter_append, List.map_append]
  exact List.prefix_append ..

theorem matchingEvents_isPrefix (repoId : Option String) {earlier later : List LogLine}
    (grown : earlier <+: later) :
    matchingEvents repoId earlier <+: matchingEvents repoId later :=
  (grown.filterMap _).filter _

theorem length_numbered (repoId : Option String) (log : List LogLine) :
    (numbered repoId (sequencedEvents 0 log)).length = (matchingEvents repoId log).length := by
  rw [← map_snd_numbered repoId 0, List.length_map]

/-! ## One page -/

theorem after_numbered_of_read (repoId : Option String) {afterSequence : Nat}
    {entry : SequencedEvent} (rest : List SequencedEvent) (read : entry.sequence ≤ afterSequence) :
    CursorPages.after afterSequence (numbered repoId (entry :: rest)) =
      CursorPages.after afterSequence (numbered repoId rest) := by
  rw [numbered_cons]
  split
  · simp [CursorPages.after, Nat.not_lt.mpr read]
  · rfl

/-- The loop skips what the cursor and the filter exclude, and stops at the first
event that no longer fits. -/
theorem scanPage_eq (repoId : Option String) (afterSequence limit : Nat)
    (entries : List SequencedEvent) (page : List TraceEvent) (lastSequence : Option Nat)
    (fits : page.length ≤ limit) :
    let rest := CursorPages.after afterSequence (numbered repoId entries)
    let taken := rest.take (limit - page.length)
    scanPage repoId afterSequence limit entries page lastSequence =
      (page ++ taken.map Prod.snd, (taken.getLast?.map Prod.fst).or lastSequence,
        decide (limit - page.length < rest.length)) := by
  induction entries generalizing page lastSequence with
  | nil => simp [scanPage, numbered, CursorPages.after]
  | cons entry others ih =>
      rw [scanPage]
      by_cases read : entry.sequence ≤ afterSequence
      · rw [if_pos read, ih page lastSequence fits, after_numbered_of_read repoId others read]
      · rw [if_neg read, numbered_cons]
        by_cases wanted : repoMatches entry.event.repoId repoId
        · have unread : afterSequence < entry.sequence := Nat.lt_of_not_le read
          rw [if_neg (not_not.mpr wanted), if_pos wanted]
          by_cases full : page.length = limit
          · simp [full, CursorPages.after, unread]
          · have room : limit - page.length = (limit - (page.length + 1)) + 1 := by omega
            have grown : (page ++ [entry.event]).length ≤ limit := by
              rw [List.length_append, List.length_singleton]
              omega
            rw [if_neg full, ih (page ++ [entry.event]) _ grown, room]
            simp only [CursorPages.after, List.filter_cons, unread, decide_true, if_true,
              List.take_succ_cons, List.map_cons, List.length_append, List.length_cons,
              List.append_assoc, List.singleton_append, List.getLast?_cons,
              Option.map_some, Option.some_or]
            refine Prod.ext rfl (Prod.ext ?_ ?_)
            · cases (List.take (limit - (page.length + 1))
                (List.filter (fun entry => decide (afterSequence < entry.1))
                  (numbered repoId others))).getLast? with
              | none => simp
              | some last => simp
            · simp
        · rw [if_pos wanted, if_neg wanted, ih page lastSequence fits]

/-- A page of the server is a page of the numbered lines. -/
theorem listEventsPage_eq (store : ServerStore) (repoId after : Option String)
    (limit : Option Nat) {afterSequence : Nat} (parsed : parseCursor after = .ok afterSequence) :
    let page := CursorPages.page (normalizedLimit limit) afterSequence
      (numbered repoId store.readSequencedEvents)
    store.listEventsPage repoId after limit =
      .ok ⟨page.1.map Prod.snd, after, page.2.map Nat.repr⟩ := by
  have scanned := scanPage_eq repoId afterSequence (normalizedLimit limit)
    store.readSequencedEvents [] none (Nat.zero_le _)
  simp only [List.length_nil, Nat.sub_zero, List.nil_append, Option.or_none] at scanned
  simp only [ServerStore.listEventsPage, parsed]
  show Except.ok _ = _
  rw [← normalizedLimit, scanned]
  simp only [CursorPages.page]
  congr 2
  by_cases more : normalizedLimit limit < (CursorPages.after afterSequence
      (numbered repoId store.readSequencedEvents)).length
  · simp [more]
  · simp [more]

theorem parseCursor_none : parseCursor none = .ok 0 := rfl

/-- A cursor that the server names is read back as the line number it stands for. -/
theorem parseCursor_repr {sequence : Nat} (fits : sequence < 2 ^ 64) :
    parseCursor (some sequence.repr) = .ok sequence := by
  have digits : isBlank sequence.repr = false := by
    cases shape : Nat.toDigits 10 sequence with
    | nil => exact absurd shape Nat.toDigits_ne_nil
    | cons first rest =>
        have digit : first.isDigit = true := by
          refine Nat.isDigit_of_mem_toDigits (b := 10) (n := sequence) (by decide) (by decide) ?_
          rw [shape]
          exact List.mem_cons_self ..
        simp [isBlank, shape, isWhiteSpace_of_isDigit digit]
  simp only [parseCursor, digits, Bool.false_eq_true, if_false,
    Numerals.parseUnsigned_repr fits]

/-! ## Following the cursors -/

/-- A store whose log has no more lines than a 64-bit counter can number. -/
structure NumberedStore extends ServerStore where
  countable : eventLog.length < 2 ^ 64

/-- What a client collects in a number of requests, and whether the last page named
no next cursor.  Request number `i` is answered by the store `stores i`. -/
def followPages (stores : Nat → NumberedStore) (repoId : Option String) (limit : Option Nat) :
    Nat → Nat → Option String → List TraceEvent × Bool
  | 0, _, _ => ([], false)
  | requests + 1, request, cursor =>
      match (stores request).listEventsPage repoId cursor limit with
      | .error _ => ([], false)
      | .ok response =>
          match response.nextCursor with
          | none => (response.events, true)
          | some next =>
              let rest := followPages stores repoId limit requests (request + 1) (some next)
              (response.events ++ rest.1, rest.2)

section Follow
variable (stores : Nat → NumberedStore) (repoId : Option String) (limit : Option Nat)

def numberedLogs (request : Nat) : List (Nat × TraceEvent) :=
  numbered repoId (sequencedEvents 0 (stores request).eventLog)

theorem increasing_numberedLogs (request : Nat) :
    CursorPages.Increasing (numberedLogs stores repoId request) :=
  increasing_numbered repoId 0 _

theorem lt_of_mem_numberedLogs {request sequence : Nat} {event : TraceEvent}
    (member : (sequence, event) ∈ numberedLogs stores repoId request) : sequence < 2 ^ 64 := by
  obtain ⟨entry, present, same⟩ := List.mem_map.mp member
  cases same
  have bounds := (sequence_bounds (List.mem_filter.mp present).1).2
  have countable := (stores request).countable
  omega

/-- Before the first cursor there is nothing. -/
theorem after_zero_numberedLogs (request : Nat) :
    CursorPages.after 0 (numberedLogs stores repoId request) =
      numberedLogs stores repoId request := by
  apply List.filter_eq_self.mpr
  intro entry member
  obtain ⟨line, present, rfl⟩ := List.mem_map.mp member
  have bounds := (sequence_bounds (List.mem_filter.mp present).1).1
  simpa using bounds

/-- The texts of the cursors stand for line numbers all along. -/
theorem followPages_eq_walk (requests request : Nat) {cursor : Option String} {after : Nat}
    (parsed : parseCursor cursor = .ok after) :
    let walked := CursorPages.walk (normalizedLimit limit) (numberedLogs stores repoId)
      requests request after
    followPages stores repoId limit requests request cursor =
      (walked.1.map Prod.snd, walked.2) := by
  induction requests generalizing request cursor after with
  | zero => rfl
  | succ requests ih =>
      have answered := listEventsPage_eq (stores request).toServerStore repoId cursor limit parsed
      rw [followPages, answered]
      simp only [CursorPages.walk]
      have sameLog : numbered repoId (stores request).toServerStore.readSequencedEvents =
          numberedLogs stores repoId request := rfl
      rw [sameLog]
      cases result : CursorPages.page (normalizedLimit limit) after
          (numberedLogs stores repoId request) with
      | mk items named =>
          cases named with
          | none => rfl
          | some next =>
              obtain ⟨-, -, -, event, present⟩ :=
                CursorPages.page_some (increasing_numberedLogs stores repoId request) result
              have fits := lt_of_mem_numberedLogs stores repoId present
              have later := ih (request + 1) (parseCursor_repr fits)
              simp only [Option.map_some, later, List.map_append]

theorem map_snd_numberedLogs (request : Nat) :
    (numberedLogs stores repoId request).map Prod.snd =
      matchingEvents repoId (stores request).eventLog :=
  map_snd_numbered repoId 0 _

theorem numberedLogs_grow
    (grows : ∀ request, (stores request).eventLog <+: (stores (request + 1)).eventLog)
    (request : Nat) :
    numberedLogs stores repoId request <+: numberedLogs stores repoId (request + 1) :=
  numbered_isPrefix repoId (grows request)

/-- Over a log of bounded length the last page is reached. -/
theorem followPages_finishes
    (grows : ∀ request, (stores request).eventLog <+: (stores (request + 1)).eventLog)
    {bound requests : Nat}
    (bounded : ∀ request, (matchingEvents repoId (stores request).eventLog).length ≤ bound)
    (enough : bound < requests) :
    (followPages stores repoId limit requests 0 none).2 = true := by
  rw [followPages_eq_walk stores repoId limit requests 0 parseCursor_none]
  refine CursorPages.walk_finishes (numberedLogs stores repoId)
    (increasing_numberedLogs stores repoId) (numberedLogs_grow stores repoId grows) _ bound ?_
    requests 0 0 (Nat.lt_of_lt_of_le enough (Nat.le_add_right ..))
  intro request
  rw [numberedLogs, length_numbered]
  exact bounded request

/-- What was there at the start comes first, once enough pages are read. -/
theorem followPages_covers
    (grows : ∀ request, (stores request).eventLog <+: (stores (request + 1)).eventLog)
    {requests : Nat}
    (enough : (followPages stores repoId limit requests 0 none).2 = true ∨
      (matchingEvents repoId (stores 0).eventLog).length ≤ requests) :
    matchingEvents repoId (stores 0).eventLog <+:
      (followPages stores repoId limit requests 0 none).1 := by
  rw [followPages_eq_walk stores repoId limit requests 0 parseCursor_none] at enough ⊢
  rw [← length_numbered] at enough
  have covered := CursorPages.walk_covers (numberedLogs stores repoId)
    (increasing_numberedLogs stores repoId) (numberedLogs_grow stores repoId grows)
    (normalizedLimit_pos limit) (by rw [after_zero_numberedLogs]; exact enough)
  rw [after_zero_numberedLogs] at covered
  rw [← map_snd_numberedLogs]
  exact covered.map _

/-- No page shows anything out of order or twice. -/
theorem followPages_isPrefix
    (grows : ∀ request, (stores request).eventLog <+: (stores (request + 1)).eventLog)
    (requests : Nat) :
    (followPages stores repoId limit requests 0 none).1 <+:
      matchingEvents repoId (stores requests).eventLog := by
  rw [followPages_eq_walk stores repoId limit requests 0 parseCursor_none]
  have collected := CursorPages.walk_isPrefix (numberedLogs stores repoId)
    (increasing_numberedLogs stores repoId) (numberedLogs_grow stores repoId grows)
    (normalizedLimit_pos limit) requests 0 0
  rw [after_zero_numberedLogs, Nat.zero_add] at collected
  rw [← map_snd_numberedLogs]
  exact collected.map _

end Follow

theorem nodup_matching_ids {repoId : Option String} {log : List LogLine}
    (distinct : (logIds log).Nodup) :
    ((matchingEvents repoId log).map (·.eventId)).Nodup :=
  distinct.sublist ((List.filter_sublist ..).map _)

/-- On a log that stays as it is. -/
theorem followPages_of_still_log (store : NumberedStore) (repoId : Option String)
    (limit : Option Nat) {requests : Nat}
    (enough : (matchingEvents repoId store.eventLog).length < requests) :
    followPages (fun _ => store) repoId limit requests 0 none =
      (matchingEvents repoId store.eventLog, true) := by
  have same : ∀ request : Nat, store.eventLog <+: store.eventLog := fun _ => List.prefix_refl _
  have finished := followPages_finishes (fun _ => store) repoId limit same
    (fun _ => Nat.le_refl _) enough
  have covered := followPages_covers (fun _ => store) repoId limit same (Or.inl finished)
  have within := followPages_isPrefix (fun _ => store) repoId limit same requests
  exact Prod.ext (within.eq_of_length_le covered.length_le) finished

/-- Following the cursors from the start reads the matching events in log order: all
of them on a log that stays as it is, and at least those of the start on a log that
grows between the requests. -/
theorem following_cursors_reads_matching_events (repoId : Option String) (limit : Option Nat) :
    (∀ (store : NumberedStore) (requests : Nat),
        (matchingEvents repoId store.eventLog).length < requests →
          followPages (fun _ => store) repoId limit requests 0 none =
            (matchingEvents repoId store.eventLog, true)) ∧
      ∀ stores : Nat → NumberedStore,
        (∀ request, (stores request).eventLog <+: (stores (request + 1)).eventLog) →
          ∀ requests : Nat,
            let collected := followPages stores repoId limit requests 0 none
            (collected.2 = true ∨ (matchingEvents repoId (stores 0).eventLog).length ≤ requests →
                matchingEvents repoId (stores 0).eventLog <+: collected.1) ∧
              collected.1 <+: matchingEvents repoId (stores requests).eventLog ∧
              ((logIds (stores requests).eventLog).Nodup →
                (collected.1.map (·.eventId)).Nodup) ∧
              ∀ bound < requests,
                (∀ request, (matchingEvents repoId (stores request).eventLog).length ≤ bound) →
                  collected.2 = true := by
  constructor
  · intro store requests enough
    exact followPages_of_still_log store repoId limit enough
  · intro stores grows requests collected
    refine ⟨followPages_covers stores repoId limit grows,
      followPages_isPrefix stores repoId limit grows requests, ?_, ?_⟩
    · intro distinct
      exact (nodup_matching_ids distinct).sublist
        ((followPages_isPrefix stores repoId limit grows requests).sublist.map _)
    · intro bound enough bounded
      exact followPages_finishes stores repoId limit grows bounded enough

/-- Events of two repos and a blank line. -/
def mixedLog : NumberedStore where
  toServerStore :=
    { ServerStore.new with
      eventLog := [.event (pushedEvent 1 (some "repo-a") none), .blank,
        .event (pushedEvent 2 (some "repo-b") none), .event (pushedEvent 3 (some "repo-a") none)] }
  countable := by decide

theorem following_cursors_over_mixed_log :
    followPages (fun _ => mixedLog) (some "repo-a") (some 1) 3 0 none =
      ([pushedEvent 1 (some "repo-a") none, pushedEvent 3 (some "repo-a") none], true) :=
  (following_cursors_reads_matching_events (some "repo-a") (some 1)).1 mixedLog 3 (by decide)

end BrickTrace
