import Mathlib.Data.List.Nodup
import Mathlib.Data.List.Perm.Basic

/-!
# Calls and their results

A log of events is read into a list of items.  A call waits until a result names its key;
the call and the result then become one item, at the place of the result.  A call under the
key of a waiting one takes its place.  The calls that still wait at the end come last, in
whatever order they are taken from where they wait.
-/

set_option autoImplicit false

namespace PairedCalls

universe u v w x y

inductive Event (Entry : Type u) (Call : Type v) (Output : Type w) (Key : Type x) where
  | entry (entry : Entry)
  | call (call : Call)
  | result (key : Key) (output : Output)

inductive Item (Entry : Type u) (Call : Type v) (Output : Type w) where
  | entry (entry : Entry)
  | finished (call : Call) (output : Output)
  | unfinished (call : Call)

structure Reading (Entry : Type u) (Call : Type v) (Output : Type w) where
  items : List (Item Entry Call Output)
  waiting : List Call

section Read
variable {Entry : Type u} {Call : Type v} {Output : Type w} {Key : Type x} [DecidableEq Key]
  (key : Call → Key)

def step (reading : Reading Entry Call Output) :
    Event Entry Call Output Key → Reading Entry Call Output
  | .entry entry => { reading with items := reading.items ++ [.entry entry] }
  | .call call =>
      { reading with waiting := (reading.waiting.filter fun other => key other ≠ key call) ++ [call] }
  | .result id output =>
      match reading.waiting.find? fun call => key call = id with
      | none => reading
      | some call =>
          { items := reading.items ++ [.finished call output]
            waiting := reading.waiting.filter fun other => key other ≠ id }

def read (events : List (Event Entry Call Output Key)) : Reading Entry Call Output :=
  events.foldl (step key) ⟨[], []⟩

/-- The items once the waiting calls are taken in an order. -/
def itemsIn (order : List Call) (events : List (Event Entry Call Output Key)) :
    List (Item Entry Call Output) :=
  (read key events).items ++ order.map .unfinished

/-! ## The calls that wait at the end -/

/-- Whether a waiting call with the key waits no more after the event. -/
def settles (id : Key) : Event Entry Call Output Key → Bool
  | .entry _ => false
  | .call call => id = key call
  | .result other _ => id = other

/-- The calls after which no event has their key. -/
def openCalls : List (Event Entry Call Output Key) → List Call
  | [] => []
  | .call call :: rest =>
      if rest.any (settles key (key call)) then openCalls rest else call :: openCalls rest
  | _ :: rest => openCalls rest

theorem waiting_step (reading : Reading Entry Call Output) (event : Event Entry Call Output Key) :
    (step key reading event).waiting =
      (reading.waiting.filter fun call => !settles key (key call) event) ++
        match event with
        | .call call => [call]
        | _ => [] := by
  cases event with
  | entry entry => simp [step, settles]
  | call call =>
      simp only [step, settles]
      congr 1
      exact List.filter_congr fun other _ => decide_not
  | result id output =>
      rw [List.append_nil]
      simp only [step, settles]
      cases found : reading.waiting.find? fun call => key call = id with
      | none =>
          refine (List.filter_eq_self.mpr fun other member => ?_).symm
          have differs := List.find?_eq_none.mp found other member
          simpa using differs
      | some call => exact List.filter_congr fun other _ => decide_not

theorem waiting_foldl (events : List (Event Entry Call Output Key))
    (reading : Reading Entry Call Output) :
    (events.foldl (step key) reading).waiting =
      (reading.waiting.filter fun call => !events.any (settles key (key call))) ++
        openCalls key events := by
  induction events generalizing reading with
  | nil => simp [openCalls]
  | cons event rest ih =>
      have kept : ∀ calls : List Call,
          ((calls.filter fun call => !settles key (key call) event).filter
            fun call => !rest.any (settles key (key call))) =
          calls.filter fun call => !(event :: rest).any (settles key (key call)) := by
        intro calls
        rw [List.filter_filter]
        refine List.filter_congr fun call _ => ?_
        rw [List.any_cons, Bool.not_or, Bool.and_comm]
      rw [List.foldl_cons, ih, waiting_step, List.filter_append, kept, List.append_assoc]
      congr 1
      cases event with
      | entry entry => rfl
      | result id output => rfl
      | call call =>
          rw [openCalls, List.filter_singleton]
          cases later : rest.any (settles key (key call)) with
          | true => rfl
          | false => rfl

/-- The calls that wait at the end are the ones that nothing later settles. -/
theorem waiting_read (events : List (Event Entry Call Output Key)) :
    (read key events).waiting = openCalls key events := by
  unfold read
  rw [waiting_foldl]
  rfl

theorem settled_of_mem_openCalls {events : List (Event Entry Call Output Key)} {call : Call}
    (member : call ∈ openCalls key events) : events.any (settles key (key call)) = true := by
  induction events with
  | nil => cases member
  | cons event rest ih =>
      rw [List.any_cons, Bool.or_eq_true]
      cases event with
      | entry entry => exact Or.inr (ih member)
      | result id output => exact Or.inr (ih member)
      | call other =>
          rw [openCalls] at member
          split at member
          · exact Or.inr (ih member)
          · rcases List.mem_cons.mp member with rfl | later
            · exact Or.inl (decide_eq_true rfl)
            · exact Or.inr (ih later)

theorem nodup_openCalls (events : List (Event Entry Call Output Key)) :
    ((openCalls key events).map key).Nodup := by
  induction events with
  | nil => exact List.nodup_nil
  | cons event rest ih =>
      cases event with
      | entry entry => exact ih
      | result id output => exact ih
      | call call =>
          rw [openCalls]
          split
          · exact ih
          · rename_i unsettled
            rw [List.map_cons]
            refine List.nodup_cons.mpr ⟨fun again => unsettled ?_, ih⟩
            obtain ⟨other, member, sameKey⟩ := List.mem_map.mp again
            rw [← sameKey]
            exact settled_of_mem_openCalls key member

/-! ## The order in which the waiting calls are taken -/

/-- A view of the items that tells calls at one place apart by their keys shows the order in
which waiting calls are taken, unless there is at most one of them. -/
theorem same_views_iff {View : Type y} (view : Nat → Item Entry Call Output → View)
    (tells : ∀ n first second, view n (.unfinished first) = view n (.unfinished second) →
      key first = key second) (events : List (Event Entry Call Output Key)) :
    (∀ order order' : List Call, order.Perm (read key events).waiting →
        order'.Perm (read key events).waiting →
        (itemsIn key order events).mapIdx view = (itemsIn key order' events).mapIdx view) ↔
      (openCalls key events).length ≤ 1 := by
  rw [waiting_read]
  constructor
  · intro agree
    by_contra several
    have distinct := nodup_openCalls key events
    cases waiting : openCalls key events with
    | nil => simp [waiting] at several
    | cons first others =>
        cases others with
        | nil => simp [waiting] at several
        | cons second rest =>
            rw [waiting] at agree distinct
            have same := agree _ _ (List.Perm.refl _) (List.Perm.swap first second rest)
            unfold itemsIn at same
            rw [List.mapIdx_append, List.mapIdx_append, List.append_cancel_left_eq] at same
            simp only [List.map_cons, List.mapIdx_cons] at same
            have heads := (List.cons.inj same).1
            have sameKey := tells _ _ _ heads
            simp [sameKey] at distinct
  · intro single order order' perm perm'
    have same : order = order' := by
      match waiting : openCalls key events, single with
      | [], _ =>
          rw [waiting] at perm perm'
          rw [perm.eq_nil, perm'.eq_nil]
      | [call], _ =>
          rw [waiting] at perm perm'
          rw [List.perm_singleton.mp perm, List.perm_singleton.mp perm']
    rw [same]

/-! ## Longer logs -/

def Item.isUnfinished : Item Entry Call Output → Bool
  | .unfinished _ => true
  | _ => false

/-- Reading on never takes an item back. -/
theorem items_prefix_step (reading : Reading Entry Call Output)
    (event : Event Entry Call Output Key) : reading.items <+: (step key reading event).items := by
  cases event with
  | entry entry => exact List.prefix_append _ _
  | call call => exact List.prefix_refl _
  | result id output =>
      simp only [step]
      cases reading.waiting.find? fun call => key call = id with
      | none => exact List.prefix_refl _
      | some call => exact List.prefix_append _ _

theorem items_prefix_foldl (events : List (Event Entry Call Output Key))
    (reading : Reading Entry Call Output) :
    reading.items <+: (events.foldl (step key) reading).items := by
  induction events generalizing reading with
  | nil => exact List.prefix_refl _
  | cons event rest ih => exact (items_prefix_step key reading event).trans (ih _)

theorem items_prefix_append (front back : List (Event Entry Call Output Key)) :
    (read key front).items <+: (read key (front ++ back)).items := by
  unfold read
  rw [List.foldl_append]
  exact items_prefix_foldl key back _

theorem finished_step {reading : Reading Entry Call Output}
    (finished : ∀ item ∈ reading.items, item.isUnfinished = false)
    (event : Event Entry Call Output Key) :
    ∀ item ∈ (step key reading event).items, item.isUnfinished = false := by
  have added : ∀ last : Item Entry Call Output, last.isUnfinished = false →
      ∀ item ∈ reading.items ++ [last], item.isUnfinished = false := by
    intro last isFinished item member
    rcases List.mem_append.mp member with before | isLast
    · exact finished item before
    · rwa [List.mem_singleton.mp isLast]
  cases event with
  | entry entry => exact added _ rfl
  | call call => exact finished
  | result id output =>
      simp only [step]
      cases reading.waiting.find? fun call => key call = id with
      | none => exact finished
      | some call => exact added _ rfl

/-- Unfinished items only come from the calls that wait at the end. -/
theorem finished_read (events : List (Event Entry Call Output Key)) :
    ∀ item ∈ (read key events).items, item.isUnfinished = false := by
  have run : ∀ reading : Reading Entry Call Output,
      (∀ item ∈ reading.items, item.isUnfinished = false) →
        ∀ item ∈ (events.foldl (step key) reading).items, item.isUnfinished = false := by
    induction events with
    | nil => exact fun _ finished => finished
    | cons event rest ih => exact fun _ finished => ih _ (finished_step key finished event)
  exact run ⟨[], []⟩ (by simp)

/-- The items of the calls that wait are the last ones. -/
theorem filter_finished_itemsIn (order : List Call) (events : List (Event Entry Call Output Key)) :
    (itemsIn key order events).zipIdx.filter (fun placed => !placed.1.isUnfinished) =
      (read key events).items.zipIdx := by
  unfold itemsIn
  rw [List.zipIdx_append, List.filter_append]
  have kept : (read key events).items.zipIdx.filter (fun placed => !placed.1.isUnfinished) =
      (read key events).items.zipIdx := by
    apply List.filter_eq_self.mpr
    intro placed member
    rw [finished_read key events placed.1 (List.fst_mem_of_mem_zipIdx member)]
    rfl
  have dropped : ((order.map (Item.unfinished : Call → Item Entry Call Output)).zipIdx
      (0 + (read key events).items.length)).filter (fun placed => !placed.1.isUnfinished) = [] := by
    apply List.filter_eq_nil_iff.mpr
    intro placed member
    obtain ⟨call, _, isItem⟩ := List.mem_map.mp (List.fst_mem_of_mem_zipIdx member)
    rw [← isItem]
    exact Bool.false_ne_true
  rw [kept, dropped, List.append_nil]

/-! ## What becomes of the calls -/

/-- What the first result with the key tells. -/
def outcome (id : Key) : List (Event Entry Call Output Key) → Option Output
  | [] => none
  | .result other output :: rest => if id = other then some output else outcome id rest
  | _ :: rest => outcome id rest

def calls : List (Event Entry Call Output Key) → List Call
  | [] => []
  | .call call :: rest => call :: calls rest
  | _ :: rest => calls rest

/-- Every call with what the first result after it tells. -/
def callOutcomes : List (Event Entry Call Output Key) → List (Call × Option Output)
  | [] => []
  | .call call :: rest => (call, outcome (key call) rest) :: callOutcomes rest
  | _ :: rest => callOutcomes rest

def Item.call : Item Entry Call Output → Option (Call × Option Output)
  | .entry _ => none
  | .finished call output => some (call, some output)
  | .unfinished call => some (call, none)

omit [DecidableEq Key] in
theorem calls_append (front back : List (Event Entry Call Output Key)) :
    calls (front ++ back) = calls front ++ calls back := by
  induction front with
  | nil => rfl
  | cons event rest ih =>
      cases event with
      | entry entry => exact ih
      | result id output => exact ih
      | call call => exact congrArg (call :: ·) ih

theorem outcome_append (id : Key) (front back : List (Event Entry Call Output Key)) :
    outcome id (front ++ back) = (outcome id front).or (outcome id back) := by
  induction front with
  | nil => rfl
  | cons event rest ih =>
      cases event with
      | entry entry => exact ih
      | call call => exact ih
      | result other output =>
          rw [List.cons_append, outcome, outcome]
          split
          · rfl
          · exact ih

/-- Events that are no calls have no outcomes. -/
theorem callOutcomes_append_of_calls_eq_nil {front : List (Event Entry Call Output Key)}
    (none : calls front = []) (back : List (Event Entry Call Output Key)) :
    callOutcomes key (front ++ back) = callOutcomes key back := by
  induction front with
  | nil => rfl
  | cons event rest ih =>
      cases event with
      | entry entry => exact ih none
      | result id output => exact ih none
      | call call => cases none

/-- Calls without results among them are told by what comes later. -/
theorem callOutcomes_append_of_no_results {front : List (Event Entry Call Output Key)}
    (none : ∀ id, outcome id front = none) (back : List (Event Entry Call Output Key)) :
    callOutcomes key (front ++ back) =
      (calls front).map (fun call => (call, outcome (key call) back)) ++ callOutcomes key back := by
  induction front with
  | nil => rfl
  | cons event rest ih =>
      cases event with
      | entry entry => exact ih none
      | result id output =>
          have absent := none id
          rw [outcome, if_pos rfl] at absent
          cases absent
      | call call =>
          have later : outcome (key call) (rest ++ back) = outcome (key call) back := by
            have noneHere : outcome (key call) rest = Option.none := none (key call)
            rw [outcome_append, noneHere]
            rfl
          rw [List.cons_append, callOutcomes, later, ih none]
          rfl

/-- The call of a key and the other calls. -/
theorem perm_cons_filter {waiting : List Call} (distinct : (waiting.map key).Nodup) {call : Call}
    (member : call ∈ waiting) :
    waiting.Perm (call :: waiting.filter fun other => key other ≠ key call) := by
  have listed : waiting.Nodup := distinct.of_map
  refine (List.perm_ext_iff_of_nodup listed (List.nodup_cons.mpr ⟨?_, listed.filter _⟩)).mpr ?_
  · simp
  · intro other
    simp only [List.mem_cons, List.mem_filter, decide_eq_true_eq]
    constructor
    · intro held
      by_cases sameKey : key other = key call
      · exact Or.inl (List.inj_on_of_nodup_map distinct held member sameKey)
      · exact Or.inr ⟨held, sameKey⟩
    · rintro (rfl | ⟨held, _⟩)
      · exact member
      · exact held

theorem step_entry (reading : Reading Entry Call Output) (entry : Entry) :
    step key reading (.entry entry) = ⟨reading.items ++ [.entry entry], reading.waiting⟩ := rfl

/-- What is read so far, what becomes of the waiting calls, and what becomes of those to come:
every event only moves a call from one part to another. -/
theorem outcomes_foldl (events : List (Event Entry Call Output Key))
    (reading : Reading Entry Call Output)
    (distinct : ((reading.waiting ++ calls events).map key).Nodup) :
    ((events.foldl (step key) reading).items.filterMap Item.call ++
        (events.foldl (step key) reading).waiting.map fun call => (call, none)).Perm
      (reading.items.filterMap Item.call ++
        (reading.waiting.map (fun call => (call, outcome (key call) events)) ++
          callOutcomes key events)) := by
  induction events generalizing reading with
  | nil =>
      refine .of_eq ?_
      rw [callOutcomes, List.append_nil]
      rfl
  | cons event rest ih =>
      rw [List.foldl_cons]
      cases event with
      | entry entry =>
          refine (ih (step key reading (.entry entry)) distinct).trans (.of_eq ?_)
          rw [step_entry, List.filterMap_append]
          change _ ++ [] ++ _ = _
          rw [List.append_nil]
          rfl
      | call call =>
          have apart : (reading.waiting.filter fun other => key other ≠ key call) =
              reading.waiting := by
            refine List.filter_eq_self.mpr fun other member => decide_eq_true fun sameKey => ?_
            rw [List.map_append] at distinct
            exact List.disjoint_of_nodup_append distinct (List.mem_map_of_mem member)
              (sameKey ▸ List.mem_cons_self)
          have waits : (step key reading (.call call : Event Entry Call Output Key)).waiting =
              reading.waiting ++ [call] := by
            unfold step
            dsimp only
            rw [apart]
          refine (ih _ ?_).trans (.of_eq ?_)
          · rw [waits, List.append_assoc]
            exact distinct
          · rw [waits, List.map_append, List.append_assoc]
            rfl
      | result id output =>
          cases found : reading.waiting.find? fun call => key call = id with
          | none =>
              have unchanged : step key reading (.result id output) = reading := by
                unfold step
                dsimp only
                rw [found]
              have others : reading.waiting.map
                    (fun call => (call, outcome (key call) (.result id output :: rest))) =
                  reading.waiting.map fun call => (call, outcome (key call) rest) := by
                refine List.map_congr_left fun call member => ?_
                have differs := List.find?_eq_none.mp found call member
                rw [outcome, if_neg (by simpa using differs)]
              rw [unchanged, others]
              exact ih reading distinct
          | some call =>
              have ofId : key call = id := by simpa using List.find?_some found
              have member := List.mem_of_find?_eq_some found
              subst ofId
              have moved : step key reading (.result (key call) output) =
                  ⟨reading.items ++ [.finished call output],
                    reading.waiting.filter fun other => key other ≠ key call⟩ := by
                unfold step
                dsimp only
                rw [found]
              have others : (reading.waiting.filter fun other => key other ≠ key call).map
                    (fun other => (other, outcome (key other) (.result (key call) output :: rest))) =
                  (reading.waiting.filter fun other => key other ≠ key call).map
                    fun other => (other, outcome (key other) rest) := by
                refine List.map_congr_left fun other isOther => ?_
                have differs := (List.mem_filter.mp isOther).2
                rw [outcome, if_neg (by simpa using differs)]
              have own : outcome (key call) (.result (key call) output :: rest) = some output :=
                if_pos rfl
              have waitingDistinct : (reading.waiting.map key).Nodup := by
                rw [List.map_append] at distinct
                exact distinct.of_append_left
              have restDistinct : (((reading.waiting.filter fun other => key other ≠ key call) ++
                  calls rest).map key).Nodup := by
                refine distinct.sublist (List.Sublist.map key ?_)
                exact List.Sublist.append List.filter_sublist (List.Sublist.refl _)
              have listed := (perm_cons_filter key waitingDistinct member).map fun other =>
                (other, outcome (key other) (.result (key call) output :: rest))
              rw [List.map_cons, own, others] at listed
              rw [moved]
              refine (ih _ restDistinct).trans ?_
              rw [List.filterMap_append, List.append_assoc]
              refine List.Perm.append_left _ ?_
              exact (listed.symm.append_right (callOutcomes key rest))

/-- Among events whose calls have keys of their own every call is one item, with what the
first result after it tells. -/
theorem calls_itemsIn_perm {events : List (Event Entry Call Output Key)}
    (distinct : ((calls events).map key).Nodup) {order : List Call}
    (perm : order.Perm (read key events).waiting) :
    ((itemsIn key order events).filterMap Item.call).Perm (callOutcomes key events) := by
  have unfinished : ∀ waiting : List Call,
      (waiting.map (Item.unfinished : Call → Item Entry Call Output)).filterMap Item.call =
        waiting.map fun call => (call, none) := by
    intro waiting
    rw [List.filterMap_map]
    exact congrFun List.filterMap_eq_map waiting
  have total := outcomes_foldl key events ⟨[], []⟩ distinct
  unfold itemsIn
  rw [List.filterMap_append, unfinished]
  exact ((perm.map _).append_left _).trans total

end Read

end PairedCalls
