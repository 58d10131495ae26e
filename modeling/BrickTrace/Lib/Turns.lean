import Mathlib.Data.List.Basic

/-!
# The last words of a turn

A log has items that open a turn and items that say something.  For a moment, the open turn goes
from the last opening before that moment to the next opening of all, and the last words of the
moment are the last ones of that turn before the moment, or else the last ones before it at
all.  Items are told apart by their places in the log.
-/

set_option autoImplicit false

namespace Turns

universe u v

variable {A : Type u} {B : Type v}

section Selection
variable (opens early : A → Bool) (text : A → Option B) (items : List A)

/-- The place of the last opening that is early enough. -/
def turnStart : Option Nat :=
  ((items.zipIdx.filter fun entry => opens entry.1 && early entry.1).map Prod.snd).getLast?

/-- The place of the next opening. -/
def turnEnd (start : Nat) : Nat :=
  (((items.zipIdx.drop (start + 1)).find? fun entry => opens entry.1).map Prod.snd).getD items.length

def lastText : Option B := ((items.filter early).filterMap text).getLast?

def turnFinal : Option B :=
  ((turnStart opens early items).bind fun start =>
    lastText early text ((items.take (turnEnd opens items start)).drop start)).or
      (lastText early text items)

/-! ## With the places kept -/

def lastEntry (entries : List (A × Nat)) : Option (A × Nat) :=
  (entries.filter fun entry => early entry.1 && (text entry.1).isSome).getLast?

/-- The item whose words are selected. -/
def finalEntry : Option (A × Nat) :=
  ((turnStart opens early items).bind fun start =>
    lastEntry early text ((items.zipIdx.take (turnEnd opens items start)).drop start)).or
      (lastEntry early text items.zipIdx)

/-- An item that says something early enough. -/
def Spoken (entry : A × Nat) : Prop :=
  entry ∈ items.zipIdx ∧ early entry.1 = true ∧ (text entry.1).isSome = true

/-- The last one of its kind. -/
def IsLast (kind : A × Nat → Prop) (entry : A × Nat) : Prop :=
  kind entry ∧ ∀ other, kind other → other.2 ≤ entry.2

/-- An opening that is early enough. -/
def Opening (entry : A × Nat) : Prop :=
  entry ∈ items.zipIdx ∧ opens entry.1 = true ∧ early entry.1 = true

/-- Between the last opening that is early enough and the next opening of all. -/
def InOpenTurn (entry : A × Nat) : Prop :=
  ∃ opener, IsLast (Opening opens early items) opener ∧ opener.2 ≤ entry.2 ∧
    ∀ next ∈ items.zipIdx, opens next.1 = true → opener.2 < next.2 → entry.2 < next.2

end Selection

theorem lastText_map_fst (early : A → Bool) (text : A → Option B) (entries : List (A × Nat)) :
    lastText early text (entries.map Prod.fst) =
      (lastEntry early text entries).bind fun entry => text entry.1 := by
  unfold lastText lastEntry
  have texts : ((entries.map Prod.fst).filter early).filterMap text =
      (entries.filter fun entry => early entry.1 && (text entry.1).isSome).filterMap
        fun entry => text entry.1 := by
    induction entries with
    | nil => rfl
    | cons entry rest ih =>
        rw [List.map_cons]
        cases isEarly : early entry.1 with
        | false => simpa [isEarly] using ih
        | true =>
            cases isText : text entry.1 with
            | none => simpa [isEarly, isText] using ih
            | some words => simpa [isEarly, isText] using ih
  rw [texts]
  generalize held : (entries.filter fun entry => early entry.1 && (text entry.1).isSome) = spoken
  have speaks : ∀ entry ∈ spoken, (text entry.1).isSome = true := by
    intro entry member
    rw [← held] at member
    exact (Bool.and_eq_true_iff.mp (List.mem_filter.mp member).2).2
  rcases List.eq_nil_or_concat spoken with rfl | ⟨front, last, rfl⟩
  · rfl
  · obtain ⟨words, isText⟩ := Option.isSome_iff_exists.mp (speaks last (by simp))
    simp [isText]

/-- What is selected is what the selected item says. -/
theorem turnFinal_eq (opens early : A → Bool) (text : A → Option B) (items : List A) :
    turnFinal opens early text items =
      (finalEntry opens early text items).bind fun entry => text entry.1 := by
  have whole : lastText early text items =
      (lastEntry early text items.zipIdx).bind fun entry => text entry.1 := by
    rw [← lastText_map_fst, List.zipIdx_map_fst]
  unfold turnFinal finalEntry
  rw [whole]
  cases turnStart opens early items with
  | none => rfl
  | some start =>
      have inTurn : lastText early text ((items.take (turnEnd opens items start)).drop start) =
          (lastEntry early text ((items.zipIdx.take (turnEnd opens items start)).drop start)).bind
            fun entry => text entry.1 := by
        rw [← lastText_map_fst, List.map_drop, List.map_take, List.zipIdx_map_fst]
      rw [Option.bind_some, Option.bind_some, inTurn]
      cases found : lastEntry early text
          ((items.zipIdx.take (turnEnd opens items start)).drop start) with
      | none => rfl
      | some entry =>
          have speaks : (text entry.1).isSome = true := by
            have member := List.mem_of_getLast? found
            exact (Bool.and_eq_true_iff.mp (List.mem_filter.mp member).2).2
          obtain ⟨words, isText⟩ := Option.isSome_iff_exists.mp speaks
          simp [isText]

/-! ## Places -/

theorem pairwise_zipIdx (items : List A) :
    items.zipIdx.Pairwise fun first second => first.2 < second.2 := by
  have places : (List.range' 0 items.length).Pairwise (· < ·) := List.pairwise_lt_range'
  rw [← List.zipIdx_map_snd 0 items] at places
  exact List.pairwise_map.mp places

/-- The last item of a kind, in a list whose places ascend. -/
theorem getLast?_filter_eq_some_iff {entries : List (A × Nat)} {keep : A × Nat → Bool}
    (ascending : entries.Pairwise fun first second => first.2 < second.2) (entry : A × Nat) :
    (entries.filter keep).getLast? = some entry ↔
      IsLast (fun entry => entry ∈ entries ∧ keep entry = true) entry := by
  have kept := ascending.filter keep
  have member_iff : ∀ other, other ∈ entries ∧ keep other = true ↔ other ∈ entries.filter keep :=
    fun other => List.mem_filter.symm
  unfold IsLast
  simp only [member_iff]
  rcases List.eq_nil_or_concat (entries.filter keep) with empty | ⟨front, last, same⟩
  · simp [empty]
  · rw [same, List.concat_eq_append] at kept ⊢
    rw [List.pairwise_append] at kept
    rw [List.getLast?_append_of_ne_nil _ (by simp), List.getLast?_singleton, Option.some.injEq]
    have below : ∀ other ∈ front, other.2 < last.2 :=
      fun other member => kept.2.2 other member last (by simp)
    constructor
    · rintro rfl
      refine ⟨by simp, fun other member => ?_⟩
      rcases List.mem_append.mp member with inFront | isLast
      · exact Nat.le_of_lt (below other inFront)
      · exact Nat.le_of_eq (congrArg Prod.snd (List.mem_singleton.mp isLast))
    · rintro ⟨member, above⟩
      rcases List.mem_append.mp member with inFront | isLast
      · exact absurd (above last (by simp)) (Nat.not_le.mpr (below entry inFront))
      · exact (List.mem_singleton.mp isLast).symm

theorem getElem?_place {items : List A} {entry : A × Nat} (member : entry ∈ items.zipIdx) :
    items.zipIdx[entry.2]? = some entry := by
  rw [List.getElem?_zipIdx, List.mem_zipIdx_iff_getElem?.mp member]
  simp

theorem mem_slice {items : List A} {start stop : Nat} (entry : A × Nat) :
    entry ∈ (items.zipIdx.take stop).drop start ↔
      entry ∈ items.zipIdx ∧ start ≤ entry.2 ∧ entry.2 < stop := by
  constructor
  · intro member
    obtain ⟨index, found⟩ := List.mem_iff_getElem?.mp member
    rw [List.getElem?_drop, List.getElem?_take] at found
    split at found
    · rename_i inside
      have place : entry.2 = start + index := by
        rw [List.getElem?_zipIdx] at found
        obtain ⟨item, _, rfl⟩ := Option.map_eq_some_iff.mp found
        exact Nat.zero_add _
      exact ⟨List.mem_of_getElem? found, by omega, by omega⟩
    · cases found
  · rintro ⟨member, from_start, to_stop⟩
    refine List.mem_iff_getElem?.mpr ⟨entry.2 - start, ?_⟩
    rw [List.getElem?_drop, List.getElem?_take, Nat.add_sub_cancel' from_start, if_pos to_stop]
    exact getElem?_place member

/-! ## The open turn -/

section OpenTurn
variable {opens early : A → Bool} {text : A → Option B} {items : List A}

theorem turnStart_eq_some_iff (start : Nat) :
    turnStart opens early items = some start ↔
      ∃ opener, IsLast (Opening opens early items) opener ∧ opener.2 = start := by
  unfold turnStart
  rw [List.getLast?_map, Option.map_eq_some_iff]
  have kind : Opening opens early items = fun entry => entry ∈ items.zipIdx ∧
      (opens entry.1 && early entry.1) = true := by
    funext entry
    rw [Bool.and_eq_true]
    rfl
  simp only [getLast?_filter_eq_some_iff (pairwise_zipIdx items), kind]

/-- What stands before the end of a turn stands before all later openings. -/
theorem lt_turnEnd_iff (start : Nat) {entry : A × Nat} (member : entry ∈ items.zipIdx) :
    entry.2 < turnEnd opens items start ↔
      ∀ next ∈ items.zipIdx, opens next.1 = true → start < next.2 → entry.2 < next.2 := by
  have later : ∀ next, next ∈ items.zipIdx.drop (start + 1) ↔ next ∈ items.zipIdx ∧ start < next.2 := by
    intro next
    have slice := @mem_slice _ items (start + 1) items.length next
    rw [List.take_of_length_le (by simp)] at slice
    rw [slice]
    constructor
    · exact fun ⟨inItems, after, _⟩ => ⟨inItems, after⟩
    · exact fun ⟨inItems, after⟩ => ⟨inItems, after, by simpa using List.snd_lt_of_mem_zipIdx inItems⟩
  unfold turnEnd
  cases found : (items.zipIdx.drop (start + 1)).find? fun entry => opens entry.1 with
  | none =>
      rw [List.find?_eq_none] at found
      refine iff_of_true (by simpa using List.snd_lt_of_mem_zipIdx member) ?_
      intro next isNext isOpening after
      exact absurd isOpening (found next ((later next).mpr ⟨isNext, after⟩))
  | some first =>
      obtain ⟨isOpening, before, after, split, earlier⟩ := List.find?_eq_some_iff_append.mp found
      rw [Option.map_some, Option.getD_some]
      have isFirst : first ∈ items.zipIdx ∧ start < first.2 := by
        rw [← later, split]
        exact List.mem_append_right _ List.mem_cons_self
      constructor
      · intro below next isNext opening isLater
        have member := (later next).mpr ⟨isNext, isLater⟩
        have ascending := (pairwise_zipIdx items).sublist (List.drop_sublist (start + 1) _)
        rw [split] at member ascending
        rw [List.pairwise_append, List.pairwise_cons] at ascending
        rcases List.mem_append.mp member with inBefore | inAfter
        · have closed := earlier next inBefore
          simp [opening] at closed
        · rcases List.mem_cons.mp inAfter with rfl | isAfter
          · exact below
          · exact Nat.lt_trans below (ascending.2.1.1 next isAfter)
      · exact fun below => below first isFirst.1 isOpening isFirst.2

/-- The slice from the start of the open turn to its end. -/
theorem mem_openTurn {start : Nat} (isStart : turnStart opens early items = some start)
    {entry : A × Nat} :
    entry ∈ (items.zipIdx.take (turnEnd opens items start)).drop start ↔
      entry ∈ items.zipIdx ∧ InOpenTurn opens early items entry := by
  obtain ⟨opener, isLast, rfl⟩ := (turnStart_eq_some_iff start).mp isStart
  rw [mem_slice]
  refine and_congr_right fun member => ?_
  rw [lt_turnEnd_iff opener.2 member]
  constructor
  · exact fun ⟨after, before⟩ => ⟨opener, isLast, after, before⟩
  · rintro ⟨other, otherLast, after, before⟩
    have same : other.2 = opener.2 :=
      Nat.le_antisymm (isLast.2 other otherLast.1) (otherLast.2 opener isLast.1)
    rw [same] at after before
    exact ⟨after, before⟩

theorem lastEntry_eq_some_iff {entries : List (A × Nat)}
    (ascending : entries.Pairwise fun first second => first.2 < second.2) (entry : A × Nat) :
    lastEntry early text entries = some entry ↔
      IsLast (fun entry => entry ∈ entries ∧ early entry.1 = true ∧ (text entry.1).isSome = true)
        entry := by
  unfold lastEntry
  rw [getLast?_filter_eq_some_iff ascending]
  simp only [Bool.and_eq_true]

theorem IsLast.congr {kind other : A × Nat → Prop} (same : ∀ entry, kind entry ↔ other entry)
    (entry : A × Nat) : IsLast kind entry ↔ IsLast other entry := by
  rw [funext fun entry => propext (same entry)]

/-- The last one spoken in the open turn, or the last one spoken if that turn has none. -/
theorem finalEntry_eq_some_iff (entry : A × Nat) :
    finalEntry opens early text items = some entry ↔
      IsLast (fun other => Spoken early text items other ∧ InOpenTurn opens early items other) entry ∨
        (∀ other, Spoken early text items other → ¬InOpenTurn opens early items other) ∧
          IsLast (Spoken early text items) entry := by
  have whole := @lastEntry_eq_some_iff _ _ early text _ (pairwise_zipIdx items)
  unfold finalEntry
  cases isStart : turnStart opens early items with
  | none =>
      have closed : ∀ other, ¬InOpenTurn opens early items other := by
        rintro other ⟨opener, isLast, _⟩
        have opened := (turnStart_eq_some_iff opener.2).mpr ⟨opener, isLast, rfl⟩
        rw [isStart] at opened
        cases opened
      rw [Option.bind_none, Option.none_or, whole]
      constructor
      · exact fun isLast => Or.inr ⟨fun other _ => closed other, isLast⟩
      · rintro (⟨⟨_, inTurn⟩, _⟩ | ⟨_, isLast⟩)
        · exact absurd inTurn (closed entry)
        · exact isLast
  | some start =>
      have ascending := (pairwise_zipIdx items).sublist
        ((List.drop_sublist start _).trans (List.take_sublist (turnEnd opens items start) _))
      have inSlice := @lastEntry_eq_some_iff _ _ early text _ ascending
      have kind : ∀ other, (other ∈ (items.zipIdx.take (turnEnd opens items start)).drop start ∧
          early other.1 = true ∧ (text other.1).isSome = true) ↔
            (Spoken early text items other ∧ InOpenTurn opens early items other) := by
        intro other
        rw [mem_openTurn isStart]
        unfold Spoken
        tauto
      rw [Option.bind_some]
      cases found : lastEntry early text
          ((items.zipIdx.take (turnEnd opens items start)).drop start) with
      | none =>
          have closed : ∀ other, Spoken early text items other →
              ¬InOpenTurn opens early items other := by
            intro other spoken inTurn
            have member := (kind other).mpr ⟨spoken, inTurn⟩
            have empty := List.filter_eq_nil_iff.mp (List.getLast?_eq_none_iff.mp found)
            exact empty other member.1 (Bool.and_eq_true_iff.mpr member.2)
          rw [Option.none_or, whole]
          constructor
          · exact fun isLast => Or.inr ⟨closed, isLast⟩
          · rintro (⟨⟨spoken, inTurn⟩, _⟩ | ⟨_, isLast⟩)
            · exact absurd inTurn (closed entry spoken)
            · exact isLast
      | some last =>
          have isLast := (IsLast.congr kind last).mp ((inSlice last).mp found)
          rw [Option.some_or, ← found, inSlice, IsLast.congr kind]
          constructor
          · exact Or.inl
          · rintro (inTurn | ⟨closed, _⟩)
            · exact inTurn
            · exact absurd isLast.1.2 (closed last isLast.1.1)

theorem finalEntry_eq_none_iff :
    finalEntry opens early text items = none ↔ ∀ entry, ¬Spoken early text items entry := by
  have whole : lastEntry early text items.zipIdx = none ↔ ∀ entry, ¬Spoken early text items entry := by
    unfold lastEntry
    rw [List.getLast?_eq_none_iff, List.filter_eq_nil_iff]
    simp only [Bool.and_eq_true]
    exact forall_congr' fun entry => ⟨fun absent spoken => absent spoken.1 spoken.2,
      fun absent member speaks => absent ⟨member, speaks⟩⟩
  constructor
  · intro none
    unfold finalEntry at none
    exact whole.mp (Option.or_eq_none_iff.mp none).2
  · intro absent
    refine Option.eq_none_iff_forall_ne_some.mpr fun entry found => ?_
    rcases (finalEntry_eq_some_iff entry).mp found with ⟨⟨spoken, _⟩, _⟩ | ⟨_, spoken, _⟩
    · exact absent entry spoken
    · exact absent entry spoken

/-- What stands before something early is early too. -/
theorem early_of_le (ordered : items.Pairwise fun first second => early second = true →
    early first = true) {first second : A × Nat} (isFirst : first ∈ items.zipIdx)
    (isSecond : second ∈ items.zipIdx) (before : first.2 ≤ second.2)
    (isEarly : early second.1 = true) : early first.1 = true := by
  rcases Nat.lt_or_eq_of_le before with less | same
  · obtain ⟨firstPlace, firstAt⟩ := List.getElem?_eq_some_iff.mp (List.mem_zipIdx_iff_getElem?.mp isFirst)
    obtain ⟨secondPlace, secondAt⟩ :=
      List.getElem?_eq_some_iff.mp (List.mem_zipIdx_iff_getElem?.mp isSecond)
    have pair := List.pairwise_iff_getElem.mp ordered _ _ firstPlace secondPlace less
    rw [firstAt, secondAt] at pair
    exact pair isEarly
  · have at_first := List.mem_zipIdx_iff_getElem?.mp isFirst
    rw [same, List.mem_zipIdx_iff_getElem?.mp isSecond, Option.some.injEq] at at_first
    rw [← at_first]
    exact isEarly

/-- In a log that is in order, the last words are the last ones of all that are early enough. -/
theorem finalEntry_of_ordered (ordered : items.Pairwise fun first second => early second = true →
    early first = true) (entry : A × Nat) :
    finalEntry opens early text items = some entry ↔ IsLast (Spoken early text items) entry := by
  -- the open turn has no end among the early items
  have stays : ∀ {first second : A × Nat}, InOpenTurn opens early items first →
      Spoken early text items second → first.2 ≤ second.2 → InOpenTurn opens early items second := by
    rintro first second ⟨opener, isLast, after, _⟩ spoken later
    refine ⟨opener, isLast, Nat.le_trans after later, fun next isNext opening beyond => ?_⟩
    refine Nat.lt_of_not_le fun within => ?_
    have isEarly := early_of_le ordered isNext spoken.1 within spoken.2.1
    exact absurd (isLast.2 next ⟨isNext, opening, isEarly⟩) (Nat.not_le.mpr beyond)
  rw [finalEntry_eq_some_iff]
  constructor
  · rintro (⟨⟨spoken, inTurn⟩, above⟩ | ⟨_, isLast⟩)
    · refine ⟨spoken, fun other isSpoken => ?_⟩
      rcases Nat.le_total other.2 entry.2 with before | after
      · exact before
      · exact above other ⟨isSpoken, stays inTurn isSpoken after⟩
    · exact isLast
  · intro isLast
    by_cases inTurn : InOpenTurn opens early items entry
    · exact Or.inl ⟨⟨isLast.1, inTurn⟩, fun other spoken => isLast.2 other spoken.1⟩
    · refine Or.inr ⟨fun other spoken otherInTurn => ?_, isLast⟩
      exact inTurn (stays otherInTurn isLast.1 (isLast.2 other spoken))

/-! ## Two notions of early -/

variable (opens early) (due : A → Bool) (text) (items)

/-- The last one that is due is found by what counts as early: it is early itself, and what is
early after it stands outside of a turn that has it, or does not stand there at all. -/
structure FoundByEarly : Prop where
  inTime : ∀ last, IsLast (Spoken due text items) last → early last.1 = true
  inTurn : ∀ last, IsLast (Spoken due text items) last → InOpenTurn opens early items last →
    ∀ other, Spoken early text items other → InOpenTurn opens early items other → other.2 ≤ last.2
  outside : ∀ last, IsLast (Spoken due text items) last → ¬InOpenTurn opens early items last →
    ∀ other, Spoken early text items other → ¬InOpenTurn opens early items other ∧ other.2 ≤ last.2
  none : (∀ entry, ¬Spoken due text items entry) → ∀ other, ¬Spoken early text items other

variable {opens early due text items}

theorem finalEntry_eq_iff
    (ordered : items.Pairwise fun first second => due second = true → due first = true) :
    finalEntry opens early text items = finalEntry opens due text items ↔
      FoundByEarly opens early text items due := by
  cases isDue : finalEntry opens due text items with
  | none =>
      have noneDue := finalEntry_eq_none_iff.mp isDue
      rw [finalEntry_eq_none_iff]
      constructor
      · intro noneEarly
        exact ⟨fun last isLast => absurd isLast.1 (noneDue last),
          fun last isLast => absurd isLast.1 (noneDue last),
          fun last isLast => absurd isLast.1 (noneDue last), fun _ => noneEarly⟩
      · exact fun found => found.none noneDue
  | some last =>
      have isLast := (finalEntry_of_ordered ordered last).mp isDue
      have only : ∀ other, IsLast (Spoken due text items) other → other = last := by
        intro other otherLast
        have same := (@finalEntry_of_ordered _ _ opens _ _ _ ordered other).mpr otherLast
        rw [isDue, Option.some.injEq] at same
        exact same.symm
      rw [finalEntry_eq_some_iff]
      constructor
      · rintro (⟨⟨spoken, inTurn⟩, above⟩ | ⟨closed, spoken, above⟩)
        · refine ⟨?_, ?_, ?_, fun noneDue => absurd isLast.1 (noneDue last)⟩
          · intro other otherLast
            rw [only other otherLast]
            exact spoken.2.1
          · intro other otherLast _ later isSpoken isInTurn
            rw [only other otherLast]
            exact above later ⟨isSpoken, isInTurn⟩
          · intro other otherLast notInTurn
            rw [only other otherLast] at notInTurn
            exact absurd inTurn notInTurn
        · refine ⟨?_, ?_, ?_, fun noneDue => absurd isLast.1 (noneDue last)⟩
          · intro other otherLast
            rw [only other otherLast]
            exact spoken.2.1
          · intro other otherLast inTurn
            rw [only other otherLast] at inTurn
            exact absurd inTurn (closed last spoken)
          · intro other otherLast _ later isSpoken
            rw [only other otherLast]
            exact ⟨closed later isSpoken, above later isSpoken⟩
      · intro found
        have spoken : Spoken early text items last :=
          ⟨isLast.1.1, found.inTime last isLast, isLast.1.2.2⟩
        by_cases inTurn : InOpenTurn opens early items last
        · exact Or.inl ⟨⟨spoken, inTurn⟩, fun other isSpoken =>
            found.inTurn last isLast inTurn other isSpoken.1 isSpoken.2⟩
        · exact Or.inr ⟨fun other isSpoken => (found.outside last isLast inTurn other isSpoken).1,
            spoken, fun other isSpoken => (found.outside last isLast inTurn other isSpoken).2⟩

/-- What counts as early for the items that are due finds the last words that are due. -/
theorem foundByEarly_of_agree
    (ordered : items.Pairwise fun first second => due second = true → due first = true)
    (agree : ∀ item ∈ items, early item = due item) : FoundByEarly opens early text items due := by
  have atPlace : ∀ entry ∈ items.zipIdx, early entry.1 = due entry.1 :=
    fun entry member => agree entry.1 (List.fst_mem_of_mem_zipIdx member)
  have spoken : Spoken early text items = Spoken due text items := by
    funext entry
    exact propext (and_congr_right fun member => by rw [atPlace entry member])
  have opening : Opening opens early items = Opening opens due items := by
    funext entry
    exact propext (and_congr_right fun member => by rw [atPlace entry member])
  have inTurn : InOpenTurn opens early items = InOpenTurn opens due items := by
    funext entry
    unfold InOpenTurn
    rw [opening]
  refine (finalEntry_eq_iff ordered).mp (Option.ext fun entry => ?_)
  rw [finalEntry_eq_some_iff, finalEntry_eq_some_iff, spoken, inTurn]

end OpenTurn

end Turns
