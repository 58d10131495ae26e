import BrickTrace.Lib.Runs

/-!
# Threads interleaved over a shared state

A pool holds one shared state and any number of threads.  A label names the
thread that takes its next atomic step; naming a thread that is absent or
finished changes nothing.  An invariant of a pool has three parts: what holds
of the shared state, what each thread relies on, and what holds between two
different threads.  `advance_holds` is the proof rule: the moving thread keeps
its own part, and disturbs no part that another thread relies on.  Threads may join at any time.
`Alone` is what one thread does when no other one moves.
-/

set_option autoImplicit false

namespace Interleaving

universe u v

structure Pool (Shared : Type u) (Thread : Type v) where
  shared : Shared
  threads : List Thread

variable {Shared : Type u} {Thread : Type v}
  (step : Shared → Thread → Option (Shared × Thread))

def advance (pool : Pool Shared Thread) (index : Nat) : Pool Shared Thread :=
  match pool.threads[index]? with
  | none => pool
  | some thread =>
      match step pool.shared thread with
      | none => pool
      | some (shared, moved) => ⟨shared, pool.threads.set index moved⟩

/-- What `advance` can do: nothing, or one step of the thread it names. -/
theorem advance_cases (pool : Pool Shared Thread) (index : Nat) :
    advance step pool index = pool ∨
      ∃ thread shared moved, pool.threads[index]? = some thread ∧
        step pool.shared thread = some (shared, moved) ∧
        advance step pool index = ⟨shared, pool.threads.set index moved⟩ := by
  unfold advance
  cases found : pool.threads[index]? with
  | none => exact Or.inl rfl
  | some thread =>
      cases taken : step pool.shared thread with
      | none => exact Or.inl (by simp [taken])
      | some result =>
          obtain ⟨shared, moved⟩ := result
          exact Or.inr ⟨thread, shared, moved, rfl, taken, by simp [taken]⟩

structure Holds (global : Shared → Prop) (own : Shared → Thread → Prop)
    (between : Shared → Thread → Thread → Prop) (pool : Pool Shared Thread) : Prop where
  shared : global pool.shared
  thread : ∀ (index : Nat) (thread : Thread), pool.threads[index]? = some thread → own pool.shared thread
  pair : ∀ (first second : Nat) (left right : Thread), first ≠ second →
    pool.threads[first]? = some left → pool.threads[second]? = some right →
    between pool.shared left right

/-- The obligations of one step of one thread towards its peers. -/
structure Preserves (global : Shared → Prop) (own : Shared → Thread → Prop)
    (between : Shared → Thread → Thread → Prop) (peer : Thread → Prop)
    (before : Shared) (mover : Thread) (after : Shared) (moved : Thread) : Prop where
  shared : global after
  thread : own after moved
  others : ∀ other, peer other → own before other → between before mover other →
    between before other mover →
    own after other ∧ between after moved other ∧ between after other moved
  apart : ∀ left right, own before left → own before right → between before left right →
    between before mover left → between before mover right → between after left right

/-- The interference rule. -/
theorem advance_holds {global : Shared → Prop} {own : Shared → Thread → Prop}
    {between : Shared → Thread → Thread → Prop} (pool : Pool Shared Thread) (index : Nat)
    (holds : Holds global own between pool)
    (preserves : ∀ thread shared' moved, pool.threads[index]? = some thread →
      step pool.shared thread = some (shared', moved) →
      Preserves global own between (· ∈ pool.threads) pool.shared thread shared' moved) :
    Holds global own between (advance step pool index) := by
  rcases advance_cases step pool index with same | ⟨thread, shared', moved, found, taken, result⟩
  · rwa [same]
  have kept := preserves thread shared' moved found taken
  have bound : index < pool.threads.length := (List.getElem?_eq_some_iff.mp found).1
  rw [result]
  refine ⟨kept.shared, ?_, ?_⟩
  · intro other held foundOther
    by_cases same : index = other
    · subst same
      rw [List.getElem?_set_self bound] at foundOther
      obtain rfl := Option.some.inj foundOther
      exact kept.thread
    · rw [List.getElem?_set_ne same] at foundOther
      exact (kept.others held (List.mem_of_getElem? foundOther) (holds.thread _ _ foundOther)
        (holds.pair _ _ _ _ same found foundOther)
        (holds.pair _ _ _ _ (Ne.symm same) foundOther found)).1
  · intro first second left right differ foundLeft foundRight
    by_cases movesFirst : index = first
    · subst movesFirst
      rw [List.getElem?_set_self bound] at foundLeft
      rw [List.getElem?_set_ne differ] at foundRight
      obtain rfl := Option.some.inj foundLeft
      exact (kept.others right (List.mem_of_getElem? foundRight) (holds.thread _ _ foundRight)
        (holds.pair _ _ _ _ differ found foundRight)
        (holds.pair _ _ _ _ (Ne.symm differ) foundRight found)).2.1
    · rw [List.getElem?_set_ne movesFirst] at foundLeft
      by_cases movesSecond : index = second
      · subst movesSecond
        rw [List.getElem?_set_self bound] at foundRight
        obtain rfl := Option.some.inj foundRight
        exact (kept.others left (List.mem_of_getElem? foundLeft) (holds.thread _ _ foundLeft)
          (holds.pair _ _ _ _ (Ne.symm differ) found foundLeft)
          (holds.pair _ _ _ _ differ foundLeft found)).2.2
      · rw [List.getElem?_set_ne movesSecond] at foundRight
        exact kept.apart left right (holds.thread _ _ foundLeft) (holds.thread _ _ foundRight)
          (holds.pair _ _ _ _ differ foundLeft foundRight)
          (holds.pair _ _ _ _ movesFirst found foundLeft)
          (holds.pair _ _ _ _ movesSecond found foundRight)

def spawn (pool : Pool Shared Thread) (thread : Thread) : Pool Shared Thread :=
  ⟨pool.shared, pool.threads ++ [thread]⟩

theorem getElem?_spawn {pool : Pool Shared Thread} {fresh thread : Thread} {index : Nat}
    (found : (spawn pool fresh).threads[index]? = some thread) :
    pool.threads[index]? = some thread ∨ index = pool.threads.length ∧ thread = fresh := by
  rw [spawn, List.getElem?_append] at found
  split at found
  · exact Or.inl found
  · rename_i beyond
    obtain ⟨bound, same⟩ := List.getElem?_eq_some_iff.mp found
    rw [List.length_singleton] at bound
    refine Or.inr ⟨by omega, ?_⟩
    rw [← same]
    exact List.getElem_singleton ..

/-- A thread that relies on nothing the others disturb, and disturbs nothing, may join. -/
theorem spawn_holds {global : Shared → Prop} {own : Shared → Thread → Prop}
    {between : Shared → Thread → Thread → Prop} {pool : Pool Shared Thread}
    (holds : Holds global own between pool) {fresh : Thread} (joins : own pool.shared fresh)
    (apart : ∀ other, between pool.shared fresh other ∧ between pool.shared other fresh) :
    Holds global own between (spawn pool fresh) := by
  refine ⟨holds.shared, ?_, ?_⟩
  · intro index thread found
    rcases getElem?_spawn found with old | ⟨-, rfl⟩
    · exact holds.thread index thread old
    · exact joins
  · intro first second left right differ foundLeft foundRight
    rcases getElem?_spawn foundLeft with oldLeft | ⟨atEnd, rfl⟩
    · rcases getElem?_spawn foundRight with oldRight | ⟨-, rfl⟩
      · exact holds.pair first second left right differ oldLeft oldRight
      · exact (apart left).2
    · exact (apart right).1

/-- What a thread reaches by its own steps. -/
inductive Alone : Shared → Thread → Shared → Thread → Prop where
  | done (shared : Shared) (thread : Thread) : Alone shared thread shared thread
  | next {shared shared' shared'' : Shared} {thread thread' thread'' : Thread}
      (taken : step shared thread = some (shared', thread'))
      (rest : Alone shared' thread' shared'' thread'') : Alone shared thread shared'' thread''

variable {step}

theorem Alone.trans {shared shared' shared'' : Shared} {thread thread' thread'' : Thread}
    (first : Alone step shared thread shared' thread')
    (second : Alone step shared' thread' shared'' thread'') :
    Alone step shared thread shared'' thread'' := by
  induction first with
  | done _ _ => exact second
  | next taken _ ih => exact .next taken (ih second)

end Interleaving
