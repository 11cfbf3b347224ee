import RabbitServer.Library.CriticalSection

/-! `base/Mutex.h` and `base/Condtion.h`: any number of threads in the blocks of a
`MutexLockGuard`, with `Condition::wait` inside them. -/

namespace RabbitServer.Base
open Library.Runs Library.CriticalSection

/-- `mutex_` by the thread that has locked it, and `holder_`, which is 0 for none. -/
structure MutexLock (Thread : Type*) where
  mutex_ : Option Thread := none
  holder_ : Option Thread := none

namespace MutexLock
variable {Thread : Type*}

def assignHolder (m : MutexLock Thread) (gettid : Thread) : MutexLock Thread :=
  { m with holder_ := some gettid }

def unassignHolder (m : MutexLock Thread) : MutexLock Thread := { m with holder_ := none }

end MutexLock

/-- Where a thread is in a guarded block; `rest` are the statements it has still to run. -/
inductive GuardedAt (Statement : Type*) where
  | outside
  /-- in `pthread_mutex_lock`, or asleep or woken in `pthread_cond_wait` -/
  | locking (rest : List Statement)
  /-- has the mutex; `assignHolder` is next -/
  | locked (rest : List Statement)
  | inside (rest : List Statement)
  /-- behind `unassignHolder`, of `unlock` or of an `UnassignGuard` -/
  | unlocking (rest : List Statement)

namespace GuardedAt
variable {Statement : Type*}

/-- The thread has locked `mutex_`. -/
def owns : GuardedAt Statement → Bool
  | .outside | .locking _ => false
  | .locked _ | .inside _ | .unlocking _ => true

def isInside : GuardedAt Statement → Bool
  | .inside _ => true
  | _ => false

/-- What is left of the section. -/
def todo : GuardedAt Statement → Option (List Statement)
  | .outside => none
  | .locking rest | .locked rest | .inside rest | .unlocking rest => some rest

end GuardedAt

structure Guarded (Thread Statement World : Type*) where
  lock : MutexLock Thread := {}
  at_ : Thread → GuardedAt Statement := fun _ => .outside
  world : World

/-- What one thread does next. -/
inductive GuardedStep (Thread Statement Event : Type*) where
  | enter (thread : Thread) (section_ : List Statement)
  | lock (thread : Thread)
  | assignHolder (thread : Thread)
  | statement (thread : Thread)
  | unlock (thread : Thread)
  | outer (thread : Thread) (event : Event)

namespace Guarded
variable {Thread Statement Event World : Type*}

section
variable [DecidableEq Thread]

def setAt (s : Guarded Thread Statement World) (thread : Thread) (at_ : GuardedAt Statement) :
    Guarded Thread Statement World :=
  { s with at_ := Function.update s.at_ thread at_ }

/-- A step that is not next, or that blocks, leaves the state as it is. A statement that waits is
`while (..) cond_.wait();`: `pthread_cond_wait` unlocks, may come back at any time, locks again,
and the condition is looked at again. -/
def step (P : Program Thread Statement Event World) (s : Guarded Thread Statement World) :
    GuardedStep Thread Statement Event → Guarded Thread Statement World
  | .enter thread section_ =>
    match s.at_ thread with
    | .outside =>
      if P.enters s.world thread section_ then s.setAt thread (.locking section_) else s
    | _ => s
  | .lock thread =>
    match s.at_ thread with
    | .locking rest =>
      if s.lock.mutex_.isNone then
        { s.setAt thread (.locked rest) with lock := { s.lock with mutex_ := some thread } }
      else s
    | _ => s
  | .assignHolder thread =>
    match s.at_ thread with
    | .locked rest =>
      { s.setAt thread (.inside rest) with lock := s.lock.assignHolder thread }
    | _ => s
  | .statement thread =>
    match s.at_ thread with
    | .inside [] => { s.setAt thread (.unlocking []) with lock := s.lock.unassignHolder }
    | .inside (statement :: rest) =>
      if P.waits s.world thread statement then
        { s.setAt thread (.unlocking (statement :: rest)) with lock := s.lock.unassignHolder }
      else { s.setAt thread (.inside rest) with world := P.exec s.world thread statement }
    | _ => s
  | .unlock thread =>
    match s.at_ thread with
    | .unlocking [] => { s.setAt thread .outside with lock := { s.lock with mutex_ := none } }
    | .unlocking (statement :: rest) =>
      { s.setAt thread (.locking (statement :: rest)) with
        lock := { s.lock with mutex_ := none } }
    | _ => s
  | .outer thread event =>
    match s.at_ thread with
    | .outside => { s with world := P.outer s.world thread event }
    | _ => s

end

/-- `mutex_` and `holder_` say where the threads are. -/
structure Exact (lock : MutexLock Thread) (at_ : Thread → GuardedAt Statement) : Prop where
  mutex_ : ∀ thread, lock.mutex_ = some thread ↔ (at_ thread).owns = true
  holder_ : ∀ thread, lock.holder_ = some thread ↔ (at_ thread).isInside = true

/-- A thread, seen as one whose sections happen at once: when it has the mutex, it has done a part
of its section since, and nothing else has happened there. -/
def Matches (P : Program Thread Statement Event World) (thread : Thread) (world seen : World) :
    GuardedAt Statement → Option (List Statement) → Prop
  | .outside, todo => todo = none
  | .locking rest, todo => todo = some rest
  | .locked rest, todo => todo = some rest ∧ world = seen
  | .inside rest, todo => ∃ done, todo = some (done ++ rest) ∧
      P.between thread seen done = (world, [])
  | .unlocking rest, todo => ∃ done, todo = some (done ++ rest) ∧
      P.between thread seen done = (world, []) ∧ P.between thread world rest = (world, rest)

structure Shows (P : Program Thread Statement Event World) (s : Guarded Thread Statement World)
    (a : Atomic Thread Statement World) : Prop where
  exact : Exact s.lock s.at_
  at_ : ∀ thread, Matches P thread s.world a.world (s.at_ thread) (a.todo thread)
  free : s.lock.mutex_ = none → s.world = a.world

section
variable {P : Program Thread Statement Event World} {thread other : Thread}
  {lock : MutexLock Thread} {at_ : Thread → GuardedAt Statement} {place : GuardedAt Statement}
  {world seen : World} {todo : Option (List Statement)}

/-- A thread without the mutex does not look at the world. -/
theorem Matches.apart (unowned : place.owns = false) (fits : Matches P thread world seen place todo)
    (next now : World) : Matches P thread next now place todo := by
  cases place with
  | outside => exact fits
  | locking rest => exact fits
  | locked rest => cases unowned
  | inside rest => cases unowned
  | unlocking rest => cases unowned

/-- The part of its section that a thread with the mutex has done. -/
theorem Matches.done (owned : place.owns = true) (fits : Matches P thread world seen place todo) :
    ∃ done rest, place.todo = some rest ∧ todo = some (done ++ rest) ∧
      P.between thread seen done = (world, []) := by
  cases place with
  | outside => cases owned
  | locking rest => cases owned
  | locked rest => exact ⟨[], rest, rfl, fits.1, by rw [fits.2]; rfl⟩
  | inside rest =>
    obtain ⟨done, left, ended⟩ := fits
    exact ⟨done, rest, rfl, left, ended⟩
  | unlocking rest =>
    obtain ⟨done, left, ended, -⟩ := fits
    exact ⟨done, rest, rfl, left, ended⟩

/-- What a thread does outside of its section may come before the section of another. -/
theorem Matches.outer (independent : P.Independent) (apart : thread ≠ other)
    (fits : Matches P thread world seen place todo) (event : Event) :
    Matches P thread (P.outer world other event) (P.outer seen other event) place todo := by
  cases place with
  | outside => exact fits
  | locking rest => exact fits
  | locked rest =>
    obtain ⟨left, same⟩ := fits
    exact ⟨left, by rw [same]⟩
  | inside rest =>
    obtain ⟨done, left, ended⟩ := fits
    exact ⟨done, left, by rw [independent.between apart, ended]⟩
  | unlocking rest =>
    obtain ⟨done, left, ended, stops⟩ := fits
    refine ⟨done, left, ?_, ?_⟩
    · rw [independent.between apart, ended]
    · rw [independent.between apart, stops]

/-- The sections that other threads may come to are the same on both sides. -/
theorem Matches.enters (independent : P.Independent) (apart : thread ≠ other)
    (owned : place.owns = true) (fits : Matches P thread world seen place todo)
    (section_ : List Statement) :
    P.enters world other section_ = P.enters seen other section_ := by
  obtain ⟨done, rest, -, -, ended⟩ := fits.done owned
  rw [← independent.enters_between apart seen done, ended]

theorem Exact.isInside_owns (exact : Exact lock at_) (inside : lock.holder_ = some thread) :
    lock.mutex_ = some thread := by
  rw [exact.mutex_]
  have isInside := (exact.holder_ thread).mp inside
  revert isInside
  cases at_ thread <;> simp [GuardedAt.isInside, GuardedAt.owns]

/-- Nobody but the thread that has the mutex has it, or is inside. -/
theorem Exact.others (exact : Exact lock at_) (owned : lock.mutex_ = some thread)
    (apart : other ≠ thread) : (at_ other).owns = false ∧ (at_ other).isInside = false := by
  have unowned : lock.mutex_ ≠ some other := by
    rw [owned]
    exact fun same => apart (Option.some.inj same).symm
  constructor
  · rw [← Bool.not_eq_true, ← exact.mutex_]
    exact unowned
  · rw [← Bool.not_eq_true, ← exact.holder_]
    exact fun inside => unowned (exact.isInside_owns inside)

/-- Only a thread outside has nothing left to do. -/
theorem Matches.none_iff (fits : Matches P thread world seen place todo) :
    todo.isNone = true ↔ place = .outside := by
  cases place with
  | outside =>
    rw [show todo = none from fits]
    exact iff_of_true rfl rfl
  | locking rest =>
    rw [show todo = some rest from fits]
    simp
  | locked rest =>
    rw [fits.1]
    simp
  | inside rest =>
    obtain ⟨done, left, -⟩ := fits
    rw [left]
    simp
  | unlocking rest =>
    obtain ⟨done, left, -⟩ := fits
    rw [left]
    simp

variable [DecidableEq Thread]

/-- One thread moves; the others are where they were. -/
theorem matches_update {left : Thread → Option (List Statement)}
    (own : Matches P thread world seen place todo)
    (others : ∀ other, other ≠ thread → Matches P other world seen (at_ other) (left other))
    (other : Thread) :
    Matches P other world seen (Function.update at_ thread place other)
      (Function.update left thread todo other) := by
  by_cases same : other = thread
  · subst same
    rwa [Function.update_self, Function.update_self]
  · rw [Function.update_of_ne same, Function.update_of_ne same]
    exact others other same

theorem exact_update (mutex_ : lock.mutex_ = some thread ↔ place.owns = true)
    (holder_ : lock.holder_ = some thread ↔ place.isInside = true)
    (others : ∀ other, other ≠ thread → (lock.mutex_ = some other ↔ (at_ other).owns = true) ∧
      (lock.holder_ = some other ↔ (at_ other).isInside = true)) :
    Exact lock (Function.update at_ thread place) := by
  constructor
  · intro other
    by_cases same : other = thread
    · subst same
      rwa [Function.update_self]
    · rw [Function.update_of_ne same]
      exact (others other same).1
  · intro other
    by_cases same : other = thread
    · subst same
      rwa [Function.update_self]
    · rw [Function.update_of_ne same]
      exact (others other same).2

end

section
variable [DecidableEq Thread]

/-- What a step stands for when the sections happen at once: they happen at `unlock`. -/
def sections (s : Guarded Thread Statement World) :
    GuardedStep Thread Statement Event → List (AtomicStep Thread Statement Event)
  | .enter thread section_ => [.enter thread section_]
  | .unlock thread =>
    match s.at_ thread with
    | .unlocking _ => [.pass thread]
    | _ => []
  | .outer thread event => [.outer thread event]
  | _ => []

variable {P : Program Thread Statement Event World} {s : Guarded Thread Statement World}
  {a : Atomic Thread Statement World} (shows : Shows P s a)
include shows

omit [DecidableEq Thread] in
/-- The worlds differ at most by what the thread with the mutex has done. -/
theorem Shows.enters (independent : P.Independent) {thread : Thread}
    (outside : s.at_ thread = .outside) (section_ : List Statement) :
    P.enters s.world thread section_ = P.enters a.world thread section_ := by
  cases owner : s.lock.mutex_ with
  | none => rw [shows.free owner]
  | some other =>
    have owned := (shows.exact.mutex_ other).mp owner
    have apart : other ≠ thread := by
      rintro rfl
      rw [outside] at owned
      cases owned
    exact (shows.at_ other).enters independent apart owned section_

theorem Shows.enter (independent : P.Independent) (thread : Thread) (section_ : List Statement) :
    Shows P (s.step P (.enter thread section_)) (a.step P (.enter thread section_)) := by
  have none_iff := (shows.at_ thread).none_iff
  simp only [step, Atomic.step]
  split
  next outside =>
    rw [shows.enters independent outside]
    by_cases allowed : P.enters a.world thread section_ = true
    · rw [if_pos allowed, if_pos ⟨none_iff.mpr outside, allowed⟩]
      refine ⟨exact_update ?_ ?_ fun other _ => ⟨shows.exact.mutex_ other, shows.exact.holder_ other⟩,
        matches_update rfl fun other _ => shows.at_ other, shows.free⟩
      · rw [setAt, shows.exact.mutex_, outside]
        rfl
      · rw [setAt, shows.exact.holder_, outside]
        rfl
    · rwa [if_neg allowed, if_neg (fun both => allowed both.2)]
  next elsewhere =>
    rwa [if_neg (fun both => elsewhere (none_iff.mp both.1))]

theorem Shows.lock (thread : Thread) : Shows P (s.step P (.lock thread)) a := by
  have fits := shows.at_ thread
  simp only [step]
  split
  next rest locking =>
    rw [locking] at fits
    split
    next free =>
      have unowned := Option.isNone_iff_eq_none.mp free
      have nobody : ∀ other, (s.at_ other).owns = false := by
        intro other
        rw [← Bool.not_eq_true, ← shows.exact.mutex_, unowned]
        exact nofun
      refine ⟨exact_update (iff_of_true rfl rfl) ?_ ?_, ?_, nofun⟩
      · rw [setAt, shows.exact.holder_, locking]
        rfl
      · intro other apart
        refine ⟨iff_of_false ?_ ?_, shows.exact.holder_ other⟩
        · exact fun same => apart (Option.some.inj same).symm
        · rw [nobody other]
          exact Bool.false_ne_true
      · rw [← Function.update_eq_self thread a.todo]
        exact matches_update ⟨fits, shows.free unowned⟩ fun other _ => shows.at_ other
    next => exact shows
  next => exact shows

theorem Shows.assignHolder (thread : Thread) : Shows P (s.step P (.assignHolder thread)) a := by
  have fits := shows.at_ thread
  simp only [step]
  split
  next rest locked =>
    rw [locked] at fits
    have owned : s.lock.mutex_ = some thread := (shows.exact.mutex_ thread).mpr (by rw [locked]; rfl)
    refine ⟨exact_update (iff_of_true owned rfl) (iff_of_true rfl rfl) ?_, ?_, shows.free⟩
    · intro other apart
      refine ⟨shows.exact.mutex_ other, iff_of_false ?_ ?_⟩
      · exact fun same => apart (Option.some.inj same).symm
      · rw [(shows.exact.others owned apart).2]
        exact Bool.false_ne_true
    · rw [← Function.update_eq_self thread a.todo]
      exact matches_update ⟨[], fits.1, fits.2 ▸ rfl⟩ fun other _ => shows.at_ other
  next => exact shows

/-- `holder_` is taken back by the thread that is inside. -/
theorem Shows.unassignHolder {thread : Thread} {rest : List Statement}
    (inside : s.at_ thread = .inside rest)
    (stops : P.between thread s.world rest = (s.world, rest)) :
    Shows P { s.setAt thread (.unlocking rest) with lock := s.lock.unassignHolder } a := by
  have owned := shows.exact.isInside_owns
    ((shows.exact.holder_ thread).mpr (by rw [inside]; rfl))
  have fits := shows.at_ thread
  rw [inside] at fits
  obtain ⟨done, left, ended⟩ := fits
  refine ⟨exact_update (iff_of_true owned rfl) (iff_of_false nofun nofun) ?_, ?_, shows.free⟩
  · intro other apart
    refine ⟨shows.exact.mutex_ other, iff_of_false nofun ?_⟩
    rw [(shows.exact.others owned apart).2]
    exact Bool.false_ne_true
  · rw [← Function.update_eq_self thread a.todo]
    exact matches_update ⟨done, left, ended, stops⟩ fun other _ => shows.at_ other

theorem Shows.statement (thread : Thread) : Shows P (s.step P (.statement thread)) a := by
  simp only [step]
  split
  next inside => exact shows.unassignHolder inside rfl
  next statement rest inside =>
    split
    next waits => exact shows.unassignHolder inside (Program.between_waits waits rest)
    next goes =>
      have fits := shows.at_ thread
      rw [inside] at fits
      obtain ⟨done, left, ended⟩ := fits
      have further : P.between thread a.world (done ++ [statement]) =
          (P.exec s.world thread statement, []) := by
        rw [Program.between_append ended, Program.between_exec (Bool.not_eq_true _ ▸ goes)]
        rfl
      have holds : s.lock.holder_ = some thread :=
        (shows.exact.holder_ thread).mpr (by rw [inside]; rfl)
      have owned := shows.exact.isInside_owns holds
      refine ⟨exact_update (iff_of_true owned rfl) (iff_of_true holds rfl) ?_, ?_, ?_⟩
      · exact fun other _ => ⟨shows.exact.mutex_ other, shows.exact.holder_ other⟩
      · -- the others are without the mutex
        rw [← Function.update_eq_self thread a.todo]
        refine matches_update ⟨done ++ [statement], ?_, further⟩ fun other apart =>
          (shows.at_ other).apart (shows.exact.others owned apart).1 _ _
        rw [left, List.append_assoc]
        rfl
      · intro free
        rw [setAt, owned] at free
        cases free
  next => exact shows

/-- The section of a thread that unlocks has happened, and its world is the world. -/
theorem Shows.unlock_at {thread : Thread} {rest : List Statement} {place : GuardedAt Statement}
    (unlocking : s.at_ thread = .unlocking rest) (unowned : place.owns = false)
    (own : Matches P thread s.world s.world place (leftOver rest)) :
    Shows P { s.setAt thread place with lock := { s.lock with mutex_ := none } }
      (a.step P (.pass thread)) := by
  have fits := shows.at_ thread
  rw [unlocking] at fits
  obtain ⟨done, left, ended, stops⟩ := fits
  have ends := (Program.between_append ended rest).trans stops
  have owned : s.lock.mutex_ = some thread :=
    (shows.exact.mutex_ thread).mpr (by rw [unlocking]; rfl)
  have out : s.lock.holder_ ≠ some thread := by
    rw [ne_eq, shows.exact.holder_, unlocking]
    exact Bool.false_ne_true
  have left_out : place.isInside = false := by
    revert unowned
    cases place <;> simp [GuardedAt.owns, GuardedAt.isInside]
  have nobody : ∀ other : Thread, none ≠ some other := fun other => (Option.some_ne_none other).symm
  simp only [Atomic.step, left, ends]
  refine ⟨exact_update ?_ ?_ ?_, ?_, fun _ => rfl⟩
  · rw [unowned]
    exact iff_of_false (nobody thread) Bool.false_ne_true
  · rw [left_out]
    exact iff_of_false out Bool.false_ne_true
  · intro other apart
    rw [(shows.exact.others owned apart).1]
    exact ⟨iff_of_false (nobody other) Bool.false_ne_true, shows.exact.holder_ other⟩
  · exact matches_update own fun other apart =>
      (shows.at_ other).apart (shows.exact.others owned apart).1 _ _

theorem Shows.unlock (thread : Thread) :
    Shows P (s.step P (.unlock thread))
      (run (Atomic.step P) a (s.sections (.unlock thread : GuardedStep Thread Statement Event))) := by
  simp only [step, sections]
  cases place : s.at_ thread with
  | unlocking rest =>
    cases rest with
    | nil => exact shows.unlock_at place rfl rfl
    | cons statement rest => exact shows.unlock_at place rfl rfl
  | _ => exact shows

theorem Shows.outer (independent : P.Independent) (thread : Thread) (event : Event) :
    Shows P (s.step P (.outer thread event)) (a.step P (.outer thread event)) := by
  have fits := shows.at_ thread
  have none_iff := fits.none_iff
  simp only [step, Atomic.step]
  split
  next outside =>
    rw [if_pos (none_iff.mpr outside)]
    rw [outside] at fits
    refine ⟨shows.exact, ?_, fun free => by rw [shows.free free]⟩
    intro other
    by_cases same : other = thread
    · subst same
      rw [outside]
      exact fits
    · exact (shows.at_ other).outer independent same event
  next elsewhere => rwa [if_neg (fun none => elsewhere (none_iff.mp none))]

theorem Shows.step (independent : P.Independent) (event : GuardedStep Thread Statement Event) :
    Shows P (s.step P event) (run (Atomic.step P) a (s.sections event)) := by
  cases event with
  | enter thread section_ => exact shows.enter independent thread section_
  | lock thread => exact shows.lock thread
  | assignHolder thread => exact shows.assignHolder thread
  | statement thread => exact shows.statement thread
  | unlock thread => exact shows.unlock thread
  | outer thread event => exact shows.outer independent thread event

end

theorem start_shows (P : Program Thread Statement Event World) (world : World) :
    Shows P { world } { world } where
  exact := ⟨fun _ => iff_of_false nofun nofun, fun _ => iff_of_false nofun nofun⟩
  at_ := fun _ => rfl
  free := fun _ => rfl

variable [DecidableEq Thread]

/-- The run in which the sections happen at once, in the order of the unlocks. -/
def atOnce (P : Program Thread Statement Event World) (world : World)
    (events : List (GuardedStep Thread Statement Event)) : Atomic Thread Statement World :=
  run (Atomic.step P) { world } (translated (step P) sections { world } events)

theorem run_shows {P : Program Thread Statement Event World} (independent : P.Independent)
    (world : World) (events : List (GuardedStep Thread Statement Event)) :
    Shows P (run (step P) { world } events) (atOnce P world events) :=
  run_translated (Shows P) _ _ events (start_shows P world)
    fun _ _ event shows => shows.step independent event

end Guarded

/-- `EventLoopThread`: `startLoop` waits for the `loop_` that `threadFunc` sets. -/
inductive Handshake where
  | waitForLoop | setLoop

def handshake : Program Bool Handshake Unit Bool where
  exec
    | _, _, .setLoop => true
    | loop_, _, .waitForLoop => loop_
  waits
    | _, _, .setLoop => false
    | loop_, _, .waitForLoop => !loop_
  outer loop_ _ _ := loop_
  enters _ _ _ := true

end RabbitServer.Base
