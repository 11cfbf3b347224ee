import RabbitServer.Library.Runs

/-! `net/EventLoopThread.cpp`: the owner, which starts the loop and later destroys the
object, and the worker that runs `threadFunc`, one lock, test or write at a time. -/

namespace RabbitServer.Net
open Library.Runs

/-- Where the owner is. In `cond_.wait()` it has given the mutex back, and takes it again
whenever it wakes up, notified or not. -/
inductive OwnerAt where
  | startLoop | startLocking | startChecking | startWaiting | returning | running
  | stopLocking | stopChecking | stopping | wakingUp | stopWaiting | joining | joined
  deriving DecidableEq

/-- Where the worker is in `threadFunc`. -/
inductive WorkerAt where
  | notStarted | constructing | publishLocking | publishing | published | entering | looping
  | clearLocking | clearing | cleared | leaving | finished
  deriving DecidableEq

inductive Party where
  | owner | worker
  deriving DecidableEq

/-- `loop_` tells whether the pointer is set, `loop` is the worker's local loop while it is
in scope, seen as its `quit_`. -/
structure EventLoopThread where
  owner : OwnerAt := .startLoop
  worker : WorkerAt := .notStarted
  mutex : Option Party := none
  loop_ : Bool := false
  loop : Option Bool := none
  aborted : Bool := false

namespace EventLoopThread
variable (s : EventLoopThread)

/-- `startLoop`, then `~EventLoopThread` with `stopLoop` and `join`. -/
def ownerStep : EventLoopThread :=
  match s.owner with
  | .startLoop => { s with owner := .startLocking, worker := .constructing }
  | .startLocking | .startWaiting =>
    if s.mutex = none then { s with owner := .startChecking, mutex := some .owner } else s
  | .startChecking =>
    if s.loop_ then { s with owner := .returning, mutex := none }
    else { s with owner := .startWaiting, mutex := none }
  | .returning => { s with owner := .running }
  | .running => { s with owner := .stopLocking }
  | .stopLocking | .stopWaiting =>
    if s.mutex = none then { s with owner := .stopChecking, mutex := some .owner } else s
  | .stopChecking =>
    if s.loop_ then { s with owner := .stopping }
    else { s with owner := .joining, mutex := none }
  | .stopping => { s with owner := .wakingUp, loop := s.loop.map fun _ => true }
  | .wakingUp => { s with owner := .stopWaiting, mutex := none }
  | .joining => if s.worker = .finished then { s with owner := .joined } else s
  | .joined => s

/-- `loop()` asserts `quit_ == false` where it is entered, and tests `quit_` before every
turn. -/
def workerStep : EventLoopThread :=
  match s.worker with
  | .notStarted => s
  | .constructing => { s with worker := .publishLocking, loop := some false }
  | .publishLocking =>
    if s.mutex = none then { s with worker := .publishing, mutex := some .worker } else s
  | .publishing => { s with worker := .published, loop_ := true }
  | .published => { s with worker := .entering, mutex := none }
  | .entering =>
    if s.loop = some false then { s with worker := .looping } else { s with aborted := true }
  | .looping => if s.loop = some true then { s with worker := .clearLocking } else s
  | .clearLocking =>
    if s.mutex = none then { s with worker := .clearing, mutex := some .worker } else s
  | .clearing => { s with worker := .cleared, loop_ := false }
  | .cleared => { s with worker := .leaving, mutex := none }
  | .leaving => { s with worker := .finished, loop := none }
  | .finished => s

def step : Party → EventLoopThread
  | .owner => if s.aborted then s else s.ownerStep
  | .worker => if s.aborted then s else s.workerStep

end EventLoopThread

namespace OwnerAt

/-- The owner holds the mutex. -/
def locked : OwnerAt → Bool
  | .startChecking | .stopChecking | .stopping | .wakingUp => true
  | _ => false

/-- The owner has found the loop published, and does not look again. -/
def relies : OwnerAt → Bool
  | .returning | .running | .stopLocking | .stopping | .wakingUp => true
  | _ => false

/-- The owner may have called `stop()`. -/
def stops : OwnerAt → Bool
  | .stopChecking | .stopping | .wakingUp | .stopWaiting | .joining | .joined => true
  | _ => false

end OwnerAt

namespace WorkerAt

/-- The thread has not been started. -/
def idle : WorkerAt → Bool
  | .notStarted => true
  | _ => false

/-- The worker holds the mutex. -/
def locked : WorkerAt → Bool
  | .publishing | .published | .clearing | .cleared => true
  | _ => false

/-- `loop_` points to the loop. -/
def publishes : WorkerAt → Bool
  | .published | .entering | .looping | .clearLocking | .clearing => true
  | _ => false

/-- The loop is in scope. -/
def alive : WorkerAt → Bool
  | .notStarted | .constructing | .finished => false
  | _ => true

/-- The worker has passed the assertion of `loop()`. -/
def entered : WorkerAt → Bool
  | .looping | .clearLocking | .clearing | .cleared | .leaving | .finished => true
  | _ => false

/-- The worker has left `loop()`. -/
def left : WorkerAt → Bool
  | .clearLocking | .clearing | .cleared | .leaving | .finished => true
  | _ => false

end WorkerAt

namespace EventLoopThread

/-- What is asked of the two: `startLoop` returns a pointer to a loop that is alive, `stop()`
is called on such a loop only, and the assertion at the entry of `loop()` does not fail. -/
def Safe (s : EventLoopThread) : Party → Prop
  | .owner =>
    (s.owner = .returning → s.loop_ = true ∧ s.loop.isSome = true) ∧
      (s.owner = .stopping ∨ s.owner = .wakingUp → s.loop.isSome = true)
  | .worker => s.worker = .entering → s.loop = some false

/-- `stop()` is called only once the worker has entered `loop()`. -/
def StopsEntered (s : EventLoopThread) (party : Party) : Prop :=
  party = .owner → s.owner = .stopping → s.worker.entered = true

/-- The party that is to hold the mutex. -/
def holder (owner : OwnerAt) (worker : WorkerAt) : Option Party :=
  if owner.locked then some .owner else if worker.locked then some .worker else none

structure Handshake (s : EventLoopThread) : Prop where
  mutex : s.mutex = holder s.owner s.worker
  apart : s.owner.locked = true → s.worker.locked = false
  published : s.loop_ = s.worker.publishes
  alive : s.loop.isSome = s.worker.alive
  relies : s.owner.relies = true → s.loop_ = true
  unstopped : s.owner.stops = false → s.loop ≠ some true ∧ s.worker.left = false
  unentered : s.worker.entered = false → s.loop ≠ some true
  fresh : s.owner = .startLoop → s.worker.idle = true

variable {s : EventLoopThread}

theorem start_handshake : Handshake {} where
  mutex := rfl
  apart := by decide
  published := rfl
  alive := rfl
  relies := by decide
  unstopped := by decide
  unentered := by decide
  fresh := fun _ => rfl

theorem Handshake.free (handshake : Handshake s) (free : s.mutex = none) :
    s.owner.locked = false ∧ s.worker.locked = false := by
  have held := handshake.mutex
  rw [free, holder] at held
  cases owner : s.owner.locked with
  | true => simp [owner] at held
  | false =>
    cases worker : s.worker.locked with
    | true => simp [owner, worker] at held
    | false => exact ⟨rfl, rfl⟩

theorem imp_of_or {p q : Bool} {P : Prop} (either : p = q ∨ P) (other : p = !q) : P := by
  rcases either with same | holds
  · rw [other] at same
    cases q <;> cases same
  · exact holds

/-- The owner moves on and leaves the worker and the loop as they are. -/
theorem Handshake.owner (handshake : Handshake s) {owner : OwnerAt} {mutex : Option Party}
    (held : mutex = holder owner s.worker) (apart : owner.locked = false ∨ s.worker.locked = false)
    (relies : owner.relies = false ∨ s.loop_ = true)
    (stops : owner.stops = true ∨ s.owner.stops = false) (moved : owner ≠ .startLoop) :
    Handshake { s with owner, mutex } where
  mutex := held
  apart := imp_of_or apart
  published := handshake.published
  alive := handshake.alive
  relies := imp_of_or relies
  unstopped := fun none => handshake.unstopped (imp_of_or stops none)
  unentered := handshake.unentered
  fresh := fun start => absurd start moved

theorem Handshake.lock (handshake : Handshake s) (free : s.mutex = none) {owner : OwnerAt}
    (locked : owner.locked = true) (relies : owner.relies = false)
    (stops : owner.stops = true ∨ s.owner.stops = false) :
    Handshake { s with owner, mutex := some .owner } := by
  apply handshake.owner
  · rw [holder, if_pos locked]
  · exact Or.inr (handshake.free free).2
  · exact Or.inl relies
  · exact stops
  · intro same
    rw [same] at locked
    cases locked

theorem Handshake.unlock (handshake : Handshake s) (locked : s.owner.locked = true)
    {owner : OwnerAt} (free : owner.locked = false)
    (relies : owner.relies = false ∨ s.loop_ = true)
    (stops : owner.stops = true ∨ s.owner.stops = false) (moved : owner ≠ .startLoop) :
    Handshake { s with owner, mutex := none } := by
  apply handshake.owner
  · rw [holder, free, handshake.apart locked]
    rfl
  · exact Or.inl free
  · exact relies
  · exact stops
  · exact moved

/-- The owner moves on with the mutex as it was. -/
theorem Handshake.goesOn (handshake : Handshake s) {owner : OwnerAt}
    (same : owner.locked = s.owner.locked) (relies : owner.relies = false ∨ s.loop_ = true)
    (stops : owner.stops = true ∨ s.owner.stops = false) (moved : owner ≠ .startLoop) :
    Handshake { s with owner } := by
  apply handshake.owner
  · rw [handshake.mutex, holder, holder, same]
  · rw [same]
    cases locked : s.owner.locked with
    | true => exact Or.inr (handshake.apart locked)
    | false => exact Or.inl rfl
  · exact relies
  · exact stops
  · exact moved

theorem Handshake.ownerStep (handshake : Handshake s) (entered : StopsEntered s .owner) :
    Handshake s.ownerStep := by
  obtain ⟨owner, worker, mutex, loop_, loop, aborted⟩ := s
  cases owner <;> simp only [EventLoopThread.ownerStep]
  case startLoop =>
    have idle : worker = .notStarted := by
      have fresh : worker.idle = true := handshake.fresh rfl
      cases worker with
      | notStarted => rfl
      | _ => cases fresh
    subst idle
    exact {
      mutex := handshake.mutex
      apart := fun _ => rfl
      published := handshake.published
      alive := handshake.alive
      relies := by
        intro relies
        cases relies
      unstopped := fun _ => ⟨(handshake.unstopped rfl).1, rfl⟩
      unentered := fun _ => handshake.unentered rfl
      fresh := by
        intro start
        cases start }
  case startLocking =>
    split
    next free => exact handshake.lock free rfl rfl (Or.inr rfl)
    next => exact handshake
  case startChecking =>
    split
    next found => exact handshake.unlock rfl rfl (Or.inr found) (Or.inr rfl) (by decide)
    next => exact handshake.unlock rfl rfl (Or.inl rfl) (Or.inr rfl) (by decide)
  case startWaiting =>
    split
    next free => exact handshake.lock free rfl rfl (Or.inr rfl)
    next => exact handshake
  case returning =>
    exact handshake.goesOn rfl (Or.inr (handshake.relies rfl)) (Or.inr rfl) (by decide)
  case running =>
    exact handshake.goesOn rfl (Or.inr (handshake.relies rfl)) (Or.inr rfl) (by decide)
  case stopLocking =>
    split
    next free => exact handshake.lock free rfl rfl (Or.inl rfl)
    next => exact handshake
  case stopChecking =>
    split
    next found => exact handshake.goesOn rfl (Or.inr found) (Or.inl rfl) (by decide)
    next => exact handshake.unlock rfl rfl (Or.inl rfl) (Or.inl rfl) (by decide)
  case stopping =>
    have passed : worker.entered = true := entered rfl rfl
    have moved := handshake.goesOn (show OwnerAt.wakingUp.locked = _ from rfl)
      (Or.inr (handshake.relies rfl)) (Or.inl rfl) (by decide)
    exact { moved with
      alive := by rw [Option.isSome_map]; exact moved.alive
      unstopped := by
        intro none
        cases none
      unentered := fun none => absurd (passed.symm.trans none) Bool.noConfusion }
  case wakingUp => exact handshake.unlock rfl rfl (Or.inl rfl) (Or.inl rfl) (by decide)
  case stopWaiting =>
    split
    next free => exact handshake.lock free rfl rfl (Or.inl rfl)
    next => exact handshake
  case joining =>
    split
    next => exact handshake.goesOn rfl (Or.inl rfl) (Or.inl rfl) (by decide)
    next => exact handshake
  case joined => exact handshake

/-- Before the owner has called `stop()` the worker does not leave the loop, and while the
owner holds the mutex it does not clear the pointer. -/
theorem Handshake.clears (handshake : Handshake s) (worker : s.worker = .clearing) :
    s.owner.relies = false := by
  cases relies : s.owner.relies with
  | false => rfl
  | true =>
    cases stops : s.owner.stops with
    | false =>
      have stays := (handshake.unstopped stops).2
      rw [worker] at stays
      cases stays
    | true =>
      have locked : s.owner.locked = true := by
        revert relies stops
        cases s.owner <;> decide
      have free := handshake.apart locked
      rw [worker] at free
      cases free

theorem Handshake.unrelied (handshake : Handshake s) :
    s.owner.relies = false ∨ s.loop_ = true := by
  cases relies : s.owner.relies with
  | false => exact Or.inl rfl
  | true => exact Or.inr (handshake.relies relies)

/-- The worker moves on and leaves the owner as it is. -/
theorem Handshake.worker (handshake : Handshake s) {worker : WorkerAt} {mutex : Option Party}
    {loop_ : Bool} {loop : Option Bool} (held : mutex = holder s.owner worker)
    (apart : s.owner.locked = true → worker.locked = false) (published : loop_ = worker.publishes)
    (alive : loop.isSome = worker.alive) (relies : s.owner.relies = false ∨ loop_ = true)
    (value : loop = some true → s.loop = some true)
    (left : s.owner.stops = true ∨ worker.left = false)
    (entered : worker.entered = true ∨ s.worker.entered = false) (begun : s.worker.idle = false) :
    Handshake { s with worker, mutex, loop_, loop } where
  mutex := held
  apart := apart
  published := published
  alive := alive
  relies := imp_of_or relies
  unstopped := fun none =>
    ⟨fun quit => (handshake.unstopped none).1 (value quit), imp_of_or left none⟩
  unentered := fun none quit => handshake.unentered (imp_of_or entered none) (value quit)
  fresh := fun start => absurd (begun.symm.trans (handshake.fresh start)) Bool.noConfusion

/-- The same where only its place changes. -/
theorem Handshake.works (handshake : Handshake s) {worker : WorkerAt} {mutex : Option Party}
    (held : mutex = holder s.owner worker) (apart : s.owner.locked = true → worker.locked = false)
    (published : worker.publishes = s.worker.publishes) (alive : worker.alive = s.worker.alive)
    (left : s.owner.stops = true ∨ worker.left = false)
    (entered : worker.entered = true ∨ s.worker.entered = false) (begun : s.worker.idle = false) :
    Handshake { s with worker, mutex } := by
  apply handshake.worker held apart
  · rw [published, handshake.published]
  · rw [alive, handshake.alive]
  · exact handshake.unrelied
  · exact id
  · exact left
  · exact entered
  · exact begun

/-- A worker that has left the loop was stopped. -/
theorem Handshake.stopped (handshake : Handshake s) (left : s.worker.left = true) :
    s.owner.stops = true := by
  cases stops : s.owner.stops with
  | true => rfl
  | false => exact absurd (left.symm.trans (handshake.unstopped stops).2) Bool.noConfusion

theorem Handshake.owner_free (handshake : Handshake s) (locked : s.worker.locked = true) :
    s.owner.locked = false := by
  cases owner : s.owner.locked with
  | false => rfl
  | true => exact absurd (locked.symm.trans (handshake.apart owner)) Bool.noConfusion

theorem Handshake.workerLock (handshake : Handshake s) (free : s.mutex = none) {worker : WorkerAt}
    (locked : worker.locked = true) (published : worker.publishes = s.worker.publishes)
    (alive : worker.alive = s.worker.alive) (left : s.owner.stops = true ∨ worker.left = false)
    (entered : worker.entered = true ∨ s.worker.entered = false) (begun : s.worker.idle = false) :
    Handshake { s with worker, mutex := some .worker } := by
  have unlocked := (handshake.free free).1
  apply handshake.works
  · rw [holder, unlocked, locked]
    rfl
  · exact fun yes => absurd (unlocked.symm.trans yes) Bool.noConfusion
  · exact published
  · exact alive
  · exact left
  · exact entered
  · exact begun

theorem Handshake.workerUnlock (handshake : Handshake s) (locked : s.worker.locked = true)
    {worker : WorkerAt} (free : worker.locked = false)
    (published : worker.publishes = s.worker.publishes) (alive : worker.alive = s.worker.alive)
    (left : s.owner.stops = true ∨ worker.left = false)
    (entered : worker.entered = true ∨ s.worker.entered = false) (begun : s.worker.idle = false) :
    Handshake { s with worker, mutex := none } := by
  apply handshake.works
  · rw [holder, handshake.owner_free locked, free]
    rfl
  · exact fun _ => free
  · exact published
  · exact alive
  · exact left
  · exact entered
  · exact begun

theorem Handshake.workerGoesOn (handshake : Handshake s) {worker : WorkerAt}
    (same : worker.locked = s.worker.locked) (published : worker.publishes = s.worker.publishes)
    (alive : worker.alive = s.worker.alive) (left : s.owner.stops = true ∨ worker.left = false)
    (entered : worker.entered = true ∨ s.worker.entered = false) (begun : s.worker.idle = false) :
    Handshake { s with worker } := by
  apply handshake.works
  · rw [handshake.mutex, holder, holder, same]
  · exact fun locked => same.trans (handshake.apart locked)
  · exact published
  · exact alive
  · exact left
  · exact entered
  · exact begun

theorem Handshake.workerStep (handshake : Handshake s) : Handshake s.workerStep := by
  obtain ⟨owner, worker, mutex, loop_, loop, aborted⟩ := s
  cases worker <;> simp only [EventLoopThread.workerStep]
  case notStarted => exact handshake
  case constructing =>
    apply handshake.worker
    · exact handshake.mutex
    · exact fun _ => rfl
    · exact handshake.published
    · rfl
    · exact handshake.unrelied
    · intro quit
      cases quit
    · exact Or.inr rfl
    · exact Or.inr rfl
    · rfl
  case publishLocking =>
    split
    next free =>
      exact handshake.workerLock free rfl rfl rfl (Or.inr rfl) (Or.inr rfl) rfl
    next => exact handshake
  case publishing =>
    apply handshake.worker
    · exact handshake.mutex
    · exact fun owner => absurd (handshake.apart owner) Bool.noConfusion
    · rfl
    · exact handshake.alive
    · exact Or.inr rfl
    · exact id
    · exact Or.inr rfl
    · exact Or.inr rfl
    · rfl
  case published =>
    exact handshake.workerUnlock rfl rfl rfl rfl (Or.inr rfl) (Or.inr rfl) rfl
  case entering =>
    split
    next =>
      exact handshake.workerGoesOn rfl rfl rfl (Or.inr rfl) (Or.inl rfl) rfl
    next =>
      exact ⟨handshake.mutex, handshake.apart, handshake.published, handshake.alive,
        handshake.relies, handshake.unstopped, handshake.unentered, handshake.fresh⟩
  case looping =>
    split
    next quit =>
      refine handshake.workerGoesOn rfl rfl rfl (Or.inl ?_) (Or.inl rfl) rfl
      by_contra running
      exact (handshake.unstopped (by simpa using running)).1 quit
    next => exact handshake
  case clearLocking =>
    split
    next free =>
      exact handshake.workerLock free rfl rfl rfl (Or.inl (handshake.stopped rfl)) (Or.inl rfl)
        rfl
    next => exact handshake
  case clearing =>
    apply handshake.worker
    · exact handshake.mutex
    · exact fun owner => absurd (handshake.apart owner) Bool.noConfusion
    · rfl
    · exact handshake.alive
    · exact Or.inl (handshake.clears rfl)
    · exact id
    · exact Or.inl (handshake.stopped rfl)
    · exact Or.inl rfl
    · rfl
  case cleared =>
    exact handshake.workerUnlock rfl rfl rfl rfl (Or.inl (handshake.stopped rfl)) (Or.inl rfl)
      rfl
  case leaving =>
    apply handshake.worker
    · exact handshake.mutex
    · exact fun _ => rfl
    · exact handshake.published
    · rfl
    · exact handshake.unrelied
    · intro quit
      cases quit
    · exact Or.inl (handshake.stopped rfl)
    · exact Or.inl rfl
    · rfl
  case finished => exact handshake

theorem Handshake.loop_alive (handshake : Handshake s) (found : s.loop_ = true) :
    s.loop.isSome = true := by
  have publishes := handshake.published.symm.trans found
  rw [handshake.alive]
  revert publishes
  cases s.worker <;> decide

theorem Handshake.safe (handshake : Handshake s) (party : Party) : Safe s party := by
  cases party with
  | owner =>
    constructor
    · intro returning
      have found := handshake.relies (by rw [returning]; rfl)
      exact ⟨found, handshake.loop_alive found⟩
    · intro stopping
      apply handshake.loop_alive (handshake.relies _)
      rcases stopping with owner | owner <;> rw [owner] <;> rfl
  | worker =>
    intro entering
    have alive := handshake.alive
    have unquit := handshake.unentered (by rw [entering]; rfl)
    rw [entering] at alive
    cases loop : s.loop with
    | none =>
      rw [loop] at alive
      cases alive
    | some quit =>
      cases quit with
      | false => rfl
      | true => exact absurd loop unquit

/-- The worker is about to enter a loop that the owner has told to quit. -/
def Doomed (s : EventLoopThread) : Prop :=
  s.owner.stops = true ∧ s.worker = .entering ∧ s.loop = some true

/-- A `stop()` before the worker has entered `loop()` finds it right before the assertion. -/
theorem Handshake.dooms (handshake : Handshake s) (running : s.aborted = false) {party : Party}
    (early : ¬ StopsEntered s party) : Doomed (s.step party) := by
  simp only [StopsEntered, Classical.not_imp, Bool.not_eq_true] at early
  obtain ⟨rfl, stopping, outside⟩ := early
  have found := handshake.relies (by rw [stopping]; rfl)
  have unlocked := handshake.apart (by rw [stopping]; rfl)
  have publishes := handshake.published.symm.trans found
  have entering : s.worker = .entering := by
    revert outside unlocked publishes
    cases s.worker <;> decide
  have alive := handshake.loop_alive found
  obtain ⟨quit, loop⟩ := Option.isSome_iff_exists.mp alive
  simp only [Doomed, step, running, EventLoopThread.ownerStep, stopping, entering, loop]
  exact ⟨rfl, rfl, rfl⟩

/-- Whatever the owner does after `stop()`, the loop stays told to quit. -/
theorem Doomed.ownerStep (doomed : Doomed s) : Doomed s.ownerStep := by
  obtain ⟨owner, worker, mutex, loop_, loop, aborted⟩ := s
  have ⟨stops, entering, quit⟩ := doomed
  cases owner <;> simp only [EventLoopThread.ownerStep]
  case startLoop | startLocking | startChecking | startWaiting | returning | running
      | stopLocking => cases stops
  case stopChecking => split <;> exact ⟨rfl, entering, quit⟩
  case stopping => exact ⟨rfl, entering, congrArg (Option.map fun _ => true) quit⟩
  case stopWaiting | joining =>
    split
    · exact ⟨rfl, entering, quit⟩
    · exact doomed
  case wakingUp => exact ⟨rfl, entering, quit⟩
  case joined => exact doomed

theorem Doomed.step (doomed : Doomed s) {party : Party} (safe : Safe s party) :
    Doomed (s.step party) := by
  have ⟨_, entering, quit⟩ := doomed
  cases party with
  | worker => exact absurd (quit.symm.trans (safe entering)) (by decide)
  | owner =>
    simp only [EventLoopThread.step]
    split
    next => exact doomed
    next => exact doomed.ownerStep

/-- An entry that finds the loop running does not fail. -/
theorem Handshake.unaborted (handshake : Handshake s) (running : s.aborted = false) :
    s.workerStep.aborted = false := by
  unfold EventLoopThread.workerStep
  split
  case h_6 entering =>
    rw [if_pos (handshake.safe .worker entering)]
    exact running
  all_goals first
    | exact running
    | split <;> exact running

theorem ownerStep_aborted (s : EventLoopThread) : s.ownerStep.aborted = s.aborted := by
  unfold EventLoopThread.ownerStep
  split
  all_goals first
    | rfl
    | split <;> rfl

theorem Handshake.step (handshake : Handshake s) (running : s.aborted = false) {party : Party}
    (entered : StopsEntered s party) :
    Handshake (s.step party) ∧ (s.step party).aborted = false := by
  cases party with
  | owner =>
    have moved : s.step .owner = s.ownerStep := by simp [EventLoopThread.step, running]
    rw [moved, ownerStep_aborted]
    exact ⟨handshake.ownerStep entered, running⟩
  | worker =>
    have moved : s.step .worker = s.workerStep := by simp [EventLoopThread.step, running]
    rw [moved]
    exact ⟨handshake.workerStep, handshake.unaborted running⟩

/-- The handshake is safe in a run and in whatever comes next exactly when `stop()` is called
only once the worker has entered `loop()`. -/
theorem safe_iff_stopsEntered (parties : List Party) :
    (∀ next, Along step Safe {} (parties ++ [next])) ↔ Along step StopsEntered {} parties := by
  apply along_next_iff_of_doomed (fun s => Handshake s ∧ s.aborted = false) Doomed
  · exact ⟨start_handshake, rfl⟩
  · exact fun s party good entered => good.1.step good.2 entered
  · exact fun s party good => good.1.safe party
  · exact fun s party good early => good.1.dooms good.2 early
  · exact fun s party doomed safe => doomed.step safe
  · intro s doomed
    refine ⟨.worker, fun safe => ?_⟩
    exact absurd (doomed.2.2.symm.trans (safe doomed.2.1)) (by decide)

/-- The object is destroyed right after `startLoop`, while the worker is still on its way into
`loop()`. -/
theorem safe_fails : ¬ ∀ parties, Along step Safe {} parties := by
  intro always
  have along := always [.owner, .worker, .worker, .worker, .worker, .owner, .owner, .owner,
    .owner, .owner, .owner, .owner, .worker]
  have entry : some true = some false := along.2.2.2.2.2.2.2.2.2.2.2.2.1 rfl
  cases entry

end EventLoopThread

end RabbitServer.Net
