import Mathlib.Logic.Function.Basic
import RabbitServer.Library.Simulation

/-! Sections that one lock guards, run as a whole: what threads that take the lock statement by
statement are compared with. A section ends early at a statement that has to wait, and goes on
from there later. -/

namespace Library.CriticalSection
open Library.Runs

/-- What the statements of the sections do, which of them have to wait, which sections a thread
may come to, and what threads do outside of them. -/
structure Program (Thread Statement Event World : Type*) where
  exec : World → Thread → Statement → World
  waits : World → Thread → Statement → Bool
  outer : World → Thread → Event → World
  enters : World → Thread → List Statement → Bool

variable {Thread Statement Event World : Type*}

namespace Program

/-- A section up to its end or to the statement that waits, and what is left of it. -/
def between (P : Program Thread Statement Event World) (thread : Thread) :
    World → List Statement → World × List Statement
  | world, [] => (world, [])
  | world, statement :: rest =>
    if P.waits world thread statement then (world, statement :: rest)
    else P.between thread (P.exec world thread statement) rest

/-- The statements of a section and the steps that the other threads make outside of theirs do
not touch the same places, and no thread decides what section another one comes to. -/
structure Independent (P : Program Thread Statement Event World) : Prop where
  exec : ∀ {thread other : Thread}, thread ≠ other → ∀ world statement event,
    P.exec (P.outer world other event) thread statement =
      P.outer (P.exec world thread statement) other event
  waits : ∀ {thread other : Thread}, thread ≠ other → ∀ world statement event,
    P.waits (P.outer world other event) thread statement = P.waits world thread statement
  enters : ∀ {thread other : Thread}, thread ≠ other → ∀ world statement section_,
    P.enters (P.exec world thread statement) other section_ = P.enters world other section_
  enters_outer : ∀ {thread other : Thread}, thread ≠ other → ∀ world event section_,
    P.enters (P.outer world thread event) other section_ = P.enters world other section_

variable {P : Program Thread Statement Event World} {thread other : Thread}

@[simp] theorem between_nil (world : World) : P.between thread world [] = (world, []) := rfl

theorem between_waits {world : World} {statement : Statement}
    (waits : P.waits world thread statement = true) (rest : List Statement) :
    P.between thread world (statement :: rest) = (world, statement :: rest) := by
  rw [between, if_pos waits]

theorem between_exec {world : World} {statement : Statement}
    (goes : P.waits world thread statement = false) (rest : List Statement) :
    P.between thread world (statement :: rest) =
      P.between thread (P.exec world thread statement) rest := by
  rw [between, if_neg (by rw [goes]; exact Bool.false_ne_true)]

/-- What follows a part that came to its end goes on from there. -/
theorem between_append {seen world : World} {done : List Statement}
    (ended : P.between thread seen done = (world, [])) (rest : List Statement) :
    P.between thread seen (done ++ rest) = P.between thread world rest := by
  induction done generalizing seen with
  | nil =>
    obtain ⟨same, -⟩ := Prod.mk.inj ended
    rw [List.nil_append, same]
  | cons statement done ih =>
    cases waits : P.waits seen thread statement with
    | true =>
      rw [between_waits waits] at ended
      cases (Prod.mk.inj ended).2
    | false =>
      rw [between_exec waits] at ended
      rw [List.cons_append, between_exec waits, ih ended]

theorem between_never (never : ∀ world statement, P.waits world thread statement = false)
    (world : World) (section_ : List Statement) :
    P.between thread world section_ =
      (section_.foldl (fun world => P.exec world thread) world, []) := by
  induction section_ generalizing world with
  | nil => rfl
  | cons statement rest ih => rw [between_exec (never world statement), ih, List.foldl_cons]

/-- A step of another thread may as well come before a section as behind it. -/
theorem Independent.between (independent : P.Independent) (apart : thread ≠ other) (world : World)
    (section_ : List Statement) (event : Event) :
    P.between thread (P.outer world other event) section_ =
      (P.outer (P.between thread world section_).1 other event,
        (P.between thread world section_).2) := by
  induction section_ generalizing world with
  | nil => rfl
  | cons statement rest ih =>
    have same := independent.waits apart world statement event
    cases waits : P.waits world thread statement with
    | true => rw [between_waits (same.trans waits), between_waits waits]
    | false =>
      rw [between_exec (same.trans waits), between_exec waits, independent.exec apart, ih]

/-- A section leaves the other threads where they are. -/
theorem Independent.enters_between (independent : P.Independent) (apart : thread ≠ other)
    (world : World) (section_ own : List Statement) :
    P.enters (P.between thread world section_).1 other own = P.enters world other own := by
  induction section_ generalizing world with
  | nil => rfl
  | cons statement rest ih =>
    cases waits : P.waits world thread statement with
    | true => rw [between_waits waits]
    | false => rw [between_exec waits, ih, independent.enters apart]

end Program

/-- Threads whose sections happen at once; `todo` is what is left of the section of a thread. -/
structure Atomic (Thread Statement World : Type*) where
  world : World
  todo : Thread → Option (List Statement) := fun _ => none

inductive AtomicStep (Thread Statement Event : Type*) where
  | enter (thread : Thread) (section_ : List Statement)
  | pass (thread : Thread)
  | outer (thread : Thread) (event : Event)

/-- What a thread is left with: nothing is outside of the section. -/
def leftOver : List Statement → Option (List Statement)
  | [] => none
  | statement :: rest => some (statement :: rest)

variable [DecidableEq Thread]

def Atomic.step (P : Program Thread Statement Event World) (a : Atomic Thread Statement World) :
    AtomicStep Thread Statement Event → Atomic Thread Statement World
  | .enter thread section_ =>
    if (a.todo thread).isNone ∧ P.enters a.world thread section_ then
      { a with todo := Function.update a.todo thread (some section_) }
    else a
  | .pass thread =>
    match a.todo thread with
    | none => a
    | some section_ => {
        world := (P.between thread a.world section_).1
        todo := Function.update a.todo thread
          (leftOver (P.between thread a.world section_).2) }
  | .outer thread event =>
    if (a.todo thread).isNone then { a with world := P.outer a.world thread event } else a

namespace Atomic
variable {P : Program Thread Statement Event World} {a : Atomic Thread Statement World}

/-- Each thread in a section may still come to it. -/
def Entered (P : Program Thread Statement Event World) (a : Atomic Thread Statement World) : Prop :=
  ∀ thread section_, a.todo thread = some section_ → P.enters a.world thread section_ = true

/-- A section without a wait is left when it is passed. -/
theorem step_pass {thread : Thread} {section_ : List Statement}
    (never : ∀ world statement, P.waits world thread statement = false)
    (todo : a.todo thread = some section_) :
    a.step P (.pass thread) = {
      world := section_.foldl (fun world => P.exec world thread) a.world
      todo := Function.update a.todo thread none } := by
  rw [step, todo]
  simp only [Program.between_never never, leftOver]

theorem Entered.step (independent : P.Independent)
    (never : ∀ thread world statement, P.waits world thread statement = false)
    (entered : a.Entered P) (event : AtomicStep Thread Statement Event) :
    (a.step P event).Entered P := by
  cases event with
  | enter thread section_ =>
    simp only [Atomic.step]
    split
    next may =>
      intro other own todo
      by_cases same : other = thread
      · subst same
        simp only [Function.update_self, Option.some.injEq] at todo
        rw [← todo]
        exact may.2
      · simp only [Function.update_of_ne same] at todo
        exact entered other own todo
    next => exact entered
  | pass thread =>
    cases todo : a.todo thread with
    | none =>
      simp only [Atomic.step, todo]
      exact entered
    | some section_ =>
      have kept : ∀ other, thread ≠ other → ∀ own,
          P.enters (section_.foldl (fun world => P.exec world thread) a.world) other own =
            P.enters a.world other own := by
        intro other apart own
        have same := independent.enters_between apart a.world section_ own
        rwa [Program.between_never (never thread)] at same
      intro other own left
      rw [step_pass (never thread) todo] at left ⊢
      by_cases same : other = thread
      · subst same
        simp only [Function.update_self, reduceCtorEq] at left
      · simp only [Function.update_of_ne same] at left
        rw [kept other (Ne.symm same)]
        exact entered other own left
  | outer thread event =>
    simp only [Atomic.step]
    split
    next none =>
      intro other own todo
      have apart : thread ≠ other := by
        rintro rfl
        rw [todo] at none
        cases none
      rw [independent.enters_outer apart]
      exact entered other own todo
    next => exact entered

end Atomic

end Library.CriticalSection
