import RabbitServer.Library.Progress
import RabbitServer.Net.EventLoopThread

/-! The owner and the worker of `net/EventLoopThread.cpp` with `pthread_cond_wait` and
`pthread_cond_signal`: the owner sleeps in `cond_.wait()` until `cond_.notify()` wakes it, and no
wakeup is lost. -/

namespace RabbitServer.Net
open Library.Runs

namespace OwnerAt

/-- The owner is in `cond_.wait()`. -/
def waits : OwnerAt → Bool
  | .startWaiting | .stopWaiting => true
  | _ => false

/-- The owner is not done with `startLoop`. -/
def starts : OwnerAt → Bool
  | .startLoop | .startLocking | .startChecking | .startWaiting => true
  | _ => false

/-- An owner in `startLoop` has told nobody to quit. -/
theorem starts_untold {owner : OwnerAt} (starts : owner.starts = true) :
    owner ≠ .wakingUp ∧ owner ≠ .stopWaiting ∧ ¬ (owner = .joining ∨ owner = .joined) := by
  revert starts
  cases owner <;> decide

theorem stopWaiting_of {owner : OwnerAt} (stops : owner.stops = true) (waits : owner.waits = true) :
    owner = .stopWaiting := by
  revert stops waits
  cases owner <;> decide

/-- The steps still to make, one round of the loop around the wait included for an owner that has
been woken. -/
def rank (asleep : Bool) : OwnerAt → Nat
  | .startLoop => 20
  | .startLocking => 19
  | .startChecking => 18
  | .startWaiting => if asleep then 17 else 19
  | .returning => 16
  | .running => 15
  | .stopLocking => 14
  | .stopChecking => 13
  | .stopping => 12
  | .wakingUp => 11
  | .stopWaiting => if asleep then 10 else 14
  | .joining => 9
  | .joined => 8

end OwnerAt

namespace WorkerAt

/-- The worker has set `loop_` in the step it makes, and calls `cond_.notify()`. -/
def notifies : WorkerAt → Bool
  | .publishing | .clearing => true
  | _ => false

/-- The loop is not published yet. -/
def early : WorkerAt → Bool
  | .notStarted | .constructing | .publishLocking | .publishing => true
  | _ => false

def rank : WorkerAt → Nat
  | .notStarted => 11
  | .constructing => 10
  | .publishLocking => 9
  | .publishing => 8
  | .published => 7
  | .entering => 6
  | .looping => 5
  | .clearLocking => 4
  | .clearing => 3
  | .cleared => 2
  | .leaving => 1
  | .finished => 0

end WorkerAt

/-- `asleep` tells that the owner waits and has not been notified. -/
structure WaitingThread where
  thread : EventLoopThread := {}
  asleep : Bool := false

namespace WaitingThread

def step (s : WaitingThread) : Party → WaitingThread
  | .owner =>
    if s.asleep then s
    else
      let thread := s.thread.step .owner
      { thread, asleep := thread.owner.waits && !s.thread.owner.waits }
  | .worker =>
    { thread := s.thread.step .worker
      asleep := s.asleep && !(s.thread.worker.notifies && !s.thread.aborted) }

/-- The thread is joined, or the assertion of `loop()` has ended the process. -/
def Over (s : WaitingThread) : Prop := s.thread.owner = .joined ∨ s.thread.aborted = true

/-- A notification makes the owner go round once more, which is less than it costs the worker. -/
def rank (s : WaitingThread) : Nat :=
  if s.thread.aborted then 0 else 1 + 8 * s.thread.worker.rank + s.thread.owner.rank s.asleep

/-- What the owner goes by. Who sleeps waits for something that has not been done, and is going to
be notified of it. -/
structure Awaits (s : WaitingThread) : Prop where
  early : s.thread.worker.early = true → s.thread.owner.starts = true
  started : s.thread.worker = .notStarted ↔ s.thread.owner = .startLoop
  told : s.thread.owner = .wakingUp → s.thread.loop = some true
  joins : s.thread.owner = .joining ∨ s.thread.owner = .joined → s.thread.loop_ = false
  asleep : s.asleep = true → s.thread.owner = .startWaiting ∧ s.thread.loop_ = false ∨
    s.thread.owner = .stopWaiting ∧ s.thread.loop_ = true ∧ s.thread.loop = some true

variable {s : WaitingThread}

theorem step_aborted (aborted : s.thread.aborted = true) (party : Party) :
    s.step party = s := by
  obtain ⟨thread, asleep⟩ := s
  cases party <;> cases asleep <;> simp_all [step, EventLoopThread.step]

theorem workerStep_rank (thread : EventLoopThread) :
    thread.workerStep = thread ∧ thread.worker.notifies = false ∨
      thread.workerStep.aborted = true ∨
      thread.workerStep.aborted = thread.aborted ∧ thread.workerStep.owner = thread.owner ∧
        thread.workerStep.worker.rank + 1 = thread.worker.rank := by
  obtain ⟨owner, worker, mutex, loop_, loop, aborted⟩ := thread
  cases worker
  case notStarted | finished => exact Or.inl ⟨rfl, rfl⟩
  case publishLocking | clearLocking =>
    by_cases free : mutex = none
    · subst free
      exact Or.inr (Or.inr ⟨rfl, rfl, rfl⟩)
    · exact Or.inl ⟨if_neg free, rfl⟩
  case looping =>
    by_cases quit : loop = some true
    · subst quit
      exact Or.inr (Or.inr ⟨rfl, rfl, rfl⟩)
    · exact Or.inl ⟨if_neg quit, rfl⟩
  case entering =>
    by_cases fresh : loop = some false
    · subst fresh
      exact Or.inr (Or.inr ⟨rfl, rfl, rfl⟩)
    · right
      left
      simp only [EventLoopThread.workerStep, if_neg fresh]
  all_goals exact Or.inr (Or.inr ⟨rfl, rfl, rfl⟩)

/-- A step of the owner that is awake; starting the thread costs the worker a step, too. -/
theorem ownerStep_rank {thread : EventLoopThread} (fresh : thread.owner = .startLoop →
      thread.worker = .notStarted) :
    thread.ownerStep = thread ∨ thread.ownerStep.worker.rank ≤ thread.worker.rank ∧
      thread.ownerStep.owner.rank (thread.ownerStep.owner.waits && !thread.owner.waits) <
        thread.owner.rank false := by
  obtain ⟨owner, worker, mutex, loop_, loop, aborted⟩ := thread
  cases owner
  case startLoop =>
    obtain rfl := fresh rfl
    exact Or.inr ⟨Nat.le_of_ble_eq_true rfl, Nat.le_of_ble_eq_true rfl⟩
  case startLocking | startWaiting | stopLocking | stopWaiting =>
    by_cases free : mutex = none
    · subst free
      exact Or.inr ⟨Nat.le_refl _, Nat.le_of_ble_eq_true rfl⟩
    · exact Or.inl (if_neg free)
  case joining =>
    by_cases finished : worker = .finished
    · subst finished
      exact Or.inr ⟨Nat.le_refl _, Nat.le_of_ble_eq_true rfl⟩
    · exact Or.inl (if_neg finished)
  case startChecking | stopChecking =>
    cases loop_ <;> exact Or.inr ⟨Nat.le_refl _, Nat.le_of_ble_eq_true rfl⟩
  case joined => exact Or.inl rfl
  all_goals exact Or.inr ⟨Nat.le_refl _, Nat.le_of_ble_eq_true rfl⟩

theorem ownerStep_loop_ (thread : EventLoopThread) : thread.ownerStep.loop_ = thread.loop_ := by
  unfold EventLoopThread.ownerStep
  split
  all_goals first
    | rfl
    | split <;> rfl

theorem rank_woken (owner : OwnerAt) (asleep later : Bool) :
    owner.rank later ≤ owner.rank asleep + 4 := by
  cases owner <;> cases asleep <;> cases later <;> decide

theorem step_rank (fresh : s.thread.owner = .startLoop → s.thread.worker = .notStarted)
    (party : Party) : s.step party = s ∨ (s.step party).rank < s.rank := by
  by_cases aborted : s.thread.aborted = true
  · exact Or.inl (step_aborted aborted party)
  obtain ⟨thread, asleep⟩ := s
  simp only [Bool.not_eq_true] at aborted fresh
  cases party with
  | owner =>
    cases asleep with
    | true => exact Or.inl rfl
    | false =>
      simp only [step, EventLoopThread.step, aborted, rank, EventLoopThread.ownerStep_aborted,
        Bool.false_eq_true, if_false]
      rcases ownerStep_rank fresh with same | ⟨worker, owner⟩
      · rw [same]
        left
        simp
      · right
        omega
  | worker =>
    simp only [step, EventLoopThread.step, aborted, rank, Bool.false_eq_true, if_false]
    rcases workerStep_rank thread with ⟨same, silent⟩ | ended | ⟨kept, owner, worker⟩
    · left
      rw [same, silent]
      simp
    · right
      rw [if_pos ended]
      omega
    · right
      have woken := rank_woken thread.owner asleep
        (asleep && !(thread.worker.notifies && !thread.aborted))
      rw [kept, owner, aborted] at *
      simp only [Bool.false_eq_true, if_false]
      omega

theorem start_awaits : Awaits {} where
  early := fun _ => rfl
  started := iff_of_true rfl rfl
  told := nofun
  joins := by decide
  asleep := nofun

section
variable (awaits : Awaits s) (handshake : s.thread.Handshake)
include awaits

/-- The owner is past `startLoop` and moves on, the rest as it is. -/
theorem Awaits.moves (owner : OwnerAt) (mutex : Option Party) (asleep : Bool)
    (moved : s.thread.owner ≠ .startLoop)
    (early : owner.starts = true ∨ s.thread.worker.early = false) (starting : owner ≠ .startLoop)
    (told : owner = .wakingUp → s.thread.loop = some true)
    (joins : owner = .joining ∨ owner = .joined → s.thread.loop_ = false)
    (sleeps : asleep = true → owner = .startWaiting ∧ s.thread.loop_ = false ∨
      owner = .stopWaiting ∧ s.thread.loop_ = true ∧ s.thread.loop = some true) :
    Awaits { thread := { s.thread with owner, mutex }, asleep } where
  early := fun before => early.resolve_right fun late => absurd (before.symm.trans late) (by decide)
  started := iff_of_false (mt awaits.started.mp moved) starting
  told := told
  joins := joins
  asleep := sleeps

/-- The owner is past `startLoop()`, where it has found the loop. -/
theorem Awaits.late {owner : OwnerAt} (same : s.thread.owner = owner) (late : owner.starts = false) :
    s.thread.worker.early = false := by
  cases early : s.thread.worker.early with
  | false => rfl
  | true =>
    have starts := awaits.early early
    rw [same, late] at starts
    cases starts

include handshake

theorem Awaits.owner (running : s.thread.aborted = false) : Awaits (s.step .owner) := by
  have step_eq : s.step .owner = if s.asleep then s else
      { thread := s.thread.ownerStep
        asleep := s.thread.ownerStep.owner.waits && !s.thread.owner.waits } := by
    simp [step, EventLoopThread.step, running]
  rw [step_eq]
  split_ifs with asleep
  · exact awaits
  cases owner : s.thread.owner with
  | startLoop =>
    simp only [EventLoopThread.ownerStep, owner]
    exact ⟨fun _ => rfl, iff_of_false (by simp) (by simp), by simp, by simp,
      by simp [OwnerAt.waits]⟩
  | startLocking | startWaiting =>
    simp only [EventLoopThread.ownerStep, owner]
    split
    · refine awaits.moves .startChecking (some .owner) false (by simp [owner]) (Or.inl rfl)
        ?_ ?_ ?_ ?_ <;> simp
    · exact ⟨awaits.early, awaits.started, awaits.told, awaits.joins, by simp [owner]⟩
  | startChecking =>
    simp only [EventLoopThread.ownerStep, owner]
    split
    next found =>
      have publishes := handshake.published.symm.trans found
      have late : s.thread.worker.early = false := by
        revert publishes
        cases s.thread.worker <;> decide
      refine awaits.moves .returning none false (by simp [owner]) (Or.inr late) ?_ ?_ ?_ ?_ <;> simp
    next missing =>
      exact awaits.moves .startWaiting none true (by simp [owner]) (Or.inl rfl)
        (by simp) (by simp) (by simp) fun _ => Or.inl ⟨rfl, by simpa using missing⟩
  | returning | running =>
    have late := awaits.late owner rfl
    simp only [EventLoopThread.ownerStep, owner]
    refine awaits.moves _ _ false (by simp [owner]) (Or.inr late) ?_ ?_ ?_ ?_ <;> simp
  | stopLocking | stopWaiting =>
    have late := awaits.late owner rfl
    simp only [EventLoopThread.ownerStep, owner]
    split
    · refine awaits.moves .stopChecking (some .owner) false (by simp [owner]) (Or.inr late)
        ?_ ?_ ?_ ?_ <;> simp
    · exact ⟨awaits.early, awaits.started, awaits.told, awaits.joins, by simp [owner]⟩
  | stopChecking =>
    have late := awaits.late owner rfl
    simp only [EventLoopThread.ownerStep, owner]
    split
    next found =>
      refine awaits.moves .stopping _ false (by simp [owner]) (Or.inr late) ?_ ?_ ?_ ?_ <;> simp
    next missing =>
      exact awaits.moves .joining none false (by simp [owner]) (Or.inr late) (by simp) (by simp)
        (fun _ => by simpa using missing) (by simp)
  | stopping =>
    have late := awaits.late owner rfl
    have found := handshake.relies (by rw [owner]; rfl)
    obtain ⟨quit, loop⟩ := Option.isSome_iff_exists.mp (handshake.loop_alive found)
    simp only [EventLoopThread.ownerStep, owner, loop]
    exact ⟨fun early => absurd (early.symm.trans late) (by decide),
      iff_of_false (mt awaits.started.mp (by simp [owner])) (by simp), fun _ => rfl, by simp,
      by simp [OwnerAt.waits]⟩
  | wakingUp =>
    have late := awaits.late owner rfl
    have found := handshake.relies (by rw [owner]; rfl)
    simp only [EventLoopThread.ownerStep, owner]
    exact awaits.moves .stopWaiting none true (by simp [owner]) (Or.inr late)
      (by simp) (by simp) (by simp) fun _ => Or.inr ⟨rfl, found, awaits.told owner⟩
  | joining =>
    have late := awaits.late owner rfl
    have missing := awaits.joins (Or.inl owner)
    simp only [EventLoopThread.ownerStep, owner]
    split
    · exact awaits.moves .joined _ false (by simp [owner]) (Or.inr late) (by simp) (by simp)
        (fun _ => missing) (by simp)
    · exact ⟨awaits.early, awaits.started, awaits.told, awaits.joins, by simp [owner]⟩
  | joined =>
    simp only [EventLoopThread.ownerStep, owner]
    exact ⟨awaits.early, awaits.started, awaits.told, awaits.joins, by simp [owner]⟩

omit handshake in
/-- The worker moves on, and leaves the loop and the pointer to it as they are. -/
theorem Awaits.works (worker : WorkerAt) (mutex : Option Party)
    (begun : s.thread.worker ≠ .notStarted) (moved : worker ≠ .notStarted)
    (early : worker.early = true → s.thread.worker.early = true) :
    Awaits { thread := { s.thread with worker, mutex }, asleep := s.asleep } where
  early := fun before => awaits.early (early before)
  started := iff_of_false moved (mt awaits.started.mpr begun)
  told := awaits.told
  joins := awaits.joins
  asleep := awaits.asleep

theorem Awaits.worker (running : s.thread.aborted = false) : Awaits (s.step .worker) := by
  have step_eq : s.step .worker = { thread := s.thread.workerStep
                                    asleep := s.asleep && !s.thread.worker.notifies } := by
    simp [step, EventLoopThread.step, running]
  rw [step_eq]
  by_cases idle : s.thread.worker = .notStarted
  · simp only [EventLoopThread.workerStep, idle, WorkerAt.notifies, Bool.not_false, Bool.and_true]
    exact awaits
  have begun : s.thread.owner ≠ .startLoop := mt awaits.started.mpr idle
  cases worker : s.thread.worker with
  | notStarted => exact absurd worker idle
  | finished =>
    simp only [EventLoopThread.workerStep, worker, WorkerAt.notifies, Bool.not_false, Bool.and_true]
    exact awaits
  | constructing =>
    have starts := awaits.early (by rw [worker]; rfl)
    have untold := OwnerAt.starts_untold starts
    simp only [EventLoopThread.workerStep, worker, WorkerAt.notifies, Bool.not_false, Bool.and_true]
    exact ⟨fun _ => starts, iff_of_false (by simp) begun, fun waking => absurd waking untold.1,
      awaits.joins, fun asleep => (awaits.asleep asleep).imp_right fun stop =>
        absurd stop.1 untold.2.1⟩
  | publishLocking | clearLocking =>
    simp only [EventLoopThread.workerStep, worker, WorkerAt.notifies, Bool.not_false, Bool.and_true]
    split
    · exact awaits.works _ (some .worker) idle (by simp) (by simp [worker, WorkerAt.early])
    · exact awaits
  | publishing =>
    have untold := OwnerAt.starts_untold (awaits.early (by rw [worker]; rfl))
    simp only [EventLoopThread.workerStep, worker, WorkerAt.notifies, Bool.not_true, Bool.and_false]
    exact ⟨by simp [WorkerAt.early], iff_of_false (by simp) begun, awaits.told,
      fun joins => absurd joins untold.2.2, by simp⟩
  | published | cleared =>
    simp only [EventLoopThread.workerStep, worker, WorkerAt.notifies, Bool.not_false, Bool.and_true]
    exact awaits.works _ none idle (by simp) (by simp [WorkerAt.early])
  | entering =>
    simp only [EventLoopThread.workerStep, worker, WorkerAt.notifies, Bool.not_false, Bool.and_true]
    split
    · exact awaits.works .looping _ idle (by simp) (by simp [WorkerAt.early])
    · exact ⟨by simp [WorkerAt.early], iff_of_false (by simp) begun, awaits.told, awaits.joins,
        awaits.asleep⟩
  | looping =>
    simp only [EventLoopThread.workerStep, worker, WorkerAt.notifies, Bool.not_false, Bool.and_true]
    split
    · exact awaits.works .clearLocking _ idle (by simp) (by simp [WorkerAt.early])
    · exact awaits
  | clearing =>
    simp only [EventLoopThread.workerStep, worker, WorkerAt.notifies, Bool.not_true, Bool.and_false]
    exact ⟨by simp [WorkerAt.early], iff_of_false (by simp) begun, awaits.told, fun _ => rfl,
      by simp⟩
  | leaving =>
    have missing : s.thread.loop_ = false := by rw [handshake.published, worker]; rfl
    have found : s.thread.owner = .wakingUp → s.thread.loop_ = true :=
      fun waking => handshake.relies (by rw [waking]; rfl)
    simp only [EventLoopThread.workerStep, worker, WorkerAt.notifies, Bool.not_false, Bool.and_true]
    exact ⟨by simp [WorkerAt.early], iff_of_false (by simp) begun,
      fun waking => absurd ((found waking).symm.trans missing) (by decide), awaits.joins,
      fun asleep => (awaits.asleep asleep).imp_right fun stop =>
        absurd (stop.2.1.symm.trans missing) (by decide)⟩

end

theorem owner_moves (running : s.thread.aborted = false) (awake : s.asleep = false)
    (free : s.thread.mutex = none ∨ s.thread.owner.locked = true)
    (unjoined : s.thread.owner ≠ .joined)
    (finished : s.thread.owner = .joining → s.thread.worker = .finished) : s.step .owner ≠ s := by
  intro same
  have still : s.thread.ownerStep.owner = s.thread.owner := by
    have parts := congrArg (fun s => s.thread.owner) same
    simpa [step, awake, EventLoopThread.step, running] using parts
  unfold EventLoopThread.ownerStep at still
  cases owner : s.thread.owner <;> simp only [owner] at still free
  case joined => exact unjoined owner
  case joining => simp [finished owner] at still
  case startLocking | startWaiting | stopLocking | stopWaiting =>
    have unlocked := free.resolve_right (by decide)
    simp [unlocked] at still
  case startChecking | stopChecking =>
    split at still <;> cases still
  all_goals cases still

theorem worker_moves (running : s.thread.aborted = false)
    (free : s.thread.mutex = none ∨ s.thread.worker.locked = true)
    (begun : s.thread.worker ≠ .notStarted) (unfinished : s.thread.worker ≠ .finished)
    (told : s.thread.worker = .looping → s.thread.loop = some true) : s.step .worker ≠ s := by
  intro same
  have still : s.thread.workerStep.worker = s.thread.worker ∧
      s.thread.workerStep.aborted = false := by
    have worker := congrArg (fun s => s.thread.worker) same
    have aborted := congrArg (fun s => s.thread.aborted) same
    simp only [step, EventLoopThread.step, running, Bool.false_eq_true, if_false] at worker aborted
    exact ⟨worker, aborted⟩
  unfold EventLoopThread.workerStep at still
  cases worker : s.thread.worker <;> simp only [worker] at still free
  case notStarted => exact begun worker
  case finished => exact unfinished worker
  case publishLocking | clearLocking =>
    have unlocked := free.resolve_right (by decide)
    simp [unlocked] at still
  case looping => simp [told worker] at still
  case entering =>
    split at still
    · cases still.1
    · cases still.2
  all_goals cases still.1

/-- While the handshake is not over one of the two can go on. -/
theorem Awaits.someone_moves (awaits : Awaits s) (handshake : s.thread.Handshake)
    (running : s.thread.aborted = false) (unjoined : s.thread.owner ≠ .joined) :
    ∃ party, s.step party ≠ s := by
  have held := handshake.mutex
  unfold EventLoopThread.holder at held
  cases ownerLocked : s.thread.owner.locked with
  | true =>
    have awake : s.asleep = false := by
      by_contra asleep
      rcases awaits.asleep (by simpa using asleep) with ⟨owner, -⟩ | ⟨owner, -⟩ <;>
        rw [owner] at ownerLocked <;> cases ownerLocked
    refine ⟨.owner, owner_moves running awake (Or.inr ownerLocked) unjoined fun joining => ?_⟩
    rw [joining] at ownerLocked
    cases ownerLocked
  | false =>
    rw [ownerLocked] at held
    cases workerLocked : s.thread.worker.locked with
    | true =>
      refine ⟨.worker, worker_moves running (Or.inr workerLocked) ?_ ?_ ?_⟩ <;> intro worker <;>
        rw [worker] at workerLocked <;> cases workerLocked
    | false =>
      have free : s.thread.mutex = none := by simpa [workerLocked] using held
      by_cases asleep : s.asleep = true
      · refine ⟨.worker, ?_⟩
        rcases awaits.asleep asleep with ⟨owner, missing⟩ | ⟨owner, found, told⟩
        · apply worker_moves running (Or.inl free) (mt awaits.started.mp (by simp [owner]))
          · intro worker
            have unleft := (handshake.unstopped (by rw [owner]; rfl)).2
            rw [worker] at unleft
            cases unleft
          · intro worker
            rw [handshake.published, worker] at missing
            cases missing
        · apply worker_moves running (Or.inl free) (mt awaits.started.mp (by simp [owner]))
          · intro worker
            rw [handshake.published, worker] at found
            cases found
          · exact fun _ => told
      · have awake : s.asleep = false := by simpa using asleep
        by_cases waits : s.thread.owner = .joining → s.thread.worker = .finished
        · exact ⟨.owner, owner_moves running awake (Or.inl free) unjoined waits⟩
        · obtain ⟨joining, unfinished⟩ := Classical.not_imp.mp waits
          refine ⟨.worker, worker_moves running (Or.inl free)
            (mt awaits.started.mp (by simp [joining])) unfinished ?_⟩
          intro worker
          have missing := awaits.joins (Or.inl joining)
          rw [handshake.published, worker] at missing
          cases missing

/-- The handshake goes on as it should, or is about to fail at the entry of `loop()`, or has. -/
def Goes (s : WaitingThread) : Prop :=
  s.thread.aborted = true ∨ s.thread.aborted = false ∧
    (s.thread.Doomed ∧ s.thread.loop_ = true ∧
        (s.asleep = true → s.thread.owner = .stopWaiting) ∨
      s.thread.Handshake ∧ Awaits s)

theorem Goes.step (goes : Goes s) (party : Party) : Goes (s.step party) := by
  rcases goes with aborted | ⟨running, goes⟩
  · rw [step_aborted aborted]
    exact Or.inl aborted
  cases party with
  | owner =>
    by_cases asleep : s.asleep = true
    · rw [WaitingThread.step, if_pos asleep]
      exact Or.inr ⟨running, goes⟩
    have thread : (s.step .owner).thread = s.thread.step .owner := by
      rw [WaitingThread.step, if_neg asleep]
    have unaborted : (s.step .owner).thread.aborted = false := by
      simp [thread, EventLoopThread.step, running, EventLoopThread.ownerStep_aborted]
    have waits : (s.step .owner).asleep = true → (s.step .owner).thread.owner.waits = true := by
      rw [WaitingThread.step, if_neg asleep]
      exact fun both => (Bool.and_eq_true_iff.mp both).1
    have loop_ : (s.step .owner).thread.loop_ = s.thread.loop_ := by
      simp [thread, EventLoopThread.step, running, ownerStep_loop_]
    refine Or.inr ⟨unaborted, ?_⟩
    rcases goes with ⟨doomed, found, -⟩ | ⟨handshake, awaits⟩
    · have stays : (s.step .owner).thread.Doomed := by
        simpa [thread, EventLoopThread.step, running] using doomed.ownerStep
      exact Or.inl ⟨stays, loop_.trans found, fun sleeps =>
        OwnerAt.stopWaiting_of stays.1 (waits sleeps)⟩
    · by_cases entered : s.thread.StopsEntered .owner
      · exact Or.inr ⟨thread ▸ (handshake.step running entered).1, awaits.owner handshake running⟩
      · have doomed : (s.step .owner).thread.Doomed := thread ▸ handshake.dooms running entered
        have found : s.thread.loop_ = true := by
          simp only [EventLoopThread.StopsEntered, Classical.not_imp] at entered
          exact handshake.relies (by rw [entered.2.1]; rfl)
        exact Or.inl ⟨doomed, loop_.trans found, fun sleeps =>
          OwnerAt.stopWaiting_of doomed.1 (waits sleeps)⟩
  | worker =>
    rcases goes with ⟨⟨-, entering, quit⟩, -⟩ | ⟨handshake, awaits⟩
    · left
      simp [WaitingThread.step, EventLoopThread.step, running, EventLoopThread.workerStep, entering,
        quit]
    · have entered : s.thread.StopsEntered .worker := by rintro ⟨⟩
      obtain ⟨kept, unaborted⟩ := handshake.step running entered
      exact Or.inr ⟨unaborted, Or.inr ⟨kept, awaits.worker handshake running⟩⟩

/-- However the two are scheduled, as long as each has its turn again and again: `startLoop`,
`stopLoop` and `join` all return, or the assertion at the entry of `loop()` fails. And whenever the
owner sleeps in `cond_.wait()`, what it waits for is still to be done. -/
theorem handshake_ends {schedule : ℕ → Party} (fair : Fair schedule) :
    (∃ n, (stateAt step {} schedule n).Over) ∧
      ∀ n, let s := stateAt step {} schedule n
        s.asleep = true → s.thread.aborted = false →
          s.thread.owner = .startWaiting ∧ s.thread.loop_ = false ∨
            s.thread.owner = .stopWaiting ∧ s.thread.loop_ = true ∧ s.thread.loop = some true := by
  have start : Goes {} := Or.inr ⟨rfl, Or.inr ⟨EventLoopThread.start_handshake, start_awaits⟩⟩
  constructor
  · apply fair_ends rank start (fun s party goes => goes.step party) _ _ fair
    · intro s party goes _
      rcases goes with aborted | ⟨running, goes⟩
      · exact Or.inl (step_aborted aborted party)
      · apply step_rank
        intro owner
        rcases goes with ⟨⟨stops, -⟩, -⟩ | ⟨-, awaits⟩
        · rw [owner] at stops
          cases stops
        · exact awaits.started.mpr owner
    · intro s goes going
      rcases goes with aborted | ⟨running, ⟨⟨-, entering, quit⟩, -⟩ | ⟨handshake, awaits⟩⟩
      · exact absurd (Or.inr aborted) going
      · refine ⟨.worker, fun same => ?_⟩
        have aborted := congrArg (fun s => s.thread.aborted) same
        simp [step, EventLoopThread.step, running, EventLoopThread.workerStep, entering, quit]
          at aborted
      · exact awaits.someone_moves handshake running fun joined => going (Or.inl joined)
  · intro n s asleep running
    have goes : Goes s := stateAt_invariant Goes start (fun s party goes => goes.step party) schedule n
    rcases goes with aborted | ⟨-, ⟨⟨-, -, quit⟩, found, waits⟩ | ⟨-, awaits⟩⟩
    · exact absurd (aborted.symm.trans running) (by decide)
    · exact Or.inr ⟨waits asleep, found, quit⟩
    · exact awaits.asleep asleep

/-- The two take turns. -/
theorem handshake_ends_alternating :
    ∃ n, (stateAt step {} (fun n => if n % 2 = 0 then .owner else .worker) n).Over := by
  have fair : Fair fun n => if n % 2 = 0 then Party.owner else .worker := by
    intro party n
    cases party with
    | owner => exact ⟨2 * n, by omega, if_pos (by omega)⟩
    | worker => exact ⟨2 * n + 1, by omega, if_neg (by omega)⟩
  exact (handshake_ends fair).1

end WaitingThread

end RabbitServer.Net
