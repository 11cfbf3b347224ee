import RabbitServer.Net.CallingThreads
import RabbitServer.Net.HandedOver

/-! A connection that has been destroyed, and what can bring its channel back to the
poller: a message accepted before, and sent after. -/

namespace RabbitServer.Net
open Library.Runs

namespace TcpConnection
variable {conn : TcpConnection}

/-- What `connectionDestroyed` leaves behind. -/
structure Removed (conn : TcpConnection) : Prop where
  state : conn.state = .kDisconnected
  interest : conn.channel.interest = none
  idle : conn.channel.writing = false

theorem connectionDestroyed_removed (established : conn.state ≠ .kConnecting) :
    conn.connectionDestroyed.Removed where
  state := connectionDestroyed_state established
  interest := by
    unfold connectionDestroyed
    split <;> rfl
  idle := by
    unfold connectionDestroyed
    split <;> rfl

theorem Removed.not_open (removed : conn.Removed) :
    ¬ (conn.state = .kDisconnecting ∨ conn.state = .kConnected) := by
  rw [removed.state]
  decide

theorem Removed.handleClose (removed : conn.Removed) : conn.handleClose.1.Removed := by
  rw [TcpConnection.handleClose, if_neg removed.not_open]
  exact removed

theorem Removed.handleEvent (removed : conn.Removed) (callback : ChannelCallback)
    (read : Buffer.Readv) (write : WriteResult) :
    (conn.handleEvent callback read write).1.Removed := by
  cases callback with
  | errorCallback => exact removed
  | hupCallback => exact connectionDestroyed_removed (by rw [removed.state]; decide)
  | readCallback =>
    cases read with
    | failed errno => exact removed
    | delivered data =>
      simp only [TcpConnection.handleEvent, handleRead]
      split
      · exact ⟨removed.state, removed.interest, removed.idle⟩
      · exact removed.handleClose
  | writeCallback =>
    simp only [TcpConnection.handleEvent, handleWrite]
    rw [if_neg (by rw [removed.idle]; decide)]
    exact removed

theorem Removed.call (removed : conn.Removed) (inLoopThread : Bool) (c : ConnCall)
    (write : WriteResult) : (conn.call inLoopThread c write).1.Removed := by
  cases c with
  | send message =>
    simp only [TcpConnection.call]
    rw [if_neg (by rw [removed.state]; decide)]
    exact removed
  | closeConnection =>
    simp only [TcpConnection.call]
    split <;> exact removed

theorem Removed.calls (removed : conn.Removed) (cs : List ConnCall) (writes : List WriteResult) :
    (conn.calls cs writes).1.Removed := by
  induction cs generalizing conn writes with
  | nil => exact removed
  | cons c rest ih => exact ih (removed.call true c _) _

/-- The bytes a late `sendInLoop` has to get rid of are all taken by its `write`. -/
def TakesAll (conn : TcpConnection) (data : Bytes) (write : WriteResult) : Prop :=
  data = [] ∨ conn.outBuffer = [] ∧ write.wroted data.length = data.length

theorem Removed.sendInLoop (removed : conn.Removed) {data : Bytes} {write : WriteResult}
    (takes : conn.TakesAll data write) : (conn.sendInLoop data write).Removed := by
  simp only [TcpConnection.sendInLoop]
  rw [if_neg (fun short => ?_)]
  · exact ⟨removed.state, removed.interest, removed.idle⟩
  · rcases takes with rfl | ⟨empty, all⟩
    · cases short
    · have direct : ¬ conn.channel.writing = true ∧ conn.outBuffer.length = 0 :=
        ⟨by rw [removed.idle]; decide, by rw [empty]; rfl⟩
      rw [if_pos direct, all] at short
      exact absurd short (Nat.lt_irrefl _)

/-- What is left over is buffered, and the channel registered to write it. -/
theorem Removed.sendInLoop_registers (removed : conn.Removed) {data : Bytes} {write : WriteResult}
    (left : ¬ conn.TakesAll data write) :
    (conn.sendInLoop data write).channel.interest ≠ none := by
  have some_ : 0 < data.length := by
    apply List.length_pos_of_ne_nil
    exact fun none => left (Or.inl none)
  have short : (if ¬ conn.channel.writing = true ∧ conn.outBuffer.length = 0
      then write.wroted data.length else 0) < data.length := by
    split
    next direct =>
      have empty := List.eq_nil_of_length_eq_zero direct.2
      apply Nat.lt_of_le_of_ne (write.wroted_le data.length)
      exact fun all => left (Or.inr ⟨empty, all⟩)
    next => exact some_
  simp only [TcpConnection.sendInLoop]
  rw [if_pos short, removed.idle]
  have tracked := conn.channel.enableWriting.tracked
  exact fun none => Option.some_ne_none _ (tracked.symm.trans none)

end TcpConnection

namespace ConnectionLoop
variable {Context Input Halt : Type}

/-- A step that runs `connectionDestroyed`, from the queue or in `handleHup`. -/
def destroys (s : ConnectionLoop Context Halt) (event : Event Input) : Bool :=
  match s.halted, s.turn, event with
  | none, .running (.connectionDestroyed :: _), .functor _ => true
  | none, .dispatching (.hupCallback :: _), .handleEvent _ _ _ => true
  | _, _, _ => false

variable {app : App Context Input Halt} {s : ConnectionLoop Context Halt} {event : Event Input}

theorem receive_removed (s : ConnectionLoop Context Halt) (removed : s.conn.Removed)
    (input : Input) (writes : List WriteResult) : (s.receive app input writes).conn.Removed := by
  unfold receive
  split
  next => exact removed
  next context inBuffer calls _ =>
    have received : TcpConnection.Removed { s.conn with inBuffer } :=
      ⟨removed.state, removed.interest, removed.idle⟩
    exact received.calls calls writes

theorem handleEvent_removed {s : ConnectionLoop Context Halt} {callback : ChannelCallback}
    {read : Buffer.Readv} {input : Input} {writes : List WriteResult}
    (removed : (s.conn.handleEvent callback read (writes.headD (.accepted 0))).1.Removed) :
    (s.handleEvent app callback read input writes).conn.Removed := by
  simp only [handleEvent]
  split
  · exact receive_removed _ removed input writes
  · exact removed

/-- A step that destroys the connection leaves it removed. -/
theorem step_destroys (established : s.conn.state ≠ .kConnecting)
    (destroyed : s.destroys event = true) : (step app s event).conn.Removed := by
  unfold destroys at destroyed
  split at destroyed
  next running turn =>
    simp only [step, running, next, turn]
    exact TcpConnection.connectionDestroyed_removed established
  next running turn =>
    simp only [step, running, next, turn, Option.isSome_none, Bool.false_eq_true, if_false]
    apply handleEvent_removed
    exact TcpConnection.connectionDestroyed_removed established
  next => cases destroyed

/-- Every step leaves a removed connection removed, but for a late message. -/
theorem step_removed (removed : s.conn.Removed)
    (takes : ∀ data write, s.functorRun event = some (.sendInLoop data, write) →
      s.conn.TakesAll data write) : (step app s event).conn.Removed := by
  cases halted : s.halted with
  | some halt => rwa [step, halted]
  | none =>
    have moves := step_moves app s event
    generalize step app s event = after at moves ⊢
    cases moves with
    | handleEvent running turn read input writes =>
      exact handleEvent_removed (removed.handleEvent _ read _)
    | @functor f toRun turn write =>
      cases f with
      | closeConnectionInLoop =>
        have closed : ¬ (s.conn.state = .kConnected ∨ s.conn.state = .kConnecting) := by
          rw [removed.state]
          decide
        simp only [ended, TcpConnection.functor, TcpConnection.closeConnectionInLoop]
        rw [if_neg closed]
        exact removed
      | sendInLoop data =>
        exact removed.sendInLoop (takes data write (by simp [functorRun, halted, turn]))
      | connectionDestroyed =>
        exact TcpConnection.connectionDestroyed_removed (by rw [removed.state]; decide)
    | call inLoopThread c write => exact removed.call inLoopThread c write
    | _ => exact removed

/-- A late message that is not taken whole brings the channel back. -/
theorem step_registers (removed : s.conn.Removed) {data : Bytes} {write : WriteResult}
    (run : s.functorRun event = some (.sendInLoop data, write))
    (left : ¬ s.conn.TakesAll data write) :
    (step app s event).conn.channel.interest ≠ none := by
  obtain ⟨toRun, -, after⟩ := step_ran app run
  rw [after]
  exact removed.sendInLoop_registers left

theorem step_established (established : 1 ≤ s.conn.state.rank) :
    1 ≤ (step app s event).conn.state.rank := established.trans step_rank_le

end ConnectionLoop

namespace CallingThreads
variable {Context Input Halt : Type} {app : App Context Input Halt}

/-- Whether `connectionDestroyed` has run. -/
def recordDestroyed (s : CallingThreads Context Halt) (event : Event Input) (destroyed : Bool) :
    Bool :=
  match event with
  | .io own => destroyed || s.io.destroys own
  | _ => destroyed

/-- A destroyed connection is not registered, and nothing can be reported for it. -/
def NeverAgain (app : App Context Input Halt) (s : CallingThreads Context Halt × Bool)
    (event : Event Input) : Prop :=
  let after := recorded (step app) recordDestroyed s event
  after.2 = true →
    after.1.io.conn.channel.interest = none ∧
      ∀ revents, ¬ after.1.io.conn.channel.Reports revents

/-- A `sendInLoop` that runs on a destroyed connection has nothing to write, or finds nothing
buffered and a `write` that takes it whole. -/
def LateSendsTaken (s : CallingThreads Context Halt × Bool) (event : Event Input) : Prop :=
  ∀ own data write, event = .io own → s.2 = true →
    s.1.io.functorRun own = some (.sendInLoop data, write) → s.1.io.conn.TakesAll data write

structure Gone (s : CallingThreads Context Halt × Bool) : Prop where
  established : 1 ≤ s.1.io.conn.state.rank
  removed : s.2 = true → s.1.io.conn.Removed

theorem recordDestroyed_other {s : CallingThreads Context Halt} {event : Event Input}
    (other : ∀ own, event ≠ .io own) (destroyed : Bool) :
    recordDestroyed s event destroyed = destroyed := by
  cases event with
  | io own => exact absurd rfl (other own)
  | look c => rfl
  | queueInLoop caller => rfl

section
variable {s : CallingThreads Context Halt × Bool} {event : Event Input}

theorem Gone.not_connecting (gone : Gone s) : s.1.io.conn.state ≠ .kConnecting := by
  intro state
  have established := gone.established
  rw [state] at established
  exact absurd established (by decide)

theorem Gone.step (app : App Context Input Halt) (gone : Gone s) (taken : LateSendsTaken s event) :
    Gone (recorded (step app) recordDestroyed s event) := by
  rcases step_io app s.1 event with ⟨own, rfl, io⟩ | ⟨other, queued, io⟩
  · constructor
    · exact ConnectionLoop.step_established gone.established
    · intro after
      rcases Bool.or_eq_true_iff.mp after with before | now
      · exact ConnectionLoop.step_removed (gone.removed before) fun data write run =>
          taken own data write rfl before run
      · exact ConnectionLoop.step_destroys gone.not_connecting now
  · constructor
    · rw [recorded, io]
      exact gone.established
    · intro after
      rw [recorded, recordDestroyed_other other] at after
      rw [recorded, io]
      exact gone.removed after

theorem Gone.neverAgain_iff (gone : Gone s) (event : Event Input) :
    NeverAgain app s event ↔ LateSendsTaken s event := by
  constructor
  · intro never own data write same destroyed run
    subst same
    have unregistered := (never (Bool.or_eq_true_iff.mpr (Or.inl destroyed))).1
    by_contra left
    exact ConnectionLoop.step_registers (gone.removed destroyed) run left unregistered
  · intro taken after
    have unregistered := ((gone.step app taken).removed after).interest
    refine ⟨unregistered, ?_⟩
    intro revents reports
    obtain ⟨-, interest, present, -⟩ := reports
    exact Option.some_ne_none _ (present.symm.trans unregistered)

end

/-- A destroyed connection stays out of the poller exactly when no late message is left over. -/
theorem neverAgain_iff_lateSendsTaken (app : App Context Input Halt) (context : Context)
    (events : List (Event Input)) :
    Along (recorded (step app) recordDestroyed) (NeverAgain app) (start context, false) events ↔
      Along (recorded (step app) recordDestroyed) LateSendsTaken (start context, false) events := by
  apply along_iff_of_exact fun s _ => Gone s
  · exact ⟨Nat.le_refl 1, fun destroyed => absurd destroyed Bool.false_ne_true⟩
  · intro s event _ gone taken
    exact gone.step app taken
  · intro s event _ gone
    exact gone.neverAgain_iff event

/-- A server that answers nothing. -/
def silent : App Unit Unit Empty where
  messageCallback _ buf _ := .ok ((), buf, [])

/-- Another thread sends a byte, the peer hangs up, and the functor that sends is run on what
is left: its `write` fails, and the channel is registered to try again. -/
theorem neverAgain_fails :
    ¬ Along (recorded (step silent) recordDestroyed) (NeverAgain silent) (start (), false)
      [.look (.send [1]), .queueInLoop 0, .io (.poll {.EPOLLHUP}),
        .io (.handleEvent (.failed 11) () []), .io .doPendingFunctors,
        .io (.functor (.failed 32))] := by
  intro along
  obtain ⟨-, -, -, -, -, last, -⟩ := along
  have unregistered := (last (by decide)).1
  revert unregistered
  decide

end CallingThreads

end RabbitServer.Net
