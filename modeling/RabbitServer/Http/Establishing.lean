import RabbitServer.Http.HttpServer
import RabbitServer.Net.ClosingTurn

/-! A connection that the base loop establishes while its io loop may already dispatch
events of it: `connectionEstablish` registers the channel before it is done. -/

namespace RabbitServer.Http
open RabbitServer.Net RabbitServer.Net.ConnectionLoop Library.Runs

/-- How the io loop can be stopped: where `context_` is still empty `any_cast` gives a null
pointer, which a call of `parseRequest` follows. -/
inductive Crash where
  | nullContext
  | halt (halt : Halt)
  deriving DecidableEq

/-- `context_`, and whether `onMessage` has run without it. -/
structure Contained where
  context : Option HttpContext := none
  unready : Bool := false

/-- `HttpServer::onMessage` on a connection whose context may not be set. -/
def unreadyServer : App Contained Message Crash where
  messageCallback contained buf message :=
    match contained.context with
    | none =>
      if tailComplete message.stale buf then .error .nullContext
      else .ok ({ contained with unready := true }, buf, [])
    | some context =>
      match onMessage context buf message with
      | .error halt => .error (.halt halt)
      | .ok handled =>
        .ok ({ contained with context := handled.context }, handled.buf, handled.calls)

/-- Where the base loop is in `connectionEstablish`; the last two steps before `returned`
are those of `onConnection`. -/
inductive EstablishPc where
  | registerCallbacks | enableReading | setConnected | establlished | setContext | returned
  deriving DecidableEq

/-- `revived` says that `state_` was set after `handleHup` had removed the channel. -/
structure Establishing where
  pc : EstablishPc := .registerCallbacks
  io : ConnectionLoop Contained Crash := { conn := {}, context := {} }
  revived : Bool := false

namespace Establishing

inductive Step where
  | base
  | io (event : Event Message)

/-- `handleHup` has run for the connection. -/
def HungUp (s : Establishing) : Prop := .removeConnectionFromMap ∈ s.io.callbacks

instance (s : Establishing) : Decidable s.HungUp := inferInstanceAs (Decidable (_ ∈ _))

def baseStep (s : Establishing) : Establishing :=
  match s.pc with
  | .registerCallbacks => { s with pc := .enableReading }
  | .enableReading =>
    { s with
      pc := .setConnected
      io := { s.io with conn := { s.io.conn with channel := s.io.conn.channel.enableReading } } }
  | .setConnected =>
    { s with
      pc := .establlished
      io := { s.io with conn := { s.io.conn with state := .kConnected } }
      revived := s.revived || decide s.HungUp }
  | .establlished =>
    { s with pc := if s.io.conn.state = .kConnected then .setContext else .returned }
  | .setContext =>
    { s with
      pc := .returned
      io := { s.io with context := { s.io.context with context := some {} } } }
  | .returned => s

/-- Nobody but the server's own callbacks holds the connection, so it is called by them only. -/
def step (s : Establishing) : Step → Establishing
  | .base => s.baseStep
  | .io (.call _ _ _) => s
  | .io event => { s with io := s.io.step unreadyServer event }

/-- Readable data is handled after `connectionCallback_` has returned, a hang-up after
`state_` has been set. -/
def Ready (s : Establishing) : Step → Prop
  | .base => True
  | .io event =>
    (s.io.delivered event ≠ none → s.pc = .returned) ∧
      (∀ rest read input writes, event = .handleEvent read input writes →
        s.io.turn = .dispatching (.hupCallback :: rest) →
          s.pc = .establlished ∨ s.pc = .setContext ∨ s.pc = .returned)

/-- No message is handled without a context, and no removed connection comes back. -/
def EventsWait (s : Establishing) : Prop :=
  (s.io.halted ≠ some .nullContext ∧ s.io.context.unready = false) ∧ s.revived = false

/-- Before `state_` is set nothing has happened to the connection. -/
def Early (s : Establishing) : Prop :=
  s.pc = .registerCallbacks ∨ s.pc = .enableReading ∨ s.pc = .setConnected

/-- Nothing has been done to the connection yet. -/
structure Untouched (io : ConnectionLoop Contained Crash) : Prop where
  state : io.conn.state = .kConnecting
  writing : io.conn.channel.writing = false
  callbacks : io.callbacks = []
  removing : io.removing = 0
  pendingFunctors : io.pendingFunctors = []
  toRun : io.turn.toRun = []

/-- Nobody has sent on the connection or asked to close it yet. -/
structure Uncalled (io : ConnectionLoop Contained Crash) : Prop where
  state : io.conn.state = .kConnected ∨ io.conn.state = .kDisconnected
  writing : io.conn.channel.writing = false
  toRun : ∀ f ∈ io.turn.toRun, f = .connectionDestroyed
  pendingFunctors : ∀ f ∈ io.pendingFunctors, f = .connectionDestroyed

/-- Only a hang-up or a message does anything to a connection that is not connected yet. -/
theorem handleEvent_connecting {conn : TcpConnection} (state : conn.state = .kConnecting)
    (writing : conn.channel.writing = false) {callback : ChannelCallback}
    (noHup : callback ≠ .hupCallback) (read : Buffer.Readv) (write : WriteResult)
    (quiet : (conn.handleEvent callback read write).2 ≠ some .messageCallback) :
    conn.handleEvent callback read write = (conn, none) := by
  cases callback with
  | errorCallback => rfl
  | hupCallback => exact absurd rfl noHup
  | writeCallback => simp [TcpConnection.handleEvent, TcpConnection.handleWrite, writing]
  | readCallback =>
    cases read with
    | failed errno => rfl
    | delivered data =>
      simp only [TcpConnection.handleEvent, TcpConnection.handleRead] at quiet ⊢
      split at quiet
      next => exact absurd rfl quiet
      next none => simp [none, TcpConnection.handleClose, state]

theorem handleEvent_uncalled {conn : TcpConnection}
    (state : conn.state = .kConnected ∨ conn.state = .kDisconnected)
    (writing : conn.channel.writing = false) (callback : ChannelCallback) (read : Buffer.Readv)
    (write : WriteResult) :
    ((conn.handleEvent callback read write).1.state = .kConnected ∨
        (conn.handleEvent callback read write).1.state = .kDisconnected) ∧
      (conn.handleEvent callback read write).1.channel.writing = false := by
  cases callback with
  | errorCallback => exact ⟨state, writing⟩
  | hupCallback =>
    simp only [TcpConnection.handleEvent, TcpConnection.handleHup,
      TcpConnection.connectionDestroyed]
    split
    next => exact ⟨Or.inr rfl, Channel.remove_writing _⟩
    next => exact ⟨state, Channel.remove_writing _⟩
  | writeCallback =>
    simp only [TcpConnection.handleEvent, TcpConnection.handleWrite, writing]
    exact ⟨state, writing⟩
  | readCallback =>
    cases read with
    | failed errno => exact ⟨state, writing⟩
    | delivered data =>
      simp only [TcpConnection.handleEvent, TcpConnection.handleRead, TcpConnection.handleClose]
      split_ifs
      · exact ⟨state, writing⟩
      · exact ⟨Or.inr rfl, rfl⟩
      · exact ⟨state, writing⟩

section
variable {io : ConnectionLoop Contained Crash} {event : ConnectionLoop.Event Message}
  (none : io.delivered event = none) (own : ∀ thread c write, event ≠ .call thread c write)
include none own

theorem Untouched.step (untouched : Untouched io)
    (noHup : ∀ rest read input writes, event = .handleEvent read input writes →
      io.turn ≠ .dispatching (.hupCallback :: rest)) :
    Untouched (io.step unreadyServer event) := by
  obtain ⟨state, writing, callbacks, removing, pendingFunctors, toRun⟩ := id untouched
  have moves := step_moves unreadyServer io event
  generalize io.step unreadyServer event = after at moves ⊢
  cases moves with
  | idle => exact untouched
  | poll revents polling can => exact ⟨state, writing, callbacks, removing, pendingFunctors, rfl⟩
  | handleEvent running turn read input writes =>
    obtain ⟨quiet, same⟩ := handleEvent_undelivered unreadyServer running turn none
    rw [same, handleEvent_connecting state writing _ read _ quiet]
    · exact ⟨state, writing, by simp [ended, callbacks], removing, pendingFunctors, rfl⟩
    · intro hup
      subst hup
      exact noHup _ read input writes rfl turn
  | doPendingFunctors turn => exact ⟨state, writing, callbacks, removing, rfl, pendingFunctors⟩
  | functor turn write =>
    rw [turn] at toRun
    cases toRun
  | iterate turn => exact ⟨state, writing, callbacks, removing, pendingFunctors, rfl⟩
  | call thread c write => exact absurd rfl (own thread c write)
  | removeConnectionInLoop waiting =>
    rw [removing] at waiting
    exact absurd waiting (Nat.lt_irrefl 0)

theorem Uncalled.step (uncalled : Uncalled io) : Uncalled (io.step unreadyServer event) := by
  obtain ⟨state, writing, toRun, pendingFunctors⟩ := id uncalled
  have noneToRun : ∀ f ∈ ([] : List LoopFunctor), f = .connectionDestroyed := by
    intro f member
    cases member
  have moves := step_moves unreadyServer io event
  generalize io.step unreadyServer event = after at moves ⊢
  cases moves with
  | idle => exact uncalled
  | poll revents polling can => exact ⟨state, writing, noneToRun, pendingFunctors⟩
  | handleEvent running turn read input writes =>
    obtain ⟨_, same⟩ := handleEvent_undelivered unreadyServer running turn none
    obtain ⟨after, flag⟩ := handleEvent_uncalled state writing _ read
      (writes.headD (.accepted 0))
    rw [same]
    exact ⟨after, flag, noneToRun, pendingFunctors⟩
  | doPendingFunctors turn => exact ⟨state, writing, pendingFunctors, noneToRun⟩
  | functor turn write =>
    rw [turn] at toRun
    obtain rfl := toRun _ (List.mem_cons_self ..)
    obtain ⟨after, flag⟩ := handleEvent_uncalled state writing .hupCallback (.failed 0) write
    exact ⟨after, flag, fun g member => toRun g (List.mem_cons_of_mem _ member), pendingFunctors⟩
  | iterate turn => exact ⟨state, writing, noneToRun, pendingFunctors⟩
  | call thread c write => exact absurd rfl (own thread c write)
  | removeConnectionInLoop waiting =>
    have queued : ∀ f ∈ io.pendingFunctors ++ [.connectionDestroyed],
        f = .connectionDestroyed := by
      intro f member
      rcases List.mem_append.mp member with before | now
      · exact pendingFunctors f before
      · exact List.mem_singleton.mp now
    exact ⟨state, writing, toRun, queued⟩

end

structure Waiting (s : Establishing) : Prop where
  waits : s.EventsWait
  orderly : s.io.Orderly
  early : s.Early → Untouched s.io
  midway : s.pc = .establlished ∨ s.pc = .setContext → Uncalled s.io
  late : s.pc = .returned → s.io.context.context ≠ none ∨ s.io.conn.state = .kDisconnected

theorem start_waiting : ({} : Establishing).Waiting where
  waits := ⟨⟨nofun, rfl⟩, rfl⟩
  orderly := ⟨nofun, nofun, nofun⟩
  early := fun _ => ⟨rfl, rfl, rfl, rfl, rfl, rfl⟩
  midway := by
    intro pc
    rcases pc with pc | pc <;> cases pc
  late := nofun

theorem state_of_rank {state : State} (last : 3 ≤ state.rank) : state = .kDisconnected := by
  cases state with
  | kDisconnected => rfl
  | kConnecting => exact absurd last (by decide)
  | kConnected => exact absurd last (by decide)
  | kDisconnecting => exact absurd last (by decide)

section
variable {s : Establishing} (waiting : s.Waiting)
include waiting

theorem Waiting.base : s.baseStep.Waiting := by
  obtain ⟨⟨running, fresh⟩, orderly, early, midway, late⟩ := id waiting
  unfold baseStep
  split
  next pc =>
    exact ⟨⟨running, fresh⟩, orderly, fun _ => early (Or.inl pc), nofun, nofun⟩
  next pc =>
    have untouched := early (Or.inr (Or.inl pc))
    have connecting : ∀ {p : Prop}, s.io.conn.state = .kDisconnected → p := by
      rw [untouched.state]
      nofun
    exact ⟨⟨running, fresh⟩, ⟨connecting, orderly.ordered, fun _ _ => connecting⟩,
      fun _ => { untouched with }, nofun, nofun⟩
  next pc =>
    have untouched := early (Or.inr (Or.inr pc))
    have notHungUp : ¬ s.HungUp := by
      rw [HungUp, untouched.callbacks]
      exact List.not_mem_nil
    refine ⟨⟨running, ?_⟩, ⟨nofun, orderly.ordered, nofun⟩, ?_, ?_, nofun⟩
    · rw [fresh, decide_eq_false notHungUp]
      rfl
    · intro pc
      rcases pc with pc | pc | pc <;> cases pc
    · intro _
      refine ⟨Or.inl rfl, untouched.writing, ?_, ?_⟩
      · rw [untouched.toRun]
        nofun
      · rw [untouched.pendingFunctors]
        nofun
  next pc =>
    have uncalled := midway (Or.inl pc)
    split
    next =>
      refine ⟨⟨running, fresh⟩, orderly, ?_, fun _ => uncalled, nofun⟩
      intro pc
      rcases pc with pc | pc | pc <;> cases pc
    next closed =>
      have gone := uncalled.state.resolve_left closed
      refine ⟨⟨running, fresh⟩, orderly, ?_, ?_, fun _ => Or.inr gone⟩
      · intro pc
        rcases pc with pc | pc | pc <;> cases pc
      · intro pc
        rcases pc with pc | pc <;> cases pc
  next pc =>
    refine ⟨⟨running, fresh⟩, ⟨orderly.quiet, orderly.ordered, orderly.unread⟩, ?_, ?_,
      fun _ => Or.inl nofun⟩
    · intro pc
      rcases pc with pc | pc | pc <;> cases pc
    · intro pc
      rcases pc with pc | pc <;> cases pc
  next => exact waiting

/-- Data handled when the context is set goes to `onMessage`. -/
theorem Waiting.delivered {event : ConnectionLoop.Event Message} {data : Bytes} {message : Message}
    (delivered : s.io.delivered event = some (data, message)) (returned : s.pc = .returned) :
    (s.io.step unreadyServer event).context.context ≠ none ∧
      (s.io.step unreadyServer event).halted ≠ some .nullContext ∧
      (s.io.step unreadyServer event).context.unready = false := by
  obtain ⟨rest, writes, running, turn, rfl, bytes⟩ := delivered_cases delivered
  have alive : s.io.conn.state ≠ .kDisconnected := fun gone =>
    waiting.orderly.unread _ turn gone (List.mem_cons_self ..)
  obtain ⟨context, present⟩ := Option.ne_none_iff_exists'.mp
    ((waiting.late returned).resolve_right alive)
  rw [step_delivered running turn bytes]
  unfold receive
  simp only [unreadyServer, present]
  cases onMessage context (s.io.conn.inBuffer ++ data) message with
  | error halt => exact ⟨by rw [present]; nofun, nofun, waiting.waits.1.2⟩
  | ok handled => exact ⟨nofun, by rw [running]; nofun, waiting.waits.1.2⟩

theorem Waiting.io {event : ConnectionLoop.Event Message}
    (own : ∀ thread c write, event ≠ .call thread c write) (ready : s.Ready (.io event)) :
    ({ s with io := s.io.step unreadyServer event } : Establishing).Waiting := by
  obtain ⟨data, hup⟩ := ready
  cases delivered : s.io.delivered event with
  | none =>
    obtain ⟨context, halted, forward⟩ := step_undelivered unreadyServer delivered
    refine ⟨⟨?_, waiting.waits.2⟩, waiting.orderly.step, ?_, ?_, ?_⟩
    · rw [halted, context]
      exact waiting.waits.1
    · intro early
      apply (waiting.early early).step delivered own
      intro rest read input writes same turn
      have late := hup rest read input writes same turn
      rcases early with pc | pc | pc <;> simp [show s.pc = _ from pc] at late
    · intro midway
      exact (waiting.midway midway).step delivered own
    · intro returned
      rcases waiting.late returned with set | gone
      · left
        rwa [context]
      · right
        have last := forward.rank_le
        rw [gone] at last
        exact state_of_rank last
  | some given =>
    obtain ⟨bytes, message⟩ := given
    have returned := data (by rw [delivered]; nofun)
    obtain ⟨set, running⟩ := waiting.delivered delivered returned
    refine ⟨⟨running, waiting.waits.2⟩, waiting.orderly.step, ?_, ?_, fun _ => Or.inl set⟩
    · intro pc
      rcases pc with pc | pc | pc <;> cases returned.symm.trans pc
    · intro pc
      rcases pc with pc | pc <;> cases returned.symm.trans pc

theorem Waiting.step (event : Step) (ready : s.Ready event) : (s.step event).Waiting := by
  cases event with
  | base => exact waiting.base
  | io event =>
    cases event with
    | call thread c write => exact waiting
    | _ => exact waiting.io nofun ready

end

/-- Where data waits for `connectionCallback_` and a hang-up for `state_`, no event of the
connection is handled before it is ready. -/
theorem eventsWait_of_ready (events : List Step) (ready : Along Establishing.step Ready {} events) :
    (run Establishing.step {} events).EventsWait := by
  have waiting := ready.invariant Waiting start_waiting
    fun s event waiting ready => waiting.step event ready
  exact waiting.waits

/-- A request that comes after the five steps of the base loop. -/
theorem eventsWait_of_returned : (run Establishing.step {} [.base, .base, .base, .base, .base,
    .io (.poll {.EPOLLIN}), .io (.handleEvent (.delivered [71]) {} [])]).EventsWait := by
  apply eventsWait_of_ready
  refine ⟨trivial, trivial, trivial, trivial, trivial, ⟨?_, ?_⟩, ⟨?_, ?_⟩, trivial⟩
  · exact fun _ => by decide +kernel
  · exact fun _ _ _ _ _ _ => Or.inr (Or.inr (by decide +kernel))
  · exact fun _ => by decide +kernel
  · exact fun _ _ _ _ _ _ => Or.inr (Or.inr (by decide +kernel))

/-- Once the channel is registered, an empty line finds no context, and a hang-up does not
keep `state_` from being set. -/
theorem eventsWait_fails :
    ¬ (run Establishing.step {} [.base, .base, .io (.poll {.EPOLLIN}),
        .io (.handleEvent (.delivered (kCLRF ++ kCLRF)) {} [])]).EventsWait ∧
      ¬ (run Establishing.step {} [.base, .base, .io (.poll {.EPOLLHUP}),
        .io (.handleEvent (.failed 0) {} []), .base]).EventsWait := by
  constructor
  · intro waits
    exact waits.1.1 (by decide +kernel)
  · intro waits
    have fresh := waits.2
    revert fresh
    decide +kernel

end Establishing

end RabbitServer.Http
