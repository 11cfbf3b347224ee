import RabbitServer.Net.ConnectionMap

/-! Runs of a server: each connection is taken out of `connections_` once, unless a hang-up
is handled for one that is disconnected already. -/

namespace RabbitServer.Net.TcpServer
open Library.Runs

variable {LoopId : Type} {base : LoopId} {s : TcpServer LoopId}

/-- No functor waits in any loop. -/
def Idle (s : TcpServer LoopId) : Prop := ∀ loop, (s.loops loop).functors = []

/-- No removal has failed to find its connection, and while nothing waits the map holds
the established connections that are not disconnected. -/
def MapExact (s : TcpServer LoopId) : Prop :=
  s.assertFailed = false ∧
    (s.Idle → ∀ id, id ∈ s.connections ↔ ∃ served, s.served id = some served ∧
      served.conn.state ≠ .kDisconnected)

theorem Accounted.mapExact (accounted : s.Accounted base none) : s.MapExact := by
  refine ⟨accounted.running, ?_⟩
  intro idle id
  constructor
  · intro member
    cases known : s.served id with
    | none => exact absurd (by rw [state, known]; rfl) (accounted.known id member)
    | some served =>
      refine ⟨served, rfl, ?_⟩
      intro gone
      have removed := accounted.removed id
      rw [removals, idle base, if_pos ⟨member, by rw [state_served known, gone]⟩] at removed
      cases removed
  · intro present
    obtain ⟨served, known, alive⟩ := present
    exact accounted.present id _ (state_served known) alive

variable [DecidableEq LoopId]

/-- No hang-up is handled for a connection that is disconnected already. -/
def NoLateHup (s : TcpServer LoopId) : Event LoopId → Prop
  | .handleEvent loop _ _ _ _ => ∀ id rest,
      (s.loops loop).turn = .dispatching ((id, .hupCallback) :: rest) →
        s.state id ≠ some .kDisconnected
  | _ => True

theorem Accounted.receive (accounted : s.Accounted base none) {id : ConnectionId}
    {served : Served LoopId} (known : s.served id = some served) (left : Bytes)
    (calls : List ConnCall) (writes : List WriteResult) :
    (s.receive id served left calls writes).Accounted base none := by
  have same := TcpConnection.calls_state { served.conn with inBuffer := left } calls writes
  unfold TcpServer.receive
  simp only
  apply Accounted.queueCalls
  · apply accounted.keepConn known
    · rw [same]
      exact accounted.conn_established known
    · rw [same]
  · exact TcpConnection.calls_harmless _ calls writes

theorem Accounted.handleEvent (accounted : s.Accounted base none) (loop : LoopId)
    {id : ConnectionId} {callback : ChannelCallback}
    (timely : callback = .hupCallback → s.state id ≠ some .kDisconnected) (read : Buffer.Readv)
    (left : Bytes) (calls : List ConnCall) (writes : List WriteResult) :
    (s.handleEvent base loop id callback read left calls writes).Accounted base none := by
  unfold TcpServer.handleEvent
  cases known : s.served id with
  | none => exact accounted
  | some served =>
    have outcome := TcpConnection.handleEvent_outcome (accounted.conn_established known) callback
      read (writes.headD (.accepted 0))
    have alive : callback = .hupCallback → served.conn.state ≠ .kDisconnected := by
      intro hup gone
      exact timely hup (by rw [state_served known, gone])
    have set := accounted.outcome known outcome alive loop
    simp only
    split
    next message =>
      rw [message] at set
      apply set.receive
      simp [TcpServer.setConn, TcpServer.serve]
    next => exact set

theorem Accounted.functor (accounted : s.Accounted base none) {loop : LoopId} {f : ServerFunctor}
    {toRun : List ServerFunctor} (turn : (s.loops loop).turn = .running (f :: toRun))
    (write : WriteResult) :
    ((s.setTurn loop (.running toRun)).functor base loop f write).Accounted base none := by
  cases f with
  | connection id f =>
    have popped := accounted.pop turn none fun _ => rfl
    simp only [TcpServer.functor]
    split
    next => exact popped
    next served known =>
      apply popped.outcome known _ False.elim loop
      apply TcpConnection.functor_outcome (popped.conn_established known) f write
      intro same
      subst same
      have gone := accounted.destroyed loop id (by
        rw [IoLoop.functors, turn]
        exact List.mem_cons_self ..)
      exact Option.some.inj ((state_served known).symm.trans gone)
  | removeConnectionInLoop id =>
    exact (accounted.pop turn (some id) fun other => by
      simp [ServerFunctor.removes]).removeConnectionInLoop
  | removeConnectionFromMapInLoop id =>
    exact (accounted.pop turn (some id) fun other => by
      simp [ServerFunctor.removes]).removeConnectionFromMapInLoop

theorem Accounted.next (accounted : s.Accounted base none) (event : Event LoopId)
    (timely : s.NoLateHup event) : (s.next base event).Accounted base none := by
  cases event with
  | newConnetion ioLoop =>
    simp only [TcpServer.next]
    split
    next => exact accounted.newConnetion ioLoop
    next => exact accounted
  | poll loop active =>
    simp only [TcpServer.next]
    split
    next can => exact accounted.turn loop _ (by simp [IoLoop.functors, can.1, Turn.toRun])
    next => exact accounted
  | handleEvent loop read left calls writes =>
    simp only [TcpServer.next]
    split
    next id callback rest turn =>
      have moved := accounted.turn loop
        { s.loops loop with turn := .dispatching rest }
        (by simp [IoLoop.functors, turn, Turn.toRun])
      apply moved.handleEvent loop
      intro same
      subst same
      exact timely id rest turn
    next => exact accounted
  | doPendingFunctors loop =>
    simp only [TcpServer.next]
    split
    next turn => exact accounted.turn loop _ (by simp [IoLoop.functors, turn, Turn.toRun])
    next => exact accounted
  | functor loop write =>
    simp only [TcpServer.next]
    split
    next f toRun turn => exact accounted.functor turn write
    next => exact accounted
  | iterate loop =>
    simp only [TcpServer.next]
    split
    next turn => exact accounted.turn loop _ (by simp [IoLoop.functors, turn, Turn.toRun])
    next => exact accounted
  | call thread id c write =>
    simp only [TcpServer.next]
    split
    next => exact accounted
    next served known =>
      split
      next => exact accounted
      next =>
        have same := served.conn.call_state (thread = some served.loop) c write
        apply Accounted.queueCalls
        · apply accounted.keepConn known
          · rw [same]
            exact accounted.conn_established known
          · rw [same]
        · exact TcpConnection.call_harmless _ _ c write

theorem Accounted.step (accounted : s.Accounted base none) (event : Event LoopId)
    (timely : s.NoLateHup event) : (s.step base event).Accounted base none := by
  unfold TcpServer.step
  rw [accounted.running]
  exact accounted.next event timely

/-- In a run in which no hang-up comes late, every connection is removed once and the map
is exact in every state. -/
theorem mapExact_of_noLateHup (base : LoopId) (events : List (Event LoopId))
    (timely : Along (TcpServer.step base) NoLateHup {} events) :
    (run (TcpServer.step base) {} events).MapExact := by
  have accounted := timely.invariant (Accounted base none) start_accounted
    fun s event accounted timely => accounted.step event timely
  exact accounted.mapExact

/-- One loop in which a connection has been established and `closeConnection` been called. -/
def closeTurn : List (Event Unit) :=
  [.poll () [], .newConnetion (), .doPendingFunctors (), .iterate (),
    .call none 0 .closeConnection (.accepted 0), .poll () [], .doPendingFunctors (),
    .functor () (.accepted 0), .iterate ()]

/-- One loop in which a connection has been established and the peer hangs up. -/
def hupTurn : List (Event Unit) :=
  [.poll () [], .newConnetion (), .doPendingFunctors (), .iterate (), .poll () [(0, {.EPOLLHUP})]]

theorem mapExact_of_hup :
    (run (TcpServer.step ()) {} (hupTurn ++ [.handleEvent () (.failed 0) [] [] []])).MapExact := by
  apply mapExact_of_noLateHup
  refine ⟨trivial, trivial, trivial, trivial, trivial, ?_, trivial⟩
  intro id rest turn
  change ((run (TcpServer.step ()) {} hupTurn).loops ()).turn = _ at turn
  rw [show ((run (TcpServer.step ()) {} hupTurn).loops ()).turn =
    .dispatching [(0, .hupCallback)] by decide +kernel] at turn
  cases turn
  decide +kernel

/-- The connection is disconnected by `closeConnectionInLoop`, and `connectionDestroyed`
waits for the next turn, but the next poll reports a hang-up first. -/
theorem mapExact_fails :
    ¬ (run (TcpServer.step ()) {} (closeTurn ++
      [.poll () [(0, {.EPOLLHUP})], .handleEvent () (.failed 0) [] [] []])).MapExact := by
  intro exactly
  have running := exactly.1
  revert running
  decide +kernel

end RabbitServer.Net.TcpServer
