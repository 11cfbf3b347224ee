import RabbitServer.Library.Simulation
import RabbitServer.Net.LoopHomes

/-! A server seen from one of its connections: what stands in its loops for the connection, and
what the operations of the server come to for it. -/

namespace RabbitServer.Net
open Library.Runs

/-- The functors a loop holds for the connection. -/
def ownFunctors (id : ConnectionId) (functors : List ServerFunctor) : List LoopFunctor :=
  functors.filterMap fun
    | .connection other f => if other = id then some f else none
    | _ => none

/-- The turn of a loop, without what is in it for other connections. -/
def ownTurn (id : ConnectionId) :
    Turn (ConnectionId × ChannelCallback) ServerFunctor → Turn ChannelCallback LoopFunctor
  | .polling => .polling
  | .dispatching active => .dispatching (ownEvents id active)
  | .running toRun => .running (ownFunctors id toRun)

@[simp] theorem ownFunctors_append (id : ConnectionId) (first second : List ServerFunctor) :
    ownFunctors id (first ++ second) = ownFunctors id first ++ ownFunctors id second :=
  List.filterMap_append

@[simp] theorem ownFunctors_map (id : ConnectionId) (functors : List LoopFunctor) :
    ownFunctors id (functors.map (.connection id)) = functors := by
  simp [ownFunctors, List.filterMap_map]

theorem ownFunctors_map_other {id other : ConnectionId} (different : other ≠ id)
    (functors : List LoopFunctor) : ownFunctors id (functors.map (.connection other)) = [] := by
  simp [ownFunctors, List.filterMap_map, different]

@[simp] theorem ownFunctors_own (id : ConnectionId) (f : LoopFunctor)
    (functors : List ServerFunctor) :
    ownFunctors id (.connection id f :: functors) = f :: ownFunctors id functors := by
  simp [ownFunctors]

theorem ownFunctors_other {id other : ConnectionId} (different : other ≠ id) (f : LoopFunctor)
    (functors : List ServerFunctor) :
    ownFunctors id (.connection other f :: functors) = ownFunctors id functors := by
  simp [ownFunctors, different]

theorem ownFunctors_nil_of {id : ConnectionId} {functors : List ServerFunctor}
    (none : ∀ f, .connection id f ∉ functors) : ownFunctors id functors = [] := by
  rw [ownFunctors, List.filterMap_eq_nil_iff]
  intro g member
  cases g with
  | connection other f =>
    have different : other ≠ id := by
      rintro rfl
      exact none f member
    simp [different]
  | removeConnectionInLoop other => rfl
  | removeConnectionFromMapInLoop other => rfl

@[simp] theorem ownEvents_append (id : ConnectionId)
    (first second : List (ConnectionId × ChannelCallback)) :
    ownEvents id (first ++ second) = ownEvents id first ++ ownEvents id second :=
  List.filterMap_append

@[simp] theorem ownEvents_map (id : ConnectionId) (callbacks : List ChannelCallback) :
    ownEvents id (callbacks.map fun callback => (id, callback)) = callbacks := by
  simp [ownEvents, List.filterMap_map]

theorem ownEvents_map_other {id other : ConnectionId} (different : other ≠ id)
    (callbacks : List ChannelCallback) :
    ownEvents id (callbacks.map fun callback => (other, callback)) = [] := by
  simp [ownEvents, List.filterMap_map, different]

/-- What a poll has reported for a connection is all that is dispatched for it. -/
theorem ownEvents_active (id : ConnectionId) {active : List (ConnectionId × Events)}
    (once : (active.map Prod.fst).Nodup) :
    ownEvents id (active.flatMap fun entry =>
        (handleEventWithGuard entry.2).map fun callback => (entry.1, callback)) =
      handleEventWithGuard ((active.lookup id).getD ∅) := by
  induction active with
  | nil => rfl
  | cons entry rest ih =>
    obtain ⟨other, revents⟩ := entry
    obtain ⟨new, once⟩ := List.nodup_cons.mp once
    rw [List.flatMap_cons, ownEvents_append, ih once]
    by_cases same : id = other
    · subst same
      have absent : rest.lookup id = none := List.lookup_eq_none_iff.mpr fun found member => by
        simp only [bne_iff_ne, ne_eq]
        rintro rfl
        exact new (List.mem_map.mpr ⟨found, member, rfl⟩)
      rw [ownEvents_map, absent, List.lookup_cons_self]
      exact List.append_nil _
    · rw [ownEvents_map_other (Ne.symm same), List.nil_append, List.lookup_cons,
        beq_false_of_ne same]

namespace TcpServer
variable {LoopId : Type} {base : LoopId} {s : TcpServer LoopId} [DecidableEq LoopId]

/-- The connection as `ConnectionLoop` has it: its own part of its loop, and the removals on
their way through the base loop. -/
structure View {Context Halt : Type} (base : LoopId) (s : TcpServer LoopId) (id : ConnectionId)
    (served : Served LoopId) (c : ConnectionLoop Context Halt) : Prop where
  known : s.served id = some served
  conn : c.conn = served.conn
  turn : c.turn = ownTurn id (s.loops served.loop).turn
  pendingFunctors : c.pendingFunctors = ownFunctors id (s.loops served.loop).pendingFunctors
  removing : s.assertFailed = false →
    c.removing = (s.loops base).functors.count (.removeConnectionInLoop id)

section
variable {Context Input Halt : Type} {id : ConnectionId} {served : Served LoopId}
  {c : ConnectionLoop Context Halt} (view : s.View base id served c)
include view

omit [DecidableEq LoopId] in
theorem View.setConn (conn : TcpConnection) :
    (s.setConn id served.loop conn).View base id { served with conn } { c with conn } where
  known := by simp [TcpServer.setConn]
  conn := rfl
  turn := view.turn
  pendingFunctors := view.pendingFunctors
  removing := view.removing

omit [DecidableEq LoopId] in
theorem View.setConn_other {other : ConnectionId} (different : other ≠ id) (loop : LoopId)
    (conn : TcpConnection) : (s.setConn other loop conn).View base id served c where
  known := by
    simp only [TcpServer.setConn, Function.update_apply, if_neg different.symm, view.known]
  conn := view.conn
  turn := view.turn
  pendingFunctors := view.pendingFunctors
  removing := view.removing

omit [DecidableEq LoopId] in
theorem View.connections (connections : Finset ConnectionId) :
    ({ s with connections } : TcpServer LoopId).View base id served c :=
  ⟨view.known, view.conn, view.turn, view.pendingFunctors, view.removing⟩

omit [DecidableEq LoopId] in
theorem View.failed : ({ s with assertFailed := true } : TcpServer LoopId).View base id served c :=
  ⟨view.known, view.conn, view.turn, view.pendingFunctors, nofun⟩

theorem View.queueInLoop (loop : LoopId) (fs : List ServerFunctor) :
    (s.queueInLoop loop fs).View base id served { c with
      pendingFunctors := c.pendingFunctors ++
        if loop = served.loop then ownFunctors id fs else []
      removing := c.removing + if loop = base then fs.count (.removeConnectionInLoop id) else 0 }
    where
  known := view.known
  conn := view.conn
  turn := by
    rw [TcpServer.queueInLoop, setLoop_loops]
    by_cases same : served.loop = loop
    · rw [if_pos same, ← same]
      exact view.turn
    · rw [if_neg same]
      exact view.turn
  pendingFunctors := by
    rw [TcpServer.queueInLoop, setLoop_loops]
    by_cases same : loop = served.loop
    · rw [if_pos same, if_pos same.symm, view.pendingFunctors, ownFunctors_append, same]
    · rw [if_neg same, if_neg (Ne.symm same), view.pendingFunctors, List.append_nil]
  removing := by
    intro running
    rw [TcpServer.queueInLoop, setLoop_loops]
    by_cases same : loop = base
    · rw [if_pos same, if_pos same.symm, view.removing running, same]
      simp only [IoLoop.functors, List.count_append]
      omega
    · rw [if_neg same, if_neg (Ne.symm same), view.removing running, Nat.add_zero]

/-- What is queued for another connection is not seen. -/
theorem View.queueInLoop_other (loop : LoopId) (fs : List ServerFunctor)
    (none : ownFunctors id fs = []) (kept : .removeConnectionInLoop id ∉ fs) :
    (s.queueInLoop loop fs).View base id served c := by
  have queued := view.queueInLoop loop fs
  rw [none, List.count_eq_zero.mpr kept] at queued
  simpa using queued

/-- A loop moves on; where it is not that of the connection, only removals are seen of it. -/
theorem View.setTurn (loop : LoopId)
    (turn : Turn (ConnectionId × ChannelCallback) ServerFunctor)
    (kept : turn.toRun.count (.removeConnectionInLoop id) =
      (s.loops loop).turn.toRun.count (.removeConnectionInLoop id)) :
    (s.setTurn loop turn).View base id served { c with
      turn := if loop = served.loop then ownTurn id turn else c.turn } where
  known := view.known
  conn := view.conn
  turn := by
    rw [TcpServer.setTurn, setLoop_loops]
    by_cases same : loop = served.loop
    · rw [if_pos same, if_pos same.symm]
    · rw [if_neg same, if_neg (Ne.symm same), view.turn]
  pendingFunctors := by
    rw [TcpServer.setTurn, setLoop_loops]
    by_cases same : served.loop = loop
    · rw [if_pos same, ← same]
      exact view.pendingFunctors
    · rw [if_neg same]
      exact view.pendingFunctors
  removing := by
    intro running
    rw [TcpServer.setTurn, setLoop_loops, view.removing running]
    by_cases same : base = loop
    · rw [if_pos same]
      simp only [IoLoop.functors, List.count_append, kept, same]
    · rw [if_neg same]

/-- A turn goes on with something that is not the connection's. -/
theorem View.setTurn_unseen (loop : LoopId)
    (turn : Turn (ConnectionId × ChannelCallback) ServerFunctor)
    (kept : turn.toRun.count (.removeConnectionInLoop id) =
      (s.loops loop).turn.toRun.count (.removeConnectionInLoop id))
    (unseen : ownTurn id turn = ownTurn id (s.loops loop).turn) :
    (s.setTurn loop turn).View base id served c := by
  have turned := view.setTurn loop turn kept
  have same : (if loop = served.loop then ownTurn id turn else c.turn) = c.turn := by
    split
    next here => rw [unseen, view.turn, here]
    next => rfl
  rw [same] at turned
  exact turned

/-- A loop swaps out what is queued. -/
theorem View.swap (loop : LoopId) (turn : (s.loops loop).turn = .dispatching []) :
    (s.setLoop loop { turn := .running (s.loops loop).pendingFunctors }).View base id served
      { c with
        turn := if loop = served.loop then .running c.pendingFunctors else c.turn
        pendingFunctors := if loop = served.loop then [] else c.pendingFunctors } where
  known := view.known
  conn := view.conn
  turn := by
    rw [setLoop_loops]
    by_cases same : served.loop = loop
    · rw [if_pos same, if_pos same.symm, view.pendingFunctors, same]
      rfl
    · rw [if_neg same, if_neg (Ne.symm same)]
      exact view.turn
  pendingFunctors := by
    rw [setLoop_loops]
    dsimp only
    by_cases same : served.loop = loop
    · rw [if_pos same, if_pos same.symm]
      rfl
    · rw [if_neg same, if_neg (Ne.symm same)]
      exact view.pendingFunctors
  removing := by
    intro running
    rw [setLoop_loops, view.removing running]
    by_cases same : base = loop
    · rw [if_pos same, same, IoLoop.functors, IoLoop.functors, turn]
      simp [Turn.toRun]
    · rw [if_neg same]

/-- A removal is taken off the turn of the base loop. -/
theorem View.popRemoval {toRun : List ServerFunctor}
    (turn : (s.loops base).turn = .running (.removeConnectionInLoop id :: toRun)) :
    (s.setTurn base (.running toRun)).View base id served
        { c with removing := c.removing - 1 } ∧
      (s.assertFailed = false → 0 < c.removing) := by
  have counted : s.assertFailed = false → c.removing =
      toRun.count (.removeConnectionInLoop id) +
        (s.loops base).pendingFunctors.count (.removeConnectionInLoop id) + 1 := by
    intro running
    rw [view.removing running, IoLoop.functors, turn]
    simp only [Turn.toRun, List.cons_append, List.count_cons_self, List.count_append]
  refine ⟨⟨view.known, view.conn, ?_, ?_, ?_⟩, fun running => by rw [counted running]; omega⟩
  · rw [TcpServer.setTurn, setLoop_loops]
    by_cases same : served.loop = base
    · rw [if_pos same]
      have before := view.turn
      rw [same, turn] at before
      exact before
    · rw [if_neg same]
      exact view.turn
  · rw [TcpServer.setTurn, setLoop_loops]
    by_cases same : served.loop = base
    · rw [if_pos same, ← same]
      exact view.pendingFunctors
    · rw [if_neg same]
      exact view.pendingFunctors
  · intro running
    rw [TcpServer.setTurn, setLoop_loops, if_pos rfl]
    simp only [IoLoop.functors, Turn.toRun, List.count_append]
    rw [counted running]
    omega

end

/-- `closeCallback_` in the base loop removes its connection at once, and the loop of the
connection gets `connectionDestroyed`. -/
def removal {Input : Type} (base : LoopId) (s : TcpServer LoopId) (loop : LoopId)
    (id : ConnectionId) (callback : Option ServerCallback) : List (ConnectionLoop.Event Input) :=
  if callback = some .closeCallback ∧ loop = base ∧ id ∈ s.connections then
    [.removeConnectionInLoop]
  else []

theorem removal_quiet {Input : Type} {loop : LoopId} {id : ConnectionId}
    {callback : Option ServerCallback} (quiet : callback ≠ some .closeCallback) :
    (s.removal base loop id callback : List (ConnectionLoop.Event Input)) = [] :=
  if_neg fun all => quiet all.1

variable (base s) in
/-- Such a removal is no matter of the application. -/
theorem run_removal {Context Input Halt : Type} (app : App Context Input Halt)
    (c : ConnectionLoop Context Halt) (loop : LoopId) (id : ConnectionId)
    (callback : Option ServerCallback) :
    (run (ConnectionLoop.step app) c (s.removal base loop id callback)).context = c.context ∧
      (run (ConnectionLoop.step app) c (s.removal base loop id callback)).halted = c.halted := by
  unfold removal
  split
  next =>
    simp only [run_cons, run_nil, ConnectionLoop.step, ConnectionLoop.next]
    split
    next => exact ⟨rfl, rfl⟩
    next => split <;> exact ⟨rfl, rfl⟩
  next => exact ⟨rfl, rfl⟩

section
variable {Context Input Halt : Type} {app : App Context Input Halt} {id : ConnectionId}
  {served : Served LoopId} {c : ConnectionLoop Context Halt} (view : s.View base id served c)
include view

omit [DecidableEq LoopId] in
theorem View.removeConnectionFromMapInLoop (other : ConnectionId) :
    (s.removeConnectionFromMapInLoop other).View base id served c := by
  unfold TcpServer.removeConnectionFromMapInLoop
  split
  next => exact view.connections _
  next => exact view.failed

/-- The removal of another connection. -/
theorem View.removeConnectionInLoop_other {other : ConnectionId} (different : other ≠ id) :
    (s.removeConnectionInLoop other).View base id served c := by
  unfold TcpServer.removeConnectionInLoop
  split
  next =>
    have erased := view.connections (s.connections.erase other)
    dsimp only
    split
    next theirs _ =>
      apply erased.queueInLoop_other
      · simp [ownFunctors, different]
      · simp
    next => exact erased
  next => exact view.failed

/-- The removal of the connection itself, which takes one off those that are on their way. -/
theorem View.removeConnectionInLoop (app : App Context Input Halt) (running : c.halted = none) (present : id ∈ s.connections) :
    (s.removeConnectionInLoop id).View base id served
      (ConnectionLoop.step app { c with removing := c.removing + 1 } .removeConnectionInLoop) := by
  have erased := view.connections (s.connections.erase id)
  have queued := erased.queueInLoop served.loop [.connection id .connectionDestroyed]
  rw [TcpServer.removeConnectionInLoop, if_pos present]
  simp only [view.known]
  simpa [ConnectionLoop.step, running, ConnectionLoop.next, ownFunctors] using queued

/-- The server is told of a callback, and the connection that made it has one removal more on
its way where it is to be closed. -/
theorem View.serve (app : App Context Input Halt) (running : c.halted = none) (loop : LoopId)
    (callback : Option ServerCallback) :
    (s.serve base loop id callback).View base id served
      (run (ConnectionLoop.step app)
        { c with removing := if callback = some .closeCallback then c.removing + 1 else c.removing }
        (s.removal base loop id callback)) := by
  unfold TcpServer.serve removal
  split
  next =>
    rw [if_pos rfl]
    split
    next here =>
      by_cases present : id ∈ s.connections
      · rw [if_pos ⟨rfl, here, present⟩]
        exact view.removeConnectionInLoop app running present
      · rw [if_neg fun all => present all.2.2, TcpServer.removeConnectionInLoop, if_neg present]
        refine ⟨view.known, view.conn, view.turn, view.pendingFunctors, ?_⟩
        rintro ⟨⟩
    next away =>
      rw [if_neg fun all => away all.2.1]
      simpa [ownFunctors] using view.queueInLoop base [.removeConnectionInLoop id]
  next =>
    simp only [Option.some.injEq, reduceCtorEq, if_false, false_and, run_nil]
    split
    next => exact view.removeConnectionFromMapInLoop id
    next => exact view.queueInLoop_other base _ (by simp [ownFunctors]) (by simp)
  next close _ =>
    have quiet : callback ≠ some .closeCallback := close
    rw [if_neg quiet, if_neg fun all => quiet all.1]
    exact view

theorem View.serve_other {other : ConnectionId} (different : other ≠ id) (loop : LoopId)
    (callback : Option ServerCallback) : (s.serve base loop other callback).View base id served c := by
  unfold TcpServer.serve
  split
  next =>
    split
    next => exact view.removeConnectionInLoop_other different
    next =>
      apply view.queueInLoop_other
      · simp [ownFunctors]
      · simpa using different.symm
  next =>
    split
    next => exact view.removeConnectionFromMapInLoop other
    next => exact view.queueInLoop_other base _ (by simp [ownFunctors]) (by simp)
  next => exact view

theorem View.receive {input : Input} {context : Context} {left : Bytes} {calls : List ConnCall}
    (returned : app.messageCallback c.context c.conn.inBuffer input = .ok (context, left, calls))
    (writes : List WriteResult) :
    ∃ conn, (s.receive id served left calls writes).View base id { served with conn }
      (c.receive app input writes) := by
  have set := view.setConn ({ served.conn with inBuffer := left }.calls calls writes).1
  have queued := set.queueInLoop served.loop
    (({ served.conn with inBuffer := left }.calls calls writes).2.map (.connection id))
  refine ⟨({ served.conn with inBuffer := left }.calls calls writes).1, ?_⟩
  rw [if_pos rfl, ownFunctors_map, List.count_eq_zero.mpr (by simp), ite_self, Nat.add_zero] at queued
  rw [view.conn] at returned
  simp only [ConnectionLoop.receive, view.conn, returned]
  exact ⟨queued.known, rfl, queued.turn, queued.pendingFunctors, queued.removing⟩

theorem View.receive_other {other : ConnectionId} (different : other ≠ id)
    (theirs : Served LoopId) (left : Bytes) (calls : List ConnCall) (writes : List WriteResult) :
    (s.receive other theirs left calls writes).View base id served c := by
  unfold TcpServer.receive
  apply (view.setConn_other different _ _).queueInLoop_other
  · exact ownFunctors_map_other different _
  · simp

/-- An operation has ended in a callback; the one for bytes that were read is not the server's. -/
theorem View.ended (app : App Context Input Halt) (running : c.halted = none) (loop : LoopId)
    (result : TcpConnection × Option ServerCallback) :
    ((s.setConn id served.loop result.1).serve base loop id result.2).View base id
      { served with conn := result.1 }
      (run (ConnectionLoop.step app) (c.ended result) (s.removal base loop id result.2)) := by
  have set := view.setConn result.1
  have called : (s.setConn id served.loop result.1).View base id { served with conn := result.1 }
      { c with conn := result.1, callbacks := c.callbacks ++ result.2.toList } :=
    ⟨set.known, set.conn, set.turn, set.pendingFunctors, set.removing⟩
  exact called.serve app running loop result.2

/-- An event of the connection is that event for `ConnectionLoop`. -/
theorem View.handleEvent_quiet (app : App Context Input Halt) (running : c.halted = none)
    (loop : LoopId) (callback : ChannelCallback) (read : Buffer.Readv) (input : Input)
    (left : Bytes) (calls : List ConnCall) (writes : List WriteResult)
    (quiet : (c.conn.handleEvent callback read (writes.headD (.accepted 0))).2 ≠
      some .messageCallback) :
    ∃ conn, (s.handleEvent base loop id callback read left calls writes).View base id
      { served with conn }
      (run (ConnectionLoop.step app) (c.handleEvent app callback read input writes)
        (s.removal base loop id
          (c.conn.handleEvent callback read (writes.headD (.accepted 0))).2)) := by
  simp only [TcpServer.handleEvent, view.known, ConnectionLoop.handleEvent, ← view.conn]
  generalize c.conn.handleEvent callback read (writes.headD (.accepted 0)) = result at quiet ⊢
  rw [if_neg quiet, if_neg quiet]
  exact ⟨result.1, view.ended app running loop result⟩

/-- What `messageCallback_` has left and called is what the application makes of the unread
bytes. -/
theorem View.handleEvent_answered (loop : LoopId) (callback : ChannelCallback)
    (read : Buffer.Readv) (input : Input) {context : Context} {left : Bytes}
    {calls : List ConnCall} (writes : List WriteResult)
    (message : (c.conn.handleEvent callback read (writes.headD (.accepted 0))).2 =
      some .messageCallback)
    (returned : app.messageCallback c.context
      (c.conn.handleEvent callback read (writes.headD (.accepted 0))).1.inBuffer input =
        .ok (context, left, calls)) :
    ∃ conn, (s.handleEvent base loop id callback read left calls writes).View base id
      { served with conn } (c.handleEvent app callback read input writes) := by
  simp only [TcpServer.handleEvent, view.known, ConnectionLoop.handleEvent, ← view.conn]
  generalize c.conn.handleEvent callback read (writes.headD (.accepted 0)) = result
    at message returned ⊢
  have set := view.setConn result.1
  have called : (s.setConn id served.loop result.1).View base id
      { served with conn := result.1 } (c.ended result) := by
    refine ⟨set.known, set.conn, set.turn, set.pendingFunctors, ?_⟩
    rw [ConnectionLoop.ended, message]
    exact set.removing
  rw [if_pos message, if_pos message]
  exact called.receive returned writes

/-- A `messageCallback_` that halts has been given the bytes and changes nothing else. -/
theorem View.handleEvent_halted (loop : LoopId) (callback : ChannelCallback)
    (read : Buffer.Readv) (input : Input) {halt : Halt} (writes : List WriteResult)
    (message : (c.conn.handleEvent callback read (writes.headD (.accepted 0))).2 =
      some .messageCallback)
    (stops : app.messageCallback c.context
      (c.conn.handleEvent callback read (writes.headD (.accepted 0))).1.inBuffer input =
        .error halt) :
    ∃ conn, (s.handleEvent base loop id callback read
        (c.conn.handleEvent callback read (writes.headD (.accepted 0))).1.inBuffer []
        writes).View base id { served with conn } (c.handleEvent app callback read input writes) := by
  simp only [TcpServer.handleEvent, view.known, ConnectionLoop.handleEvent, ← view.conn]
  generalize c.conn.handleEvent callback read (writes.headD (.accepted 0)) = result
    at message stops ⊢
  have set := (view.setConn result.1).setConn result.1
  have queued := set.queueInLoop_other served.loop [] rfl List.not_mem_nil
  refine ⟨result.1, ?_⟩
  rw [if_pos message, if_pos message, ConnectionLoop.receive]
  simp only [ConnectionLoop.ended, stops, message]
  exact ⟨queued.known, queued.conn, queued.turn, queued.pendingFunctors, queued.removing⟩

theorem View.handleEvent_other {other : ConnectionId} (different : other ≠ id) (loop : LoopId)
    (callback : ChannelCallback) (read : Buffer.Readv) (left : Bytes) (calls : List ConnCall)
    (writes : List WriteResult) :
    (s.handleEvent base loop other callback read left calls writes).View base id served c := by
  unfold TcpServer.handleEvent
  split
  next => exact view
  next theirs _ =>
    have set := view.setConn_other different theirs.loop
      (theirs.conn.handleEvent callback read (writes.headD (.accepted 0))).1
    dsimp only
    split
    next => exact set.receive_other different _ left calls writes
    next => exact set.serve_other different loop _

theorem View.functor (app : App Context Input Halt) (running : c.halted = none) (loop : LoopId) (f : LoopFunctor)
    (write : WriteResult) :
    ∃ conn, (s.functor base loop (.connection id f) write).View base id { served with conn }
      (run (ConnectionLoop.step app) (c.ended (c.conn.functor f write))
        (s.removal base loop id (c.conn.functor f write).2)) := by
  simp only [TcpServer.functor, view.known, ← view.conn]
  exact ⟨_, view.ended app running loop (c.conn.functor f write)⟩

theorem View.functor_other {other : ConnectionId} (different : other ≠ id) (loop : LoopId)
    (f : LoopFunctor) (write : WriteResult) :
    (s.functor base loop (.connection other f) write).View base id served c := by
  simp only [TcpServer.functor]
  split
  next => exact view
  next theirs _ => exact (view.setConn_other different _ _).serve_other different loop _

end

end TcpServer

end RabbitServer.Net
