import RabbitServer.Net.ConnectionOutcome
import RabbitServer.Net.TcpServer

/-! `connections_` against the connections: a disconnected one that is still in the map has
exactly one removal on its way through the base loop. -/

namespace RabbitServer.Net

def IoLoop.functors (loop : IoLoop) : List ServerFunctor :=
  loop.turn.toRun ++ loop.pendingFunctors

/-- The functor is one of the two that take the connection out of the map. -/
def ServerFunctor.removes (id : ConnectionId) : ServerFunctor → Bool
  | .connection _ _ => false
  | .removeConnectionInLoop other => other = id
  | .removeConnectionFromMapInLoop other => other = id

namespace TcpServer
variable {LoopId : Type} {base : LoopId} {s : TcpServer LoopId}

def state (s : TcpServer LoopId) (id : ConnectionId) : Option State :=
  (s.served id).map fun served => served.conn.state

theorem setConn_state (s : TcpServer LoopId) (id other : ConnectionId) (loop : LoopId)
    (conn : TcpConnection) :
    (s.setConn id loop conn).state other =
      if other = id then some conn.state else s.state other := by
  simp only [state, setConn, Function.update_apply]
  split <;> rfl

theorem state_served {id : ConnectionId} {served : Served LoopId}
    (known : s.served id = some served) : s.state id = some served.conn.state := by
  rw [state, known]
  rfl

/-- The removals of a connection that wait in the base loop. -/
def removals (base : LoopId) (s : TcpServer LoopId) (id : ConnectionId) : Nat :=
  (s.loops base).functors.countP (ServerFunctor.removes id)

def due (owed : Option ConnectionId) (id : ConnectionId) : Nat := if owed = some id then 1 else 0

/-- Every disconnected connection still in the map has exactly one removal on its way;
`owed` is the one whose removal is just being made. -/
structure Accounted (base : LoopId) (owed : Option ConnectionId) (s : TcpServer LoopId) : Prop where
  running : s.assertFailed = false
  removed : ∀ id, s.removals base id + due owed id =
    if id ∈ s.connections ∧ s.state id = some .kDisconnected then 1 else 0
  present : ∀ id state, s.state id = some state → state ≠ .kDisconnected → id ∈ s.connections
  known : ∀ id ∈ s.connections, s.state id ≠ none
  established : ∀ id, s.state id ≠ some .kConnecting
  destroyed : ∀ loop id, .connection id .connectionDestroyed ∈ (s.loops loop).functors →
    s.state id = some .kDisconnected
  inBase : ∀ loop id, ∀ f ∈ (s.loops loop).functors, f.removes id = true → loop = base
  fresh : ∀ id, s.nextConnectionId ≤ id → s.served id = none

theorem start_accounted : ({} : TcpServer LoopId).Accounted base none where
  running := rfl
  removed := fun _ => rfl
  present := nofun
  known := nofun
  established := nofun
  destroyed := nofun
  inBase := nofun
  fresh := fun _ _ => rfl

/-- A connection changes; unless its disconnection is what is owed, it stays disconnected
or not. -/
theorem Accounted.setConn {owed : Option ConnectionId} (accounted : s.Accounted base none)
    {id : ConnectionId} {served : Served LoopId} (known : s.served id = some served)
    (loop : LoopId) (conn : TcpConnection) (established : conn.state ≠ .kConnecting)
    (later : conn.state = .kDisconnected ↔
      served.conn.state = .kDisconnected ∨ owed = some id)
    (alive : owed = some id → served.conn.state ≠ .kDisconnected)
    (only : ∀ other, owed = some other → other = id) :
    (s.setConn id loop conn).Accounted base owed where
  running := accounted.running
  removed := by
    intro other
    have before := accounted.removed other
    have queued : (s.setConn id loop conn).removals base other = s.removals base other := rfl
    have kept : (s.setConn id loop conn).connections = s.connections := rfl
    simp only [queued, kept, setConn_state]
    by_cases same : other = id
    · subst same
      rw [if_pos rfl, state_served known] at *
      by_cases owing : owed = some other
      · -- it was in the map and alive, so no removal was on its way
        have present := accounted.present other _ (state_served known) (alive owing)
        have gone := later.mpr (Or.inr owing)
        simp only [Option.some.injEq, alive owing, and_false, if_false, due, reduceCtorEq] at before
        simp only [due, if_pos owing, gone, present, and_self, if_true]
        omega
      · simp only [due, if_neg owing, reduceCtorEq, if_false] at before ⊢
        rw [before]
        simp only [Option.some.injEq, later, owing, or_false]
    · have other_owed : owed ≠ some other := fun owing => same (only other owing)
      rw [if_neg same, ← before, due, due, if_neg other_owed, if_neg nofun]
  present := by
    intro other state after notGone
    rw [setConn_state] at after
    split at after
    next same =>
      subst same
      have before : served.conn.state ≠ .kDisconnected := by
        intro gone
        exact notGone ((Option.some.inj after).symm.trans (later.mpr (Or.inl gone)))
      exact accounted.present other _ (state_served known) before
    next => exact accounted.present other state after notGone
  known := by
    intro other member
    rw [setConn_state]
    split
    next => nofun
    next => exact accounted.known other member
  established := by
    intro other
    rw [setConn_state]
    split
    next => exact fun same => established (Option.some.inj same)
    next => exact accounted.established other
  destroyed := by
    intro l other member
    have gone := accounted.destroyed l other member
    rw [setConn_state]
    split
    next same =>
      rw [same, state_served known] at gone
      rw [later.mpr (Or.inl (Option.some.inj gone))]
    next => exact gone
  inBase := accounted.inBase
  fresh := by
    intro other new
    have absent := accounted.fresh other new
    have different : other ≠ id := by
      intro same
      subst same
      rw [known] at absent
      cases absent
    simp only [TcpServer.setConn, Function.update_apply, if_neg different, absent]

section
variable {id : ConnectionId} {served : Served LoopId} (known : s.served id = some served)
include known

theorem Accounted.conn_established (accounted : s.Accounted base none) :
    served.conn.state ≠ .kConnecting := by
  intro state
  exact accounted.established id (by rw [state_served known, state])

/-- A change that neither disconnects the connection nor revives it owes nothing. -/
theorem Accounted.keepConn (accounted : s.Accounted base none) (loop : LoopId)
    (conn : TcpConnection) (established : conn.state ≠ .kConnecting)
    (same : conn.state = .kDisconnected ↔ served.conn.state = .kDisconnected) :
    (s.setConn id loop conn).Accounted base none := by
  apply accounted.setConn known loop conn established
  · rw [same]
    exact (or_iff_left (Option.some_ne_none id).symm).symm
  · intro owing
    cases owing
  · intro other owing
    cases owing

/-- A change that disconnects the connection owes its removal. -/
theorem Accounted.disconnectConn (accounted : s.Accounted base none) (loop : LoopId)
    (conn : TcpConnection) (gone : conn.state = .kDisconnected)
    (alive : served.conn.state ≠ .kDisconnected) :
    (s.setConn id loop conn).Accounted base (some id) := by
  apply accounted.setConn known loop conn
  · rw [gone]
    decide
  · exact iff_of_true gone (Or.inr rfl)
  · exact fun _ => alive
  · intro other owing
    exact (Option.some.inj owing).symm

end

section
variable {id : ConnectionId} (accounted : s.Accounted base (some id))
include accounted

/-- What is owed a removal is disconnected and still in the map. -/
theorem Accounted.owing :
    id ∈ s.connections ∧ s.state id = some .kDisconnected ∧ s.removals base id = 0 := by
  have removed := accounted.removed id
  rw [due, if_pos rfl] at removed
  split at removed
  next waiting => exact ⟨waiting.1, waiting.2, by omega⟩
  next => omega

theorem Accounted.erase :
    ({ s with connections := s.connections.erase id } : TcpServer LoopId).Accounted base none := by
  obtain ⟨_, gone, none⟩ := accounted.owing
  refine { accounted with removed := ?_, present := ?_, known := ?_ }
  · intro other
    have before := accounted.removed other
    change s.removals base other + 0 = _
    by_cases same : other = id
    · subst same
      rw [none, if_neg (fun waiting => Finset.notMem_erase other _ waiting.1)]
    · rw [due, if_neg (fun owing => same (Option.some.inj owing).symm)] at before
      simp only [before, Finset.mem_erase, ne_eq, same, not_false_eq_true, true_and]
      rfl
  · intro other state here alive
    have different : other ≠ id := by
      intro same
      subst same
      exact alive (Option.some.inj (here.symm.trans gone))
    exact Finset.mem_erase.mpr ⟨different, accounted.present other state here alive⟩
  · intro other member
    exact accounted.known other (Finset.mem_of_mem_erase member)

theorem Accounted.removeConnectionFromMapInLoop :
    (s.removeConnectionFromMapInLoop id).Accounted base none := by
  unfold TcpServer.removeConnectionFromMapInLoop
  rw [if_pos accounted.owing.1]
  exact accounted.erase

end

/-- A new connection is established under a name not used before. -/
theorem Accounted.newConnetion (accounted : s.Accounted base none) (ioLoop : LoopId) :
    ({ s.setConn s.nextConnectionId ioLoop .established with
      connections := insert s.nextConnectionId s.connections
      nextConnectionId := s.nextConnectionId + 1 } : TcpServer LoopId).Accounted base none := by
  have unused := accounted.fresh s.nextConnectionId (Nat.le_refl _)
  have noState : s.state s.nextConnectionId = none := by rw [state, unused]; rfl
  have states : ∀ id, (s.setConn s.nextConnectionId ioLoop .established).state id =
      if id = s.nextConnectionId then some .kConnected else s.state id :=
    fun id => setConn_state s s.nextConnectionId id ioLoop .established
  refine ⟨accounted.running, ?_, ?_, ?_, ?_, ?_, accounted.inBase, ?_⟩
  · intro id
    have before := accounted.removed id
    change s.removals base id + due none id =
      if id ∈ insert s.nextConnectionId s.connections ∧
        (s.setConn s.nextConnectionId ioLoop .established).state id = some .kDisconnected
      then 1 else 0
    rw [states, before]
    by_cases same : id = s.nextConnectionId
    · rw [if_pos same, same, noState]
      simp
    · rw [if_neg same]
      simp only [Finset.mem_insert, same, false_or]
  · intro id state here alive
    by_cases same : id = s.nextConnectionId
    · rw [same]
      exact Finset.mem_insert_self _ _
    · have before := (states id).symm.trans here
      rw [if_neg same] at before
      exact Finset.mem_insert_of_mem (accounted.present id state before alive)
  · intro id member none
    have now := (states id).symm.trans none
    split at now
    next => cases now
    next other =>
      exact accounted.known id (Finset.mem_of_mem_insert_of_ne member other) now
  · intro id connecting
    have now := (states id).symm.trans connecting
    split at now
    next => cases now
    next => exact accounted.established id now
  · intro loop id member
    have gone := accounted.destroyed loop id member
    apply (states id).trans
    rw [if_neg, gone]
    intro same
    subst same
    rw [noState] at gone
    cases gone
  · intro id later
    have different : id ≠ s.nextConnectionId := Nat.ne_of_gt later
    have absent := accounted.fresh id (Nat.le_of_succ_le later)
    simp only [TcpServer.setConn, Function.update_apply, if_neg different, absent]

variable [DecidableEq LoopId]

theorem setLoop_loops (loop other : LoopId) (value : IoLoop) :
    (s.setLoop loop value).loops other = if other = loop then value else s.loops other := by
  simp only [setLoop, Function.update_apply]

/-- A loop may change its functors as long as they stay what they may be and the removals
that come or go are the ones owed. -/
theorem Accounted.setLoop {owed later : Option ConnectionId} (accounted : s.Accounted base owed)
    (loop : LoopId) (value : IoLoop)
    (destroyed : ∀ id, .connection id .connectionDestroyed ∈ value.functors →
      s.state id = some .kDisconnected)
    (inBase : ∀ id, ∀ f ∈ value.functors, f.removes id = true → loop = base)
    (count : ∀ id, (if loop = base then value.functors.countP (ServerFunctor.removes id)
      else s.removals base id) + due later id = s.removals base id + due owed id) :
    (s.setLoop loop value).Accounted base later where
  running := accounted.running
  removed := by
    intro id
    apply Eq.trans _ (accounted.removed id)
    rw [← count id]
    unfold removals
    rw [setLoop_loops]
    by_cases same : base = loop
    · rw [if_pos same, if_pos same.symm]
    · rw [if_neg same, if_neg (Ne.symm same)]
  present := accounted.present
  known := accounted.known
  established := accounted.established
  destroyed := by
    intro other id member
    rw [setLoop_loops] at member
    split at member
    next => exact destroyed id member
    next => exact accounted.destroyed other id member
  inBase := by
    intro other id f member removes
    rw [setLoop_loops] at member
    split at member
    next same => exact same.trans (inBase id f member removes)
    next => exact accounted.inBase other id f member removes
  fresh := accounted.fresh

/-- Functors of a connection can be queued anywhere, the last one once it is disconnected. -/
theorem Accounted.queue {owed : Option ConnectionId} (accounted : s.Accounted base owed)
    (loop : LoopId) (fs : List ServerFunctor)
    (harmless : ∀ f ∈ fs, ∃ id g, f = .connection id g ∧
      (g = .connectionDestroyed → s.state id = some .kDisconnected)) :
    (s.queueInLoop loop fs).Accounted base owed := by
  have none : ∀ id, fs.countP (ServerFunctor.removes id) = 0 := by
    intro id
    rw [List.countP_eq_zero]
    intro f member
    obtain ⟨other, g, rfl, _⟩ := harmless f member
    exact Bool.false_ne_true
  have split : ∀ {f}, f ∈ (s.loops loop).turn.toRun ++ ((s.loops loop).pendingFunctors ++ fs) →
      f ∈ (s.loops loop).functors ∨ f ∈ fs := by
    intro f member
    rwa [← List.append_assoc, List.mem_append] at member
  apply accounted.setLoop
  · intro id member
    rcases split member with before | now
    · exact accounted.destroyed loop id before
    · obtain ⟨other, g, same, kept⟩ := harmless _ now
      cases same
      exact kept rfl
  · intro id f member removes
    rcases split member with before | now
    · exact accounted.inBase loop id f before removes
    · obtain ⟨other, g, rfl, _⟩ := harmless f now
      cases removes
  · intro id
    split
    next same =>
      subst same
      congr 1
      unfold IoLoop.functors
      rw [← List.append_assoc, List.countP_append, none]
      rfl
    next => rfl

/-- What a call on a connection queues removes nothing and destroys nothing. -/
theorem Accounted.queueCalls {owed : Option ConnectionId} (accounted : s.Accounted base owed)
    (loop : LoopId) (id : ConnectionId) (queued : List LoopFunctor)
    (harmless : ∀ f ∈ queued, f ≠ .connectionDestroyed) :
    (s.queueInLoop loop (queued.map (.connection id))).Accounted base owed := by
  apply accounted.queue
  intro f member
  obtain ⟨g, inside, rfl⟩ := List.mem_map.mp member
  exact ⟨id, g, rfl, fun destroyed => absurd destroyed (harmless g inside)⟩

/-- The removal that is owed is queued in the base loop. -/
theorem Accounted.queueRemoval {id : ConnectionId} (accounted : s.Accounted base (some id))
    (f : ServerFunctor) (removes : ∀ other, f.removes other = decide (id = other)) :
    (s.queueInLoop base [f]).Accounted base none := by
  have split : ∀ {g}, g ∈ (s.loops base).turn.toRun ++ ((s.loops base).pendingFunctors ++ [f]) →
      g ∈ (s.loops base).functors ∨ g = f := by
    intro g member
    rwa [← List.append_assoc, List.mem_append, List.mem_singleton] at member
  apply accounted.setLoop
  · intro other member
    rcases split member with before | now
    · exact accounted.destroyed base other before
    · have own := removes id
      rw [← now, decide_eq_true rfl] at own
      cases own
  · intro _ _ _ _
    rfl
  · intro other
    rw [if_pos rfl]
    unfold removals IoLoop.functors
    rw [← List.append_assoc, List.countP_append, List.countP_singleton, removes]
    simp [due]

/-- A functor is taken off the turn; if it is a removal it is owed now. -/
theorem Accounted.pop (accounted : s.Accounted base none) {loop : LoopId} {f : ServerFunctor}
    {toRun : List ServerFunctor} (turn : (s.loops loop).turn = .running (f :: toRun))
    (owed : Option ConnectionId)
    (removes : ∀ id, f.removes id = decide (owed = some id)) :
    (s.setTurn loop (.running toRun)).Accounted base owed := by
  have functors : (s.loops loop).functors = f :: (toRun ++ (s.loops loop).pendingFunctors) := by
    rw [IoLoop.functors, turn]
    rfl
  apply accounted.setLoop
  · intro id member
    exact accounted.destroyed loop id (functors ▸ List.mem_cons_of_mem f member)
  · intro id g member removed
    exact accounted.inBase loop id g (functors ▸ List.mem_cons_of_mem f member) removed
  · intro id
    by_cases same : loop = base
    · rw [if_pos same, removals, ← same, functors, List.countP_cons, removes]
      simp [due, IoLoop.functors, Turn.toRun]
    · rw [if_neg same]
      have kept : ¬ f.removes id = true := fun removed =>
        same (accounted.inBase loop id f (functors ▸ List.mem_cons_self ..) removed)
      rw [removes, decide_eq_true_eq] at kept
      simp [due, kept]

/-- A turn may change where the functors do not. -/
theorem Accounted.turn (accounted : s.Accounted base none) (loop : LoopId) (value : IoLoop)
    (same : value.functors = (s.loops loop).functors) :
    (s.setLoop loop value).Accounted base none := by
  apply accounted.setLoop
  · intro id member
    rw [same] at member
    exact accounted.destroyed loop id member
  · intro id f member
    rw [same] at member
    exact accounted.inBase loop id f member
  · intro id
    split
    next here => rw [same, here]; rfl
    next => rfl

section
variable {id : ConnectionId} (accounted : s.Accounted base (some id))
include accounted

theorem Accounted.removeConnectionInLoop :
    (s.removeConnectionInLoop id).Accounted base none := by
  obtain ⟨present, gone, _⟩ := accounted.owing
  unfold TcpServer.removeConnectionInLoop
  rw [if_pos present]
  simp only
  split
  next served _ =>
    apply accounted.erase.queue
    intro f member
    exact ⟨id, .connectionDestroyed, List.mem_singleton.mp member, fun _ => gone⟩
  next => exact accounted.erase

theorem Accounted.serve (loop : LoopId) (callback : ServerCallback)
    (removes : callback ≠ .messageCallback) :
    (s.serve base loop id (some callback)).Accounted base none := by
  cases callback with
  | messageCallback => exact absurd rfl removes
  | closeCallback =>
    simp only [TcpServer.serve]
    split
    next => exact accounted.removeConnectionInLoop
    next => exact accounted.queueRemoval (.removeConnectionInLoop id) fun other => rfl
  | removeConnectionFromMap =>
    simp only [TcpServer.serve]
    split
    next => exact accounted.removeConnectionFromMapInLoop
    next => exact accounted.queueRemoval (.removeConnectionFromMapInLoop id) fun other => rfl

end

/-- What an operation has made of its connection is set, and the server is told. -/
theorem Accounted.outcome (accounted : s.Accounted base none) {id : ConnectionId}
    {served : Served LoopId} (known : s.served id = some served)
    {hup : Prop} {result : TcpConnection × Option ServerCallback}
    (outcome : served.conn.Outcome hup result)
    (alive : hup → served.conn.state ≠ .kDisconnected) (loop : LoopId) :
    ((s.setConn id served.loop result.1).serve base loop id result.2).Accounted base none := by
  obtain ⟨conn, callback⟩ := result
  cases callback with
  | none => exact accounted.keepConn known served.loop conn outcome.2 outcome.1
  | some callback =>
    cases callback with
    | messageCallback => exact accounted.keepConn known served.loop conn outcome.2 outcome.1
    | closeCallback =>
      have owing := accounted.disconnectConn known served.loop conn outcome.2 outcome.1
      exact owing.serve loop .closeCallback (by decide)
    | removeConnectionFromMap =>
      obtain ⟨hungUp, gone⟩ : hup ∧ conn.state = .kDisconnected := outcome
      have owing := accounted.disconnectConn known served.loop conn gone (alive hungUp)
      exact owing.serve loop .removeConnectionFromMap (by decide)

end TcpServer

end RabbitServer.Net
