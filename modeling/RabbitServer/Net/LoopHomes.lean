import RabbitServer.Net.ConnectionMap

/-! Where the functors and the active channels of a server are: in the loop that their connection
has been given, and the removals in the base loop. -/

namespace RabbitServer.Net

namespace TcpServer
variable {LoopId : Type} {base : LoopId} {s : TcpServer LoopId}

/-- The loop a connection has been given. -/
def home (s : TcpServer LoopId) (id : ConnectionId) : Option LoopId :=
  (s.served id).map Served.loop

theorem home_served {id : ConnectionId} {served : Served LoopId}
    (known : s.served id = some served) : s.home id = some served.loop := by
  rw [home, known]
  rfl

@[simp] theorem setConn_known (s : TcpServer LoopId) (id : ConnectionId) (loop : LoopId)
    (conn : TcpConnection) : (s.setConn id loop conn).served id = some ⟨loop, conn⟩ :=
  Function.update_self ..

/-- A connection keeps its loop through its operations. -/
theorem setConn_home {id : ConnectionId} {served : Served LoopId}
    (known : s.served id = some served) (conn : TcpConnection) :
    (s.setConn id served.loop conn).home = s.home := by
  funext other
  simp only [home, setConn, Function.update_apply]
  split
  next here => rw [here, known]; rfl
  next => rfl

/-- Where a functor may wait: with the connection it is for, or with the map. -/
def Belongs (base : LoopId) (s : TcpServer LoopId) (loop : LoopId) : ServerFunctor → Prop
  | .connection id _ => s.home id = some loop
  | .removeConnectionInLoop id => loop = base ∧ s.home id ≠ none
  | .removeConnectionFromMapInLoop id => loop = base ∧ s.home id ≠ none

/-- What a loop holds for a connection is in the loop of that connection, and removals are in
the base loop. -/
structure AtHome (base : LoopId) (s : TcpServer LoopId) : Prop where
  functors : ∀ loop, ∀ f ∈ (s.loops loop).functors, s.Belongs base loop f
  active : ∀ loop active, (s.loops loop).turn = .dispatching active →
    ∀ entry ∈ active, s.home entry.1 = some loop
  fresh : ∀ id, s.nextConnectionId ≤ id → s.served id = none

theorem start_atHome : ({} : TcpServer LoopId).AtHome base where
  functors := nofun
  active := nofun
  fresh := fun _ _ => rfl

theorem Belongs.mono {after : TcpServer LoopId}
    (kept : ∀ id loop, s.home id = some loop → after.home id = some loop) {loop : LoopId}
    {f : ServerFunctor} (belongs : s.Belongs base loop f) : after.Belongs base loop f := by
  cases f with
  | connection id f => exact kept id loop belongs
  | removeConnectionInLoop id | removeConnectionFromMapInLoop id =>
    obtain ⟨here, known⟩ := belongs
    obtain ⟨own, same⟩ := Option.ne_none_iff_exists'.mp known
    exact ⟨here, by rw [kept id own same]; exact Option.some_ne_none own⟩

theorem AtHome.setConn (home : s.AtHome base) {id : ConnectionId} {served : Served LoopId}
    (known : s.served id = some served) (conn : TcpConnection) :
    (s.setConn id served.loop conn).AtHome base := by
  constructor
  · intro loop f member
    apply (home.functors loop f member).mono
    intro other own
    rw [setConn_home known]
    exact fun same => same
  · intro loop active turn entry member
    rw [setConn_home known]
    exact home.active loop active turn entry member
  · intro other new
    have absent := home.fresh other new
    have different : other ≠ id := by
      rintro rfl
      rw [known] at absent
      cases absent
    simp only [TcpServer.setConn, Function.update_apply, if_neg different, absent]

theorem AtHome.connections (home : s.AtHome base) (connections : Finset ConnectionId) :
    ({ s with connections } : TcpServer LoopId).AtHome base :=
  ⟨home.functors, home.active, home.fresh⟩

theorem AtHome.failed (home : s.AtHome base) :
    ({ s with assertFailed := true } : TcpServer LoopId).AtHome base :=
  ⟨home.functors, home.active, home.fresh⟩

theorem AtHome.newConnetion (home : s.AtHome base) (ioLoop : LoopId) :
    ({ s.setConn s.nextConnectionId ioLoop .established with
      connections := insert s.nextConnectionId s.connections
      nextConnectionId := s.nextConnectionId + 1 } : TcpServer LoopId).AtHome base := by
  have kept : ∀ id loop, s.home id = some loop →
      (s.setConn s.nextConnectionId ioLoop .established).home id = some loop := by
    intro id loop known
    have different : id ≠ s.nextConnectionId := by
      rintro rfl
      rw [TcpServer.home, home.fresh _ (Nat.le_refl _)] at known
      cases known
    simpa only [TcpServer.home, TcpServer.setConn, Function.update_apply, if_neg different]
      using known
  constructor
  · intro loop f member
    exact (home.functors loop f member).mono kept
  · intro loop active turn entry member
    exact kept _ _ (home.active loop active turn entry member)
  · intro id new
    have different : id ≠ s.nextConnectionId := Nat.ne_of_gt new
    have absent := home.fresh id (Nat.le_of_succ_le new)
    simp only [TcpServer.setConn, Function.update_apply, if_neg different, absent]

variable [DecidableEq LoopId]

/-- A loop may change what it holds as long as it is at home there. -/
theorem AtHome.setLoop (home : s.AtHome base) (loop : LoopId) (value : IoLoop)
    (functors : ∀ f ∈ value.functors, s.Belongs base loop f)
    (active : ∀ active, value.turn = .dispatching active →
      ∀ entry ∈ active, s.home entry.1 = some loop) :
    (s.setLoop loop value).AtHome base where
  functors := by
    intro other f member
    rw [setLoop_loops] at member
    split at member
    next same => exact same ▸ functors f member
    next => exact home.functors other f member
  active := by
    intro other entries turn
    rw [setLoop_loops] at turn
    split at turn
    next same => exact same ▸ active entries turn
    next => exact home.active other entries turn
  fresh := home.fresh

theorem AtHome.queueInLoop (home : s.AtHome base) {loop : LoopId} {fs : List ServerFunctor}
    (belong : ∀ f ∈ fs, s.Belongs base loop f) : (s.queueInLoop loop fs).AtHome base := by
  apply home.setLoop
  · intro f member
    rw [IoLoop.functors, ← List.append_assoc] at member
    rcases List.mem_append.mp member with before | now
    · exact home.functors loop f before
    · exact belong f now
  · exact home.active loop

theorem AtHome.queueCalls (home : s.AtHome base) {id : ConnectionId} {loop : LoopId}
    (known : s.home id = some loop) (queued : List LoopFunctor) :
    (s.queueInLoop loop (queued.map (.connection id))).AtHome base := by
  apply home.queueInLoop
  intro f member
  obtain ⟨g, -, rfl⟩ := List.mem_map.mp member
  exact known

/-- A turn goes on with a part of what it held. -/
theorem AtHome.setTurn (home : s.AtHome base) (loop : LoopId)
    (turn : Turn (ConnectionId × ChannelCallback) ServerFunctor)
    (functors : ∀ f ∈ turn.toRun, f ∈ (s.loops loop).functors)
    (active : ∀ active, turn = .dispatching active → ∀ entry ∈ active, s.home entry.1 = some loop) :
    (s.setTurn loop turn).AtHome base := by
  apply home.setLoop
  · intro f member
    rcases List.mem_append.mp member with here | waiting
    · exact home.functors loop f (functors f here)
    · exact home.functors loop f (List.mem_append_right _ waiting)
  · exact active

theorem AtHome.removeConnectionInLoop (home : s.AtHome base) (id : ConnectionId) :
    (s.removeConnectionInLoop id).AtHome base := by
  unfold TcpServer.removeConnectionInLoop
  split
  next =>
    have erased := home.connections (s.connections.erase id)
    dsimp only
    split
    next served known => exact erased.queueCalls (home_served known) [.connectionDestroyed]
    next => exact erased
  next => exact home.failed

omit [DecidableEq LoopId] in
theorem AtHome.removeConnectionFromMapInLoop (home : s.AtHome base) (id : ConnectionId) :
    (s.removeConnectionFromMapInLoop id).AtHome base := by
  unfold TcpServer.removeConnectionFromMapInLoop
  split
  next => exact home.connections _
  next => exact home.failed

theorem AtHome.serve (home : s.AtHome base) (loop : LoopId) {id : ConnectionId}
    (known : s.home id ≠ none) (callback : Option ServerCallback) :
    (s.serve base loop id callback).AtHome base := by
  unfold TcpServer.serve
  split
  next =>
    split
    next => exact home.removeConnectionInLoop id
    next => exact home.queueInLoop (by simpa [Belongs] using known)
  next =>
    split
    next => exact home.removeConnectionFromMapInLoop id
    next => exact home.queueInLoop (by simpa [Belongs] using known)
  next => exact home

theorem AtHome.handleEvent (home : s.AtHome base) (loop : LoopId) (id : ConnectionId)
    (callback : ChannelCallback) (read : Buffer.Readv) (left : Bytes) (calls : List ConnCall)
    (writes : List WriteResult) :
    (s.handleEvent base loop id callback read left calls writes).AtHome base := by
  unfold TcpServer.handleEvent
  split
  next => exact home
  next served known =>
    have set := home.setConn known (served.conn.handleEvent callback read (writes.headD (.accepted 0))).1
    dsimp only
    split
    next =>
      unfold TcpServer.receive
      have again := set.setConn (setConn_known ..) ({ (served.conn.handleEvent callback read
        (writes.headD (.accepted 0))).1 with inBuffer := left }.calls calls writes).1
      exact again.queueCalls (home_served (setConn_known ..)) _
    next =>
      apply set.serve
      rw [home_served (setConn_known ..)]
      exact Option.some_ne_none _

theorem AtHome.functor (home : s.AtHome base) (loop : LoopId) (f : ServerFunctor)
    (write : WriteResult) : (s.functor base loop f write).AtHome base := by
  cases f with
  | connection id f =>
    simp only [TcpServer.functor]
    split
    next => exact home
    next served known =>
      apply (home.setConn known _).serve
      rw [home_served (setConn_known ..)]
      exact Option.some_ne_none _
  | removeConnectionInLoop id => exact home.removeConnectionInLoop id
  | removeConnectionFromMapInLoop id => exact home.removeConnectionFromMapInLoop id

theorem AtHome.next (home : s.AtHome base) (event : Event LoopId) :
    (s.next base event).AtHome base := by
  cases event with
  | newConnetion ioLoop =>
    simp only [TcpServer.next]
    split
    next => exact home.newConnetion ioLoop
    next => exact home
  | poll loop active =>
    simp only [TcpServer.next]
    split
    next can =>
      apply home.setTurn
      · rintro f ⟨⟩
      intro entries same entry member
      cases same
      obtain ⟨reported, inside, mapped⟩ := List.mem_flatMap.mp member
      obtain ⟨callback, -, rfl⟩ := List.mem_map.mp mapped
      obtain ⟨served, known, rfl, -⟩ := can.2.2 reported inside
      exact home_served known
    next => exact home
  | handleEvent loop read left calls writes =>
    simp only [TcpServer.next]
    split
    next id callback rest turn =>
      apply AtHome.handleEvent
      apply home.setTurn
      · rintro f ⟨⟩
      intro entries same entry member
      cases same
      exact home.active loop _ turn entry (List.mem_cons_of_mem _ member)
    next => exact home
  | doPendingFunctors loop =>
    simp only [TcpServer.next]
    split
    next turn =>
      apply home.setLoop
      · intro f member
        apply home.functors loop f
        rw [IoLoop.functors, List.append_nil] at member
        exact List.mem_append_right _ member
      · rintro entries ⟨⟩
    next => exact home
  | functor loop write =>
    simp only [TcpServer.next]
    split
    next f toRun turn =>
      apply AtHome.functor
      apply home.setTurn
      · intro g member
        rw [IoLoop.functors, turn]
        exact List.mem_append_left _ (List.mem_cons_of_mem f member)
      · rintro entries ⟨⟩
    next => exact home
  | iterate loop =>
    simp only [TcpServer.next]
    split
    next =>
      apply home.setTurn
      · rintro f ⟨⟩
      · rintro entries ⟨⟩
    next => exact home
  | call thread id c write =>
    simp only [TcpServer.next]
    split
    next => exact home
    next served known =>
      split
      next => exact home
      next =>
        exact (home.setConn known _).queueCalls (home_served (setConn_known ..)) _

/-- The server only tells its loops and its map. -/
theorem serve_served (loop : LoopId) (id : ConnectionId) (callback : Option ServerCallback) :
    (s.serve base loop id callback).served = s.served := by
  unfold serve removeConnectionInLoop removeConnectionFromMapInLoop
  split
  · split_ifs
    · dsimp only
      split <;> rfl
    · rfl
    · rfl
  · split_ifs <;> rfl
  · rfl

theorem handleEvent_home (loop : LoopId) (id : ConnectionId) (callback : ChannelCallback)
    (read : Buffer.Readv) (left : Bytes) (calls : List ConnCall) (writes : List WriteResult) :
    (s.handleEvent base loop id callback read left calls writes).home = s.home := by
  unfold handleEvent
  split
  next => rfl
  next served known =>
    have set := setConn_home known
    dsimp only
    split
    next =>
      exact (setConn_home (setConn_known _ id served.loop _) _).trans (set _)
    next =>
      funext other
      rw [home, serve_served]
      exact congrFun (set _) other

theorem functor_home (loop : LoopId) (f : ServerFunctor) (write : WriteResult) :
    (s.functor base loop f write).home = s.home := by
  cases f with
  | connection id f =>
    simp only [functor]
    split
    next => rfl
    next served known =>
      funext other
      rw [home, serve_served]
      exact congrFun (setConn_home known _) other
  | removeConnectionInLoop id =>
    simp only [functor, removeConnectionInLoop]
    split_ifs
    · split <;> rfl
    · rfl
  | removeConnectionFromMapInLoop id =>
    simp only [functor, removeConnectionFromMapInLoop]
    split_ifs <;> rfl

/-- A connection stays in the loop it has been given, and only `newConnetion` gives one. -/
theorem next_home (event : Event LoopId) (other : ∀ ioLoop, event ≠ .newConnetion ioLoop) :
    (s.next base event).home = s.home := by
  cases event with
  | newConnetion ioLoop => exact absurd rfl (other ioLoop)
  | poll loop active =>
    simp only [next]
    split_ifs <;> rfl
  | handleEvent loop read left calls writes =>
    simp only [next]
    split
    · exact handleEvent_home loop _ _ read left calls writes
    · rfl
  | doPendingFunctors loop =>
    simp only [next]
    split_ifs <;> rfl
  | functor loop write =>
    simp only [next]
    split
    · exact functor_home loop _ write
    · rfl
  | iterate loop =>
    simp only [next]
    split_ifs <;> rfl
  | call thread id c write =>
    simp only [next]
    split
    · rfl
    · split_ifs
      · rfl
      · exact setConn_home (by assumption) _

theorem next_unserved {id : ConnectionId} (unknown : s.served id = none) (event : Event LoopId)
    (other : ∀ ioLoop, event ≠ .newConnetion ioLoop) : (s.next base event).served id = none := by
  have same : (s.next base event).home id = s.home id := congrFun (next_home event other) id
  rw [home, home, unknown] at same
  exact Option.map_eq_none_iff.mp same

theorem removeConnectionInLoop_nextConnectionId (s : TcpServer LoopId) (id : ConnectionId) :
    (s.removeConnectionInLoop id).nextConnectionId = s.nextConnectionId := by
  unfold removeConnectionInLoop
  split_ifs
  · dsimp only
    split <;> rfl
  · rfl

omit [DecidableEq LoopId] in
theorem removeConnectionFromMapInLoop_nextConnectionId (s : TcpServer LoopId)
    (id : ConnectionId) :
    (s.removeConnectionFromMapInLoop id).nextConnectionId = s.nextConnectionId := by
  unfold removeConnectionFromMapInLoop
  split_ifs <;> rfl

theorem serve_nextConnectionId (s : TcpServer LoopId) (loop : LoopId) (id : ConnectionId)
    (callback : Option ServerCallback) :
    (s.serve base loop id callback).nextConnectionId = s.nextConnectionId := by
  unfold serve
  split
  · split_ifs
    · exact s.removeConnectionInLoop_nextConnectionId id
    · rfl
  · split_ifs
    · exact s.removeConnectionFromMapInLoop_nextConnectionId id
    · rfl
  · rfl

/-- Only `newConnetion` takes a number. -/
theorem next_nextConnectionId (event : Event LoopId)
    (other : ∀ ioLoop, event ≠ .newConnetion ioLoop) :
    (s.next base event).nextConnectionId = s.nextConnectionId := by
  cases event with
  | newConnetion ioLoop => exact absurd rfl (other ioLoop)
  | poll loop active =>
    simp only [next]
    split_ifs <;> rfl
  | handleEvent loop read left calls writes =>
    simp only [next]
    split
    · simp only [handleEvent]
      split
      · rfl
      · split
        · rfl
        · exact serve_nextConnectionId ..
    · rfl
  | doPendingFunctors loop =>
    simp only [next]
    split_ifs <;> rfl
  | functor loop write =>
    simp only [next]
    split
    next f toRun _ =>
      cases f with
      | connection id f =>
        simp only [functor]
        split
        · rfl
        · exact serve_nextConnectionId ..
      | removeConnectionInLoop id => exact removeConnectionInLoop_nextConnectionId _ id
      | removeConnectionFromMapInLoop id =>
        exact removeConnectionFromMapInLoop_nextConnectionId _ id
    next => rfl
  | iterate loop =>
    simp only [next]
    split_ifs <;> rfl
  | call thread id c write =>
    simp only [next]
    split
    · rfl
    · split_ifs <;> rfl

end TcpServer

end RabbitServer.Net
