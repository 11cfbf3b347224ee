import RabbitServer.Net.Lifetimes

/-! Runs of a server: the channels that are registered, and those about to be called, are parts of
connections that somebody holds. -/

namespace RabbitServer.Net.TcpServer
open Library.Runs

variable {LoopId : Type} [DecidableEq LoopId] {base : LoopId} {h : Lifetimes LoopId}
  {s : TcpServer LoopId}

/-- The connection for which the event sends a message, where its channel is out of the poller. -/
def lateSend (s : TcpServer LoopId) : Event LoopId → Option ConnectionId
  | .functor loop _ =>
    match (s.loops loop).turn with
    | .running (.connection id (.sendInLoop _) :: _) =>
      match s.served id with
      | some served => if served.conn.channel.index = .kNew then some id else none
      | none => none
    | _ => none
  | _ => none

/-- `Poll` begins a turn, and `handleEvent` holds the connection whose callbacks it calls. -/
def recordLifetimes (s : TcpServer LoopId) (event : Event LoopId) (h : Lifetimes LoopId) :
    Lifetimes LoopId where
  guard :=
    match event with
    | .poll loop active =>
      if (s.loops loop).turn = .polling ∧ s.Reported loop active then
        Function.update h.guard loop none
      else h.guard
    | .handleEvent loop _ _ _ _ =>
      match (s.loops loop).turn with
      | .dispatching ((id, _) :: _) => Function.update h.guard loop (some id)
      | _ => h.guard
    | _ => h.guard
  late :=
    match s.lateSend event with
    | some id => insert id h.late
    | none => h.late

theorem Tied.poll (tied : s.Tied base h none) {loop : LoopId} {active : List (ConnectionId × Events)}
    (polling : (s.loops loop).turn = .polling) (reported : s.Reported loop active) :
    (s.setTurn loop (.dispatching (active.flatMap fun entry =>
      (handleEventWithGuard entry.2).map fun callback => (entry.1, callback)))).Tied base
      { h with guard := Function.update h.guard loop none } none := by
  have same : ∀ {f}, f ∈ (s.loops loop).functors ↔ f ∈ (s.loops loop).pendingFunctors := by
    intro f
    rw [IoLoop.functors, polling]
    rfl
  have from_ : ∀ entry ∈ active.flatMap fun entry =>
      (handleEventWithGuard entry.2).map fun callback => (entry.1, callback),
      ∃ served, s.served entry.1 = some served ∧ served.loop = loop ∧
        served.conn.channel.index = .kAdded := by
    intro entry member
    obtain ⟨found, inside, mapped⟩ := List.mem_flatMap.mp member
    obtain ⟨callback, -, rfl⟩ := List.mem_map.mp mapped
    obtain ⟨served, known, placed, reports⟩ := reported.2 found inside
    exact ⟨served, known, placed, reports.added⟩
  apply tied.setLoop
  · exact fun f member => tied.home.functors loop f (same.mpr member)
  · exact fun id member timely served known =>
      tied.hungUp id served known timely loop (same.mpr member)
  · exact fun f member id _ => Or.inl (same.mp member)
  · intro id due
    cases due
  · intro entries turn
    cases turn
    refine ⟨?_, ?_, ?_⟩
    · intro entry member
      obtain ⟨served, known, rfl, -⟩ := from_ entry member
      exact home_served known
    · intro entry member _ _ served known
      obtain ⟨found, knows, -, added⟩ := from_ entry member
      rw [known] at knows
      cases knows
      exact added
    · let counts := active.map fun entry => (entry.1, (handleEventWithGuard entry.2).length)
      have distinct : (counts.map Prod.fst).Nodup := by
        simpa [counts, List.map_map, Function.comp_def] using reported.1
      have grouped : Grouped none (counts.flatMap fun entry => List.replicate entry.2 entry.1) :=
        grouped_flatMap distinct fun other same => absurd same (Option.some_ne_none other).symm
      simpa [counts, List.map_flatMap, List.flatMap_map, List.map_map, Function.comp_def,
        List.map_const'] using grouped

/-- The callbacks of one connection are called one after the other, under one guard. -/
theorem Tied.enter (tied : s.Tied base h none) {loop : LoopId} {id : ConnectionId}
    {callback : ChannelCallback} {rest : List (ConnectionId × ChannelCallback)}
    (turn : (s.loops loop).turn = .dispatching ((id, callback) :: rest)) :
    (s.setTurn loop (.dispatching rest)).Tied base
      { h with guard := Function.update h.guard loop (some id) } none := by
  have grouped := tied.grouped loop _ turn
  have same : ∀ {f}, f ∈ (s.loops loop).functors ↔ f ∈ (s.loops loop).pendingFunctors := by
    intro f
    rw [IoLoop.functors, turn]
    rfl
  apply tied.setLoop
  · exact fun f member => tied.home.functors loop f (same.mpr member)
  · exact fun id member timely served known =>
      tied.hungUp id served known timely loop (same.mpr member)
  · exact fun f member id _ => Or.inl (same.mp member)
  · intro id due
    cases due
  · intro entries now
    cases now
    refine ⟨?_, ?_, grouped.2⟩
    · exact fun entry member => tied.home.active loop _ turn entry (List.mem_cons_of_mem _ member)
    · intro entry member timely unguarded
      have inside := List.mem_cons_of_mem (id, callback) member
      apply tied.entered loop _ turn entry inside timely
      -- a connection that was called before has no callback behind another one's
      intro guarded
      have different : entry.1 ≠ id := fun same => unguarded (congrArg some same.symm)
      exact grouped.1 entry.1 guarded different (List.mem_map_of_mem member)

section
variable {id : ConnectionId} {served : Served LoopId}

theorem Tied.receive (tied : s.Tied base h none) (known : s.served id = some served)
    (left : Bytes) (calls : List ConnCall) (writes : List WriteResult) :
    (s.receive id served left calls writes).Tied base h none := by
  unfold TcpServer.receive
  let received : TcpConnection := { served.conn with inBuffer := left }
  have established : (received.calls calls writes).1.state ≠ .kConnecting := by
    rw [TcpConnection.calls_state]
    exact tied.established id served known
  have kept : served.conn.Removed → (received.calls calls writes).1.Removed := by
    intro removed
    have still : received.Removed := ⟨removed.state, removed.interest, removed.idle⟩
    exact still.calls calls writes
  have stays : served.conn.channel.index = .kAdded →
      (received.calls calls writes).1.channel.index = .kAdded := by
    intro added
    have still : received.channel.index = .kAdded := added
    exact TcpConnection.calls_added still calls writes
  have set := tied.setConn known (received.calls calls writes).1 established
    (fun removed _ => kept removed) (fun added => Or.inl (stays added))
  exact set.queueCalls (home_served (setConn_known ..)) _

theorem Tied.handleEvent (tied : s.Tied base h none) (loop : LoopId) (id : ConnectionId)
    (guarded : h.guard loop = some id) (placed : s.home id = some loop) (callback : ChannelCallback)
    (read : Buffer.Readv) (left : Bytes) (calls : List ConnCall) (writes : List WriteResult)
    (running : (s.handleEvent base loop id callback read left calls writes).assertFailed = false) :
    (s.handleEvent base loop id callback read left calls writes).Tied base h none := by
  unfold TcpServer.handleEvent at running ⊢
  cases known : s.served id with
  | none => exact tied
  | some served =>
    simp only [known] at running ⊢
    have own : served.loop = loop := by
      rw [home_served known] at placed
      exact Option.some.inj placed
    have established := tied.established id served known
    have outcome := TcpConnection.handleEvent_outcome established callback read
      (writes.headD (.accepted 0))
    have set := tied.setConn known
      (served.conn.handleEvent callback read (writes.headD (.accepted 0))).1 outcome.established
      (fun removed _ => removed.handleEvent callback read _)
      (fun _ => Or.inr (Or.inl (own ▸ guarded)))
    split at running
    next message =>
      rw [if_pos message]
      exact set.receive (setConn_known ..) left calls writes
    next =>
      rw [if_neg (by assumption)]
      apply set.serve loop _ _ _ running
      · rw [home_served (setConn_known ..)]
        exact Option.some_ne_none _
      · intro hungUp now here _
        rw [setConn_known] at here
        cases here
        exact TcpConnection.handleEvent_hungUp established hungUp

end

/-- What a functor anchored is owed once it is taken off the turn. -/
theorem Tied.pop (tied : s.Tied base h none) {loop : LoopId} {f : ServerFunctor}
    {toRun : List ServerFunctor} (turn : (s.loops loop).turn = .running (f :: toRun)) :
    (s.setTurn loop (.running toRun)).Tied base h f.anchored := by
  have functors : (s.loops loop).functors = f :: (toRun ++ (s.loops loop).pendingFunctors) := by
    rw [IoLoop.functors, turn]
    rfl
  have popped := tied.setLoop loop { s.loops loop with turn := .running toRun } (h.guard loop)
    f.anchored ?_ ?_ ?_ ?_ ?_
  · rwa [Function.update_eq_self] at popped
  · exact fun g member => tied.home.functors loop g (functors ▸ List.mem_cons_of_mem f member)
  · exact fun id member timely served known =>
      tied.hungUp id served known timely loop (functors ▸ List.mem_cons_of_mem f member)
  · intro g member id anchored
    rw [functors] at member
    rcases List.mem_cons.mp member with rfl | later
    · exact Or.inr anchored
    · exact Or.inl later
  · intro id due
    cases due
  · intro active now
    cases now

theorem Tied.functor (tied : s.Tied base h none) {loop : LoopId} {f : ServerFunctor}
    {toRun : List ServerFunctor} (turn : (s.loops loop).turn = .running (f :: toRun))
    (write : WriteResult)
    (running : ((s.setTurn loop (.running toRun)).functor base loop f write).assertFailed = false) :
    ((s.setTurn loop (.running toRun)).functor base loop f write).Tied base
      (s.recordLifetimes (.functor loop write) h) none := by
  have more : h.late ⊆ (s.recordLifetimes (.functor loop write) h).late := by
    unfold recordLifetimes
    dsimp only
    split
    · exact Finset.subset_insert _ _
    · exact Finset.Subset.refl _
  have belongs : s.Belongs base loop f := by
    apply tied.home.functors
    rw [IoLoop.functors, turn]
    exact List.mem_cons_self
  have popped := (tied.pop turn).mono more
  cases f with
  | removeConnectionInLoop id =>
    exact popped.removeConnectionInLoop (fun other due => (Option.some.inj due).symm)
      belongs.2 running
  | removeConnectionFromMapInLoop id =>
    apply popped.removeConnectionFromMapInLoop
    intro served known timely
    apply tied.hungUp id served known (mt (@more id) timely) loop
    rw [IoLoop.functors, turn]
    exact List.mem_cons_self
  | connection id f =>
    simp only [TcpServer.functor] at running ⊢
    cases known : s.served id with
    | none => exact absurd belongs (by simp [Belongs, TcpServer.home, known])
    | some served =>
      have here : (s.setTurn loop (.running toRun)).served id = some served := known
      simp only [here] at running ⊢
      have own : served.loop = loop := by
        rw [Belongs, home_served known] at belongs
        exact Option.some.inj belongs
      have established := tied.established id served known
      have idle : ∀ active, ((s.setTurn loop (.running toRun)).loops served.loop).turn ≠
          .dispatching active := by
        intro active now
        rw [own, setTurn, setLoop_loops, if_pos rfl] at now
        cases now
      cases f with
      | closeConnectionInLoop =>
        have outcome := TcpConnection.functor_outcome established .closeConnectionInLoop write (by simp)
        have set := popped.setConn here served.conn.closeConnectionInLoop.1 outcome.established
          (fun removed _ => removed.closeConnectionInLoop) (fun _ => Or.inr (Or.inr idle))
        apply set.serve loop _ _ _ running
        · rw [home_served (setConn_known ..)]
          exact Option.some_ne_none _
        · intro hungUp
          unfold TcpConnection.Outcome at outcome
          rw [hungUp] at outcome
          exact outcome.1.elim
      | sendInLoop data =>
        apply popped.setConn here (served.conn.sendInLoop data write)
        · rw [TcpConnection.sendInLoop_state]
          exact established
        · intro removed timely
          have late : s.lateSend (.functor loop write) = some id := by
            simp only [lateSend, turn, known, removed.index, if_true]
          exact absurd (by simp only [recordLifetimes, late]; exact Finset.mem_insert_self _ _) timely
        · exact fun _ => Or.inr (Or.inr idle)
      | connectionDestroyed =>
        have removed := TcpConnection.connectionDestroyed_removed established
        have set := popped.setConn here served.conn.connectionDestroyed
          (by rw [TcpConnection.connectionDestroyed_state established]; decide)
          (fun _ _ => removed) (fun _ => Or.inr (Or.inr idle))
        apply set.settle (fun other due => (Option.some.inj due).symm)
        intro now again _
        rw [setConn_known] at again
        cases again
        exact removed

theorem Tied.call (tied : s.Tied base h none) {id : ConnectionId} {served : Served LoopId}
    (known : s.served id = some served) (inLoopThread : Bool) (c : ConnCall) (write : WriteResult) :
    ((s.setConn id served.loop (served.conn.call inLoopThread c write).1).queueInLoop served.loop
      ((served.conn.call inLoopThread c write).2.toList.map (.connection id))).Tied base h none := by
  have set := tied.setConn known (served.conn.call inLoopThread c write).1
    (by rw [TcpConnection.call_state]; exact tied.established id served known)
    (fun removed _ => removed.call inLoopThread c write)
    (fun added => Or.inl (TcpConnection.call_added added inLoopThread c write))
  exact set.queueCalls (home_served (setConn_known ..)) _

/-- A turn that calls no channels may hold the same functors another way. -/
theorem Tied.keepFunctors (tied : s.Tied base h none) (loop : LoopId) (value : IoLoop)
    (same : value.functors = (s.loops loop).functors)
    (idle : ∀ active, value.turn ≠ .dispatching active) :
    (s.setLoop loop value).Tied base h none := by
  have kept := tied.setLoop loop value (h.guard loop) none ?_ ?_ ?_ ?_ ?_
  · rwa [Function.update_eq_self] at kept
  · exact fun f member => tied.home.functors loop f (same ▸ member)
  · exact fun id member timely served known =>
      tied.hungUp id served known timely loop (same ▸ member)
  · exact fun f member id _ => Or.inl (same ▸ member)
  · intro id due
    cases due
  · exact fun active turn => absurd turn (idle active)

theorem Tied.next (tied : s.Tied base h none) (event : Event LoopId)
    (running : (s.next base event).assertFailed = false) :
    (s.next base event).Tied base (s.recordLifetimes event h) none := by
  cases event with
  | newConnetion ioLoop =>
    simp only [TcpServer.next]
    split
    · exact tied.newConnetion ioLoop
    · exact tied
  | poll loop active =>
    simp only [TcpServer.next, recordLifetimes, lateSend]
    split_ifs with can
    · exact tied.poll can.1 can.2
    · exact tied
  | handleEvent loop read left calls writes =>
    cases turn : (s.loops loop).turn with
    | dispatching active =>
      cases active with
      | nil => simpa only [TcpServer.next, recordLifetimes, lateSend, turn] using tied
      | cons entry rest =>
        obtain ⟨id, callback⟩ := entry
        simp only [TcpServer.next, recordLifetimes, lateSend, turn] at running ⊢
        apply (tied.enter turn).handleEvent loop id _ _ callback read left calls writes running
        · exact Function.update_self ..
        · exact tied.home.active loop _ turn _ List.mem_cons_self
    | _ => simpa only [TcpServer.next, recordLifetimes, lateSend, turn] using tied
  | doPendingFunctors loop =>
    simp only [TcpServer.next, recordLifetimes, lateSend]
    split_ifs with drained
    · apply tied.keepFunctors
      · simp only [IoLoop.functors, Turn.toRun, drained, List.append_nil, List.nil_append]
      · rintro active ⟨⟩
    · exact tied
  | functor loop write =>
    cases turn : (s.loops loop).turn with
    | running toRun =>
      cases toRun with
      | nil => simpa only [TcpServer.next, recordLifetimes, lateSend, turn] using tied
      | cons f toRun =>
        simp only [TcpServer.next, turn] at running ⊢
        exact tied.functor turn write running
    | _ => simpa only [TcpServer.next, recordLifetimes, lateSend, turn] using tied
  | iterate loop =>
    simp only [TcpServer.next, recordLifetimes, lateSend]
    split_ifs with drained
    · apply tied.keepFunctors
      · simp only [IoLoop.functors, Turn.toRun, drained]
      · rintro active ⟨⟩
    · exact tied
  | call thread id c write =>
    simp only [TcpServer.next, recordLifetimes, lateSend]
    split
    · exact tied
    next served known =>
      split_ifs
      · exact tied
      · exact tied.call known _ c write

/-- Whatever the threads do: a channel that `epoll_wait` can report, and one that `handleEvent` is
about to be called for, belongs to a connection that the map or a functor holds, so that neither of
the pointers dangles and `tie_` can be locked; and no callback finds its connection held by nobody.
But for connections that have sent a message after their channel was taken out of the poller. -/
theorem channels_held (base : LoopId) (events : List (Event LoopId)) :
    let s := run (recorded (step base) recordLifetimes) ({}, {}) events
    s.1.assertFailed = false → ∀ id served, s.1.served id = some served → id ∉ s.2.late →
      (served.conn.channel.interest ≠ none → s.1.Held id) ∧
      ∀ loop callback rest, (s.1.loops loop).turn = .dispatching ((id, callback) :: rest) →
        (s.2.guard loop ≠ some id → s.1.Held id) ∧ (s.1.Held id ∨ s.1.Guarded s.2 id) := by
  intro s running id served known timely
  have tied : s.1.assertFailed = false → s.1.Tied base s.2 none := by
    apply run_invariant (fun s : TcpServer LoopId × Lifetimes LoopId =>
      s.1.assertFailed = false → s.1.Tied base s.2 none) _ events
    · exact fun _ => start_tied base
    · intro s event ih running
      by_cases failed : s.1.assertFailed
      · rw [recorded, step, if_pos failed] at running
        exact absurd failed (by rw [running]; decide)
      · have before := ih (Bool.not_eq_true _ ▸ failed)
        rw [recorded, step, if_neg failed] at running ⊢
        exact before.next event running
  have held : served.conn.channel.index = .kAdded → s.1.Held id := by
    intro added
    rcases (tied running).anchored id served known timely (Option.some_ne_none id).symm with
      removed | anchored
    · exact absurd (added.symm.trans removed.index) (by decide)
    · exact anchored.held
  constructor
  · intro registered
    apply held
    cases index : served.conn.channel.index with
    | kAdded => rfl
    | kNew => exact absurd (served.conn.channel.interest_eq_none_iff.mpr index) registered
  · intro loop callback rest turn
    have first : s.2.guard loop ≠ some id → s.1.Held id := fun unguarded =>
      held ((tied running).entered loop _ turn _ List.mem_cons_self timely unguarded served known)
    refine ⟨first, ?_⟩
    by_cases guarded : s.2.guard loop = some id
    · exact Or.inr ⟨loop, callback, rest, turn, guarded⟩
    · exact Or.inl (first guarded)

/-- A new connection gets its first event. -/
theorem channels_held_first :
    let s := run (recorded (step ()) recordLifetimes) ({}, {})
      [.poll () [], .newConnetion (), .doPendingFunctors (), .iterate (), .poll () [(0, {.EPOLLIN})]]
    (s.1.loops ()).turn = .dispatching [(0, .readCallback)] ∧ s.1.Held 0 := by
  intro s
  have turn : (s.1.loops ()).turn = .dispatching [(0, .readCallback)] := by decide
  have held := channels_held () [.poll () [], .newConnetion (), .doPendingFunctors (), .iterate (),
    .poll () [(0, {.EPOLLIN})]] rfl 0 ⟨(), .established⟩ rfl (Finset.notMem_empty 0)
  exact ⟨turn, (held.2 () .readCallback [] turn).1 (by decide)⟩

-- A message handed over by another thread and sent behind a hang-up registers a channel again
-- that nobody holds.
example :
    let s := run (recorded (step ()) recordLifetimes) ({}, {})
      [.poll () [], .newConnetion (), .doPendingFunctors (), .iterate (),
        .call none 0 (.send [0]) (.accepted 0), .poll () [(0, {.EPOLLHUP})],
        .handleEvent () (.failed 0) [] [] [], .doPendingFunctors (), .functor () (.failed 0)]
    s.2.late = {0} ∧ (s.1.served 0).any (fun served => served.conn.channel.interest.isSome) ∧
      0 ∉ s.1.connections ∧ (s.1.loops ()).functors = [] := by
  decide

end RabbitServer.Net.TcpServer
