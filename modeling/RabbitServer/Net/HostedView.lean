import RabbitServer.Net.HostedServer
import RabbitServer.Net.HandedOver
import RabbitServer.Net.ServerView

/-! A hosted server refines its connections: whatever the other connections, the loops and the
calling threads do, each connection makes a run of `ConnectionLoop`. -/

namespace RabbitServer.Net.HostedServer
open Library.Runs

variable {LoopId Context Input Halt : Type} [DecidableEq LoopId]

/-- The loop a connection joins may be anywhere in its turn. -/
def joining : Turn (ConnectionId × ChannelCallback) ServerFunctor →
    List (ConnectionLoop.Event Input)
  | .polling => []
  | .dispatching _ => [.poll ∅]
  | .running _ => [.poll ∅, .doPendingFunctors]

/-- What a step of the server is for one connection: events of its own loop. -/
def ownNext (base : LoopId) (id : ConnectionId) (s : HostedServer LoopId Context Halt)
    (event : Event LoopId Input) : List (ConnectionLoop.Event Input) :=
  match event, s.server.served id with
  | .newConnetion ioLoop, _ =>
    match (s.server.loops base).turn with
    | .dispatching _ =>
      if s.server.nextConnectionId = id then joining (s.server.loops ioLoop).turn else []
    | _ => []
  | .poll loop active, some served =>
    if served.loop = loop ∧ (s.server.loops loop).turn = .polling ∧
        s.server.Reported loop active then
      [.poll ((active.lookup id).getD ∅)]
    else []
  | .handleEvent loop read input writes, some served =>
    match (s.server.loops loop).turn with
    | .dispatching ((other, callback) :: _) =>
      if other = id then
        .handleEvent read input writes :: s.server.removal base loop id
          (served.conn.handleEvent callback read (writes.headD (.accepted 0))).2
      else []
    | _ => []
  | .doPendingFunctors loop, some served =>
    if served.loop = loop ∧ (s.server.loops loop).turn = .dispatching [] then
      [.doPendingFunctors]
    else []
  | .functor loop write, some served =>
    match (s.server.loops loop).turn with
    | .running (.connection other f :: _) =>
      if other = id then
        .functor write :: s.server.removal base loop id (served.conn.functor f write).2
      else []
    | .running (.removeConnectionInLoop other :: _) =>
      if other = id ∧ id ∈ s.server.connections then [.removeConnectionInLoop] else []
    | _ => []
  | .iterate loop, some served =>
    if served.loop = loop ∧ (s.server.loops loop).turn = .running [] then [.iterate] else []
  | .call thread other c write, some served =>
    if other = id ∧ ¬ ∃ loop, thread = some loop ∧ (s.server.loops loop).turn = .polling then
      [.call (thread = some served.loop) c write]
    else []
  | _, none => []

def ownSteps (base : LoopId) (id : ConnectionId) (s : HostedServer LoopId Context Halt)
    (event : Event LoopId Input) : List (ConnectionLoop.Event Input) :=
  if s.ended then [] else ownNext base id s event

/-- The server holds the connection as the loop of its own does; before it is accepted, that
loop is at its start. -/
structure Shows (base : LoopId) (context : Context) (id : ConnectionId)
    (s : HostedServer LoopId Context Halt) (c : ConnectionLoop Context Halt) : Prop where
  home : s.server.AtHome base
  before : s.server.served id = none → c = { context }
  view : ∀ served, s.server.served id = some served → s.server.View base id served c
  context : c.context = s.contexts id
  running : s.ended = false → c.halted = none

omit [DecidableEq LoopId] in
theorem start_shows (base : LoopId) (context : Context) (id : ConnectionId) :
    Shows base context id (start context : HostedServer LoopId Context Halt) { context } where
  home := TcpServer.start_atHome
  before := fun _ => rfl
  view := nofun
  context := rfl
  running := fun _ => rfl

theorem run_joining (app : App Context Input Halt) (context : Context)
    (turn : Turn (ConnectionId × ChannelCallback) ServerFunctor) :
    run (ConnectionLoop.step app) { context } (joining turn) =
      { context
        turn := match turn with
          | .polling => .polling
          | .dispatching _ => .dispatching []
          | .running _ => .running [] } := by
  cases turn with
  | polling => rfl
  | dispatching active =>
    simp [joining, ConnectionLoop.step, ConnectionLoop.next, handleEventWithGuard]
  | running toRun =>
    simp [joining, ConnectionLoop.step, ConnectionLoop.next, handleEventWithGuard]

section
variable {app : App Context Input Halt} {base : LoopId} {context : Context} {id : ConnectionId}
  {s : HostedServer LoopId Context Halt} {c : ConnectionLoop Context Halt}

omit [DecidableEq LoopId] in
theorem Shows.of_view {served : Served LoopId} (view : s.server.View base id served c)
    (home : s.server.AtHome base) (kept : c.context = s.contexts id)
    (running : s.ended = false → c.halted = none) : Shows base context id s c where
  home := home
  before := fun none => by rw [view.known] at none; cases none
  view := fun other known => by
    obtain rfl := Option.some.inj (view.known.symm.trans known)
    exact view
  context := kept
  running := running

section
variable (shows : Shows base context id s c)
include shows

omit [DecidableEq LoopId] in
/-- What happens before a connection is accepted is not seen of it. -/
theorem Shows.unserved (unknown : s.server.served id = none)
    {after : HostedServer LoopId Context Halt} (home : after.server.AtHome base)
    (still : after.server.served id = none) (context_kept : after.contexts id = s.contexts id) :
    Shows base context id after c where
  home := home
  before := fun _ => shows.before unknown
  view := fun served known => by
    rw [still] at known
    cases known
  context := shows.context.trans context_kept.symm
  running := fun _ => by rw [shows.before unknown]

/-- A step of the server alone leaves every context as it is. -/
theorem Shows.server_unserved (unknown : s.server.served id = none)
    (event : TcpServer.Event LoopId) (other : ∀ ioLoop, event ≠ .newConnetion ioLoop) :
    Shows base context id { s with server := s.server.next base event } c :=
  shows.unserved unknown (shows.home.next event) (TcpServer.next_unserved unknown event other) rfl

omit [DecidableEq LoopId] shows in
theorem not_failed (running : s.ended = false) : s.server.assertFailed = false :=
  (Bool.or_eq_false_iff.mp running).2

/-- A step of the server alone that is seen of an accepted connection. -/
theorem Shows.server_served (running : s.ended = false) {event : TcpServer.Event LoopId}
    {served : Served LoopId} {c' : ConnectionLoop Context Halt}
    (view : (s.server.next base event).View base id served c') (context_kept : c'.context = c.context)
    (halted_kept : c'.halted = c.halted) :
    Shows base context id { s with server := s.server.next base event } c' :=
  .of_view view (shows.home.next event) (context_kept.trans shows.context)
    fun _ => halted_kept.trans (shows.running running)

/-- A step that the server does not make is none of the connection either. -/
theorem Shows.idle (running : s.ended = false) {event : TcpServer.Event LoopId}
    (idle : s.server.next base event = s.server) :
    Shows base context id { s with server := s.server.next base event } c := by
  rw [idle]
  exact ⟨shows.home, shows.before, shows.view, shows.context, fun _ => shows.running running⟩

theorem Shows.poll (running : s.ended = false) (loop : LoopId)
    (active : List (ConnectionId × Events)) :
    Shows base context id (s.next app base (.poll loop active))
      (run (ConnectionLoop.step app) c (ownNext base id s (.poll loop active))) := by
  simp only [HostedServer.next, ownNext]
  cases known : s.server.served id with
  | none => exact shows.server_unserved known _ nofun
  | some served =>
    have view := shows.view served known
    dsimp only
    by_cases can : (s.server.loops loop).turn = .polling ∧ s.server.Reported loop active
    · have turned := view.setTurn loop (.dispatching (active.flatMap fun entry =>
        (handleEventWithGuard entry.2).map fun callback => (entry.1, callback))) (by rw [can.1]; rfl)
      have polled : s.server.next base (.poll loop active) = s.server.setTurn loop
          (.dispatching (active.flatMap fun entry =>
            (handleEventWithGuard entry.2).map fun callback => (entry.1, callback))) := if_pos can
      rw [← polled] at turned
      by_cases here : served.loop = loop
      · have reports : (active.lookup id).getD ∅ = ∅ ∨
            c.conn.channel.Reports ((active.lookup id).getD ∅) := by
          cases found : active.lookup id with
          | none => exact Or.inl rfl
          | some revents =>
            obtain ⟨before, after, rfl, -⟩ := List.lookup_eq_some_iff.mp found
            obtain ⟨other, same, -, reports⟩ := can.2.2 (id, revents) (by simp)
            rw [view.known] at same
            cases same
            rw [view.conn]
            exact Or.inr reports
        have polling : c.turn = .polling := by rw [view.turn, here, can.1]; rfl
        rw [if_pos ⟨here, can⟩, run_cons, run_nil,
          ConnectionLoop.step_running (shows.running running), ConnectionLoop.next,
          if_pos ⟨polling, reports⟩]
        rw [if_pos here.symm, ownTurn, ownEvents_active id can.2.1] at turned
        exact shows.server_served running turned rfl rfl
      · rw [if_neg fun all => here all.1]
        rw [if_neg (Ne.symm here)] at turned
        exact shows.server_served running turned rfl rfl
    · rw [if_neg fun all => can all.2]
      exact shows.idle running (if_neg can)

theorem Shows.doPendingFunctors (running : s.ended = false) (loop : LoopId) :
    Shows base context id (s.next app base (.doPendingFunctors loop))
      (run (ConnectionLoop.step app) c (ownNext base id s (.doPendingFunctors loop))) := by
  simp only [HostedServer.next, ownNext]
  cases known : s.server.served id with
  | none => exact shows.server_unserved known _ nofun
  | some served =>
    have view := shows.view served known
    dsimp only
    by_cases turn : (s.server.loops loop).turn = .dispatching []
    · have swapped : s.server.next base (.doPendingFunctors loop) =
          s.server.setLoop loop { turn := .running (s.server.loops loop).pendingFunctors } :=
        if_pos turn
      have moved := view.swap loop turn
      rw [← swapped] at moved
      by_cases here : served.loop = loop
      · have dispatched : c.turn = .dispatching [] := by rw [view.turn, here, turn]; rfl
        rw [if_pos ⟨here, turn⟩, run_cons, run_nil,
          ConnectionLoop.step_running (shows.running running), ConnectionLoop.next,
          if_pos dispatched]
        rw [if_pos here.symm, if_pos here.symm] at moved
        exact shows.server_served running moved rfl rfl
      · rw [if_neg fun all => here all.1]
        rw [if_neg (Ne.symm here), if_neg (Ne.symm here)] at moved
        exact shows.server_served running moved rfl rfl
    · rw [if_neg fun all => turn all.2]
      exact shows.idle running (if_neg turn)

theorem Shows.iterate (running : s.ended = false) (loop : LoopId) :
    Shows base context id (s.next app base (.iterate loop))
      (run (ConnectionLoop.step app) c (ownNext base id s (.iterate loop))) := by
  simp only [HostedServer.next, ownNext]
  cases known : s.server.served id with
  | none => exact shows.server_unserved known _ nofun
  | some served =>
    have view := shows.view served known
    dsimp only
    by_cases turn : (s.server.loops loop).turn = .running []
    · have turned := view.setTurn loop .polling (by rw [turn]; rfl)
      have iterated : s.server.next base (.iterate loop) = s.server.setTurn loop .polling :=
        if_pos turn
      rw [← iterated] at turned
      by_cases here : served.loop = loop
      · have ran : c.turn = .running [] := by rw [view.turn, here, turn]; rfl
        rw [if_pos ⟨here, turn⟩, run_cons, run_nil,
          ConnectionLoop.step_running (shows.running running), ConnectionLoop.next, if_pos ran]
        rw [if_pos here.symm] at turned
        exact shows.server_served running turned rfl rfl
      · rw [if_neg fun all => here all.1]
        rw [if_neg (Ne.symm here)] at turned
        exact shows.server_served running turned rfl rfl
    · rw [if_neg fun all => turn all.2]
      exact shows.idle running (if_neg turn)

theorem Shows.call (running : s.ended = false) (thread : Option LoopId) (other : ConnectionId)
    (call : ConnCall) (write : WriteResult) :
    Shows base context id (s.next app base (.call thread other call write))
      (run (ConnectionLoop.step app) c (ownNext base id s (.call thread other call write))) := by
  simp only [HostedServer.next, ownNext]
  cases known : s.server.served id with
  | none => exact shows.server_unserved known _ nofun
  | some served =>
    have view := shows.view served known
    dsimp only
    by_cases polling : ∃ loop, thread = some loop ∧ (s.server.loops loop).turn = .polling
    · rw [if_neg fun all => all.2 polling]
      apply shows.idle running
      simp only [TcpServer.next, if_pos polling]
      split <;> rfl
    · by_cases same : other = id
      · subst same
        have called : s.server.next base (.call thread other call write) =
            (s.server.setConn other served.loop
              (served.conn.call (thread = some served.loop) call write).1).queueInLoop served.loop
                ((served.conn.call (thread = some served.loop) call write).2.toList.map
                  (.connection other)) := by
          simp only [TcpServer.next, known, if_neg polling]
        have awake : ¬ (decide (thread = some served.loop) = true ∧ c.turn = .polling) := by
          intro both
          apply polling
          refine ⟨served.loop, of_decide_eq_true both.1, ?_⟩
          have turn := both.2
          rw [view.turn] at turn
          cases own : (s.server.loops served.loop).turn with
          | polling => rfl
          | dispatching active => rw [own] at turn; cases turn
          | running toRun => rw [own] at turn; cases turn
        have moved := (view.setConn
          (served.conn.call (thread = some served.loop) call write).1).queueInLoop served.loop
            ((served.conn.call (thread = some served.loop) call write).2.toList.map
              (.connection other))
        rw [← called, if_pos rfl, ownFunctors_map, List.count_eq_zero.mpr (by simp), ite_self,
          Nat.add_zero] at moved
        rw [if_pos ⟨rfl, polling⟩, run_cons, run_nil,
          ConnectionLoop.step_running (shows.running running), ConnectionLoop.next, if_neg awake,
          view.conn]
        exact shows.server_served running moved rfl rfl
      · rw [if_neg fun all => same all.1]
        cases theirs : s.server.served other with
        | none =>
          apply shows.idle running
          simp only [TcpServer.next, theirs]
        | some theirServed =>
          have called : s.server.next base (.call thread other call write) =
              (s.server.setConn other theirServed.loop
                (theirServed.conn.call (thread = some theirServed.loop) call write).1).queueInLoop
                  theirServed.loop
                  ((theirServed.conn.call (thread = some theirServed.loop) call
                    write).2.toList.map (.connection other)) := by
            simp only [TcpServer.next, theirs, if_neg polling]
          have moved : (s.server.next base (.call thread other call write)).View base id
              served c := by
            rw [called]
            apply (view.setConn_other same _ _).queueInLoop_other
            · exact ownFunctors_map_other same _
            · simp
          exact shows.server_served running moved rfl rfl

/-- A connection that is accepted begins where its loop is, with nothing of its own there. -/
theorem Shows.newConnetion (running : s.ended = false) (ioLoop : LoopId) :
    Shows base context id (s.next app base (.newConnetion ioLoop))
      (run (ConnectionLoop.step app) c (ownNext base id s (.newConnetion ioLoop))) := by
  have home := shows.home
  simp only [HostedServer.next, ownNext]
  split
  next rest turn =>
    have accepted : s.server.next base (.newConnetion ioLoop) =
        { s.server.setConn s.server.nextConnectionId ioLoop .established with
          connections := insert s.server.nextConnectionId s.server.connections
          nextConnectionId := s.server.nextConnectionId + 1 } := by
      simp only [TcpServer.next, turn]
    by_cases own : s.server.nextConnectionId = id
    · have unknown := home.fresh id (Nat.le_of_eq own)
      have nowhere : s.server.home id = none := by rw [TcpServer.home, unknown]; rfl
      have absent : ∀ loop f, ServerFunctor.connection id f ∉ (s.server.loops loop).functors := by
        intro loop f member
        have there := home.functors loop _ member
        rw [TcpServer.Belongs, nowhere] at there
        cases there
      rw [if_pos own, shows.before unknown, run_joining]
      have view : (s.server.next base (.newConnetion ioLoop)).View base id ⟨ioLoop, .established⟩
          ({ context, turn := ownTurn id (s.server.loops ioLoop).turn } :
            ConnectionLoop Context Halt) := by
        rw [accepted, own]
        refine ⟨TcpServer.setConn_known .., rfl, rfl, ?_, ?_⟩
        · apply (ownFunctors_nil_of _).symm
          intro f member
          exact absent ioLoop f (List.mem_append_right _ member)
        · intro _
          apply (List.count_eq_zero.mpr _).symm
          intro member
          exact (home.functors base _ member).2 nowhere
      have joined : (match (s.server.loops ioLoop).turn with
          | .polling => .polling
          | .dispatching _ => .dispatching []
          | .running _ => .running []) = ownTurn id (s.server.loops ioLoop).turn := by
        split
        next turn => rw [turn]; rfl
        next active turn =>
          have none : ownEvents id active = [] := by
            rw [ownEvents, List.filterMap_eq_nil_iff]
            intro entry member
            have there := home.active ioLoop active turn entry member
            rw [if_neg]
            rintro rfl
            rw [nowhere] at there
            cases there
          rw [turn, ownTurn, none]
        next toRun turn =>
          rw [turn, ownTurn, ownFunctors_nil_of]
          intro f member
          apply absent ioLoop f
          rw [IoLoop.functors, turn]
          exact List.mem_append_left _ member
      rw [joined]
      exact .of_view view (home.next (.newConnetion ioLoop)) (by
        rw [← shows.context, shows.before unknown]) fun _ => rfl
    · rw [if_neg own, run_nil]
      cases known : s.server.served id with
      | none =>
        apply shows.unserved known (home.next (.newConnetion ioLoop))
        · rw [accepted]
          simp only [TcpServer.setConn, Function.update_apply, if_neg (Ne.symm own), known]
        · rfl
      | some served =>
        have view := (shows.view served known).setConn_other own ioLoop .established
        have after : (s.server.next base (.newConnetion ioLoop)).View base id served c := by
          rw [accepted]
          exact ⟨view.known, view.conn, view.turn, view.pendingFunctors, view.removing⟩
        exact shows.server_served running after rfl rfl
  next other =>
    apply shows.idle running
    simp only [TcpServer.next]

theorem Shows.functor (running : s.ended = false) (loop : LoopId) (write : WriteResult) :
    Shows base context id (s.next app base (.functor loop write))
      (run (ConnectionLoop.step app) c (ownNext base id s (.functor loop write))) := by
  simp only [HostedServer.next, ownNext]
  cases known : s.server.served id with
  | none => exact shows.server_unserved known _ (by rintro ioLoop ⟨⟩)
  | some served =>
    have view := shows.view served known
    dsimp only
    split
    next other f toRun turn =>
      have called : s.server.next base (.functor loop write) =
          (s.server.setTurn loop (.running toRun)).functor base loop (.connection other f)
            write := by
        simp only [TcpServer.next, turn]
      have kept : (Turn.running toRun :
            Turn (ConnectionId × ChannelCallback) ServerFunctor).toRun.count
              (.removeConnectionInLoop id) =
          (s.server.loops loop).turn.toRun.count (.removeConnectionInLoop id) := by
        rw [turn]
        simp [Turn.toRun]
      by_cases same : other = id
      · subst same
        have here : served.loop = loop := by
          have belongs := shows.home.functors loop (.connection other f) (by
            rw [IoLoop.functors, turn]
            exact List.mem_cons_self ..)
          exact Option.some.inj ((TcpServer.home_served known).symm.trans belongs)
        have ran : c.turn = .running (f :: ownFunctors other toRun) := by
          rw [view.turn, here, turn, ownTurn, ownFunctors_own]
        have popped := view.setTurn loop (.running toRun) kept
        rw [if_pos here.symm] at popped
        obtain ⟨conn, moved⟩ := popped.functor app (shows.running running) loop f write
        rw [← called, ownTurn] at moved
        rw [if_pos rfl, run_cons, ConnectionLoop.step_running (shows.running running)]
        simp only [ConnectionLoop.next, ran, ← view.conn]
        have unmoved := TcpServer.run_removal base s.server app
          (({ c with turn := .running (ownFunctors other toRun) } :
            ConnectionLoop Context Halt).ended (c.conn.functor f write)) loop other
          (c.conn.functor f write).2
        exact shows.server_served running moved unmoved.1 unmoved.2
      · have moved := (view.setTurn_unseen loop (.running toRun) kept (by
          rw [turn, ownTurn, ownTurn, ownFunctors_other same])).functor_other same loop f write
        rw [← called] at moved
        rw [if_neg same]
        exact shows.server_served running moved rfl rfl
    next other toRun turn =>
      have called : s.server.next base (.functor loop write) =
          (s.server.setTurn loop (.running toRun)).removeConnectionInLoop other := by
        simp only [TcpServer.next, turn, TcpServer.functor]
      obtain rfl : loop = base := (shows.home.functors loop (.removeConnectionInLoop other) (by
        rw [IoLoop.functors, turn]
        exact List.mem_cons_self ..)).1
      by_cases same : other = id
      · subst same
        obtain ⟨popped, waiting⟩ := view.popRemoval turn
        by_cases present : other ∈ s.server.connections
        · have one : c.removing - 1 + 1 = c.removing := Nat.sub_add_cancel (waiting
            (not_failed running))
          have moved := popped.removeConnectionInLoop app (shows.running running) present
          rw [← called] at moved
          simp only [one] at moved
          rw [if_pos ⟨rfl, present⟩, run_cons, run_nil]
          have unmoved := TcpServer.run_removal loop s.server app c loop other
            (some .closeCallback)
          rw [TcpServer.removal, if_pos ⟨rfl, rfl, present⟩, run_cons, run_nil] at unmoved
          exact shows.server_served running moved unmoved.1 unmoved.2
        · have failed : (s.server.next loop (.functor loop write)).View loop other served c := by
            rw [called, TcpServer.removeConnectionInLoop,
              if_neg (show other ∉ (s.server.setTurn loop (.running toRun)).connections from present)]
            refine ⟨popped.known, popped.conn, popped.turn, popped.pendingFunctors, ?_⟩
            rintro ⟨⟩
          rw [if_neg fun all => present all.2]
          exact shows.server_served running failed rfl rfl
      · have moved := (view.setTurn_unseen loop (.running toRun) (by
          rw [turn]
          simp [Turn.toRun, same]) (by
          rw [turn]
          rfl)).removeConnectionInLoop_other same
        rw [← called] at moved
        rw [if_neg fun all => same all.1]
        exact shows.server_served running moved rfl rfl
    next own removal =>
      have moved : (s.server.next base (.functor loop write)).View base id served c := by
        simp only [TcpServer.next]
        split
        next f toRun turn =>
          cases f with
          | connection other f => exact absurd turn (own other f toRun)
          | removeConnectionInLoop other => exact absurd turn (removal other toRun)
          | removeConnectionFromMapInLoop other =>
            apply (view.setTurn_unseen loop (.running toRun) _ _).removeConnectionFromMapInLoop
            · rw [turn]
              simp [Turn.toRun]
            · rw [turn]
              rfl
        next => exact view
      exact shows.server_served running moved rfl rfl

omit [DecidableEq LoopId] shows in
/-- The application is called exactly when the callback of the connection asks for it. -/
theorem delivered_own {loop : LoopId} {callback : ChannelCallback}
    {rest : List (ConnectionId × ChannelCallback)} {served : Served LoopId}
    (turn : (s.server.loops loop).turn = .dispatching ((id, callback) :: rest))
    (known : s.server.served id = some served) (read : Buffer.Readv) (write : WriteResult) :
    s.delivered loop read =
      if (served.conn.handleEvent callback read write).2 = some .messageCallback then
        some (id, (served.conn.handleEvent callback read write).1.inBuffer)
      else none := by
  split
  next message =>
    obtain ⟨rfl, data, rfl, nonempty⟩ := served.conn.handleEvent_message message
    simp only [HostedServer.delivered, turn, known, if_pos nonempty, TcpConnection.handleEvent,
      TcpConnection.handleRead]
  next quiet =>
    unfold HostedServer.delivered
    split
    next other after data same =>
      rw [turn] at same
      cases same
      rw [known]
      dsimp only
      rw [if_neg]
      intro nonempty
      apply quiet
      simp only [TcpConnection.handleEvent, TcpConnection.handleRead, if_pos nonempty]
    next => rfl

omit [DecidableEq LoopId] shows in
theorem delivered_known {loop : LoopId} {read : Buffer.Readv} {other : ConnectionId} {unread : Bytes}
    (delivered : s.delivered loop read = some (other, unread)) :
    (∃ callback rest, (s.server.loops loop).turn = .dispatching ((other, callback) :: rest)) ∧
      s.server.served other ≠ none := by
  unfold HostedServer.delivered at delivered
  split at delivered
  next first rest data turn =>
    split at delivered
    next served known =>
      split at delivered
      next =>
        cases delivered
        exact ⟨⟨_, _, turn⟩, by rw [known]; exact Option.some_ne_none _⟩
      next => cases delivered
    next => cases delivered
  next => cases delivered

/-- What a callback of another connection does is not seen, whatever the application makes of
what that connection has read. -/
theorem Shows.handleEvent_unseen (running : s.ended = false) (loop : LoopId) (read : Buffer.Readv)
    (input : Input) (writes : List WriteResult)
    (unseen : ∀ callback rest, (s.server.loops loop).turn ≠ .dispatching ((id, callback) :: rest)) :
    Shows base context id (s.handleEvent app base loop read input writes) c := by
  have after : ∀ left calls contexts halted, contexts id = s.contexts id →
      Shows base context id { s with
        server := s.server.next base (.handleEvent loop read left calls writes)
        contexts
        halted } c := by
    intro left calls contexts halted kept
    cases known : s.server.served id with
    | none =>
      exact shows.unserved known (shows.home.next (.handleEvent loop read left calls writes))
        (TcpServer.next_unserved known _ (by rintro ioLoop ⟨⟩)) kept
    | some served =>
      have view := shows.view served known
      have moved : (s.server.next base (.handleEvent loop read left calls writes)).View base id
          served c := by
        simp only [TcpServer.next]
        split
        next other callback rest turn =>
          have different : other ≠ id := by
            rintro rfl
            exact unseen callback rest turn
          apply (view.setTurn_unseen loop (.dispatching rest) _ _).handleEvent_other different
          · rw [turn]
            rfl
          · rw [turn]
            simp [ownTurn, ownEvents, different]
        next => exact view
      exact .of_view moved (shows.home.next (.handleEvent loop read left calls writes))
        (shows.context.trans kept.symm) fun _ => shows.running running
  unfold HostedServer.handleEvent
  split
  next => exact after [] [] s.contexts s.halted rfl
  next other unread delivered =>
    obtain ⟨⟨callback, rest, turn⟩, -⟩ := delivered_known delivered
    have different : id ≠ other := by
      rintro rfl
      exact unseen callback rest turn
    split
    next halt _ => exact after unread [] s.contexts (some halt) rfl
    next answered left calls _ =>
      exact after left calls _ s.halted (Function.update_of_ne different _ _)

theorem Shows.handleEvent (running : s.ended = false) (loop : LoopId) (read : Buffer.Readv)
    (input : Input) (writes : List WriteResult) :
    Shows base context id (s.next app base (.handleEvent loop read input writes))
      (run (ConnectionLoop.step app) c (ownNext base id s (.handleEvent loop read input writes))) := by
  by_cases own : ∃ callback rest, (s.server.loops loop).turn = .dispatching ((id, callback) :: rest)
  · obtain ⟨callback, rest, turn⟩ := own
    have home := shows.home.active loop _ turn (id, callback) (List.mem_cons_self ..)
    obtain ⟨served, known, here⟩ := Option.map_eq_some_iff.mp home
    have view := shows.view served known
    have dispatched : c.turn = .dispatching (callback :: ownEvents id rest) := by
      rw [view.turn, here, turn]
      simp [ownTurn, ownEvents]
    have popped := view.setTurn loop (.dispatching rest) (by rw [turn]; rfl)
    rw [if_pos here.symm, ownTurn] at popped
    have called : ∀ left calls, s.server.next base (.handleEvent loop read left calls writes) =
        (s.server.setTurn loop (.dispatching rest)).handleEvent base loop id callback read left
          calls writes := by
      intro left calls
      simp only [TcpServer.next, turn]
    simp only [HostedServer.next, ownNext, turn, known]
    rw [if_pos trivial, run_cons, ConnectionLoop.step_running (shows.running running)]
    simp only [ConnectionLoop.next, dispatched, ← view.conn]
    rw [HostedServer.handleEvent, delivered_own turn known read (writes.headD (.accepted 0)),
      ← view.conn]
    by_cases message : (c.conn.handleEvent callback read (writes.headD (.accepted 0))).2 =
        some .messageCallback
    · have silent : s.server.removal base loop id
          (c.conn.handleEvent callback read (writes.headD (.accepted 0))).2 =
            ([] : List (ConnectionLoop.Event Input)) :=
        TcpServer.removal_quiet (by rw [message]; decide)
      rw [if_pos message, silent, run_nil]
      dsimp only
      split
      next halt stops =>
        rw [← shows.context] at stops
        obtain ⟨conn, moved⟩ := popped.handleEvent_halted loop callback read input writes message
          stops
        rw [← called] at moved
        refine .of_view moved (shows.home.next (.handleEvent loop read _ [] writes)) ?_ (by rintro ⟨⟩)
        simp only [ConnectionLoop.handleEvent, if_pos message, ConnectionLoop.receive,
          ConnectionLoop.ended, stops]
        exact shows.context
      next answered left calls returned =>
        rw [← shows.context] at returned
        obtain ⟨conn, moved⟩ := popped.handleEvent_answered loop callback read input writes message
          returned
        rw [← called] at moved
        refine .of_view moved (shows.home.next (.handleEvent loop read left calls writes)) ?_ ?_
        · simp only [ConnectionLoop.handleEvent, if_pos message, ConnectionLoop.receive,
            ConnectionLoop.ended, returned]
          rw [Function.update_self]
        · intro _
          simp only [ConnectionLoop.handleEvent, if_pos message, ConnectionLoop.receive,
            ConnectionLoop.ended, returned]
          exact shows.running running
    · rw [if_neg message]
      dsimp only
      obtain ⟨conn, moved⟩ := popped.handleEvent_quiet app (shows.running running) loop callback
        read input [] [] writes message
      rw [← called] at moved
      have unmoved := TcpServer.run_removal base s.server app
        (({ c with turn := .dispatching (ownEvents id rest) } :
          ConnectionLoop Context Halt).handleEvent app callback read input writes) loop id
        (c.conn.handleEvent callback read (writes.headD (.accepted 0))).2
      refine shows.server_served running moved (unmoved.1.trans ?_) (unmoved.2.trans ?_)
      · simp only [ConnectionLoop.handleEvent, if_neg message, ConnectionLoop.ended]
      · simp only [ConnectionLoop.handleEvent, if_neg message, ConnectionLoop.ended]
  · have unseen : ∀ callback rest,
        (s.server.loops loop).turn ≠ .dispatching ((id, callback) :: rest) :=
      fun callback rest turn => own ⟨callback, rest, turn⟩
    have none : ownNext base id s (.handleEvent loop read input writes) = [] := by
      cases known : s.server.served id with
      | none => simp only [ownNext, known]
      | some served =>
        simp only [ownNext, known]
        split
        next other callback rest turn =>
          rw [if_neg]
          rintro rfl
          exact unseen callback rest turn
        next => rfl
    rw [none]
    exact shows.handleEvent_unseen running loop read input writes unseen

/-- One step of the server is, for each connection, the steps of its own loop that it stands
for. -/
theorem Shows.step (event : Event LoopId Input) :
    Shows base context id (s.step app base event)
      (run (ConnectionLoop.step app) c (ownSteps base id s event)) := by
  unfold HostedServer.step ownSteps
  by_cases ended : s.ended
  · rw [if_pos ended, if_pos ended]
    exact shows
  · rw [if_neg ended, if_neg ended]
    have running : s.ended = false := Bool.not_eq_true _ ▸ ended
    cases event with
    | newConnetion ioLoop => exact shows.newConnetion running ioLoop
    | poll loop active => exact shows.poll running loop active
    | handleEvent loop read input writes => exact shows.handleEvent running loop read input writes
    | doPendingFunctors loop => exact shows.doPendingFunctors running loop
    | functor loop write => exact shows.functor running loop write
    | iterate loop => exact shows.iterate running loop
    | call thread other call write => exact shows.call running thread other call write

end

end

/-- The events that a connection's own loop has gone through in a run of the server. -/
def ownRun (app : App Context Input Halt) (base : LoopId) (context : Context) (id : ConnectionId)
    (events : List (Event LoopId Input)) : List (ConnectionLoop.Event Input) :=
  translated (HostedServer.step app base) (ownSteps base id) (start context) events

theorem run_shows (app : App Context Input Halt) (base : LoopId) (context : Context)
    (id : ConnectionId) (events : List (Event LoopId Input)) :
    Shows base context id (run (HostedServer.step app base) (start context) events)
      (run (ConnectionLoop.step app) { context } (ownRun app base context id events)) :=
  run_translated (Shows base context id) _ _ events (start_shows base context id)
    fun _ _ event shows => shows.step event

/-- Whatever happens to the other connections, in any loop and by any thread: a connection of
the server, its context, its active callbacks and its functors are those of a loop that serves
it alone, driven by the events that concern it. -/
theorem connection_alone (app : App Context Input Halt) (base : LoopId) (context : Context)
    (id : ConnectionId) (events : List (Event LoopId Input)) :
    let s := run (HostedServer.step app base) (start context) events
    let c := run (ConnectionLoop.step app) { context } (ownRun app base context id events)
    match s.server.served id with
    | none => c = { context }
    | some served =>
      c.conn = served.conn ∧ c.context = s.contexts id ∧
        c.turn = ownTurn id (s.server.loops served.loop).turn ∧
        c.pendingFunctors = ownFunctors id (s.server.loops served.loop).pendingFunctors ∧
        (s.ended = false → c.halted = none) := by
  intro s c
  have shows := run_shows app base context id events
  cases known : s.server.served id with
  | none => exact shows.before known
  | some served =>
    have view := shows.view served known
    exact ⟨view.conn, shows.context, view.turn, view.pendingFunctors, shows.running⟩

end RabbitServer.Net.HostedServer
