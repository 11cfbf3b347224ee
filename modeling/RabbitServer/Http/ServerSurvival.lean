import RabbitServer.Http.HostedService
import RabbitServer.Net.RemovedOnce

/-! What can end the process of an `HttpServer`: the assertions of the removals and that of
`setMethod`, over all connections at once. That of `findCLRF` is about the real buffer's indices. -/

namespace RabbitServer.Net.TcpServer

variable {LoopId : Type} {base : LoopId} {s : TcpServer LoopId}

/-- Every removal on its way through the base loop will find its connection in the map. -/
def RemovalsMatched (base : LoopId) (s : TcpServer LoopId) : Prop :=
  ∀ id, s.removals base id ≤ if id ∈ s.connections then 1 else 0

theorem Accounted.matched (accounted : s.Accounted base none) : s.RemovalsMatched base := by
  intro id
  have removed := accounted.removed id
  rw [due, if_neg (by simp), Nat.add_zero] at removed
  rw [removed]
  split_ifs with waits present
  · exact Nat.le_refl 1
  · exact absurd waits.1 present
  · exact Nat.zero_le 1
  · exact Nat.le_refl 0

variable [DecidableEq LoopId]

/-- A removal that is queued for a disconnected connection is one too many. -/
theorem Accounted.queue_unmatched (accounted : s.Accounted base none) {id : ConnectionId}
    (gone : s.state id = some .kDisconnected) (f : ServerFunctor) (removes : f.removes id = true) :
    ¬ (s.queueInLoop base [f]).RemovalsMatched base := by
  intro all
  have now := all id
  have before := accounted.removed id
  have more : (s.queueInLoop base [f]).removals base id = s.removals base id + 1 := by
    simp only [removals, queueInLoop, setLoop_loops, if_pos, IoLoop.functors]
    rw [← List.append_assoc, List.countP_append, List.countP_singleton, if_pos removes]
  have same : (s.queueInLoop base [f]).connections = s.connections := rfl
  rw [more, same] at now
  simp only [due, gone, and_true, reduceCtorEq, if_false] at before
  omega

/-- A hang-up that is handled for a disconnected connection fails the assertion, now or when the
base loop comes to the removal. -/
theorem Accounted.late_hup (accounted : s.Accounted base none) {loop : LoopId} {id : ConnectionId}
    {rest : List (ConnectionId × ChannelCallback)}
    (turn : (s.loops loop).turn = .dispatching ((id, .hupCallback) :: rest))
    (gone : s.state id = some .kDisconnected) (read : Buffer.Readv) (left : Bytes)
    (calls : List ConnCall) (writes : List WriteResult)
    (running : (s.next base (.handleEvent loop read left calls writes)).assertFailed = false) :
    ¬ (s.next base (.handleEvent loop read left calls writes)).RemovalsMatched base := by
  obtain ⟨served, known, state⟩ := Option.map_eq_some_iff.mp gone
  have moved := accounted.turn loop { s.loops loop with turn := .dispatching rest }
    (by simp [IoLoop.functors, turn, Turn.toRun])
  have here : (s.setTurn loop (.dispatching rest)).served id = some served := known
  have outcome : served.conn.connectionDestroyed.state = .kDisconnected := by
    simp [TcpConnection.connectionDestroyed, state]
  have set := moved.keepConn here served.loop served.conn.connectionDestroyed
    (by rw [outcome]; decide) (iff_of_true outcome state)
  have still : ((s.setTurn loop (.dispatching rest)).setConn id served.loop
      served.conn.connectionDestroyed).state id = some .kDisconnected := by
    rw [setConn_state, if_pos rfl, outcome]
  simp only [TcpServer.next, turn, TcpServer.handleEvent, here, TcpConnection.handleEvent,
    TcpConnection.handleHup, reduceCtorEq, if_false, TcpServer.serve, Option.some.injEq]
    at running ⊢
  split_ifs at running ⊢ with inBase
  · -- the map has been left once, and one removal is still on its way
    unfold TcpServer.removeConnectionFromMapInLoop at running ⊢
    split_ifs at running ⊢ with present
    intro all
    have waits := set.removed id
    rw [due, if_neg (by simp), if_pos ⟨present, still⟩] at waits
    have now := all id
    rw [if_neg (Finset.notMem_erase id _)] at now
    exact absurd (waits.symm.trans_le now) (by decide)
  · exact set.queue_unmatched still _ (decide_eq_true rfl)

end RabbitServer.Net.TcpServer

namespace RabbitServer.Http
open RabbitServer.Net Library.Runs

variable {LoopId : Type} [DecidableEq LoopId] {base : LoopId} {s : HostedHttpServer LoopId}

/-- No hang-up is handled for a connection that is disconnected already. -/
def NoLateHup (s : HostedHttpServer LoopId) : HostedServer.Event LoopId Message → Prop
  | .handleEvent loop read _ writes => s.server.NoLateHup (.handleEvent loop read [] [] writes)
  | _ => True

/-- After 400 was answered to a line that begins with a known method and a space, no bytes are
read from that peer that complete a tail. -/
def TailsKeptOpen (s : HostedHttpServer LoopId) : HostedServer.Event LoopId Message → Prop
  | .handleEvent loop read message _ => ∀ id unread, s.delivered loop read = some (id, unread) →
      (∃ line ∈ (s.contexts id).refusedLines, lineMethod line ≠ .kInvalid) →
        tailComplete message.stale unread = false
  | _ => True

def Harmless (s : HostedHttpServer LoopId) (event : HostedServer.Event LoopId Message) : Prop :=
  NoLateHup s event ∧ TailsKeptOpen s event

/-- After the step the process goes on, and so will it after the removals that wait. -/
def GoesOn (base : LoopId) (s : HostedHttpServer LoopId)
    (event : HostedServer.Event LoopId Message) : Prop :=
  let after := HostedServer.step httpServer base s event
  after.ended = false ∧ after.server.RemovalsMatched base

/-- The process goes on, and its connections are as their own loops have them. -/
structure Living (base : LoopId) (s : HostedHttpServer LoopId) : Prop where
  running : s.halted = none
  accounted : s.server.Accounted base none
  shows : ∀ id, ∃ own, HostedServer.Shows base ({} : Peer) id s own ∧ Sound own

omit [DecidableEq LoopId] in
theorem start_living (base : LoopId) : Living base (HostedServer.start {} : HostedHttpServer LoopId)
    where
  running := rfl
  accounted := TcpServer.start_accounted
  shows := fun id => ⟨connected, HostedServer.start_shows base ({} : Peer) id, connected_sound⟩

/-- The parser's assertion fails where such a line was refused and a tail is complete again. -/
theorem messageCallback_error_iff {peer : Peer} {buf : Bytes} (expecting : Expecting peer buf)
    (message : Message) :
    (∃ halt, httpServer.messageCallback peer buf message = .error halt) ↔
      (∃ line ∈ peer.refusedLines, lineMethod line ≠ .kInvalid) ∧
        tailComplete message.stale buf = true := by
  rcases messageCallback_cases expecting message with ⟨quiet, result⟩ | ⟨complete, line, begins,
    ⟨_, member, named, result⟩ | ⟨unset, returns⟩⟩
  · apply iff_of_false (by simp [result])
    rintro ⟨named, complete⟩
    rcases quiet with open_ | free
    · rw [open_] at complete
      cases complete
    · obtain ⟨line, _, _, _, begins⟩ := expecting.stuck (expecting.named named)
      exact absurd free begins.not_free
  · exact iff_of_true ⟨_, result⟩ ⟨⟨line, member, named⟩, complete⟩
  · apply iff_of_false
    · rcases returns with ⟨_, _, _, result⟩ | ⟨_, _, _, result⟩ <;> simp [result]
    · exact fun refused => expecting.named refused.1 unset

section
variable (living : Living base s)
include living

omit [DecidableEq LoopId] in
theorem Living.not_ended : s.ended = false := by
  simp [HostedServer.ended, living.running, living.accounted.running]

omit [DecidableEq LoopId] in
/-- What a callback has read stands behind what was unread, as the parser left it. -/
theorem Living.expecting {loop : LoopId} {read : Buffer.Readv} {id : ConnectionId} {unread : Bytes}
    (delivered : s.delivered loop read = some (id, unread)) : Expecting (s.contexts id) unread := by
  obtain ⟨own, shows, sound⟩ := living.shows id
  unfold HostedServer.delivered at delivered
  split at delivered
  next other rest data turn =>
    split at delivered
    next served known =>
      split at delivered
      next =>
        cases delivered
        have expecting := sound.expecting.append data
        rwa [shows.context, (shows.view served known).conn] at expecting
      next => cases delivered
    next => cases delivered
  next => cases delivered

/-- A step in which nothing goes wrong. -/
theorem Living.step {event : HostedServer.Event LoopId Message} (harmless : Harmless s event) :
    Living base (HostedServer.step httpServer base s event) := by
  have shows : ∀ id, ∃ own, HostedServer.Shows base ({} : Peer) id
      (HostedServer.step httpServer base s event) own ∧ Sound own := by
    intro id
    obtain ⟨own, shows, sound⟩ := living.shows id
    exact ⟨_, shows.step event, run_invariant Sound own _ sound fun _ small sound => sound.step small⟩
  obtain ⟨timely, open_⟩ := harmless
  have next : HostedServer.step httpServer base s event = s.next httpServer base event := by
    simp only [HostedServer.step, living.not_ended, Bool.false_eq_true, if_false]
  rw [next] at shows ⊢
  cases event with
  | handleEvent loop read message writes =>
    simp only [HostedServer.next, HostedServer.handleEvent] at shows ⊢
    cases delivered : s.delivered loop read with
    | none =>
      rw [delivered] at shows
      exact ⟨living.running, living.accounted.next (.handleEvent loop read [] [] writes) timely,
        shows⟩
    | some given =>
      obtain ⟨id, unread⟩ := given
      simp only [delivered] at shows ⊢
      cases result : httpServer.messageCallback (s.contexts id) unread message with
      | error halt =>
        obtain ⟨named, complete⟩ :=
          (messageCallback_error_iff (living.expecting delivered) message).mp ⟨halt, result⟩
        rw [open_ id unread delivered named] at complete
        cases complete
      | ok outcome =>
        obtain ⟨context, left, calls⟩ := outcome
        simp only [result] at shows
        exact ⟨living.running,
          living.accounted.next (.handleEvent loop read left calls writes) timely, shows⟩
  | newConnetion ioLoop =>
    exact ⟨living.running, living.accounted.next (.newConnetion ioLoop) trivial, shows⟩
  | poll loop active =>
    exact ⟨living.running, living.accounted.next (.poll loop active) trivial, shows⟩
  | doPendingFunctors loop =>
    exact ⟨living.running, living.accounted.next (.doPendingFunctors loop) trivial, shows⟩
  | functor loop write =>
    exact ⟨living.running, living.accounted.next (.functor loop write) trivial, shows⟩
  | iterate loop =>
    exact ⟨living.running, living.accounted.next (.iterate loop) trivial, shows⟩
  | call thread id c write =>
    exact ⟨living.running, living.accounted.next (.call thread id c write) trivial, shows⟩

theorem Living.goesOn_iff (event : HostedServer.Event LoopId Message) :
    GoesOn base s event ↔ Harmless s event := by
  constructor
  · rintro ⟨running, matched⟩
    have next : HostedServer.step httpServer base s event = s.next httpServer base event := by
      simp only [HostedServer.step, living.not_ended, Bool.false_eq_true, if_false]
    rw [next] at running matched
    cases event with
    | handleEvent loop read message writes =>
      simp only [HostedServer.next, HostedServer.handleEvent] at running matched
      constructor
      · intro id rest turn gone
        have quiet : s.delivered loop read = none := by
          simp only [HostedServer.delivered, turn]
        rw [quiet] at running matched
        have unfailed : (s.server.next base (.handleEvent loop read [] [] writes)).assertFailed =
            false := by
          simpa [HostedServer.ended, living.running] using running
        exact living.accounted.late_hup turn gone read [] [] writes unfailed matched
      · intro id unread delivered named
        rw [delivered] at running
        cases complete : tailComplete message.stale unread with
        | false => rfl
        | true =>
          obtain ⟨halt, result⟩ :=
            (messageCallback_error_iff (living.expecting delivered) message).mpr ⟨named, complete⟩
          simp [result, HostedServer.ended] at running
    | _ => exact ⟨trivial, trivial⟩
  · intro harmless
    have after := living.step harmless
    exact ⟨after.not_ended, after.accounted.matched⟩

end

/-- Whatever the peers send and however the loops interleave: at every step none of these
assertions fails, and no removal is on its way that will fail, exactly when no hang-up is handled
for a connection that is disconnected already and no peer completes a tail behind a refused line
that names a method. -/
theorem goesOn_iff_harmless (base : LoopId) (events : List (HostedServer.Event LoopId Message)) :
    Along (HostedServer.step httpServer base) (GoesOn base) (HostedServer.start {}) events ↔
      Along (HostedServer.step httpServer base) Harmless (HostedServer.start {}) events := by
  apply along_iff_of_exact fun s _ => Living base s
  · exact start_living base
  · exact fun s event _ living harmless => living.step harmless
  · exact fun s event _ living => living.goesOn_iff event

end RabbitServer.Http
