import RabbitServer.Http.HttpServer
import RabbitServer.Net.ClosingTurn

/-! One connection of an `HttpServer` in its io loop: what the bytes a peer sends can make
of the parser, while the connection is open and while it is being closed. -/

namespace RabbitServer.Http
open RabbitServer.Net RabbitServer.Net.ConnectionLoop Library.Runs

/-- The context of a connection, the requests passed to `httpCallback_`, the lines answered
with 400, and whether `closeConnection` has been called on account of either. -/
structure Peer where
  context : HttpContext := {}
  requests : List HttpRequest := []
  refusedLines : List Bytes := []
  decided : Bool := false

def firstLine (buf : Bytes) : Bytes := buf.take ((findCLRF buf).getD 0)

/-- `HttpServer::onMessage` as the message callback of a connection. -/
def httpServer : App Peer Message Halt where
  messageCallback peer buf message :=
    match onMessage peer.context buf message with
    | .error halt => .error halt
    | .ok handled =>
      .ok ({
        context := handled.context
        requests := peer.requests ++ handled.request.toList
        refusedLines := peer.refusedLines ++ if handled.refused then [firstLine buf] else []
        decided := peer.decided || decide (.closeConnection ∈ handled.calls) },
        handled.buf, handled.calls)

abbrev HttpConnection := ConnectionLoop Peer Halt

/-- The first line of the bytes. -/
def BeginsWith (buf line : Bytes) : Prop :=
  LineFree line ∧ ∃ rest, buf = line ++ CR :: LF :: rest

theorem BeginsWith.unique {buf line other : Bytes} (first : BeginsWith buf line)
    (second : BeginsWith buf other) : line = other := by
  obtain ⟨free, rest, rfl⟩ := first
  obtain ⟨otherFree, more, same⟩ := second
  have found := findCLRF_line free rest
  rw [same, findCLRF_line otherFree more] at found
  exact (List.append_inj same (Option.some.inj found).symm).1

theorem BeginsWith.append {buf line : Bytes} (begins : BeginsWith buf line) (more : Bytes) :
    BeginsWith (buf ++ more) line := by
  obtain ⟨free, rest, rfl⟩ := begins
  exact ⟨free, rest ++ more, by simp⟩

theorem BeginsWith.firstLine {buf line : Bytes} (begins : BeginsWith buf line) :
    firstLine buf = line := by
  obtain ⟨free, rest, rfl⟩ := begins
  rw [Http.firstLine, findCLRF_line free rest]
  exact List.take_left

theorem BeginsWith.not_free {buf line : Bytes} (begins : BeginsWith buf line) : ¬ LineFree buf := by
  obtain ⟨free, rest, rfl⟩ := begins
  intro none
  have found := findCLRF_line free rest
  rw [show findCLRF (line ++ CR :: LF :: rest) = .none from none] at found
  cases found

/-- The peer's part of the state: a request line is expected, and a method is set exactly
when a line that names one was refused; that line is still the first one unread. -/
structure Expecting (peer : Peer) (inBuffer : Bytes) : Prop where
  state : peer.context.state = .kExpectRequestLine
  stuck : peer.context.request.method ≠ .kInvalid →
    ∃ line ∈ peer.refusedLines, lineMethod line ≠ .kInvalid ∧ ¬ Accepted line ∧
      BeginsWith inBuffer line
  named : (∃ line ∈ peer.refusedLines, lineMethod line ≠ .kInvalid) →
    peer.context.request.method ≠ .kInvalid
  decided : peer.refusedLines ≠ [] → peer.decided = true

theorem Expecting.append {peer : Peer} {inBuffer : Bytes} (expecting : Expecting peer inBuffer)
    (data : Bytes) : Expecting peer (inBuffer ++ data) := by
  refine { expecting with stuck := ?_ }
  intro isSet
  obtain ⟨line, member, named, refused, begins⟩ := expecting.stuck isSet
  exact ⟨line, member, named, refused, begins.append data⟩

/-- The four things a call of `onMessage` can come to on such a state. -/
theorem messageCallback_cases {peer : Peer} {buf : Bytes} (expecting : Expecting peer buf)
    (message : Message) :
    ((tailComplete message.stale buf = false ∨ LineFree buf) ∧
      httpServer.messageCallback peer buf message = .ok (peer, buf, [])) ∨
    (tailComplete message.stale buf = true ∧ ∃ line, BeginsWith buf line ∧
      ((¬ Accepted line ∧ line ∈ peer.refusedLines ∧ lineMethod line ≠ .kInvalid ∧
          httpServer.messageCallback peer buf message = .error .assertFailed) ∨
        peer.context.request.method = .kInvalid ∧
          ((∃ next, ¬ Accepted line ∧ next.method = lineMethod line ∧
            httpServer.messageCallback peer buf message = .ok ({
              context := ⟨.kExpectRequestLine, next⟩
              requests := peer.requests
              refusedLines := peer.refusedLines ++ [line]
              decided := true }, buf, [.send badRequest, .closeConnection])) ∨
          (∃ got left, Accepted line ∧
            httpServer.messageCallback peer buf message = .ok ({
              context := ⟨.kExpectRequestLine, { version := got.version }⟩
              requests := peer.requests ++ [got]
              refusedLines := peer.refusedLines
              decided := peer.decided ||
                decide (.closeConnection ∈ onRequest message.httpCallback got) },
              left, onRequest message.httpCallback got))))) := by
  have context : peer.context = ⟨.kExpectRequestLine, peer.context.request⟩ := by
    rw [← expecting.state]
  rcases onMessage_cases peer.context.request buf message with ⟨quiet, result⟩ |
    ⟨complete, line, rest, free, same, outcome⟩
  · rw [← context] at result
    exact Or.inl ⟨quiet, by simp [httpServer, result]⟩
  · have begins : BeginsWith buf line := ⟨free, rest, same⟩
    refine Or.inr ⟨complete, line, begins, ?_⟩
    rw [← context] at outcome
    rcases outcome with ⟨halt, stops, result⟩ | ⟨next, refused, result⟩ |
      ⟨next, got, left, accepted, result⟩
    · obtain ⟨isSet, rfl⟩ := processRequestLine_error stops
      obtain ⟨stuckLine, member, named, refused, first⟩ := expecting.stuck isSet
      obtain rfl := begins.unique first
      exact Or.inl ⟨refused, member, named, by simp [httpServer, result]⟩
    · have unset : peer.context.request.method = .kInvalid := by
        by_contra isSet
        obtain ⟨stuckLine, member, named, _, first⟩ := expecting.stuck isSet
        obtain rfl := begins.unique first
        rw [processRequestLine_set _ isSet (spaced_of_named named)] at refused
        cases refused
      obtain ⟨ok, other, evaluated, method⟩ := processRequestLine_method _ unset line
      have agree := refused.symm.trans evaluated
      simp only [Except.ok.injEq, Prod.mk.injEq] at agree
      obtain ⟨rfl, rfl⟩ := agree
      have notAccepted : ¬ Accepted line := by
        intro accepted
        obtain ⟨other, accepted⟩ := (accepted_iff _ unset line).mpr accepted
        rw [refused] at accepted
        cases accepted
      exact Or.inr ⟨unset, Or.inl ⟨next, notAccepted, method, by
        simp [httpServer, result, begins.firstLine]⟩⟩
    · obtain ⟨unset, accepted⟩ := accepted_of_ok accepted
      exact Or.inr ⟨unset, Or.inr ⟨got, left, accepted, by simp [httpServer, result]⟩⟩

structure Sound (s : HttpConnection) : Prop where
  established : 1 ≤ s.conn.state.rank
  orderly : s.Orderly
  expecting : Expecting s.context s.conn.inBuffer
  closes : s.context.decided = true → s.ClosesBeforePoll

/-- An established connection with the context `onConnection` has set. -/
def connected : HttpConnection := { context := {} }

theorem connected_sound : Sound connected where
  established := Nat.le_refl 1
  orderly := start_orderly _
  expecting := ⟨rfl, fun isSet => absurd rfl isSet, nofun, fun refused => absurd rfl refused⟩
  closes := nofun

/-- A delivery, seen as the call of `onMessage` it makes. -/
theorem delivered_step {s : HttpConnection} {event : Event Message} {data : Bytes}
    {message : Message} (sound : Sound s) (delivered : s.delivered event = some (data, message)) :
    (∀ halt, httpServer.messageCallback s.context (s.conn.inBuffer ++ data) message = .error halt →
      (step httpServer s event).halted = some halt ∧
        (step httpServer s event).context = s.context ∧
        (step httpServer s event).conn.inBuffer = s.conn.inBuffer ++ data) ∧
    (∀ peer buf calls, httpServer.messageCallback s.context (s.conn.inBuffer ++ data) message =
        .ok (peer, buf, calls) →
      (step httpServer s event).halted = none ∧ (step httpServer s event).context = peer ∧
        (step httpServer s event).conn.inBuffer = buf ∧
        (.closeConnection ∈ calls → (step httpServer s event).ClosesBeforePoll)) := by
  obtain ⟨rest, writes, running, turn, rfl, some⟩ := delivered_cases delivered
  rw [step_delivered running turn some]
  constructor
  · intro halt stops
    rw [receive_halted writes (by exact stops)]
    exact ⟨rfl, rfl, rfl⟩
  · intro peer buf calls returned
    generalize same : ({ s with
      turn := .dispatching rest
      conn := { s.conn with inBuffer := s.conn.inBuffer ++ data }
      callbacks := s.callbacks ++ [ServerCallback.messageCallback] } : HttpConnection) = received
    have fields : received.halted = none ∧ received.context = s.context ∧
        received.conn.inBuffer = s.conn.inBuffer ++ data ∧ received.turn = .dispatching rest ∧
        received.conn.state = s.conn.state := by
      subst same
      exact ⟨running, rfl, rfl, rfl, rfl⟩
    obtain ⟨running, context, inBuffer, turned, state⟩ := fields
    rw [← context, ← inBuffer] at returned
    obtain ⟨after, left, halted⟩ := receive_returned writes returned
    refine ⟨halted.trans running, after, left, ?_⟩
    intro close
    have unread := (sound.orderly.tail turn).2 (by decide)
    exact receive_closes received (state ▸ sound.established) returned turned unread close

theorem Sound.step {s : HttpConnection} (sound : Sound s) (event : Event Message) :
    Sound (ConnectionLoop.step httpServer s event) where
  established := sound.established.trans step_rank_le
  orderly := sound.orderly.step
  expecting := by
    cases delivered : s.delivered event with
    | none =>
      obtain ⟨context, -, forward⟩ := step_undelivered httpServer delivered
      rw [context, forward.inBuffer]
      exact sound.expecting
    | some given =>
      obtain ⟨data, message⟩ := given
      have expecting := sound.expecting.append data
      obtain ⟨stops, returns⟩ := delivered_step sound delivered
      rcases messageCallback_cases expecting message with ⟨_, result⟩ | ⟨_, line, begins,
        ⟨_, _, _, result⟩ | ⟨unset, ⟨next, refused, method, result⟩ |
          ⟨got, left, accepted, result⟩⟩⟩
      · obtain ⟨-, context, inBuffer, -⟩ := returns _ _ _ result
        rw [context, inBuffer]
        exact expecting
      · obtain ⟨-, context, inBuffer⟩ := stops _ result
        rw [context, inBuffer]
        exact expecting
      · obtain ⟨-, context, inBuffer, -⟩ := returns _ _ _ result
        rw [context, inBuffer]
        refine ⟨rfl, ?_, ?_, fun _ => rfl⟩
        · intro isSet
          refine ⟨line, List.mem_append_right _ (List.mem_singleton_self line), ?_, refused, begins⟩
          exact method ▸ isSet
        · intro has
          obtain ⟨other, member, named⟩ := has
          rcases List.mem_append.mp member with earlier | now
          · exact absurd unset (expecting.named ⟨other, earlier, named⟩)
          · rw [List.mem_singleton.mp now] at named
            exact method ▸ named
      · obtain ⟨-, context, inBuffer, -⟩ := returns _ _ _ result
        rw [context, inBuffer]
        refine ⟨rfl, fun isSet => absurd rfl isSet, ?_, ?_⟩
        · intro named
          exact absurd unset (expecting.named named)
        · intro refused
          simp [expecting.decided refused]
  closes := by
    cases delivered : s.delivered event with
    | none =>
      obtain ⟨context, -, -⟩ := step_undelivered httpServer delivered
      rw [context]
      exact fun decided => (sound.closes decided).step sound.established
    | some given =>
      obtain ⟨data, message⟩ := given
      obtain ⟨stops, returns⟩ := delivered_step sound delivered
      rcases messageCallback_cases (sound.expecting.append data) message with ⟨_, result⟩ |
        ⟨_, line, begins, ⟨_, _, _, result⟩ | ⟨_, ⟨next, _, _, result⟩ | ⟨got, left, _, result⟩⟩⟩
      · rw [(returns _ _ _ result).2.1]
        exact fun decided => (sound.closes decided).step sound.established
      · rw [(stops _ result).2.1]
        exact fun decided => (sound.closes decided).step sound.established
      · exact fun _ => (returns _ _ _ result).2.2.2 (by simp)
      · obtain ⟨-, context, -, closes⟩ := returns _ _ _ result
        rw [context]
        intro decided
        rcases Bool.or_eq_true_iff.mp decided with before | now
        · exact (sound.closes before).step sound.established
        · exact closes (of_decide_eq_true now)

end RabbitServer.Http
