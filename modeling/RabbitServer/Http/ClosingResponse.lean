import RabbitServer.Http.HttpConnection
import RabbitServer.Net.CallingThreads
import RabbitServer.Net.HandedOver

/-! What an `HttpServer` hands over to be sent: one answer for each request, and none
behind an answer that closes. -/

namespace RabbitServer.Http
open RabbitServer.Net Library.Runs

/-- The 400 of `onMessage`, or the response that the callback makes of a request. -/
inductive Answer where
  | badRequest
  | response (request : HttpRequest) (httpCallback : HttpCallback)

namespace Answer

def message : Answer → Bytes
  | .badRequest => Http.badRequest
  | .response request httpCallback => (responseTo httpCallback request).appendToBuffer []

def closes : Answer → Bool
  | .badRequest => true
  | .response request httpCallback => (responseTo httpCallback request).closeConnection

end Answer

/-- The answers of one call of `onMessage`. -/
def Handled.answers (handled : Handled) (message : Message) : List Answer :=
  (if handled.refused then [.badRequest] else []) ++
    handled.request.toList.map fun request => .response request message.httpCallback

/-- What a step answers while the connection is `kConnected`. -/
def answered (s : HttpConnection) (event : ConnectionLoop.Event Message) : List Answer :=
  match s.delivered event with
  | some (data, message) =>
    match onMessage s.context.context (s.conn.inBuffer ++ data) message with
    | .ok handled => if s.conn.state = .kConnected then handled.answers message else []
    | .error _ => []
  | none => []

theorem onRequest_sends (httpCallback : HttpCallback) (request : HttpRequest)
    {conn : TcpConnection} (connected : conn.state = .kConnected) :
    (onRequest httpCallback request).flatMap (conn.handsOver true) =
      [(Answer.response request httpCallback).message] := by
  by_cases close : (responseTo httpCallback request).closeConnection
  · simp [onRequest, close, TcpConnection.handsOver, connected, Answer.message]
  · simp [onRequest, close, TcpConnection.handsOver, connected, Answer.message]

/-- Calls of `onMessage` send what they answer. -/
theorem handled_sends {context : HttpContext} {buf : Bytes} {message : Message} {handled : Handled}
    (result : onMessage context buf message = .ok handled) (conn : TcpConnection) :
    handled.calls.flatMap (conn.handsOver true) =
      if conn.state = .kConnected then (handled.answers message).map Answer.message else [] := by
  by_cases connected : conn.state = .kConnected
  · have refusal : [ConnCall.send badRequest, .closeConnection].flatMap (conn.handsOver true) =
        [badRequest] := by
      simp [TcpConnection.handsOver, connected]
    rw [if_pos connected]
    simp only [onMessage] at result
    split at result
    next =>
      split at result
      next => cases result
      next parsed _ =>
        split at result
        next =>
          cases result
          simp only [Handled.answers, List.flatMap_append, onRequest_sends _ _ connected]
          cases parsed.ok
          · simp [refusal, Answer.message]
          · simp
        next =>
          cases result
          cases parsed.ok
          · simp [Handled.answers, refusal, Answer.message]
          · simp [Handled.answers]
    next =>
      cases result
      rfl
  · have none : conn.handsOver true = fun _ => [] := by
      funext c
      cases c with
      | send bytes => simp [TcpConnection.handsOver, connected]
      | closeConnection => rfl
    rw [if_neg connected, none]
    simp

/-- An event of the loop in which no message is sent but by `HttpServer`. -/
def OwnSends : ConnectionLoop.Event Message → Prop
  | .call _ (.send _) _ => False
  | _ => True

theorem answered_undelivered {s : HttpConnection} {event : ConnectionLoop.Event Message}
    (none : s.delivered event = none) : answered s event = [] := by
  simp only [answered, none]

/-- The messages a step hands over are the answers it gives. -/
theorem handed_answered {s : HttpConnection} {event : ConnectionLoop.Event Message}
    (own : OwnSends event) (unsent : ∀ f ∈ s.waiting, f.messages = []) :
    s.handed httpServer event = (answered s event).map Answer.message := by
  cases delivered : s.delivered event with
  | some given =>
    obtain ⟨data, message⟩ := given
    obtain ⟨rest, writes, running, turn, rfl, bytes⟩ := ConnectionLoop.delivered_cases delivered
    simp only [ConnectionLoop.handed, running, delivered, answered, httpServer]
    cases result : onMessage s.context.context (s.conn.inBuffer ++ data) message with
    | error halt => rfl
    | ok handled =>
      simp only [handled_sends result s.conn]
      split <;> rfl
  | none =>
    rw [answered_undelivered delivered, List.map_nil]
    cases ran : s.functorRun event with
    | some run =>
      obtain ⟨f, write⟩ := run
      rw [ConnectionLoop.handed_ran httpServer ran]
      apply unsent
      rw [ConnectionLoop.waiting_ran ran]
      exact List.mem_cons_self ..
    | none =>
      unfold ConnectionLoop.handed
      split
      next write running =>
        split
        next f toRun turn => simp [ConnectionLoop.functorRun, running, turn] at ran
        next => rfl
      next inLoopThread c write running =>
        cases c with
        | send bytes => exact own.elim
        | closeConnection => split <;> rfl
      next => rw [delivered]

/-- No step but a send from elsewhere leaves a message waiting. -/
theorem step_unsent {s : HttpConnection} {event : ConnectionLoop.Event Message}
    (own : OwnSends event) (unsent : ∀ f ∈ s.waiting, f.messages = []) :
    ∀ f ∈ (s.step httpServer event).waiting, f.messages = [] := by
  obtain ⟨queued, waiting, sends⟩ := ConnectionLoop.step_waiting httpServer s event
  rw [waiting]
  intro f member
  rcases List.mem_append.mp member with before | now
  · apply unsent
    unfold ConnectionLoop.left at before
    split at before
    · exact List.mem_of_mem_tail before
    · exact before
  · rcases sends f now with none | ⟨inLoopThread, bytes, write, same⟩
    · exact none
    · subst same
      exact own.elim

theorem decided_of_onMessage {peer : Peer} {buf : Bytes} {message : Message} {handled : Handled}
    (result : onMessage peer.context buf message = .ok handled)
    (close : .closeConnection ∈ handled.calls) :
    ∃ next, httpServer.messageCallback peer buf message = .ok (next, handled.buf, handled.calls) ∧
      next.decided = true := by
  simp only [httpServer, result]
  exact ⟨_, rfl, by simp [close]⟩

/-- A step gives one answer at most, and none once it has been decided to close. -/
theorem answered_cases {s : HttpConnection} (sound : Sound s)
    (event : ConnectionLoop.Event Message) :
    answered s event = [] ∨
      ∃ answer, answered s event = [answer] ∧ s.context.decided = false ∧
        (answer.closes = true → (s.step httpServer event).context.decided = true) := by
  cases delivered : s.delivered event with
  | none => exact Or.inl (answered_undelivered delivered)
  | some given =>
    obtain ⟨data, message⟩ := given
    by_cases connected : s.conn.state = .kConnected
    · have undecided : s.context.decided = false := by
        by_contra decided
        have closing := ConnectionLoop.delivered_closing sound.orderly
          (sound.closes (by simpa using decided)) delivered
        rw [connected] at closing
        cases closing
      have decides : ∀ handled, onMessage s.context.context (s.conn.inBuffer ++ data) message =
          .ok handled → .closeConnection ∈ handled.calls →
            (s.step httpServer event).context.decided = true := by
        intro handled result close
        obtain ⟨next, returned, decided⟩ := decided_of_onMessage result close
        rw [((delivered_step sound delivered).2 _ _ _ returned).2.1]
        exact decided
      have context : s.context.context = ⟨.kExpectRequestLine, s.context.context.request⟩ := by
        rw [← sound.expecting.state]
      have outcome := onMessage_cases s.context.context.request (s.conn.inBuffer ++ data) message
      rw [← context] at outcome
      simp only [answered, delivered, connected, if_true]
      rcases outcome with
        ⟨_, result⟩ | ⟨_, line, rest, _, _, ⟨halt, _, result⟩ | ⟨next, _, result⟩ |
          ⟨next, got, left, _, result⟩⟩
      · rw [result]
        exact Or.inl rfl
      · rw [result]
        exact Or.inl rfl
      · have closes := decides _ result (by simp)
        rw [result]
        exact Or.inr ⟨.badRequest, rfl, undecided, fun _ => closes⟩
      · have closes := decides _ result
        rw [result]
        refine Or.inr ⟨.response got message.httpCallback, rfl, undecided, ?_⟩
        intro close
        apply closes
        have response : (responseTo message.httpCallback got).closeConnection = true := close
        simp [onRequest, response]
    · left
      simp only [answered, delivered, connected, if_false]
      split <;> rfl

/-- The messages handed over so far, and the answers given. -/
structure Wire where
  handed : List Bytes := []
  answered : List Answer := []

def recordWire (s : CallingThreads Peer Halt) (event : CallingThreads.Event Message)
    (wire : Wire) : Wire :=
  match event with
  | .io own => {
      handed := wire.handed ++ s.io.handed httpServer own
      answered := wire.answered ++ answered s.io own }
  | _ => wire

/-- The events of a run in which every message is sent by `HttpServer`. -/
def ServerSends : CallingThreads.Event Message → Prop
  | .io own => OwnSends own
  | .look (.send _) => False
  | _ => True

/-- An answer that closes is the last one. -/
def LastCloses (answers : List Answer) : Prop :=
  ∀ before answer after, answers = before ++ answer :: after → answer.closes = true → after = []

structure Wired (s : CallingThreads Peer Halt × Wire) : Prop where
  sound : Sound s.1.io
  waiting : ∀ f ∈ s.1.io.waiting, f.messages = []
  calling : ∀ f ∈ s.1.calling, f.messages = []
  handed : s.2.handed = s.2.answered.map Answer.message
  output : s.1.io.conn.OutputExact s.2.handed.flatten
  decided : ∀ answer ∈ s.2.answered, answer.closes = true → s.1.io.context.decided = true
  last : LastCloses s.2.answered

/-- A further answer keeps the order while none before it closes. -/
theorem LastCloses.concat {answers : List Answer} (open_ : ∀ answer ∈ answers, answer.closes = false)
    (answer : Answer) : LastCloses (answers ++ [answer]) := by
  intro before other after split closes
  rcases List.eq_nil_or_concat after with rfl | ⟨middle, last, rfl⟩
  · rfl
  · rw [List.concat_eq_append, ← List.cons_append, ← List.append_assoc] at split
    obtain ⟨same, -⟩ := List.append_inj' split rfl
    have earlier := open_ other (by rw [same]; simp)
    rw [closes] at earlier
    cases earlier

theorem decided_mono {s : HttpConnection} (event : ConnectionLoop.Event Message)
    (decided : s.context.decided = true) : (s.step httpServer event).context.decided = true := by
  cases delivered : s.delivered event with
  | none =>
    rw [(ConnectionLoop.step_undelivered httpServer delivered).1]
    exact decided
  | some given =>
    obtain ⟨data, message⟩ := given
    obtain ⟨rest, writes, running, turn, rfl, bytes⟩ := ConnectionLoop.delivered_cases delivered
    rw [ConnectionLoop.step_delivered running turn bytes]
    unfold ConnectionLoop.receive
    split
    next => exact decided
    next context inBuffer calls returned =>
      simp only [httpServer] at returned
      split at returned
      · cases returned
      · cases returned
        simp [decided]

/-- A functor that is queued by another thread changes nothing that is sound. -/
theorem Sound.queued {s : HttpConnection} (sound : Sound s) (queued : List LoopFunctor) :
    Sound { s with pendingFunctors := s.pendingFunctors ++ queued } where
  established := sound.established
  orderly := ⟨sound.orderly.quiet, sound.orderly.ordered, sound.orderly.unread⟩
  expecting := sound.expecting
  closes := fun decided => (sound.closes decided).imp_right fun ahead => ahead.append queued

theorem Wired.io {s : CallingThreads Peer Halt × Wire} (wired : Wired s)
    {own : ConnectionLoop.Event Message} (sends : OwnSends own) :
    Wired (recorded (CallingThreads.step httpServer) recordWire s (.io own)) where
  sound := wired.sound.step own
  waiting := step_unsent sends wired.waiting
  calling := wired.calling
  handed := by
    simp only [recorded, recordWire, List.map_append, wired.handed,
      handed_answered sends wired.waiting]
  output := by
    simp only [recorded, recordWire, List.flatten_append]
    exact ConnectionLoop.step_exact httpServer wired.output own
  decided := by
    intro answer member closes
    rcases List.mem_append.mp member with before | now
    · exact decided_mono own (wired.decided answer before closes)
    · rcases answered_cases wired.sound own with none | ⟨only, one, -, decides⟩
      · rw [none] at now
        cases now
      · rw [one] at now
        cases List.mem_singleton.mp now
        exact decides closes
  last := by
    simp only [recorded, recordWire]
    rcases answered_cases wired.sound own with none | ⟨only, one, undecided, -⟩
    · rw [none, List.append_nil]
      exact wired.last
    · rw [one]
      apply LastCloses.concat
      intro answer member
      cases closes : answer.closes with
      | false => rfl
      | true =>
        have decided := wired.decided answer member closes
        rw [undecided] at decided
        cases decided

theorem Wired.step {s : CallingThreads Peer Halt × Wire} {event : CallingThreads.Event Message}
    (wired : Wired s) (sends : ServerSends event) :
    Wired (recorded (CallingThreads.step httpServer) recordWire s event) := by
  cases event with
  | io own => exact wired.io sends
  | look c =>
    cases c with
    | send bytes => exact sends.elim
    | closeConnection =>
      refine { wired with calling := ?_, output := wired.output }
      intro f member
      rcases List.mem_append.mp member with before | now
      · exact wired.calling f before
      · exact TcpConnection.closeConnection_unsent s.1.io.conn false (.accepted 0) now
  | queueInLoop caller =>
    simp only [recorded, recordWire, CallingThreads.step]
    split
    next f found =>
      have unsent := wired.calling f (List.mem_of_getElem? found)
      refine { wired with
        sound := wired.sound.queued [f]
        waiting := ?_
        calling := ?_
        output := wired.output }
      · intro g member
        rw [ConnectionLoop.waiting, ← List.append_assoc] at member
        rcases List.mem_append.mp member with before | now
        · exact wired.waiting g before
        · rw [List.mem_singleton.mp now]
          exact unsent
      · exact fun g member => wired.calling g (List.mem_of_mem_eraseIdx member)
    next => exact wired

/-- Where `HttpServer` alone sends, the messages handed to `sendInLoop` are its answers in
order, one for each refused line and each request passed on while the connection is
`kConnected`, and nothing follows an answer that closes. What is written and what waits in
`outBuffer_` are these messages and no other byte. -/
theorem nothing_follows_closing (events : List (CallingThreads.Event Message))
    (own : ∀ event ∈ events, ServerSends event) :
    let s := run (recorded (CallingThreads.step httpServer) recordWire)
      (CallingThreads.start {}, {}) events
    s.2.handed = s.2.answered.map Answer.message ∧ LastCloses s.2.answered ∧
      s.1.io.conn.written ++ s.1.io.conn.outBuffer = s.2.handed.flatten := by
  have initial : Wired (CallingThreads.start {}, {}) := {
    sound := connected_sound
    waiting := fun f member => absurd member List.not_mem_nil
    calling := fun f member => absurd member List.not_mem_nil
    handed := rfl
    output := TcpConnection.established_exact
    decided := fun answer member => absurd member List.not_mem_nil
    last := by
      intro before answer after split
      simp at split }
  have wired := run_invariant_of_mem Wired _ events initial fun _ event member wired =>
    wired.step (own event member)
  exact ⟨wired.handed, wired.last, wired.output.whole⟩

/-- A request that is answered and closes, and a second one behind it. -/
def requestAfterClose : List (CallingThreads.Event Message) :=
  [.io (.poll {.EPOLLIN}), .io (.handleEvent (.delivered (ascii "GET / HTTP/1.1\r\n\r\n")) {} []),
    .look .closeConnection, .queueInLoop 0, .io .doPendingFunctors, .io (.functor (.failed 11)),
    .io .iterate, .io (.poll {.EPOLLIN}),
    .io (.handleEvent (.delivered (ascii "GET / HTTP/1.1\r\n\r\n")) {} [])]

theorem nothing_follows_closing_request :
    let s := run (recorded (CallingThreads.step httpServer) recordWire)
      (CallingThreads.start {}, {}) requestAfterClose
    s.2.handed = s.2.answered.map Answer.message ∧ LastCloses s.2.answered ∧
      s.1.io.conn.written ++ s.1.io.conn.outBuffer = s.2.handed.flatten := by
  apply nothing_follows_closing
  simp [requestAfterClose, ServerSends, OwnSends]

end RabbitServer.Http
