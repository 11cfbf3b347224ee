import RabbitServer.Http.ClosingResponse
import RabbitServer.Http.ResponseStream
import RabbitServer.Http.Segmentation

/-! A connection of an `HttpServer` as its peer sees it: requests go in, cut anywhere, and the
responses to the first of them come out, in order and whole. -/

namespace RabbitServer.Http
open RabbitServer.Net Library.Runs

/-- The bytes that the reads have got. -/
def received (reads : List (Bytes × Message)) : Bytes := (reads.map Prod.fst).flatten

theorem received_concat (reads : List (Bytes × Message)) (data : Bytes) (message : Message) :
    received (reads ++ [(data, message)]) = received reads ++ data := by
  simp [received]

/-- A request, and the call of `onMessage` that has answered it. -/
structure Reply where
  request : WireRequest
  message : Message

namespace Reply

def answer (reply : Reply) : Answer :=
  .response (reply.request.alone reply.message.receiveTime) reply.message.httpCallback

def response (reply : Reply) : HttpResponse :=
  responseTo reply.message.httpCallback (reply.request.alone reply.message.receiveTime)

def bytes (reply : Reply) : Bytes := reply.answer.message

end Reply

/-- Some of the requests have been passed on, the first of these have been answered, and the
unread bytes are those that were received after what was passed on. -/
structure Serving (requests : List WireRequest) (s : HttpConnection × List (Bytes × Message))
    (replies : List Reply) (passed rest : List WireRequest) : Prop where
  sound : Sound s.1
  waiting : ∀ f ∈ s.1.waiting, f.messages = []
  output : s.1.conn.OutputExact (replies.flatMap Reply.bytes)
  split : requests = passed ++ rest
  unread : received s.2 = stream passed ++ s.1.conn.inBuffer
  fresh : ∃ version, s.1.context.context = ⟨.kExpectRequestLine, { version }⟩
  running : s.1.halted = none
  answered : replies.map Reply.request <+: passed
  called : (replies.map Reply.message).Sublist (s.2.map Prod.snd)
  decided : ∀ reply ∈ replies, reply.answer.closes = true → s.1.context.decided = true
  last : LastCloses (replies.map Reply.answer)
  all : s.1.conn.state = .kConnected → replies.map Reply.request = passed

theorem connected_serving (requests : List WireRequest) :
    Serving requests (connected, []) [] [] requests where
  sound := connected_sound
  waiting := fun f member => absurd member List.not_mem_nil
  output := TcpConnection.established_exact
  split := rfl
  unread := rfl
  fresh := ⟨.kUnknown, rfl⟩
  running := rfl
  answered := List.prefix_refl _
  called := List.Sublist.refl _
  decided := fun reply member => absurd member List.not_mem_nil
  last := fun before answer after split => by simp at split
  all := fun _ => rfl

/-- On a part of a stream, `onMessage` waits for more, or takes the first of some whole
requests. -/
theorem onMessage_stream {requests : List WireRequest} {buf : Bytes} (version : Version)
    (message : Message) (part : buf <+: stream requests) (nonempty : buf ≠ []) :
    (tailComplete message.stale buf = false ∧
      onMessage ⟨.kExpectRequestLine, { version }⟩ buf message =
        .ok { context := ⟨.kExpectRequestLine, { version }⟩, buf }) ∨
      ∃ w more whole next, requests = w :: more ∧ buf = w.bytes ++ stream whole ∧
        onMessage ⟨.kExpectRequestLine, { version }⟩ buf message = .ok {
          context := ⟨.kExpectRequestLine, { version := next }⟩
          buf := stream whole
          request := some (w.alone message.receiveTime)
          calls := onRequest message.httpCallback (w.alone message.receiveTime) } := by
  cases complete : tailComplete message.stale buf with
  | false =>
    left
    simp [onMessage, complete]
  | true =>
    right
    obtain ⟨k, positive, bound, boundary⟩ :=
      tailComplete_boundary requests message.stale buf part nonempty complete
    cases requests with
    | nil =>
      simp only [List.length_nil] at bound
      omega
    | cons w more =>
      obtain ⟨j, rfl⟩ : ∃ j, k = j + 1 := ⟨k - 1, by omega⟩
      rw [List.take_succ_cons, stream_cons] at boundary
      have parsed := w.parse_bytes version (stream (more.take j)) message.receiveTime
      rw [← boundary] at parsed
      refine ⟨w, more, more.take j, (w.alone message.receiveTime).version, rfl, boundary, ?_⟩
      simp [onMessage, complete, parsed, HttpContext.gotAll, HttpContext.reset, HttpRequest.swap]

theorem messageCallback_returns {peer : Peer} {buf : Bytes} {message : Message} {handled : Handled}
    (returns : onMessage peer.context buf message = .ok handled) :
    httpServer.messageCallback peer buf message = .ok ({
      context := handled.context
      requests := peer.requests ++ handled.request.toList
      refusedLines := peer.refusedLines ++ if handled.refused then [firstLine buf] else []
      decided := peer.decided || decide (.closeConnection ∈ handled.calls) },
      handled.buf, handled.calls) := by
  simp only [httpServer, returns]

section
variable {requests : List WireRequest} {s : HttpConnection × List (Bytes × Message)} {replies : List Reply}
  {passed rest : List WireRequest} {event : ConnectionLoop.Event Message}

/-- The unread bytes go on to be a part of the requests that are not passed on yet. -/
theorem Serving.ahead (serving : Serving requests s replies passed rest) {data : Bytes}
    (part : received s.2 ++ data <+: stream requests) :
    s.1.conn.inBuffer ++ data <+: stream rest := by
  rw [serving.unread, serving.split, stream_append, List.append_assoc] at part
  exact (List.prefix_append_right_inj _).mp part

/-- A step that reads nothing sends nothing. -/
theorem Serving.undelivered (serving : Serving requests s replies passed rest)
    (own : OwnSends event) (none : s.1.delivered event = none) :
    Serving requests (recorded (ConnectionLoop.step httpServer) ConnectionLoop.recordReads s event) replies passed
      rest := by
  obtain ⟨context, halted, forward⟩ := ConnectionLoop.step_undelivered httpServer none
  have silent : s.1.handed httpServer event = [] := by
    rw [handed_answered own serving.waiting, answered_undelivered none]
    rfl
  have kept : (recorded (ConnectionLoop.step httpServer) ConnectionLoop.recordReads s event).2 =
      s.2 := by
    simp only [recorded, ConnectionLoop.recordReads, none, Option.toList_none, List.append_nil]
  exact {
    sound := serving.sound.step event
    waiting := step_unsent own serving.waiting
    output := by
      have exactly := ConnectionLoop.step_exact httpServer serving.output event
      rw [silent, List.flatten_nil, List.append_nil] at exactly
      exact exactly
    split := serving.split
    unread := by
      rw [kept, serving.unread]
      exact congrArg _ forward.inBuffer.symm
    fresh := by
      obtain ⟨version, fresh⟩ := serving.fresh
      exact ⟨version, by rw [recorded, context]; exact fresh⟩
    running := halted.trans serving.running
    answered := serving.answered
    called := by rw [kept]; exact serving.called
    decided := fun reply member closes => decided_mono event (serving.decided reply member closes)
    last := serving.last
    all := by
      intro state
      apply serving.all
      have established := serving.sound.established
      have rank := forward.rank_le
      rw [show (ConnectionLoop.step httpServer s.1 event).conn.state = .kConnected from state] at rank
      revert established rank
      cases s.1.conn.state <;> decide }

/-- What a read hands over is what `onMessage` answers while the connection is open, and the
state of the connection is not changed by it. -/
theorem Serving.delivered_output (serving : Serving requests s replies passed rest)
    (own : OwnSends event) {data : Bytes} {message : Message}
    (given : s.1.delivered event = some (data, message)) {handled : Handled}
    (returns : onMessage s.1.context.context (s.1.conn.inBuffer ++ data) message = .ok handled) :
    (ConnectionLoop.step httpServer s.1 event).conn.state = s.1.conn.state ∧
      (ConnectionLoop.step httpServer s.1 event).conn.OutputExact
        (replies.flatMap Reply.bytes ++ if s.1.conn.state = .kConnected then
          ((handled.answers message).map Answer.message).flatten else []) := by
  constructor
  · obtain ⟨rest, writes, running, turn, rfl, some⟩ := ConnectionLoop.delivered_cases given
    rw [ConnectionLoop.step_delivered running turn some, ConnectionLoop.receive_state]
  · have exactly := ConnectionLoop.step_exact httpServer serving.output event
    rw [handed_answered own serving.waiting] at exactly
    have answers : Http.answered s.1 event =
        if s.1.conn.state = .kConnected then handled.answers message else [] := by
      simp only [Http.answered, given, returns]
    rw [answers] at exactly
    split at exactly
    next connected => rwa [if_pos connected]
    next closed => rwa [if_neg closed]

/-- A read takes the next request off the stream, or leaves what it has read for later. -/
theorem Serving.delivered (serving : Serving requests s replies passed rest)
    (own : OwnSends event) {data : Bytes} {message : Message}
    (given : s.1.delivered event = some (data, message))
    (part : received s.2 ++ data <+: stream requests) :
    ∃ replies passed rest, Serving requests
        (recorded (ConnectionLoop.step httpServer) ConnectionLoop.recordReads s event) replies
          passed rest ∧
      ((tailComplete message.stale (s.1.conn.inBuffer ++ data) = false ∧
          (ConnectionLoop.step httpServer s.1 event).conn.inBuffer = s.1.conn.inBuffer ++ data) ∨
        ∃ (w : WireRequest) (whole : List WireRequest),
          s.1.conn.inBuffer ++ data = w.bytes ++ stream whole ∧
          (ConnectionLoop.step httpServer s.1 event).conn.inBuffer = stream whole) := by
  obtain ⟨version, fresh⟩ := serving.fresh
  have nonempty : s.1.conn.inBuffer ++ data ≠ [] := by
    obtain ⟨_, _, _, _, _, some⟩ := ConnectionLoop.delivered_cases given
    exact List.append_ne_nil_of_right_ne_nil _ (List.ne_nil_of_length_pos some)
  have read : (recorded (ConnectionLoop.step httpServer) ConnectionLoop.recordReads s event).2 =
      s.2 ++ [(data, message)] := by
    simp only [recorded, ConnectionLoop.recordReads, given, Option.toList_some]
  have called : (replies.map Reply.message).Sublist ((s.2 ++ [(data, message)]).map Prod.snd) := by
    rw [List.map_append]
    exact serving.called.trans (List.sublist_append_left _ _)
  rcases onMessage_stream version message (serving.ahead part) nonempty with
    ⟨incomplete, waits⟩ | ⟨w, more, whole, next, later, buf, passes⟩
  · rw [← fresh] at waits
    obtain ⟨state, output⟩ := serving.delivered_output own given waits
    obtain ⟨halted, context, inBuffer, -⟩ :=
      (delivered_step serving.sound given).2 _ _ _ (messageCallback_returns waits)
    refine ⟨replies, passed, rest, {
      serving with
      sound := serving.sound.step event
      waiting := step_unsent own serving.waiting
      output := by simpa [Handled.answers, recorded] using output
      unread := by
        rw [read, received_concat]
        simp only [recorded, inBuffer, serving.unread, List.append_assoc]
      fresh := ⟨version, by simp only [recorded, context, fresh]⟩
      running := halted
      called := by rw [read]; exact called
      decided := fun reply member closes =>
        decided_mono event (serving.decided reply member closes)
      all := fun connected => serving.all (state.symm.trans connected) },
      Or.inl ⟨incomplete, inBuffer⟩⟩
  · rw [← fresh] at passes
    obtain ⟨state, output⟩ := serving.delivered_output own given passes
    obtain ⟨halted, context, inBuffer, -⟩ :=
      (delivered_step serving.sound given).2 _ _ _ (messageCallback_returns passes)
    have split : requests = (passed ++ [w]) ++ more := by
      rw [serving.split, later, List.append_assoc]
      rfl
    have unread : received s.2 ++ data = stream (passed ++ [w]) ++ stream whole := by
      rw [serving.unread, List.append_assoc, buf, stream_append, stream_cons, stream_nil,
        List.append_nil, List.append_assoc]
    have freshNext : ∃ version,
        (ConnectionLoop.step httpServer s.1 event).context.context =
          ⟨.kExpectRequestLine, { version }⟩ := ⟨next, by rw [context]⟩
    by_cases connected : s.1.conn.state = .kConnected
    · -- the request is answered, and none of the earlier answers has closed
      rw [if_pos connected] at output
      have answers : Http.answered s.1 event =
          [.response (w.alone message.receiveTime) message.httpCallback] := by
        simp only [Http.answered, given, passes, if_pos connected]
        rfl
      obtain ⟨answer, single, undecided, closing⟩ :=
        (answered_cases serving.sound event).resolve_left (by rw [answers]; exact List.cons_ne_nil _ _)
      rw [answers] at single
      obtain rfl := List.head_eq_of_cons_eq single
      have open_ : ∀ answer ∈ replies.map Reply.answer, answer.closes = false := by
        intro answer member
        obtain ⟨reply, earlier, rfl⟩ := List.mem_map.mp member
        cases closes : reply.answer.closes with
        | false => rfl
        | true =>
          have decided := serving.decided reply earlier closes
          rw [undecided] at decided
          cases decided
      refine ⟨replies ++ [⟨w, message⟩], passed ++ [w], more, {
        sound := serving.sound.step event
        waiting := step_unsent own serving.waiting
        output := by
          simpa [Handled.answers, Reply.bytes, Reply.answer, recorded] using output
        split
        unread := by rw [read, received_concat]; simp only [recorded, inBuffer, unread]
        fresh := freshNext
        running := halted
        answered := by
          rw [List.map_append, serving.all connected]
          exact List.prefix_refl _
        called := by
          rw [read, List.map_append, List.map_append]
          exact serving.called.append (List.Sublist.refl _)
        decided := by
          intro reply member closes
          rcases List.mem_append.mp member with before | now
          · exact decided_mono event (serving.decided reply before closes)
          · cases List.mem_singleton.mp now
            exact closing closes
        last := by
          rw [List.map_append]
          exact LastCloses.concat open_ _
        all := fun _ => by rw [List.map_append, serving.all connected]; rfl },
        Or.inr ⟨w, whole, buf, inBuffer⟩⟩
    · rw [if_neg connected, List.append_nil] at output
      refine ⟨replies, passed ++ [w], more, {
        sound := serving.sound.step event
        waiting := step_unsent own serving.waiting
        output
        split
        unread := by rw [read, received_concat]; simp only [recorded, inBuffer, unread]
        fresh := freshNext
        running := halted
        answered := serving.answered.trans (List.prefix_append _ _)
        called := by rw [read]; exact called
        decided := fun reply member closes =>
          decided_mono event (serving.decided reply member closes)
        last := serving.last
        all := fun still => absurd (state.symm.trans still) connected },
        Or.inr ⟨w, whole, buf, inBuffer⟩⟩

/-- One step of a connection whose peer sends a stream of requests. -/
theorem Serving.step (serving : Serving requests s replies passed rest) (own : OwnSends event)
    (part : received (recorded (ConnectionLoop.step httpServer) ConnectionLoop.recordReads s event).2
      <+: stream requests) :
    ∃ replies passed rest, Serving requests
      (recorded (ConnectionLoop.step httpServer) ConnectionLoop.recordReads s event) replies passed
        rest := by
  cases given : s.1.delivered event with
  | none => exact ⟨replies, passed, rest, serving.undelivered own given⟩
  | some read =>
    obtain ⟨data, message⟩ := read
    have part : received s.2 ++ data <+: stream requests := by
      simpa [recorded, ConnectionLoop.recordReads, given, received_concat] using part
    obtain ⟨replies, passed, rest, still, -⟩ := serving.delivered own given part
    exact ⟨replies, passed, rest, still⟩

end

/-- What a connection has made of the reads, as its peer can tell: the first requests are
answered, each once, in order and whole, by calls of `onMessage` in order; nothing follows an
answer that closes; and while the connection is open nothing that was passed on is unanswered. -/
structure Serves (requests : List WireRequest) (reads : List (Bytes × Message))
    (conn : TcpConnection) (replies : List Reply) : Prop where
  answered : replies.map Reply.request <+: requests
  called : (replies.map Reply.message).Sublist (reads.map Prod.snd)
  output : conn.written ++ conn.outBuffer = replies.flatMap Reply.bytes
  last : LastCloses (replies.map Reply.answer)
  unread : conn.state = .kConnected →
    received reads = stream (replies.map Reply.request) ++ conn.inBuffer

theorem Serving.serves {requests : List WireRequest}
    {s : HttpConnection × List (Bytes × Message)} {replies : List Reply}
    {passed rest : List WireRequest} (serving : Serving requests s replies passed rest) :
    Serves requests s.2 s.1.conn replies where
  answered := by
    rw [serving.split]
    exact serving.answered.trans (List.prefix_append _ _)
  called := serving.called
  output := serving.output.whole
  last := serving.last
  unread := fun connected => by rw [serving.unread, serving.all connected]

/-- No request is a proper part of another at its head. -/
theorem bytes_whole {v w : WireRequest} (inside : v.bytes <+: w.bytes) : v.bytes = w.bytes := by
  obtain ⟨head, tail, bytes, -⟩ := v.bytes_head
  have part : v.bytes <+: stream [w] := by simpa [stream_cons] using inside
  obtain ⟨k, positive, bound, boundary⟩ := tailComplete_boundary [w] [] _ part
    (by rw [bytes]; exact List.cons_ne_nil _ _) (tailComplete_of_suffix _ _ v.bytes_tail)
  rw [boundary, List.take_of_length_le (by exact positive)]
  simp [stream_cons]

/-- Every read gets a part of one request: so it is where the peer waits for each response. -/
def OneByOne (requests : List WireRequest) (reads : List (Bytes × Message)) : Prop :=
  ∀ before read after, reads = before ++ read :: after →
    ∃ k, stream (requests.take k) <+: received before ∧
      received before ++ read.1 <+: stream (requests.take (k + 1))

theorem OneByOne.init {requests : List WireRequest} {reads more : List (Bytes × Message)}
    (oneByOne : OneByOne requests (reads ++ more)) : OneByOne requests reads := by
  rintro before read after rfl
  exact oneByOne before read (after ++ more) (by simp)

theorem stream_take_part (requests : List WireRequest) (k : Nat) :
    stream (requests.take k) <+: stream requests := by
  conv_rhs => rw [← List.take_append_drop k requests, stream_append]
  exact List.prefix_append _ _

theorem OneByOne.part {requests : List WireRequest} {reads : List (Bytes × Message)}
    (oneByOne : OneByOne requests reads) : received reads <+: stream requests := by
  rcases List.eq_nil_or_concat reads with rfl | ⟨before, read, rfl⟩
  · exact List.nil_prefix
  · rw [List.concat_eq_append] at oneByOne ⊢
    obtain ⟨k, -, within⟩ := oneByOne before read [] rfl
    rw [received_concat]
    exact within.trans (stream_take_part requests _)

section
variable {requests : List WireRequest} {s : HttpConnection × List (Bytes × Message)}
  {replies : List Reply} {passed rest : List WireRequest}

/-- Where no complete request is waiting, the next bytes belong to the first that is not passed
on yet. -/
theorem Serving.next_request (serving : Serving requests s replies passed rest)
    (none : ¬ BeginsComplete s.1.conn.inBuffer) {data : Bytes} (nonempty : data ≠ [])
    {k : Nat} (behind : stream (requests.take k) <+: received s.2)
    (within : received s.2 ++ data <+: stream (requests.take (k + 1))) :
    ∃ w more, rest = w :: more ∧ s.1.conn.inBuffer ++ data <+: w.bytes := by
  have short := within.length_le
  have positive := List.length_pos_of_ne_nil nonempty
  have whole : received s.2 = stream passed ++ s.1.conn.inBuffer := serving.unread
  have reached : passed.length ≤ k := by
    by_contra early
    obtain ⟨others, split⟩ : requests.take (k + 1) <+: passed := by
      rw [serving.split, List.take_append_of_le_length (by omega)]
      exact List.take_prefix _ _
    rw [whole, ← split, stream_append] at short
    simp only [List.length_append] at short
    omega
  obtain ⟨j, rfl⟩ : ∃ j, k = passed.length + j := ⟨k - passed.length, by omega⟩
  rw [whole, serving.split, Nat.add_assoc, List.take_length_add_append, stream_append,
    List.append_assoc, List.prefix_append_right_inj] at within
  rw [whole, serving.split, List.take_length_add_append, stream_append,
    List.prefix_append_right_inj] at behind
  cases rest with
  | nil =>
    rw [List.take_nil, stream_nil, List.prefix_nil] at within
    exact absurd (List.append_eq_nil_iff.mp within).2 nonempty
  | cons w more =>
    cases j with
    | zero =>
      refine ⟨w, more, rfl, ?_⟩
      simpa [stream_cons] using within
    | succ j =>
      -- the request would have been received whole, and wait
      obtain ⟨others, split⟩ := behind
      rw [List.take_succ_cons, stream_cons, List.append_assoc] at split
      exact absurd ⟨w, _, split.symm⟩ none

/-- A read within one request leaves no complete one behind. -/
theorem Serving.delivered_prompt (serving : Serving requests s replies passed rest)
    (none : ¬ BeginsComplete s.1.conn.inBuffer) {event : ConnectionLoop.Event Message}
    (own : OwnSends event) {data : Bytes} {message : Message}
    (given : s.1.delivered event = some (data, message))
    (oneByOne : OneByOne requests (s.2 ++ [(data, message)])) :
    ∃ replies passed rest, Serving requests
        (recorded (ConnectionLoop.step httpServer) ConnectionLoop.recordReads s event) replies
          passed rest ∧
      ¬ BeginsComplete (ConnectionLoop.step httpServer s.1 event).conn.inBuffer := by
  have nonempty : data ≠ [] := by
    obtain ⟨_, _, _, _, _, some⟩ := ConnectionLoop.delivered_cases given
    exact List.ne_nil_of_length_pos some
  obtain ⟨k, behind, within⟩ := oneByOne s.2 (data, message) [] rfl
  obtain ⟨w, more, -, inside⟩ := serving.next_request none nonempty behind within
  have part : received s.2 ++ data <+: stream requests :=
    within.trans (stream_take_part requests _)
  have same : ∀ v : WireRequest, v.bytes <+: s.1.conn.inBuffer ++ data →
      s.1.conn.inBuffer ++ data = v.bytes := by
    intro v begins
    apply inside.eq_of_length_le _ |>.trans (bytes_whole (begins.trans inside)).symm
    rw [← bytes_whole (begins.trans inside)]
    exact begins.length_le
  obtain ⟨replies, passed, rest, still, outcome⟩ := serving.delivered own given part
  refine ⟨replies, passed, rest, still, ?_⟩
  rintro ⟨v, others, begins⟩
  rcases outcome with ⟨incomplete, kept⟩ | ⟨first, whole, split, left⟩
  · rw [kept] at begins
    rw [same v ⟨others, begins.symm⟩, tailComplete_of_suffix _ _ v.bytes_tail] at incomplete
    cases incomplete
  · have all := same first ⟨_, split.symm⟩
    rw [split, List.append_right_eq_self] at all
    rw [left, all] at begins
    obtain ⟨head, tail, bytes, -⟩ := v.bytes_head
    rw [bytes] at begins
    cases begins

theorem Serving.step_prompt (serving : Serving requests s replies passed rest)
    (none : ¬ BeginsComplete s.1.conn.inBuffer) {event : ConnectionLoop.Event Message}
    (own : OwnSends event)
    (oneByOne : OneByOne requests
      (recorded (ConnectionLoop.step httpServer) ConnectionLoop.recordReads s event).2) :
    ∃ replies passed rest, Serving requests
        (recorded (ConnectionLoop.step httpServer) ConnectionLoop.recordReads s event) replies
          passed rest ∧
      ¬ BeginsComplete (ConnectionLoop.step httpServer s.1 event).conn.inBuffer := by
  cases given : s.1.delivered event with
  | none =>
    have kept := (ConnectionLoop.step_undelivered httpServer given).2.2.inBuffer
    refine ⟨replies, passed, rest, serving.undelivered own given, ?_⟩
    rw [kept]
    exact none
  | some read =>
    obtain ⟨data, message⟩ := read
    apply serving.delivered_prompt none own given
    simpa [recorded, ConnectionLoop.recordReads, given] using oneByOne

end

/-- In every run of a connection that reads one request at a time. -/
theorem run_serving_prompt (requests : List WireRequest)
    (events : List (ConnectionLoop.Event Message)) (own : ∀ event ∈ events, OwnSends event) :
    let s := run (recorded (ConnectionLoop.step httpServer) ConnectionLoop.recordReads)
      (connected, []) events
    OneByOne requests s.2 →
      ∃ replies passed rest, Serving requests s replies passed rest ∧
        ¬ BeginsComplete s.1.conn.inBuffer := by
  apply run_invariant_of_mem fun s : HttpConnection × List (Bytes × Message) =>
    OneByOne requests s.2 → ∃ replies passed rest, Serving requests s replies passed rest ∧
      ¬ BeginsComplete s.1.conn.inBuffer
  · refine fun _ => ⟨[], [], requests, connected_serving requests, ?_⟩
    rintro ⟨w, others, begins⟩
    obtain ⟨head, tail, bytes, -⟩ := w.bytes_head
    rw [bytes] at begins
    cases begins
  · intro s event member ih oneByOne
    obtain ⟨replies, passed, rest, serving, none⟩ := ih oneByOne.init
    exact serving.step_prompt none (own event member) oneByOne

/-- A peer that has got everything that was sent, in responses that keep the connection alive,
reads the answers to its first requests, and nothing else. -/
theorem Serves.read {requests : List WireRequest} {reads : List (Bytes × Message)}
    {conn : TcpConnection} {replies : List Reply} (serves : Serves requests reads conn replies)
    (drained : conn.outBuffer = [])
    (keepAlive : ∀ reply ∈ replies, reply.response.KeepAlive) :
    readStream conn.written = some (replies.map fun reply => reply.response.reading) := by
  have sent : conn.written = (replies.map Reply.response).flatMap fun response =>
      response.appendToBuffer [] := by
    have output := serves.output
    rw [drained, List.append_nil] at output
    rw [output, List.flatMap_map]
    rfl
  have all : ∀ response ∈ replies.map Reply.response, response.KeepAlive := by
    intro response member
    obtain ⟨reply, inside, rfl⟩ := List.mem_map.mp member
    exact keepAlive reply inside
  rw [sent, readStream, readResponses_flatMap _ all _ (length_le_flatMap _ all), List.map_map]
  rfl

end RabbitServer.Http
