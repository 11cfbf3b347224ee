import RabbitServer.Http.HostedService

/-! A connection of an `HttpServer`, whatever its peer sends: what it answers is what `onMessage`
makes of the reads, one after the other, and of nothing else. -/

namespace RabbitServer.Http
open RabbitServer.Net Library.Runs

variable {LoopId : Type} [DecidableEq LoopId]

/-- Calls of `onMessage` for one connection: the context and the unread bytes they leave, and
the answers they give. -/
structure Dialogue where
  context : HttpContext := {}
  unread : Bytes := []
  answers : List Answer := []

/-- The call for what one read has got. One that does not come back leaves the bytes. -/
def Dialogue.read (d : Dialogue) (got : Bytes × Message) : Dialogue :=
  match onMessage d.context (d.unread ++ got.1) got.2 with
  | .error _ => { d with unread := d.unread ++ got.1 }
  | .ok handled => {
      context := handled.context
      unread := handled.buf
      answers := d.answers ++ handled.answers got.2 }

def dialogue (reads : List (Bytes × Message)) : Dialogue := reads.foldl Dialogue.read {}

@[simp] theorem dialogue_concat (reads : List (Bytes × Message)) (got : Bytes × Message) :
    dialogue (reads ++ [got]) = (dialogue reads).read got :=
  List.foldl_concat ..

/-- The connection stands where the calls have left it, and some first answers of theirs have
been handed over; while it is open these are all of them. -/
structure Speaking (s : HttpConnection × List (Bytes × Message)) (sent : List Answer) : Prop where
  sound : Sound s.1
  waiting : ∀ f ∈ s.1.waiting, f.messages = []
  context : s.1.context.context = (dialogue s.2).context
  unread : s.1.conn.inBuffer = (dialogue s.2).unread
  output : s.1.conn.OutputExact (sent.flatMap Answer.message)
  answers : sent <+: (dialogue s.2).answers
  all : s.1.conn.state = .kConnected → sent = (dialogue s.2).answers
  decided : ∀ answer ∈ sent, answer.closes = true → s.1.context.decided = true
  last : LastCloses sent

theorem connected_speaking : Speaking (connected, []) [] where
  sound := connected_sound
  waiting := fun f member => absurd member List.not_mem_nil
  context := rfl
  unread := rfl
  output := TcpConnection.established_exact
  answers := List.prefix_refl _
  all := fun _ => rfl
  decided := fun answer member => absurd member List.not_mem_nil
  last := fun before answer after split => by simp at split

/-- A connection that is open after a step was open before it. -/
theorem connected_before {s : HttpConnection} (sound : Sound s)
    {event : ConnectionLoop.Event Message}
    (after : (s.step httpServer event).conn.state = .kConnected) : s.conn.state = .kConnected := by
  have established := sound.established
  have rank : s.conn.state.rank ≤ (s.step httpServer event).conn.state.rank :=
    ConnectionLoop.step_rank_le
  rw [after] at rank
  revert established rank
  cases s.conn.state <;> decide

section
variable {s : HttpConnection × List (Bytes × Message)} {sent : List Answer}
  {event : ConnectionLoop.Event Message} (speaking : Speaking s sent)
include speaking

/-- What a read makes of the connection is what it makes of the calls, and what these answer is
sent if the connection is open. -/
theorem Speaking.delivered {data : Bytes} {message : Message}
    (given : s.1.delivered event = some (data, message)) :
    let d := (dialogue s.2).read (data, message)
    (s.1.step httpServer event).context.context = d.context ∧
      (s.1.step httpServer event).conn.inBuffer = d.unread ∧
      ∃ more, d.answers = (dialogue s.2).answers ++ more ∧
        answered s.1 event = if s.1.conn.state = .kConnected then more else [] := by
  obtain ⟨stops, returns⟩ := delivered_step speaking.sound given
  simp only [Dialogue.read, ← speaking.context, ← speaking.unread, answered, given]
  cases result : onMessage s.1.context.context (s.1.conn.inBuffer ++ data) message with
  | error halt =>
    obtain ⟨-, context, inBuffer⟩ := stops halt (by simp only [httpServer, result])
    exact ⟨by rw [context], inBuffer, [], (List.append_nil _).symm, (ite_self _).symm⟩
  | ok handled =>
    obtain ⟨-, context, inBuffer, -⟩ := returns _ _ _ (messageCallback_returns result)
    exact ⟨by rw [context], inBuffer, _, rfl, rfl⟩

/-- The answers a step hands over go on with those of the calls. -/
theorem Speaking.answered_next (event : ConnectionLoop.Event Message) :
    let reads := ConnectionLoop.recordReads s.1 event s.2
    (s.1.step httpServer event).context.context = (dialogue reads).context ∧
      (s.1.step httpServer event).conn.inBuffer = (dialogue reads).unread ∧
      sent ++ answered s.1 event <+: (dialogue reads).answers ∧
      ((s.1.step httpServer event).conn.state = .kConnected →
        sent ++ answered s.1 event = (dialogue reads).answers) := by
  simp only [ConnectionLoop.recordReads]
  cases given : s.1.delivered event with
  | none =>
    obtain ⟨context, -, forward⟩ := ConnectionLoop.step_undelivered httpServer given
    rw [answered_undelivered given, Option.toList_none, List.append_nil, List.append_nil]
    exact ⟨by rw [context, speaking.context], forward.inBuffer.trans speaking.unread,
      speaking.answers, fun after => speaking.all (connected_before speaking.sound after)⟩
  | some read =>
    obtain ⟨data, message⟩ := read
    obtain ⟨context, unread, more, answers, sends⟩ := speaking.delivered given
    rw [Option.toList_some, dialogue_concat]
    refine ⟨context, unread, ?_⟩
    rw [answers, sends]
    by_cases open_ : s.1.conn.state = .kConnected
    · rw [if_pos open_, speaking.all open_]
      exact ⟨List.prefix_refl _, fun _ => rfl⟩
    · rw [if_neg open_, List.append_nil]
      exact ⟨speaking.answers.trans (List.prefix_append ..),
        fun after => absurd (connected_before speaking.sound after) open_⟩

/-- No answer that has been handed over closes while another one can come. -/
theorem Speaking.undecided (undecided : s.1.context.decided = false) :
    ∀ answer ∈ sent, answer.closes = false := by
  intro answer member
  cases closes : answer.closes with
  | false => rfl
  | true =>
    have decided := speaking.decided answer member closes
    rw [undecided] at decided
    cases decided

theorem Speaking.step (own : OwnSends event) :
    Speaking (recorded (ConnectionLoop.step httpServer) ConnectionLoop.recordReads s event)
      (sent ++ answered s.1 event) := by
  obtain ⟨context, unread, answers, all⟩ := speaking.answered_next event
  refine ⟨speaking.sound.step event, step_unsent own speaking.waiting, context, unread, ?_, answers,
    all, ?_, ?_⟩
  · have exactly := ConnectionLoop.step_exact httpServer speaking.output event
    rw [handed_answered own speaking.waiting] at exactly
    rw [List.flatMap_append]
    exact exactly
  · intro answer member closes
    rcases List.mem_append.mp member with before | now
    · exact decided_mono event (speaking.decided answer before closes)
    · rcases answered_cases speaking.sound event with none | ⟨only, one, -, decides⟩
      · rw [none] at now
        cases now
      · rw [one] at now
        cases List.mem_singleton.mp now
        exact decides closes
  · rcases answered_cases speaking.sound event with none | ⟨only, one, undecided, -⟩
    · rw [none, List.append_nil]
      exact speaking.last
    · rw [one]
      exact LastCloses.concat (speaking.undecided undecided) only

end

/-- A run of a connection in which `HttpServer` alone sends. -/
theorem run_speaking (events : List (ConnectionLoop.Event Message))
    (own : ∀ event ∈ events, OwnSends event) :
    ∃ sent, Speaking (run (recorded (ConnectionLoop.step httpServer) ConnectionLoop.recordReads)
      (connected, []) events) sent := by
  apply run_invariant_of_mem fun s => ∃ sent, Speaking s sent
  · exact ⟨[], connected_speaking⟩
  · rintro s event member ⟨sent, speaking⟩
    exact ⟨_, speaking.step (own event member)⟩

/-- Whatever the peers send, well-formed or not and cut anywhere, however the loops and the
calling threads interleave, and whatever `write` does: a peer is sent the first answers that
`onMessage` gives to its own reads alone, whole and in order, while its connection is open all
of them, and nothing behind an answer that closes. -/
theorem peers_alone (base : LoopId) (id : ConnectionId)
    (events : List (HostedServer.Event LoopId Message))
    (sends : ∀ event ∈ events, HostedSends event)
    {served : Served LoopId} (known : (hostedRun base id events).1.server.served id = some served) :
    let d := dialogue (hostedRun base id events).2
    served.conn.inBuffer = d.unread ∧
      ∃ sent, sent <+: d.answers ∧
        served.conn.written ++ served.conn.outBuffer = sent.flatMap Answer.message ∧
        (served.conn.state = .kConnected → sent = d.answers) ∧ LastCloses sent := by
  obtain ⟨own, ownSends, reads, conn⟩ := hosted_own base id events sends known
  obtain ⟨sent, speaking⟩ := run_speaking own ownSends
  rw [← reads, ← conn]
  exact ⟨speaking.unread, sent, speaking.answers, speaking.output.whole, speaking.all,
    speaking.last⟩

/-- A line that is no request, with a request right behind it. -/
def refusedPeer : List (HostedServer.Event Unit Message) :=
  [.poll () [], .newConnetion (), .doPendingFunctors (), .iterate (), .poll () [(0, {.EPOLLIN})],
    .handleEvent () (.delivered (ascii "hello\r\n\r\n")) {} [.accepted 5],
    .doPendingFunctors (), .functor () (.accepted 0), .iterate (), .poll () [(0, {.EPOLLIN})],
    .handleEvent () (.delivered (ascii "GET / HTTP/1.1\r\n\r\n")) {} []]

theorem peers_alone_refused :
    ∃ served, (hostedRun () 0 refusedPeer).1.server.served 0 = some served ∧
      let d := dialogue (hostedRun () 0 refusedPeer).2
      served.conn.inBuffer = d.unread ∧
        ∃ sent, sent <+: d.answers ∧
          served.conn.written ++ served.conn.outBuffer = sent.flatMap Answer.message ∧
          (served.conn.state = .kConnected → sent = d.answers) ∧ LastCloses sent := by
  have accepted : ((hostedRun () 0 refusedPeer).1.server.served 0).isSome := by decide +kernel
  obtain ⟨served, known⟩ := Option.isSome_iff_exists.mp accepted
  exact ⟨served, known, peers_alone () 0 refusedPeer (by simp [refusedPeer, HostedSends]) known⟩

end RabbitServer.Http
