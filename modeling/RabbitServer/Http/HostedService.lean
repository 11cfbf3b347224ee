import RabbitServer.Http.Service
import RabbitServer.Net.HostedReads

/-! The connections of an `HttpServer`, all of them: what each peer gets for its requests,
whatever the other peers send and do. -/

namespace RabbitServer.Http
open RabbitServer.Net Library.Runs

variable {LoopId : Type} [DecidableEq LoopId]

abbrev HostedHttpServer (LoopId : Type) := HostedServer LoopId Peer Halt

/-- An event of the server in which no message is sent but by `HttpServer`. -/
def HostedSends : HostedServer.Event LoopId Message → Prop
  | .call _ _ (.send _) _ => False
  | _ => True

/-- Then no message is sent but by `HttpServer` in the connection's own loop. -/
theorem ownSteps_sends {base : LoopId} {id : ConnectionId} (s : HostedHttpServer LoopId)
    {event : HostedServer.Event LoopId Message} (sends : HostedSends event) :
    ∀ small ∈ HostedServer.ownSteps base id s event, OwnSends small := by
  intro small member
  unfold HostedServer.ownSteps at member
  split at member
  next => cases member
  next =>
    rcases HostedServer.ownNext_cases member with
      ⟨_, _, _, _, _, _, -, rfl, -⟩ | ⟨_, _, c, _, rfl, rfl⟩ | plain
    · trivial
    · cases c with
      | send bytes => exact sends.elim
      | closeConnection => trivial
    · cases small with
      | call inLoopThread c write => exact plain.elim
      | _ => trivial

/-- A run of the server, and the reads of one connection in it. -/
def hostedRun (base : LoopId) (id : ConnectionId) (events : List (HostedServer.Event LoopId Message)) :
    HostedHttpServer LoopId × List (Bytes × Message) :=
  run (recorded (HostedServer.step httpServer base) (HostedServer.recordReads id))
    (HostedServer.start {}, []) events

/-- A connection of the server, seen as a run of its own. -/
theorem hosted_own (base : LoopId) (id : ConnectionId)
    (events : List (HostedServer.Event LoopId Message))
    (sends : ∀ event ∈ events, HostedSends event)
    {served : Served LoopId} (known : (hostedRun base id events).1.server.served id = some served) :
    ∃ own, (∀ event ∈ own, OwnSends event) ∧
      let c := run (recorded (ConnectionLoop.step httpServer) ConnectionLoop.recordReads)
        (connected, []) own
      c.2 = (hostedRun base id events).2 ∧ c.1.conn = served.conn := by
  obtain ⟨shows, reads⟩ := HostedServer.run_shows_reads httpServer base {} id events
  refine ⟨_, ?_, reads, (shows.view served known).conn⟩
  exact translated_forall HostedSends OwnSends _ events sends
    fun s event sends => ownSteps_sends s.1 sends

/-- A callback that leaves every connection open. -/
def keepOpen : HttpCallback := fun _ response =>
  { response with statusCode := .k200Ok, closeConnection := false }

/-- Two connections in the base loop; the second sends a request in two pieces. -/
def twoPeers : List (HostedServer.Event Unit Message) :=
  let message : Message := { httpCallback := keepOpen }
  [.poll () [], .newConnetion (), .newConnetion (), .doPendingFunctors (), .iterate (),
    .poll () [(1, {.EPOLLIN})], .handleEvent () (.delivered (ascii "GET / HT")) message [],
    .doPendingFunctors (), .iterate (), .poll () [(0, {.EPOLLIN}), (1, {.EPOLLIN})],
    .handleEvent () (.delivered (ascii "x\r\n\r\n")) message [],
    .handleEvent () (.delivered (ascii "TP/1.1\r\n\r\n")) message [.accepted 1000]]

theorem twoPeers_sends : ∀ event ∈ twoPeers, HostedSends event := by
  simp [twoPeers, HostedSends]

theorem twoPeers_part : received (hostedRun () 1 twoPeers).2 <+: stream [getRequest] := by
  decide +kernel

theorem twoPeers_known :
    ∃ served, (hostedRun () 1 twoPeers).1.server.served 1 = some served ∧
      served.conn.outBuffer = [] := by
  have sent : ((hostedRun () 1 twoPeers).1.server.served 1).map (fun s => s.conn.outBuffer) =
      some [] := by
    decide +kernel
  obtain ⟨served, known, drained⟩ := Option.map_eq_some_iff.mp sent
  exact ⟨served, known, drained⟩

section
variable (base : LoopId) (id : ConnectionId) (requests : List WireRequest)
  (events : List (HostedServer.Event LoopId Message))
  (sends : ∀ event ∈ events, HostedSends event)
include sends

/-- A peer that sends one request at a time is always answered: while its connection is open,
every request that has arrived whole has its response, written or waiting to be. -/
theorem peers_answered (oneByOne : OneByOne requests (hostedRun base id events).2)
    {served : Served LoopId} (known : (hostedRun base id events).1.server.served id = some served) :
    ∃ replies, Serves requests (hostedRun base id events).2 served.conn replies ∧
      ¬ BeginsComplete served.conn.inBuffer := by
  obtain ⟨own, ownSends, reads, conn⟩ := hosted_own base id events sends known
  rw [← reads] at oneByOne
  obtain ⟨replies, passed, rest, serving, none⟩ :=
    run_serving_prompt requests own ownSends oneByOne
  rw [← reads, ← conn]
  exact ⟨replies, serving.serves, none⟩

omit sends in
theorem peers_answered_second :
    ∃ served, (hostedRun () 1 twoPeers).1.server.served 1 = some served ∧
      ∃ replies, Serves [getRequest] (hostedRun () 1 twoPeers).2 served.conn replies ∧
        ¬ BeginsComplete served.conn.inBuffer := by
  obtain ⟨served, known, -⟩ := twoPeers_known
  have oneByOne : OneByOne [getRequest] (hostedRun () 1 twoPeers).2 := by
    intro before read after split
    refine ⟨0, List.nil_prefix, ?_⟩
    have part := twoPeers_part
    rw [split, received, List.map_append, List.map_cons, List.flatten_append, List.flatten_cons,
      ← List.append_assoc] at part
    exact (List.prefix_append _ _).trans part
  exact ⟨served, known,
    peers_answered () 1 [getRequest] twoPeers twoPeers_sends oneByOne known⟩

end

end RabbitServer.Http
