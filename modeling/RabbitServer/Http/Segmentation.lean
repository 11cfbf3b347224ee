import RabbitServer.Http.WireRequest
import RabbitServer.Library.Runs

/-! A stream of well-formed requests delivered to `HttpServer::onMessage` in chunks, cut
anywhere: which requests reach `httpCallback_`, and which are left waiting. -/

namespace RabbitServer.Http
open RabbitServer.Net Library.Runs

/-- One `handleRead` that read `chunk`, and the `onMessage` call it makes. -/
structure Delivery where
  chunk : Bytes
  chunk_ne_nil : chunk ≠ []
  message : Message := {}

/-- What the calls of `onMessage` on one connection work on, and what they have done. -/
structure Session where
  context : HttpContext := {}
  inBuffer : Bytes := []
  received : Bytes := []
  refused : Bool := false
  requests : List HttpRequest := []
  calls : List ConnCall := []
  halted : Option Halt := none

def deliver (s : Session) (d : Delivery) : Session :=
  match s.halted with
  | some _ => s
  | none =>
    let s := { s with inBuffer := s.inBuffer ++ d.chunk, received := s.received ++ d.chunk }
    match onMessage s.context s.inBuffer d.message with
    | .error halt => { s with halted := some halt }
    | .ok handled =>
      { s with
        context := handled.context
        inBuffer := handled.buf
        refused := s.refused || handled.refused
        requests := s.requests ++ handled.request.toList
        calls := s.calls ++ handled.calls }

/-- A division of the bytes of the requests into chunks. -/
structure Division (requests : List WireRequest) where
  deliveries : List Delivery
  whole : (deliveries.map Delivery.chunk).flatten = stream requests

/-- The session after the first `n` chunks. -/
def Division.session {requests : List WireRequest} (division : Division requests) (n : Nat) :
    Session := run deliver {} (division.deliveries.take n)

/-- The contents of the requests, as a fresh context makes them of each one alone. -/
def contents (requests : List WireRequest) : List (Method × Version × Bytes × Bytes × HeaderMap) :=
  requests.map fun w => (w.alone 0).content

theorem contents_length (requests : List WireRequest) :
    (contents requests).length = requests.length :=
  List.length_map _

/-- Some of the requests have been passed on; the unread bytes are what was received
after them, and nothing of the next request has been absorbed into the context. -/
structure Synced (requests : List WireRequest) (s : Session) (later : List Delivery)
    (done rest : List WireRequest) : Prop where
  split : requests = done ++ rest
  passed : s.requests.map HttpRequest.content = contents done
  unread : s.received = stream done ++ s.inBuffer
  ahead : s.received ++ (later.map Delivery.chunk).flatten = stream requests
  fresh : ∃ version, s.context = ⟨.kExpectRequestLine, { version }⟩
  accepted : s.refused = false
  running : s.halted = none

theorem Synced.ahead_rest {requests done rest : List WireRequest} {s : Session}
    {later : List Delivery} (synced : Synced requests s later done rest) :
    s.inBuffer ++ (later.map Delivery.chunk).flatten = stream rest := by
  have whole := synced.ahead
  rw [synced.unread, synced.split, stream_append, List.append_assoc,
    List.append_cancel_left_eq] at whole
  exact whole

/-- The two things a delivery can do: the tail test fails and the chunk is kept, or the
unread bytes are whole requests and the first of them is passed on. -/
theorem deliver_cases {requests done rest : List WireRequest} {s : Session} {d : Delivery}
    {later : List Delivery} (synced : Synced requests s (d :: later) done rest) :
    (tailComplete d.message.stale (s.inBuffer ++ d.chunk) = false ∧
      deliver s d = { s with
        inBuffer := s.inBuffer ++ d.chunk
        received := s.received ++ d.chunk } ∧
      Synced requests (deliver s d) later done rest) ∨
    (∃ w more whole, rest = w :: more ∧ s.inBuffer ++ d.chunk = w.bytes ++ stream whole ∧
      (deliver s d).inBuffer = stream whole ∧
      (deliver s d).calls = s.calls ++
        onRequest d.message.httpCallback (w.alone d.message.receiveTime) ∧
      Synced requests (deliver s d) later (done ++ [w]) more) := by
  have ahead : s.received ++ d.chunk ++ (later.map Delivery.chunk).flatten = stream requests := by
    have whole := synced.ahead
    rwa [List.map_cons, List.flatten_cons, ← List.append_assoc] at whole
  have restAhead : s.inBuffer ++ d.chunk ++ (later.map Delivery.chunk).flatten = stream rest := by
    have whole := synced.ahead_rest
    rwa [List.map_cons, List.flatten_cons, ← List.append_assoc] at whole
  obtain ⟨version, context⟩ := synced.fresh
  cases complete : tailComplete d.message.stale (s.inBuffer ++ d.chunk) with
  | false =>
    have kept : deliver s d = { s with
        inBuffer := s.inBuffer ++ d.chunk
        received := s.received ++ d.chunk } := by
      simp [deliver, synced.running, onMessage, complete]
    have still : Synced requests (deliver s d) later done rest := by
      rw [kept]
      exact { synced with
        unread := by simp only [synced.unread, List.append_assoc]
        ahead }
    exact Or.inl ⟨rfl, kept, still⟩
  | true =>
    -- the unread bytes are whole requests; one call takes the first of them
    obtain ⟨k, positive, bound, boundary⟩ := tailComplete_boundary rest _ _
      ⟨_, restAhead⟩ (by simp [d.chunk_ne_nil]) complete
    cases rest with
    | nil => simp only [List.length_nil] at bound; omega
    | cons w more =>
      obtain ⟨j, rfl⟩ : ∃ j, k = j + 1 := ⟨k - 1, by omega⟩
      rw [List.take_succ_cons, stream_cons] at boundary
      have parsed := w.parse_bytes version (stream (more.take j)) d.message.receiveTime
      rw [← boundary] at parsed
      have passed : deliver s d = { s with
          context := ⟨.kExpectRequestLine,
            { version := (w.alone d.message.receiveTime).version }⟩
          inBuffer := stream (more.take j)
          received := s.received ++ d.chunk
          requests := s.requests ++ [w.alone d.message.receiveTime]
          calls := s.calls ++
            onRequest d.message.httpCallback (w.alone d.message.receiveTime) } := by
        simp [deliver, synced.running, onMessage, complete, context, parsed, HttpContext.gotAll,
          HttpContext.reset, HttpRequest.swap]
      refine Or.inr ⟨w, more, more.take j, rfl, boundary, by rw [passed], by rw [passed], ?_⟩
      rw [passed]
      exact { synced with
        split := by rw [synced.split, List.append_assoc]; rfl
        passed := by
          rw [List.map_append, synced.passed, contents, contents, List.map_append]
          simp [w.alone_content d.message.receiveTime 0]
        unread := by
          simp only [synced.unread, List.append_assoc, boundary, stream_append, stream_cons,
            stream_nil, List.append_nil]
        ahead
        fresh := ⟨_, rfl⟩ }

theorem synced_session {requests : List WireRequest} (division : Division requests) (n : Nat) :
    ∃ done rest, Synced requests (division.session n) (division.deliveries.drop n) done rest := by
  apply run_invariant_ahead fun s later => ∃ done rest, Synced requests s later done rest
  · rw [List.take_append_drop]
    exact ⟨[], requests, rfl, rfl, rfl, division.whole, ⟨.kUnknown, rfl⟩, rfl, rfl⟩
  · intro s d later split
    obtain ⟨done, rest, synced⟩ := split
    rcases deliver_cases synced with ⟨_, _, kept⟩ | ⟨w, more, _, _, _, _, _, passed⟩
    · exact ⟨done, rest, kept⟩
    · exact ⟨done ++ [w], more, passed⟩

/-- However the stream is cut, `httpCallback_` sees the first requests in order, each as
it would be alone, 400 is never answered, and the unread bytes are what was received
after them: no line of the next request has been absorbed yet. -/
theorem segmentation_exact (requests : List WireRequest) (division : Division requests) (n : Nat) :
    (division.session n).halted = none ∧ (division.session n).refused = false ∧
      (division.session n).received =
        ((division.deliveries.take n).map Delivery.chunk).flatten ∧
      ∃ k, k ≤ requests.length ∧
        (division.session n).requests.map HttpRequest.content = contents (requests.take k) ∧
        (division.session n).received =
          stream (requests.take k) ++ (division.session n).inBuffer ∧
        (division.session n).context.state = .kExpectRequestLine := by
  obtain ⟨done, rest, synced⟩ := synced_session division n
  have before : requests.take done.length = done := by rw [synced.split, List.take_left]
  refine ⟨synced.running, synced.accepted, ?_, done.length, ?_, ?_, ?_, ?_⟩
  · have whole := synced.ahead
    rw [← division.whole] at whole
    nth_rewrite 2 [← List.take_append_drop n division.deliveries] at whole
    rw [List.map_append, List.flatten_append] at whole
    exact List.append_cancel_right whole
  · rw [synced.split, List.length_append]
    omega
  · rw [before, synced.passed]
  · rw [before, ← synced.unread]
  · obtain ⟨version, context⟩ := synced.fresh
    rw [context]

/-- As long as no close has been initiated, every request whose last byte has arrived
has been passed on. -/
def NoneWaiting (requests : List WireRequest) (s : Session) : Prop :=
  .closeConnection ∉ s.calls → ∀ k, k ≤ requests.length →
    (stream (requests.take k)).length ≤ s.received.length →
      contents (requests.take k) <+: s.requests.map HttpRequest.content

/-- The bytes begin with a complete request. -/
def BeginsComplete (buf : Bytes) : Prop := ∃ (w : WireRequest) (rest : Bytes), buf = w.bytes ++ rest

/-- As long as no close has been initiated, a chunk that completes a request ends with
its last byte, or ends with a later request and the answer to the first one closes. -/
def ChunkFits (s : Session) (d : Delivery) : Prop :=
  .closeConnection ∉ s.calls → ∀ (w : WireRequest) (rest : Bytes),
    s.inBuffer ++ d.chunk = w.bytes ++ rest → rest ≠ [] →
      kCLRF ++ kCLRF <:+ rest ∧
        (responseTo d.message.httpCallback (w.alone d.message.receiveTime)).closeConnection = true

theorem noneWaiting_iff {requests done rest : List WireRequest} {s : Session}
    {later : List Delivery} (synced : Synced requests s later done rest) :
    NoneWaiting requests s ↔ (.closeConnection ∉ s.calls → ¬ BeginsComplete s.inBuffer) := by
  unfold NoneWaiting
  apply imp_congr_right
  intro _
  rw [synced.split, synced.passed, synced.unread]
  have unread : s.inBuffer <+: stream rest := ⟨_, synced.ahead_rest⟩
  constructor
  · intro all waiting
    obtain ⟨w, more, buf⟩ := waiting
    have inside : w.bytes <+: stream rest := (List.prefix_append _ more).trans (buf ▸ unread)
    obtain ⟨head, tail, bytes, -⟩ := w.bytes_head
    obtain ⟨k, positive, bound, boundary⟩ := tailComplete_boundary rest [] _ inside
      (by simp [bytes]) (tailComplete_of_suffix _ _ w.bytes_tail)
    cases rest with
    | nil => simp only [List.length_nil] at bound; omega
    | cons next rest =>
      have arrived := all (done.length + 1) (by simp) (by
        obtain ⟨j, rfl⟩ : ∃ j, k = j + 1 := ⟨k - 1, by omega⟩
        have length := congrArg List.length boundary
        rw [List.take_succ_cons, stream_cons] at length
        rw [List.take_length_add_append, stream_append, List.take_succ_cons, stream_cons, buf]
        simp only [List.length_append, List.take_zero, stream_nil, List.length_nil] at length ⊢
        omega)
      have length := arrived.length_le
      simp only [contents_length, List.length_take, List.length_append, List.length_cons] at length
      omega
  · intro absent k bound arrived
    by_cases early : k ≤ done.length
    · rw [List.take_append_of_le_length early]
      exact List.IsPrefix.map _ (List.take_prefix k done)
    · exfalso
      obtain ⟨j, rfl⟩ : ∃ j, k = done.length + (j + 1) := ⟨k - done.length - 1, by omega⟩
      cases rest with
      | nil => simp only [List.append_nil] at bound; omega
      | cons next rest =>
        rw [List.take_length_add_append, stream_append, List.take_succ_cons, stream_cons] at arrived
        have short : next.bytes.length ≤ s.inBuffer.length := by
          simp only [List.length_append] at arrived
          omega
        obtain ⟨more, buf⟩ := List.prefix_of_prefix_length_le (List.prefix_append _ _) unread short
        exact absent ⟨next, more, buf.symm⟩

/-- A complete request at the head of the unread bytes is determined by them. -/
theorem bytes_append_inj {first second : WireRequest} {rest other : Bytes}
    (same : first.bytes ++ rest = second.bytes ++ other) (receiveTime : Timestamp) :
    rest = other ∧ first.alone receiveTime = second.alone receiveTime := by
  have parsed := first.parse_bytes .kUnknown rest receiveTime
  rw [same, second.parse_bytes] at parsed
  simp only [Except.ok.injEq, Parsed.mk.injEq, HttpContext.mk.injEq, true_and] at parsed
  exact ⟨parsed.2.symm, parsed.1.symm⟩

theorem closes_iff (httpCallback : HttpCallback) (request : HttpRequest) :
    .closeConnection ∈ onRequest httpCallback request ↔
      (responseTo httpCallback request).closeConnection = true := by
  simp [onRequest]

theorem noneWaiting_deliver_iff {requests done rest : List WireRequest} {s : Session} {d : Delivery}
    {later : List Delivery} (synced : Synced requests s (d :: later) done rest) :
    NoneWaiting requests (deliver s d) ↔ ChunkFits s d := by
  rcases deliver_cases synced with ⟨incomplete, kept, after⟩ |
    ⟨w, more, whole, _, buf, unread, calls, after⟩
  · rw [noneWaiting_iff after, kept]
    unfold ChunkFits
    apply imp_congr_right
    intro _
    constructor
    · intro absent w rest buf _
      exact absurd ⟨w, rest, buf⟩ absent
    · intro fits waiting
      obtain ⟨w, rest, buf⟩ := waiting
      replace buf : s.inBuffer ++ d.chunk = w.bytes ++ rest := buf
      have ends : kCLRF ++ kCLRF <:+ s.inBuffer ++ d.chunk := by
        by_cases last : rest = []
        · rw [buf, last, List.append_nil]
          exact w.bytes_tail
        · rw [buf]
          exact (fits w rest buf last).1.trans (List.suffix_append _ _)
      rw [tailComplete_of_suffix _ _ ends] at incomplete
      cases incomplete
  · rw [noneWaiting_iff after, unread, calls, List.mem_append, not_or, closes_iff]
    unfold ChunkFits
    rw [and_imp]
    apply imp_congr_right
    intro _
    constructor
    · intro absent first rest other notLast
      obtain ⟨rfl, alone⟩ := bytes_append_inj (buf.symm.trans other) d.message.receiveTime
      have more_ne : whole ≠ [] := by
        intro none
        subst none
        exact notLast rfl
      refine ⟨stream_tail whole more_ne, ?_⟩
      rw [← alone]
      by_contra stays
      cases whole with
      | nil => exact more_ne rfl
      | cons next whole => exact absent stays ⟨next, stream whole, rfl⟩
    · intro fits stays waiting
      obtain ⟨next, rest, next_eq⟩ := waiting
      apply stays (fits w (stream whole) buf _).2
      obtain ⟨head, tail, bytes, -⟩ := next.bytes_head
      rw [next_eq, bytes]
      exact List.cons_ne_nil _ _

/-- No complete request is left waiting at any return of `onMessage` exactly when every
chunk fits: pipelined requests wait for a later chunk. -/
theorem noneWaiting_iff_chunksFit (requests : List WireRequest) (division : Division requests) :
    Along deliver (fun s d => NoneWaiting requests (deliver s d)) {} division.deliveries ↔
      Along deliver ChunkFits {} division.deliveries := by
  apply along_iff_of_exact fun s later => ∃ done rest, Synced requests s later done rest
  · exact ⟨[], requests, rfl, rfl, rfl, division.whole, ⟨.kUnknown, rfl⟩, rfl, rfl⟩
  · intro s d later split _
    obtain ⟨done, rest, synced⟩ := split
    rcases deliver_cases synced with ⟨_, _, kept⟩ | ⟨w, more, _, _, _, _, _, passed⟩
    · exact ⟨done, rest, kept⟩
    · exact ⟨done ++ [w], more, passed⟩
  · intro s d later split
    obtain ⟨done, rest, synced⟩ := split
    exact noneWaiting_deliver_iff synced

/-- `GET / HTTP/1.1` and an empty line. -/
def getRequest : WireRequest where
  line := ascii "GET / HTTP/1.1"
  headers := []
  line_free := rfl
  line_accepted := ⟨_, rfl⟩
  headers_free := by simp
  headers_named := by simp

/-- Two requests in one chunk, each answered on a connection that stays open. -/
def pipelined : Division [getRequest, getRequest] where
  deliveries := [{
    chunk := stream [getRequest, getRequest]
    chunk_ne_nil := by decide +kernel
    message := { httpCallback := fun _ response => response } }]
  whole := by simp

theorem noneWaiting_fails :
    ¬ Along deliver (fun s d => NoneWaiting [getRequest, getRequest] (deliver s d)) {}
      pipelined.deliveries := by
  intro along
  have passed := along.1 (by decide +kernel) 2 (by decide) (by decide +kernel)
  have length := passed.length_le
  revert length
  decide +kernel

end RabbitServer.Http
