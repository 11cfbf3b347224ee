import RabbitServer.Http.HttpConnection

/-! Between the decision to close and the close, while output is pending, a connection
still reads: what the bytes read then can do. -/

namespace RabbitServer.Http
open RabbitServer.Net RabbitServer.Net.ConnectionLoop Library.Runs

/-- The assertion `method_ == kInvalid` does not fail at this step. -/
def Unasserted (s : HttpConnection) (event : Event Message) : Prop :=
  (step httpServer s event).halted ≠ some .assertFailed

/-- While the connection is disconnecting, and after 400 was answered to a line that begins
with a known method and a space, no bytes are read that complete a tail. -/
def TailKeptOpen (s : HttpConnection) (event : Event Message) : Prop :=
  ∀ data message, s.delivered event = some (data, message) → s.conn.state = .kDisconnecting →
    (∃ line ∈ s.context.refusedLines, lineMethod line ≠ .kInvalid) →
      tailComplete message.stale (s.conn.inBuffer ++ data) = false

theorem unasserted_iff {s : HttpConnection} (sound : Sound s) (running : s.halted = none)
    (event : Event Message) : Unasserted s event ↔ TailKeptOpen s event := by
  unfold Unasserted TailKeptOpen
  cases delivered : s.delivered event with
  | none =>
    obtain ⟨-, halted, -⟩ := step_undelivered httpServer delivered
    rw [halted, running]
    exact iff_of_true nofun nofun
  | some given =>
    obtain ⟨data, message⟩ := given
    have expecting := sound.expecting.append data
    obtain ⟨stops, returns⟩ := delivered_step sound delivered
    rcases messageCallback_cases expecting message with ⟨quiet, result⟩ | ⟨complete, line, begins,
      ⟨refused, member, named, result⟩ | ⟨unset, ⟨next, _, _, result⟩ | ⟨got, left, _, result⟩⟩⟩
    · rw [(returns _ _ _ result).1]
      apply iff_of_true nofun
      intro _ _ same _ named
      cases same
      rcases quiet with open_ | free
      · exact open_
      · obtain ⟨line, _, _, _, begins⟩ := expecting.stuck (expecting.named named)
        exact absurd free begins.not_free
    · rw [(stops _ result).1]
      apply iff_of_false (fun other => other rfl)
      intro kept
      have decided := expecting.decided (List.ne_nil_of_mem member)
      have disconnecting := delivered_closing sound.orderly (sound.closes decided) delivered
      have incomplete := kept data message rfl disconnecting ⟨line, member, named⟩
      rw [complete] at incomplete
      cases incomplete
    · rw [(returns _ _ _ result).1]
      apply iff_of_true nofun
      intro _ _ same _ named
      cases same
      exact absurd unset (expecting.named named)
    · rw [(returns _ _ _ result).1]
      apply iff_of_true nofun
      intro _ _ same _ named
      cases same
      exact absurd unset (expecting.named named)

theorem running_of_unasserted {s : HttpConnection} (sound : Sound s) (running : s.halted = none)
    {event : Event Message} (unasserted : Unasserted s event) :
    (step httpServer s event).halted = none := by
  cases delivered : s.delivered event with
  | none =>
    obtain ⟨-, halted, -⟩ := step_undelivered httpServer delivered
    exact halted.trans running
  | some given =>
    obtain ⟨data, message⟩ := given
    obtain ⟨stops, returns⟩ := delivered_step sound delivered
    rcases messageCallback_cases (sound.expecting.append data) message with ⟨_, result⟩ |
      ⟨_, line, _, ⟨_, _, _, result⟩ | ⟨_, ⟨next, _, _, result⟩ | ⟨got, left, _, result⟩⟩⟩
    · exact (returns _ _ _ result).1
    · exact absurd (stops _ result).1 unasserted
    · exact (returns _ _ _ result).1
    · exact (returns _ _ _ result).1

/-- In a run of one connection the assertion never fails exactly when, while disconnecting
after such a 400, no read completes a tail. -/
theorem unasserted_iff_tailKeptOpen (events : List (Event Message)) :
    Along (step httpServer) Unasserted connected events ↔
      Along (step httpServer) TailKeptOpen connected events := by
  apply along_iff_of_exact fun s _ => Sound s ∧ s.halted = none
  · exact ⟨connected_sound, rfl⟩
  · intro s event _ good kept
    obtain ⟨sound, running⟩ := good
    exact ⟨sound.step event,
      running_of_unasserted sound running ((unasserted_iff sound running event).mpr kept)⟩
  · intro s event _ good
    exact unasserted_iff good.1 good.2 event

/-- One turn of the loop in which the peer's bytes are read, no byte can be written, and
the functor that closes runs. -/
def readTurn (data : Bytes) : List (Event Message) :=
  [.poll {.EPOLLIN}, .handleEvent (.delivered data) {} [.failed 11], .doPendingFunctors,
    .functor (.failed 11), .iterate]

/-- `GET /` lacks a version; the next empty line makes the parser look at it again. -/
theorem unasserted_fails :
    ¬ Along (step httpServer) Unasserted connected
      (readTurn (ascii "GET /\r\n\r\n") ++ readTurn (ascii "\r\n")) := by
  intro along
  obtain ⟨-, -, -, -, -, -, again, -⟩ := along
  exact again (by decide +kernel)

/-- After the decision to close, no request is passed to `httpCallback_` at this step. -/
def Unexecuted (s : HttpConnection) (event : Event Message) : Prop :=
  s.context.decided = true → (step httpServer s event).context.requests = s.context.requests

/-- While the connection is disconnecting after the decision, no bytes are read with which
the unread ones have a complete tail and begin with an acceptable request line. -/
def NoRequestRead (s : HttpConnection) (event : Event Message) : Prop :=
  ∀ data message, s.delivered event = some (data, message) → s.conn.state = .kDisconnecting →
    s.context.decided = true → tailComplete message.stale (s.conn.inBuffer ++ data) = true →
      ∀ line, BeginsWith (s.conn.inBuffer ++ data) line → ¬ Accepted line

theorem unexecuted_iff {s : HttpConnection} (sound : Sound s) (event : Event Message) :
    Unexecuted s event ↔ NoRequestRead s event := by
  unfold Unexecuted NoRequestRead
  cases delivered : s.delivered event with
  | none =>
    obtain ⟨context, -, -⟩ := step_undelivered httpServer delivered
    rw [context]
    exact iff_of_true (fun _ => rfl) nofun
  | some given =>
    obtain ⟨data, message⟩ := given
    obtain ⟨stops, returns⟩ := delivered_step sound delivered
    rcases messageCallback_cases (sound.expecting.append data) message with ⟨quiet, result⟩ |
      ⟨complete, line, begins, ⟨refused, _, _, result⟩ |
        ⟨_, ⟨next, refused, _, result⟩ | ⟨got, left, accepted, result⟩⟩⟩
    · rw [(returns _ _ _ result).2.1]
      apply iff_of_true (fun _ => rfl)
      intro _ _ same _ _ complete other begins
      cases same
      rcases quiet with open_ | free
      · rw [open_] at complete
        cases complete
      · exact absurd free begins.not_free
    · rw [(stops _ result).2.1]
      apply iff_of_true (fun _ => rfl)
      intro _ _ same _ _ _ other first
      cases same
      rwa [← begins.unique first]
    · rw [(returns _ _ _ result).2.1]
      apply iff_of_true (fun _ => rfl)
      intro _ _ same _ _ _ other first
      cases same
      rwa [← begins.unique first]
    · rw [(returns _ _ _ result).2.1]
      constructor
      · intro kept _ _ same _ decided
        cases same
        exact absurd (List.append_right_eq_self.mp (kept decided)) (List.cons_ne_nil _ _)
      · intro none decided
        have disconnecting := delivered_closing sound.orderly (sound.closes decided) delivered
        exact absurd accepted (none data message rfl disconnecting decided complete line begins)

/-- After the decision to close no request is executed exactly when, while disconnecting,
none is read. -/
theorem unexecuted_iff_noRequestRead (events : List (Event Message)) :
    Along (step httpServer) Unexecuted connected events ↔
      Along (step httpServer) NoRequestRead connected events := by
  apply along_iff_of_exact fun s _ => Sound s
  · exact connected_sound
  · intro s event _ sound _
    exact sound.step event
  · intro s event _ sound
    exact unexecuted_iff sound event

/-- The first answer closes and waits for the peer to take it; the second request is still
read, and executed. -/
theorem unexecuted_fails :
    ¬ Along (step httpServer) Unexecuted connected
      (readTurn (ascii "GET / HTTP/1.1\r\n\r\n") ++ readTurn (ascii "GET / HTTP/1.1\r\n\r\n")) := by
  intro along
  obtain ⟨-, -, -, -, -, -, again, -⟩ := along
  have length := congrArg List.length (again (by decide +kernel))
  revert length
  decide +kernel

end RabbitServer.Http
