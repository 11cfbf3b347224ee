import RabbitServer.Net.HostedView

/-! What a hosted server reads for one connection is what the loop of that connection reads. -/

namespace RabbitServer.Net.HostedServer
open Library.Runs

variable {LoopId Context Input Halt : Type} [DecidableEq LoopId]

/-- The bytes an event reads for a connection. -/
def readFor (id : ConnectionId) (s : HostedServer LoopId Context Halt)
    (event : Event LoopId Input) : Option (Bytes × Input) :=
  match s.ended, event with
  | false, .handleEvent loop (.delivered data) input _ =>
    if (s.delivered loop (.delivered data)).map Prod.fst = some id then some (data, input) else none
  | _, _ => none

/-- What has been read for a connection so far, in order. -/
def recordReads (id : ConnectionId) (s : HostedServer LoopId Context Halt)
    (event : Event LoopId Input) (reads : List (Bytes × Input)) : List (Bytes × Input) :=
  reads ++ (s.readFor id event).toList

/-- An event in which no callback is called. -/
def Unread : ConnectionLoop.Event Input → Prop
  | .handleEvent .. => False
  | _ => True

theorem Unread.undelivered {event : ConnectionLoop.Event Input} (unread : Unread event)
    (c : ConnectionLoop Context Halt) : c.delivered event = none := by
  unfold ConnectionLoop.delivered
  split
  next => exact unread.elim
  next => rfl

theorem run_unread (app : App Context Input Halt) (c : ConnectionLoop Context Halt)
    (reads : List (Bytes × Input)) (events : List (ConnectionLoop.Event Input))
    (unread : ∀ event ∈ events, Unread event) :
    run (recorded (ConnectionLoop.step app) ConnectionLoop.recordReads) (c, reads) events =
      (run (ConnectionLoop.step app) c events, reads) := by
  induction events generalizing c with
  | nil => rfl
  | cons event rest ih =>
    have here := (unread event (List.mem_cons_self ..)).undelivered c
    have later := ih (ConnectionLoop.step app c event) fun other member =>
      unread other (List.mem_cons_of_mem _ member)
    rw [run_cons, run_cons, ← later]
    congr 1
    simp [recorded, ConnectionLoop.recordReads, here]

section
variable {app : App Context Input Halt} {base : LoopId} {context : Context} {id : ConnectionId}
  {s : HostedServer LoopId Context Halt} {c : ConnectionLoop Context Halt}

omit [DecidableEq LoopId] in
/-- The reads of other connections, and of those that are not accepted yet, are not for it. -/
theorem readFor_unseen (loop : LoopId) (read : Buffer.Readv) (input : Input)
    (writes : List WriteResult)
    (unseen : ∀ callback rest, (s.server.loops loop).turn ≠ .dispatching ((id, callback) :: rest)) :
    s.readFor id (.handleEvent loop read input writes) = none := by
  unfold readFor
  split
  next running data _ writes same =>
    cases same
    rw [if_neg]
    intro concerned
    obtain ⟨⟨other, unread⟩, delivered, rfl⟩ := Option.map_eq_some_iff.mp concerned
    obtain ⟨⟨callback, rest, turn⟩, -⟩ := delivered_known delivered
    exact unseen callback rest turn
  next => rfl

omit [DecidableEq LoopId] in
/-- A callback of the connection reads what the callback of its own loop reads. -/
theorem readFor_own (shows : Shows base context id s c) (running : s.ended = false)
    {loop : LoopId} {callback : ChannelCallback} {rest : List (ConnectionId × ChannelCallback)}
    (turn : (s.server.loops loop).turn = .dispatching ((id, callback) :: rest))
    {served : Served LoopId} (known : s.server.served id = some served) (read : Buffer.Readv)
    (input : Input) (writes : List WriteResult) :
    c.delivered (.handleEvent read input writes) =
      s.readFor id (.handleEvent loop read input writes) := by
  obtain ⟨other, same, here⟩ := Option.map_eq_some_iff.mp
    (shows.home.active loop _ turn (id, callback) (List.mem_cons_self ..))
  obtain rfl := Option.some.inj (known.symm.trans same)
  have view := shows.view served known
  have dispatched : c.turn = .dispatching (callback :: ownEvents id rest) := by
    rw [view.turn, here, turn]
    simp [ownTurn, ownEvents]
  have delivered := delivered_own (s := s) turn known read (.accepted 0)
  cases read with
  | failed errno => simp [ConnectionLoop.delivered, readFor, shows.running running, dispatched]
  | delivered data =>
    simp only [ConnectionLoop.delivered, readFor, shows.running running, dispatched, running]
    cases callback with
    | readCallback =>
      simp only [delivered, TcpConnection.handleEvent, TcpConnection.handleRead]
      by_cases bytes : data.length > 0
      · simp [bytes]
      · have quiet := served.conn.handleClose_callback
        simp [bytes, quiet]
    | _ =>
      rw [if_neg] at delivered
      · simp [delivered]
      · intro message
        obtain ⟨same, -⟩ := served.conn.handleEvent_message message
        cases same

/-- A step of the loop in which nothing is read and no one calls. -/
def Plain : ConnectionLoop.Event Input → Prop
  | .handleEvent .. => False
  | .call .. => False
  | _ => True

theorem Plain.unread {small : ConnectionLoop.Event Input} (plain : Plain small) : Unread small := by
  cases small with
  | handleEvent read input writes => exact plain
  | _ => trivial

theorem removal_plain (loop : LoopId) (callback : Option ServerCallback) :
    ∀ small ∈ (s.server.removal base loop id callback : List (ConnectionLoop.Event Input)),
      Plain small := by
  intro small member
  unfold TcpServer.removal at member
  split at member
  · cases List.mem_singleton.mp member
    trivial
  · cases member

/-- What a callback of the connection and a call on it are in its own loop; every other event is
a plain one there. -/
theorem ownNext_cases {event : Event LoopId Input} {small : ConnectionLoop.Event Input}
    (member : small ∈ ownNext base id s event) :
    (∃ loop read input writes callback rest, event = .handleEvent loop read input writes ∧
        small = .handleEvent read input writes ∧
        (s.server.loops loop).turn = .dispatching ((id, callback) :: rest)) ∨
      (∃ thread inLoopThread c write, event = .call thread id c write ∧
        small = .call inLoopThread c write) ∨
      Plain small := by
  revert small
  cases event with
  | newConnetion ioLoop =>
    have joining : ∀ turn, ∀ small ∈ (joining turn : List (ConnectionLoop.Event Input)),
        Plain small := by
      intro turn
      cases turn <;> simp [HostedServer.joining, Plain]
    simp only [ownNext]
    split
    · split
      · exact fun small member => Or.inr (Or.inr (joining _ small member))
      · rintro small ⟨⟩
    · rintro small ⟨⟩
  | handleEvent loop read input writes =>
    cases known : s.server.served id with
    | none => simp [ownNext, known]
    | some served =>
      simp only [ownNext, known]
      split
      next other callback rest turn =>
        split
        next same =>
          subst same
          intro small member
          rcases List.mem_cons.mp member with rfl | later
          · exact Or.inl ⟨loop, read, input, writes, callback, rest, rfl, rfl, turn⟩
          · exact Or.inr (Or.inr (removal_plain loop _ _ later))
        next => rintro small ⟨⟩
      next => rintro small ⟨⟩
  | functor loop write =>
    cases known : s.server.served id with
    | none => simp [ownNext, known]
    | some served =>
      simp only [ownNext, known]
      split
      · split
        · intro small member
          rcases List.mem_cons.mp member with rfl | later
          · exact Or.inr (Or.inr trivial)
          · exact Or.inr (Or.inr (removal_plain loop _ _ later))
        · rintro small ⟨⟩
      · split <;> simp [Plain]
      · rintro small ⟨⟩
  | call thread other c write =>
    cases known : s.server.served id with
    | none => simp [ownNext, known]
    | some served =>
      simp only [ownNext, known]
      split
      next concerns =>
        obtain ⟨rfl, -⟩ := concerns
        intro small member
        rw [List.mem_singleton.mp member]
        exact Or.inr (Or.inl ⟨thread, _, c, write, rfl, rfl⟩)
      next => rintro small ⟨⟩
  | _ =>
    cases known : s.server.served id with
    | none => simp [ownNext, known]
    | some served =>
      simp only [ownNext, known]
      split <;> simp [Plain]

/-- One step of the server reads for a connection what the steps of its own loop read. -/
theorem run_ownSteps (shows : Shows base context id s c) (reads : List (Bytes × Input))
    (event : Event LoopId Input) :
    run (recorded (ConnectionLoop.step app) ConnectionLoop.recordReads) (c, reads)
        (ownSteps base id s event) =
      (run (ConnectionLoop.step app) c (ownSteps base id s event),
        s.recordReads id event reads) := by
  have unread : s.readFor id event = none → (∀ small ∈ ownSteps base id s event, Unread small) →
      run (recorded (ConnectionLoop.step app) ConnectionLoop.recordReads) (c, reads)
          (ownSteps base id s event) =
        (run (ConnectionLoop.step app) c (ownSteps base id s event),
          s.recordReads id event reads) := by
    intro nothing quiet
    rw [run_unread app c reads _ quiet, recordReads, nothing, Option.toList_none, List.append_nil]
  by_cases ended : s.ended
  · apply unread
    · simp [readFor, ended]
    · simp [ownSteps, ended]
  have running : s.ended = false := Bool.not_eq_true _ ▸ ended
  have others : (∀ loop read input writes, event = .handleEvent loop read input writes →
      ∀ callback rest, (s.server.loops loop).turn ≠ .dispatching ((id, callback) :: rest)) →
      ∀ small ∈ ownSteps base id s event, Unread small := by
    intro unseen small member
    rw [ownSteps, if_neg ended] at member
    rcases ownNext_cases member with
      ⟨loop, read, input, writes, callback, rest, same, -, turn⟩ | ⟨_, _, _, _, -, rfl⟩ | plain
    · exact absurd turn (unseen loop read input writes same callback rest)
    · trivial
    · exact plain.unread
  cases event with
  | handleEvent loop read input writes =>
    by_cases own : ∃ callback rest,
        (s.server.loops loop).turn = .dispatching ((id, callback) :: rest)
    · obtain ⟨callback, rest, turn⟩ := own
      obtain ⟨served, known, -⟩ := Option.map_eq_some_iff.mp
        (shows.home.active loop _ turn (id, callback) (List.mem_cons_self ..))
      have same := readFor_own shows running turn known read input writes
      have steps : ownSteps base id s (.handleEvent loop read input writes) =
          .handleEvent read input writes :: s.server.removal base loop id
            (served.conn.handleEvent callback read (writes.headD (.accepted 0))).2 := by
        simp only [ownSteps, running, ownNext, turn, known]
        rfl
      rw [steps, run_cons, run_cons, run_unread app _ _ _ (fun small member =>
        (removal_plain loop _ small member).unread), recordReads,
        ← same]
      rfl
    · have unseen : ∀ callback rest,
          (s.server.loops loop).turn ≠ .dispatching ((id, callback) :: rest) :=
        fun callback rest turn => own ⟨callback, rest, turn⟩
      apply unread (readFor_unseen loop read input writes unseen)
      apply others
      rintro _ _ _ _ ⟨⟩
      exact unseen
  | _ =>
    apply unread
    · simp [readFor, running]
    · apply others
      rintro loop read input writes ⟨⟩

end

/-- The reads of a run of the server for a connection are those of its own loop. -/
theorem run_shows_reads (app : App Context Input Halt) (base : LoopId) (context : Context)
    (id : ConnectionId) (events : List (Event LoopId Input)) :
    let s := run (recorded (HostedServer.step app base) (recordReads id)) (start context, []) events
    let c := run (recorded (ConnectionLoop.step app) ConnectionLoop.recordReads) ({ context }, [])
      (translated (recorded (HostedServer.step app base) (recordReads id))
        (fun s => ownSteps base id s.1) (start context, []) events)
    Shows base context id s.1 c.1 ∧ c.2 = s.2 := by
  apply run_translated fun (s : HostedServer LoopId Context Halt × List (Bytes × Input))
    (c : ConnectionLoop Context Halt × List (Bytes × Input)) => Shows base context id s.1 c.1 ∧ c.2 = s.2
  · exact ⟨start_shows base context id, rfl⟩
  · rintro ⟨s, reads⟩ ⟨c, _⟩ event ⟨shows, rfl⟩
    rw [run_ownSteps shows]
    exact ⟨shows.step event, rfl⟩

end RabbitServer.Net.HostedServer
