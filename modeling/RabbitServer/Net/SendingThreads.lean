import RabbitServer.Net.OutputStream

/-! `TcpConnection::send` from other threads: the functor that is queued holds the address
of the message and its length, and the bytes are looked up when it runs. -/

namespace RabbitServer.Net
open Library.Runs

/-- The arguments bound to a queued `sendInLoop`. `message` is not one of them: it is what
stood at `data` when `send` was called. -/
structure SendCall where
  data : Nat
  len : Nat
  message : Bytes
  deriving DecidableEq

/-- `calling` are the calls that have found the connection open and have queued nothing yet. -/
structure SendingThreads where
  conn : TcpConnection := .established
  memory : Nat → Byte
  calling : List SendCall := []
  pendingFunctors : List SendCall := []

namespace SendingThreads

/-- `send` and `queueInLoop` are the two halves of a call; a `store` may be made by any thread;
`functor` runs the next queued `sendInLoop`, and `io` is anything else the loop does. -/
inductive Event where
  | send (data len : Nat)
  | queueInLoop (caller : Nat)
  | store (address : Nat) (byte : Byte)
  | functor (write : WriteResult)
  | io (step : TcpConnection.Step)

/-- The bytes `[data, data + len)`. -/
def bytesAt (memory : Nat → Byte) (data len : Nat) : Bytes :=
  (List.range len).map fun offset => memory (data + offset)

def step (s : SendingThreads) : Event → SendingThreads
  | .send data len =>
    if s.conn.state = .kConnected then
      { s with calling := s.calling ++ [⟨data, len, bytesAt s.memory data len⟩] }
    else s
  | .queueInLoop caller =>
    match s.calling[caller]? with
    | some call =>
      { s with
        calling := s.calling.eraseIdx caller
        pendingFunctors := s.pendingFunctors ++ [call] }
    | none => s
  | .store address byte => { s with memory := fun a => if a = address then byte else s.memory a }
  | .functor write =>
    match s.pendingFunctors with
    | call :: rest =>
      { s with
        conn := s.conn.sendInLoop (bytesAt s.memory call.data call.len) write
        pendingFunctors := rest }
    | [] => s
  | .io step => { s with conn := s.conn.step step }

/-- The functor a step runs. -/
def ran (s : SendingThreads) : Event → Option (SendCall × WriteResult)
  | .functor write => s.pendingFunctors.head?.map fun call => (call, write)
  | _ => none

/-- A functor that runs writes or buffers the bytes of its call, and does what the same `send`
would do in the loop thread. -/
def SendsAsCalled (s : SendingThreads) (event : Event) : Prop :=
  ∀ call write, s.ran event = some (call, write) →
    (s.step event).conn.written ++ (s.step event).conn.outBuffer =
        s.conn.written ++ s.conn.outBuffer ++ call.message ∧
      (s.step event).conn = s.conn.sendInLoop call.message write

/-- A functor that runs finds in memory what stood there when `send` was called. -/
def FindsMessage (s : SendingThreads) (event : Event) : Prop :=
  ∀ call write, s.ran event = some (call, write) →
    bytesAt s.memory call.data call.len = call.message

/-- No byte of a message is changed from the call of `send` until its functor has run. -/
def KeepsMessages (s : SendingThreads) (event : Event) : Prop :=
  ∀ address byte, event = .store address byte → ∀ call ∈ s.calling ++ s.pendingFunctors,
    call.data ≤ address → address < call.data + call.len → byte = s.memory address

/-- The messages of the calls are still in memory. -/
def Intact (s : SendingThreads) : Prop :=
  ∀ call ∈ s.calling ++ s.pendingFunctors, bytesAt s.memory call.data call.len = call.message

variable {s : SendingThreads} {event : Event}

/-- Bytes outside of a message, or stored as they were, leave it as it is. -/
theorem bytesAt_store {memory : Nat → Byte} {data len address : Nat} {byte : Byte}
    (same : data ≤ address → address < data + len → byte = memory address) :
    bytesAt (fun a => if a = address then byte else memory a) data len =
      bytesAt memory data len := by
  apply List.map_congr_left
  intro offset member
  have below : offset < len := List.mem_range.mp member
  by_cases here : data + offset = address
  · simp only [here, if_true]
    exact same (by omega) (by omega)
  · simp only [here, if_false]

theorem Intact.step (intact : s.Intact) (keeps : s.KeepsMessages event) :
    (s.step event).Intact := by
  intro call member
  cases event with
  | send data len =>
    simp only [SendingThreads.step] at member ⊢
    split at member
    next connected =>
      rw [if_pos connected]
      rcases List.mem_append.mp member with calling | pending
      · rcases List.mem_append.mp calling with before | now
        · exact intact call (List.mem_append_left _ before)
        · rw [List.mem_singleton.mp now]
      · exact intact call (List.mem_append_right _ pending)
    next closed =>
      rw [if_neg closed]
      exact intact call member
  | queueInLoop caller =>
    simp only [SendingThreads.step] at member ⊢
    split at member
    next queued found =>
      rcases List.mem_append.mp member with calling | pending
      · exact intact call (List.mem_append_left _ (List.mem_of_mem_eraseIdx calling))
      · rcases List.mem_append.mp pending with before | now
        · exact intact call (List.mem_append_right _ before)
        · rw [List.mem_singleton.mp now]
          exact intact queued (List.mem_append_left _ (List.mem_of_getElem? found))
    next => exact intact call member
  | store address byte =>
    calc
      _ = bytesAt s.memory call.data call.len :=
        bytesAt_store fun low high => keeps address byte rfl call member low high
      _ = call.message := intact call member
  | functor write =>
    simp only [SendingThreads.step] at member ⊢
    split at member
    next first rest pending =>
      apply intact call
      rw [pending]
      rcases List.mem_append.mp member with calling | later
      · exact List.mem_append_left _ calling
      · exact List.mem_append_right _ (List.mem_cons_of_mem _ later)
    next => exact intact call member
  | io step => exact intact call member

/-- Whatever `write` does, a message is written or buffered behind what was sent before. -/
theorem sendInLoop_whole (conn : TcpConnection) (data : Bytes) (write : WriteResult) :
    (conn.sendInLoop data write).written ++ (conn.sendInLoop data write).outBuffer =
      conn.written ++ conn.outBuffer ++ data := by
  simp only [TcpConnection.sendInLoop]
  split
  next direct =>
    have empty := List.eq_nil_of_length_eq_zero direct.2
    rw [if_neg direct.1]
    split
    next => simp [empty]
    next whole =>
      have all : data.take (write.wroted data.length) = data :=
        List.take_of_length_le (Nat.le_of_not_lt whole)
      simp [empty, all]
  next =>
    split
    next => split <;> simp
    next none =>
      have nothing := List.eq_nil_of_length_eq_zero (Nat.eq_zero_of_not_pos none)
      simp [nothing]

theorem step_ran {call : SendCall} {write : WriteResult} (ran : s.ran event = some (call, write)) :
    call ∈ s.pendingFunctors ∧
      (s.step event).conn = s.conn.sendInLoop (bytesAt s.memory call.data call.len) write := by
  cases event with
  | functor result =>
    cases pending : s.pendingFunctors with
    | nil => simp [SendingThreads.ran, pending] at ran
    | cons first rest =>
      simp only [SendingThreads.ran, pending, List.head?_cons, Option.map_some, Option.some.injEq,
        Prod.mk.injEq] at ran
      obtain ⟨rfl, rfl⟩ := ran
      exact ⟨List.mem_cons_self .., by simp only [SendingThreads.step, pending]⟩
  | send data len => cases ran
  | queueInLoop caller => cases ran
  | store address byte => cases ran
  | io step => cases ran

theorem sendsAsCalled_iff (s : SendingThreads) (event : Event) :
    s.SendsAsCalled event ↔ s.FindsMessage event := by
  constructor
  · intro sends call write ran
    have written := (sends call write ran).1
    rw [(step_ran ran).2, sendInLoop_whole] at written
    exact List.append_cancel_left written
  · intro finds call write ran
    rw [(step_ran ran).2, finds call write ran]
    exact ⟨sendInLoop_whole s.conn call.message write, rfl⟩

theorem Intact.findsMessage (intact : s.Intact) (event : Event) : s.FindsMessage event :=
  fun call _ ran => intact call (List.mem_append_right _ (step_ran ran).1)

/-- A send from another thread puts the bytes of its call on the wire exactly when its functor
finds them in memory, as it does where the message is left alone until then. -/
theorem sendsAsCalled_exact (conn : TcpConnection) (memory : Nat → Byte) (events : List Event) :
    (Along step SendsAsCalled { conn, memory } events ↔
      Along step FindsMessage { conn, memory } events) ∧
    (Along step KeepsMessages { conn, memory } events →
      Along step SendsAsCalled { conn, memory } events) := by
  constructor
  · apply along_iff_of_exact fun _ _ => True
    · trivial
    · exact fun _ _ _ _ _ => trivial
    · exact fun s event _ _ => sendsAsCalled_iff s event
  · intro keeps
    apply keeps.imp_of_invariant Intact
    · intro call member
      cases member
    · exact fun _ _ intact keeps => intact.step keeps
    · exact fun s event intact _ => (sendsAsCalled_iff s event).mpr (intact.findsMessage event)

/-- The memory is used again once the functor has run. -/
theorem sendsAsCalled_reused :
    Along step SendsAsCalled { conn := .established, memory := fun _ => 1 }
      [.send 0 2, .queueInLoop 0, .store 2 9, .functor (.accepted 1), .store 0 9] := by
  apply (sendsAsCalled_exact .established (fun _ => 1) _).2
  simp [Along, KeepsMessages, step, TcpConnection.established, TcpConnection.connectionEstablish]

/-- A thread sends a byte and uses its memory for something else: the other byte is written. -/
theorem sendsAsCalled_fails :
    ¬ Along step SendsAsCalled { conn := .established, memory := fun _ => 1 }
      [.send 0 1, .queueInLoop 0, .store 0 2, .functor (.accepted 1)] := by
  intro along
  obtain ⟨-, -, -, last, -⟩ := along
  have bytes := (last ⟨0, 1, [1]⟩ (.accepted 1) (by decide)).1
  revert bytes
  decide

end SendingThreads

end RabbitServer.Net
