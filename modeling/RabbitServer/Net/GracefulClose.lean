import RabbitServer.Net.CallingThreads
import RabbitServer.Net.HandedOver

/-! A close that the server asks for: it is carried out with nothing left to write, and
everything sent before it is on the wire. -/

namespace RabbitServer.Net
open Library.Runs

/-- `before` holds, for each waiting functor, the messages whose `sendInLoop` was run or
queued when the functor was queued; `due` those of the functor that started the close. -/
structure Ledger where
  handed : List Bytes := []
  before : List (List Bytes) := []
  due : Option (List Bytes) := none

/-- The messages queued for `sendInLoop`. -/
def queuedMessages (functors : List LoopFunctor) : List Bytes :=
  functors.flatMap LoopFunctor.messages

/-- Each waiting functor comes after the messages written down for it. -/
def Covered (handed : List Bytes) : List LoopFunctor → List (List Bytes) → Prop
  | [], [] => True
  | f :: functors, messages :: before =>
    List.Sublist messages handed ∧ Covered (handed ++ f.messages) functors before
  | _, _ => False

theorem Covered.mono {handed more : List Bytes} {functors : List LoopFunctor}
    {before : List (List Bytes)} (covered : Covered handed functors before)
    (sub : List.Sublist handed more) : Covered more functors before := by
  induction functors generalizing handed more before with
  | nil =>
    cases before with
    | nil => exact trivial
    | cons messages before => exact covered.elim
  | cons f functors ih =>
    cases before with
    | nil => exact covered.elim
    | cons messages before =>
      exact ⟨covered.1.trans sub, ih covered.2 (sub.append (List.Sublist.refl _))⟩

/-- Functors queued behind come after all that is handed over or queued by then. -/
theorem Covered.append {handed : List Bytes} {functors : List LoopFunctor}
    {before : List (List Bytes)} (covered : Covered handed functors before)
    (queued : List LoopFunctor) :
    Covered handed (functors ++ queued)
      (before ++ queued.map fun _ => handed ++ queuedMessages functors) := by
  induction functors generalizing handed before with
  | nil =>
    cases before with
    | cons messages before => exact covered.elim
    | nil =>
      simp only [List.nil_append, queuedMessages, List.flatMap_nil, List.append_nil]
      have self : ∀ more, List.Sublist handed more →
          Covered more queued (queued.map fun _ => handed) := by
        induction queued with
        | nil => exact fun _ _ => trivial
        | cons f queued ih =>
          intro more sub
          exact ⟨sub, ih _ (sub.trans (List.sublist_append_left _ _))⟩
      exact self handed (List.Sublist.refl _)
  | cons f functors ih =>
    cases before with
    | nil => exact covered.elim
    | cons messages before =>
      have tail := ih covered.2
      rw [List.append_assoc] at tail
      exact ⟨covered.1, tail⟩

namespace TcpConnection
variable {conn : TcpConnection} {sent : Bytes}

/-- The close is started by the functor that finds the connection open. -/
def startsClose (conn : TcpConnection) (f : LoopFunctor) : Bool :=
  f = .closeConnectionInLoop ∧ (conn.state = .kConnected ∨ conn.state = .kConnecting)

theorem handleClose_outBuffer : conn.handleClose.1.outBuffer = conn.outBuffer := by
  unfold handleClose
  split <;> rfl

theorem OutputExact.closeConnectionInLoop_drained (exactly : conn.OutputExact sent)
    (closes : conn.closeConnectionInLoop.2 = some .closeCallback) :
    conn.startsClose .closeConnectionInLoop = true ∧
      conn.closeConnectionInLoop.1.outBuffer = [] := by
  unfold TcpConnection.closeConnectionInLoop at closes ⊢
  split at closes
  next open_ =>
    refine ⟨decide_eq_true ⟨rfl, open_⟩, ?_⟩
    rw [if_pos open_]
    split at closes
    next => cases closes
    next idle =>
      -- the flag is clear, so nothing is buffered
      rw [if_neg idle, handleClose_outBuffer]
      by_contra held
      exact idle ((exactly.backlog (Or.inl (open_.resolve_right exactly.established))).mpr held)
  next => cases closes

theorem handleWrite_drained {write : WriteResult}
    (closes : (conn.handleWrite write).2 = some .closeCallback) :
    conn.state = .kDisconnecting ∧ (conn.handleWrite write).1.outBuffer = [] := by
  simp only [TcpConnection.handleWrite] at closes ⊢
  split_ifs at closes ⊢
  next drained disconnecting =>
    refine ⟨disconnecting, ?_⟩
    rw [handleClose_outBuffer]
    exact List.eq_nil_of_length_eq_zero drained

/-- A callback of the channel leaves the state as it is, or disconnects. -/
theorem handleEvent_state (conn : TcpConnection) (callback : ChannelCallback) (read : Buffer.Readv)
    (write : WriteResult) :
    (conn.handleEvent callback read write).1.state = conn.state ∨
      (conn.handleEvent callback read write).1.state = .kDisconnected := by
  have closed : ∀ conn : TcpConnection, conn.handleClose.1.state = conn.state ∨
      conn.handleClose.1.state = .kDisconnected := by
    intro conn
    unfold TcpConnection.handleClose
    split
    · exact Or.inr rfl
    · exact Or.inl rfl
  cases callback with
  | errorCallback => exact Or.inl rfl
  | hupCallback =>
    simp only [TcpConnection.handleEvent, handleHup, TcpConnection.connectionDestroyed]
    split
    · exact Or.inr rfl
    · exact Or.inl rfl
  | readCallback =>
    cases read with
    | failed errno => exact Or.inl rfl
    | delivered data =>
      simp only [TcpConnection.handleEvent, TcpConnection.handleRead]
      split
      · exact Or.inl rfl
      · exact closed conn
  | writeCallback =>
    simp only [TcpConnection.handleEvent, TcpConnection.handleWrite]
    split_ifs
    · exact closed _
    all_goals exact Or.inl rfl

end TcpConnection

namespace CallingThreads
variable {Context Input Halt : Type}

/-- What the ledger makes of a step. In the loop thread only `closeConnectionInLoop` and
`connectionDestroyed` are queued, so no message is queued together with a functor. -/
def recordLedger (app : App Context Input Halt) (s : CallingThreads Context Halt)
    (event : Event Input) (ledger : Ledger) : Ledger :=
  let after := (step app s event).io
  match event with
  | .io own =>
    let handed := ledger.handed ++ s.io.handed app own
    let left := s.io.left own
    let queued := (after.waiting.drop left.length).map fun _ => handed ++ queuedMessages left
    match s.io.functorRun own with
    | some (f, _) => {
        handed
        before := ledger.before.tail ++ queued
        due := if s.io.conn.startsClose f then ledger.before.head? else ledger.due }
    | none => { ledger with handed, before := ledger.before ++ queued }
  | _ => { ledger with
      before := ledger.before ++ (after.waiting.drop s.io.waiting.length).map fun _ =>
        ledger.handed ++ queuedMessages s.io.waiting }

/-- The close callback is made in this step, and not by a read. -/
def ClosesByItself (app : App Context Input Halt) (s : CallingThreads Context Halt)
    (event : Event Input) : Prop :=
  s.io.callbacks.count .closeCallback < (step app s event).io.callbacks.count .closeCallback ∧
    ∀ rest, s.io.turn ≠ .dispatching (.readCallback :: rest)

/-- Where the server's own close is carried out, nothing is left to write, and all that was
run or queued before the functor that started it was queued is on the wire. -/
def Graceful (app : App Context Input Halt) (s : CallingThreads Context Halt × Ledger)
    (event : Event Input) : Prop :=
  let after := recorded (step app) (recordLedger app) s event
  ClosesByItself app s.1 event →
    after.1.io.conn.outBuffer = [] ∧
      after.1.io.conn.written = after.2.handed.flatten ∧
      ∃ due, after.2.due = some due ∧ List.Sublist due after.2.handed

structure Ledgered (s : CallingThreads Context Halt × Ledger) : Prop where
  living : s.1.Living
  exactly : s.1.io.conn.OutputExact s.2.handed.flatten
  covered : Covered s.2.handed s.1.io.waiting s.2.before
  started : s.1.io.conn.state = .kDisconnecting → s.2.due.isSome = true
  due : ∀ due, s.2.due = some due → List.Sublist due s.2.handed

section
variable {app : App Context Input Halt} {s : CallingThreads Context Halt × Ledger}
  {event : Event Input}

/-- The connection starts to close only by the functor that does so. -/
theorem disconnecting_started {s : ConnectionLoop Context Halt} {own : ConnectionLoop.Event Input}
    (before : s.conn.state ≠ .kDisconnecting)
    (after : (s.step app own).conn.state = .kDisconnecting) :
    ∃ f write, s.functorRun own = some (f, write) ∧ s.conn.startsClose f = true := by
  cases ran : s.functorRun own with
  | some run =>
    obtain ⟨f, write⟩ := run
    obtain ⟨toRun, -, step⟩ := ConnectionLoop.step_ran app ran
    rw [step] at after
    refine ⟨f, write, rfl, ?_⟩
    cases f with
    | closeConnectionInLoop =>
      simp only [ConnectionLoop.ended, TcpConnection.functor,
        TcpConnection.closeConnectionInLoop] at after
      split at after
      next open_ => exact decide_eq_true ⟨rfl, open_⟩
      next => exact absurd after before
    | sendInLoop data => exact absurd ((s.conn.sendInLoop_state data write).symm.trans after) before
    | connectionDestroyed =>
      simp only [ConnectionLoop.ended, TcpConnection.functor,
        TcpConnection.connectionDestroyed] at after
      split at after
      · cases after
      · exact absurd after before
  | none =>
    exfalso
    have running : s.halted = none := by
      cases halted : s.halted with
      | none => rfl
      | some halt =>
        rw [ConnectionLoop.step_halted halted] at after
        exact absurd after before
    have moves := ConnectionLoop.step_moves app s own
    generalize s.step app own = reached at moves after
    cases moves with
    | @handleEvent callback rest running turn read input writes =>
      rw [ConnectionLoop.handleEvent_state] at after
      rcases s.conn.handleEvent_state callback read (writes.headD (.accepted 0)) with same | gone
      · exact before (same.symm.trans after)
      · rw [gone] at after
        cases after
    | functor turn write => simp [ConnectionLoop.functorRun, running, turn] at ran
    | call inLoopThread c write =>
      exact before ((s.conn.call_state inLoopThread c write).symm.trans after)
    | _ => exact before after

theorem Ledgered.step (app : App Context Input Halt) (ledgered : Ledgered s)
    (event : Event Input) :
    Ledgered (recorded (step app) (recordLedger app) s event) := by
  have living : Living (CallingThreads.step app s.1 event) := ledgered.living.step event
  rcases step_io app s.1 event with ⟨own, rfl, io⟩ | ⟨other, queued, io⟩
  · obtain ⟨queued, waiting, -⟩ := ConnectionLoop.step_waiting app s.1.io own
    have exactly := ConnectionLoop.step_exact app ledgered.exactly own
    rw [← List.flatten_append] at exactly
    have appended : List.Sublist s.2.handed (s.2.handed ++ s.1.io.handed app own) :=
      List.sublist_append_left _ _
    cases ran : s.1.io.functorRun own with
    | some run =>
      obtain ⟨f, write⟩ := run
      have covered := ledgered.covered
      have handed := ConnectionLoop.handed_ran app ran
      rw [ConnectionLoop.waiting_ran ran] at covered
      cases entries : s.2.before with
      | nil =>
        rw [entries] at covered
        exact covered.elim
      | cons messages before =>
        rw [entries] at covered
        have after : recordLedger app s.1 (.io own) s.2 = {
            handed := s.2.handed ++ s.1.io.handed app own
            before := before ++ queued.map fun _ =>
              s.2.handed ++ s.1.io.handed app own ++ queuedMessages (s.1.io.left own)
            due := if s.1.io.conn.startsClose f then some messages else s.2.due } := by
          simp only [recordLedger, ran, io, waiting, entries, List.drop_left]
          rfl
        rw [recorded, after]
        exact {
          living
          exactly
          covered := by
            simp only [io, waiting]
            rw [handed]
            exact covered.2.append queued
          started := by
            intro disconnecting
            simp only
            split
            next => rfl
            next other =>
              apply ledgered.started
              by_contra before
              obtain ⟨f', write', same, starts⟩ := disconnecting_started before disconnecting
              rw [ran] at same
              cases same
              exact other starts
          due := by
            intro due same
            simp only at same
            split at same
            · cases same
              exact covered.1.trans appended
            · exact (ledgered.due due same).trans appended }
    | none =>
      have left : s.1.io.left own = s.1.io.waiting := by
        rw [ConnectionLoop.left, ran]
        rfl
      have after : recordLedger app s.1 (.io own) s.2 = {
          handed := s.2.handed ++ s.1.io.handed app own
          before := s.2.before ++ queued.map fun _ =>
            s.2.handed ++ s.1.io.handed app own ++ queuedMessages s.1.io.waiting
          due := s.2.due } := by
        simp only [recordLedger, ran, io, waiting, left, List.drop_left]
      rw [recorded, after]
      exact {
        living
        exactly
        covered := by
          simp only [io, waiting, left]
          exact (ledgered.covered.mono appended).append queued
        started := by
          intro disconnecting
          apply ledgered.started
          by_contra before
          obtain ⟨f, write, same, -⟩ := disconnecting_started before disconnecting
          rw [ran] at same
          cases same
        due := fun due same => (ledgered.due due same).trans appended }
  · have waiting : (CallingThreads.step app s.1 event).io.waiting = s.1.io.waiting ++ queued := by
      rw [io]
      exact (List.append_assoc ..).symm
    have after : recordLedger app s.1 event s.2 = { s.2 with
        before := s.2.before ++ queued.map fun _ =>
          s.2.handed ++ queuedMessages s.1.io.waiting } := by
      cases event with
      | io own => exact absurd rfl (other own)
      | look c => simp only [recordLedger, waiting, List.drop_left]
      | queueInLoop caller => simp only [recordLedger, waiting, List.drop_left]
    rw [recorded, after]
    exact {
      living
      exactly := by
        simp only [io]
        exact ledgered.exactly
      covered := by
        simp only [waiting]
        exact ledgered.covered.append queued
      started := by
        simp only [io]
        exact ledgered.started
      due := ledgered.due }

/-- A callback that is made more often after a step is the one the step ends in. -/
theorem called_of_count_lt {callbacks : List ServerCallback} {called : Option ServerCallback}
    {callback : ServerCallback}
    (more : callbacks.count callback < (callbacks ++ called.toList).count callback) :
    called = some callback := by
  rw [List.count_append] at more
  have member : callback ∈ called.toList := List.count_pos_iff.mp (by omega)
  simpa using member

/-- What a step that closes by itself does: it drains the output, for a close that was
started before or is started by the functor it runs. -/
theorem Ledgered.drained (ledgered : Ledgered s) {own : ConnectionLoop.Event Input}
    (closes : ClosesByItself app s.1 (.io own)) :
    (s.1.io.step app own).conn.outBuffer = [] ∧
      (recordLedger app s.1 (.io own) s.2).due.isSome = true := by
  obtain ⟨more, unread⟩ := closes
  simp only [CallingThreads.step] at more
  cases ran : s.1.io.functorRun own with
  | some run =>
    obtain ⟨f, write⟩ := run
    obtain ⟨toRun, -, step⟩ := ConnectionLoop.step_ran app ran
    rw [step] at more
    have called := called_of_count_lt more
    cases f with
    | closeConnectionInLoop =>
      obtain ⟨starts, empty⟩ := ledgered.exactly.closeConnectionInLoop_drained called
      have covered := ledgered.covered
      rw [ConnectionLoop.waiting_ran ran] at covered
      rw [step]
      refine ⟨empty, ?_⟩
      simp only [recordLedger, ran, starts, if_true]
      cases entries : s.2.before with
      | nil =>
        rw [entries] at covered
        exact covered.elim
      | cons messages before => rfl
    | sendInLoop data => cases called
    | connectionDestroyed => cases called
  | none =>
    have due : (recordLedger app s.1 (.io own) s.2).due = s.2.due := by
      simp only [recordLedger, ran]
    rw [due]
    have running : s.1.io.halted = none := by
      cases halted : s.1.io.halted with
      | none => rfl
      | some halt =>
        rw [ConnectionLoop.step_halted halted] at more
        exact absurd more (Nat.lt_irrefl _)
    have moves := ConnectionLoop.step_moves app s.1.io own
    generalize s.1.io.step app own = after at moves more
    cases moves with
    | @handleEvent callback rest running turn read input writes =>
      simp only [ConnectionLoop.handleEvent] at more ⊢
      split at more
      next message =>
        obtain ⟨rfl, -⟩ := s.1.io.conn.handleEvent_message message
        exact absurd turn (unread rest)
      next quiet =>
        rw [if_neg quiet]
        have called := called_of_count_lt more
        cases callback with
        | errorCallback => cases called
        | hupCallback => cases called
        | readCallback => exact absurd turn (unread rest)
        | writeCallback =>
          obtain ⟨disconnecting, empty⟩ := TcpConnection.handleWrite_drained called
          exact ⟨empty, ledgered.started disconnecting⟩
    | functor turn write => simp [ConnectionLoop.functorRun, running, turn] at ran
    | _ => exact absurd more (Nat.lt_irrefl _)

theorem Ledgered.graceful (ledgered : Ledgered s) (event : Event Input) :
    Graceful app s event := by
  intro closes
  have after := ledgered.step app event
  rcases step_io app s.1 event with ⟨own, rfl, -⟩ | ⟨-, queued, io⟩
  · obtain ⟨empty, started⟩ := ledgered.drained closes
    have whole := after.exactly.whole
    simp only [recorded, CallingThreads.step] at whole
    rw [empty, List.append_nil] at whole
    obtain ⟨due, same⟩ := Option.isSome_iff_exists.mp started
    exact ⟨empty, whole, due, same, after.due due same⟩
  · have more := closes.1
    rw [io] at more
    exact absurd more (Nat.lt_irrefl _)

end

/-- Every close the server asks for is graceful. -/
theorem close_graceful (app : App Context Input Halt) (context : Context)
    (events : List (Event Input)) :
    Along (recorded (step app) (recordLedger app)) (Graceful app) (start context, {}) events := by
  apply along_of_invariant Ledgered
  · exact {
      living := start_living context
      exactly := TcpConnection.established_exact
      covered := trivial
      started := by
        intro state
        cases state
      due := by
        intro due same
        cases same }
  · exact fun _ event ledgered => ledgered.step app event
  · exact fun _ event ledgered => ledgered.graceful event

end CallingThreads

end RabbitServer.Net
