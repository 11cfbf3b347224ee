import RabbitServer.Net.Poller

/-! What the channels of a loop hold of themselves, and what the kernel holds of them. -/

namespace RabbitServer.Net
open Library.Runs

namespace ChannelOperation
variable (c : PolledChannel) (operation : ChannelOperation)

theorem after_fd : (operation.after c).fd = c.fd := by
  cases operation <;> rfl

theorem after_index : (operation.after c).index = kNew ∨ (operation.after c).index = kAdded := by
  cases operation with
  | remove => exact Or.inl rfl
  | _ => exact Or.inr rfl

/-- The flag that is kept beside the mask follows it. -/
theorem after_writing {c : PolledChannel}
    (writing : c.writing = true ↔ c.events &&& .EPOLLOUT ≠ .noEvent) :
    (operation.after c).writing = true ↔
      (operation.after c).events &&& .EPOLLOUT ≠ .noEvent := by
  rw [EventMask.and_EPOLLOUT_ne_noEvent] at writing ⊢
  have out : EpollFlag.EPOLLOUT ∉ Channel.readEvent := by decide
  cases operation with
  | enableReading =>
    simp only [after, EventMask.flags_enable, EventMask.flags_readEvent, Finset.mem_union, out,
      or_false]
    exact writing
  | enableWriting =>
    simp [after, EventMask.flags_enable, EventMask.flags_writeEvent, Channel.writeEvent]
  | disableReading =>
    simp only [after, EventMask.flags_disable, EventMask.flags_readEvent, Finset.mem_sdiff, out,
      not_false_iff, and_true]
    exact writing
  | disableWriting =>
    simp [after, EventMask.flags_disable, EventMask.flags_writeEvent, Channel.writeEvent]
  | disableAll => simp [after, EventMask.flags_noEvent]
  | update => exact writing
  | remove => simp [after, EventMask.flags_noEvent]

end ChannelOperation

namespace Poller
variable {ChannelId : Type*} {fd : ChannelId ↪ Nat} {s : Poller ChannelId}

/-- No call of `epoll_ctl` has failed, a channel's descriptor has an entry exactly where its index
is `kAdded`, with the channel's own mask and the channel behind it, and there are no others. -/
structure Agrees (fd : ChannelId ↪ Nat) (s : Poller ChannelId) : Prop where
  succeeds : ∀ d ∈ s.did, d.Succeeds
  fds : ∀ id, (s.channels id).fd = fd id
  indexed : ∀ id, (s.channels id).index = kNew ∨ (s.channels id).index = kAdded
  entries : ∀ id, s.interest (fd id) =
    if (s.channels id).index = kAdded then some ⟨(s.channels id).events, id⟩ else none
  others : ∀ other, other ∉ Set.range fd → s.interest other = none
  writing : ∀ id, (s.channels id).writing = true ↔
    (s.channels id).events &&& .EPOLLOUT ≠ .noEvent

theorem start_agrees (fd : ChannelId ↪ Nat) : (start fd).Agrees fd where
  succeeds := nofun
  fds _ := rfl
  indexed _ := Or.inl rfl
  entries _ := rfl
  others _ _ := rfl
  writing _ := by simp [start, EventMask.noEvent]

theorem Agrees.tracked (agrees : s.Agrees fd) (id : ChannelId) : s.Tracked id := by
  have entry := agrees.entries id
  rw [← agrees.fds id] at entry
  rcases agrees.indexed id with new | added
  · rw [if_neg (by rw [new]; decide)] at entry
    exact Or.inl ⟨new, entry⟩
  · rw [if_pos added] at entry
    exact Or.inr ⟨added, _, entry⟩

theorem Agrees.after_fd (agrees : s.Agrees fd) (event : ChannelId × ChannelOperation) :
    (event.2.after (s.channels event.1)).fd = fd event.1 :=
  (event.2.after_fd _).trans (agrees.fds event.1)

variable [DecidableEq ChannelId]

/-- What an operation leaves as it was. -/
structure Keeps (fd : ChannelId ↪ Nat) (s : Poller ChannelId)
    (event : ChannelId × ChannelOperation) : Prop where
  entries : ∀ other, other ≠ event.1 → (s.step event).interest (fd other) = s.interest (fd other)
  channels : ∀ other, other ≠ event.1 → (s.step event).channels other = s.channels other

theorem Agrees.step_settle (agrees : s.Agrees fd) (event : ChannelId × ChannelOperation) :
    ∃ did, (∀ d ∈ did, d.Succeeds) ∧
      s.step event = s.settle event.1 (event.2.after (s.channels event.1)) did :=
  operate_settle (agrees.tracked event.1) event.2

theorem Agrees.step_own (agrees : s.Agrees fd) (event : ChannelId × ChannelOperation) :
    (s.step event).channels event.1 = event.2.after (s.channels event.1) := by
  obtain ⟨did, -, settled⟩ := agrees.step_settle event
  rw [settled]
  exact Function.update_self ..

theorem Agrees.step_entry (agrees : s.Agrees fd) (event : ChannelId × ChannelOperation) :
    (s.step event).interest (fd event.1) =
      (event.2.after (s.channels event.1)).entry event.1 := by
  obtain ⟨did, -, settled⟩ := agrees.step_settle event
  rw [settled, ← agrees.after_fd event]
  exact Function.update_self ..

/-- Distinct descriptors keep the channels apart. -/
theorem Agrees.keeps (agrees : s.Agrees fd) (event : ChannelId × ChannelOperation) :
    s.Keeps fd event := by
  obtain ⟨did, -, settled⟩ := agrees.step_settle event
  constructor
  · intro other different
    rw [settled]
    apply Function.update_of_ne
    rw [agrees.after_fd event]
    exact fun same => different (fd.injective same)
  · intro other different
    rw [settled]
    exact Function.update_of_ne different ..

/-- What holds of every channel with its entry holds after an operation, if it holds of the
channel that the operation was for. -/
theorem Agrees.step_each (agrees : s.Agrees fd) (event : ChannelId × ChannelOperation)
    (holds : ChannelId → PolledChannel → Option (EpollEvent ChannelId) → Prop)
    (before : ∀ id, holds id (s.channels id) (s.interest (fd id)))
    (own : holds event.1 (event.2.after (s.channels event.1))
      ((event.2.after (s.channels event.1)).entry event.1)) (id : ChannelId) :
    holds id ((s.step event).channels id) ((s.step event).interest (fd id)) := by
  by_cases this : id = event.1
  · subst this
    rw [agrees.step_own event, agrees.step_entry event]
    exact own
  · rw [(agrees.keeps event).channels id this, (agrees.keeps event).entries id this]
    exact before id

theorem Agrees.step (agrees : s.Agrees fd) (event : ChannelId × ChannelOperation) :
    (s.step event).Agrees fd where
  succeeds := by
    obtain ⟨did, succeed, settled⟩ := agrees.step_settle event
    intro d member
    rw [settled] at member
    exact (List.mem_append.mp member).elim (agrees.succeeds d) (succeed d)
  fds := agrees.step_each event (fun id c _ => c.fd = fd id) agrees.fds (agrees.after_fd event)
  indexed := agrees.step_each event (fun _ c _ => c.index = kNew ∨ c.index = kAdded)
    agrees.indexed (event.2.after_index _)
  entries := agrees.step_each event (fun id c entry => entry = c.entry id) agrees.entries rfl
  others := by
    obtain ⟨did, -, settled⟩ := agrees.step_settle event
    intro other outside
    have different : other ≠ (event.2.after (s.channels event.1)).fd := by
      rw [agrees.after_fd event]
      exact fun same => outside ⟨event.1, same.symm⟩
    rw [settled]
    exact (Function.update_of_ne different ..).trans (agrees.others other outside)
  writing := agrees.step_each event
    (fun _ c _ => c.writing = true ↔ c.events &&& .EPOLLOUT ≠ .noEvent)
    agrees.writing (event.2.after_writing (agrees.writing event.1))

theorem run_agrees (fd : ChannelId ↪ Nat) (events : List (ChannelId × ChannelOperation)) :
    (run step (start fd) events).Agrees fd :=
  run_invariant (Agrees fd) _ events (start_agrees fd) fun _ event agrees => agrees.step event

/-- After any operations on any channels of a loop, the channels and the kernel agree, and the
next operation leaves the other channels as they are. -/
theorem views_agree (fd : ChannelId ↪ Nat) (events : List (ChannelId × ChannelOperation)) :
    let s := run step (start fd) events
    s.Agrees fd ∧ ∀ event, s.Keeps fd event := by
  have agrees := run_agrees fd events
  exact ⟨agrees, agrees.keeps⟩

/-- A channel that was never added is added by `remove()`, and deleted again. -/
example : (run step (start (.refl Nat)) [(7, .remove)]).did =
    [.epollCtl .add 7 none, .epollCtl .del 7 none] := rfl

end Poller

end RabbitServer.Net
