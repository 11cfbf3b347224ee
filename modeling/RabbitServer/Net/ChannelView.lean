import RabbitServer.Net.InterestSet

/-! A channel by itself, as the connections have it, against the poller with all channels. -/

namespace RabbitServer.Net
open Library.Runs

def ChannelIndex.value : ChannelIndex → Int
  | .kNew => RabbitServer.Net.kNew
  | .kAdded => RabbitServer.Net.kAdded

def Channel.operate (c : Channel) : ChannelOperation → Channel
  | .enableReading => c.enableReading
  | .enableWriting => c.enableWriting
  | .disableReading => c.disableReading
  | .disableWriting => c.disableWriting
  | .disableAll => c.disableAll
  | .update => c.update c.events
  | .remove => c.remove

/-- The channel's fields, with its mask as a set of flags. -/
structure PolledChannel.Shows (p : PolledChannel) (c : Channel) : Prop where
  index : p.index = c.index.value
  events : p.events.flags = c.events
  writing : p.writing = c.writing

theorem PolledChannel.Shows.operate {p : PolledChannel} {c : Channel} (shows : p.Shows c)
    (operation : ChannelOperation) : (operation.after p).Shows (c.operate operation) := by
  obtain ⟨-, events, writing⟩ := shows
  cases operation with
  | enableReading =>
    refine ⟨rfl, ?_, writing⟩
    rw [ChannelOperation.after, EventMask.flags_enable, EventMask.flags_readEvent, events]
    rfl
  | enableWriting =>
    refine ⟨rfl, ?_, rfl⟩
    rw [ChannelOperation.after, EventMask.flags_enable, EventMask.flags_writeEvent, events]
    rfl
  | disableReading =>
    refine ⟨rfl, ?_, writing⟩
    rw [ChannelOperation.after, EventMask.flags_disable, EventMask.flags_readEvent, events]
    rfl
  | disableWriting =>
    refine ⟨rfl, ?_, rfl⟩
    rw [ChannelOperation.after, EventMask.flags_disable, EventMask.flags_writeEvent, events]
    rfl
  | disableAll => exact ⟨rfl, EventMask.flags_noEvent, rfl⟩
  | update => exact ⟨rfl, events, writing⟩
  | remove => exact ⟨rfl, EventMask.flags_noEvent, rfl⟩

namespace Poller
variable {ChannelId : Type*} {fd : ChannelId ↪ Nat} {s : Poller ChannelId}

/-- The channel with the kernel's entry for its descriptor. -/
structure Shows (s : Poller ChannelId) (id : ChannelId) (c : Channel) : Prop where
  channel : (s.channels id).Shows c
  interest : (s.interest (s.channels id).fd).map (fun event => event.events.flags) = c.interest

/-- Where the kernel agrees with the channels, the fields tell the entry. -/
theorem Agrees.shows (agrees : s.Agrees fd) {id : ChannelId} {c : Channel}
    (channel : (s.channels id).Shows c) : s.Shows id c where
  channel
  interest := by
    rw [agrees.fds, agrees.entries, c.tracked, channel.index, ← channel.events]
    cases c.index <;> rfl

/-- In the poller every channel is, with its entry, the channel by itself after its own
operations, whatever the other channels of the loop have done. -/
theorem run_shows [DecidableEq ChannelId] (fd : ChannelId ↪ Nat)
    (events : List (ChannelId × ChannelOperation)) (id : ChannelId) :
    (run step (start fd) events).Shows id (run Channel.operate {} (ownEvents id events)) := by
  have seen : (run step (start fd) events).Agrees fd ∧
      ((run step (start fd) events).channels id).Shows
        (run Channel.operate {} (ownEvents id events)) := by
    apply run_own id fun (s : Poller ChannelId) (c : Channel) =>
      s.Agrees fd ∧ (s.channels id).Shows c
    · exact ⟨start_agrees fd, rfl, EventMask.flags_noEvent, rfl⟩
    · rintro s c operation ⟨agrees, channel⟩
      refine ⟨agrees.step (id, operation), ?_⟩
      rw [agrees.step_own (id, operation)]
      exact channel.operate operation
    · rintro s c event other ⟨agrees, channel⟩
      refine ⟨agrees.step event, ?_⟩
      rw [(agrees.keeps event).channels id other.symm]
      exact channel
  exact seen.1.shows seen.2

end Poller

end RabbitServer.Net
