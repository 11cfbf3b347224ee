import Mathlib.Logic.Function.Basic
import RabbitServer.Library.Runs
import RabbitServer.Net.EventMask

/-! `net/Poller.cpp` with all the channels of a loop, and the interest set that the kernel keeps
for the epoll instance. -/

namespace RabbitServer.Net
open Library.Runs

/-- `struct epoll_event`; `ptr` is its `data.ptr`. -/
structure EpollEvent (ChannelId : Type*) where
  events : EventMask
  ptr : ChannelId

inductive Errno where
  | EEXIST | ENOENT
  deriving DecidableEq

/-- The kernel's entries by descriptor. -/
abbrev InterestSet (ChannelId : Type*) := Nat → Option (EpollEvent ChannelId)

/-- What is there is not added, and what is not there is neither modified nor deleted. -/
def InterestSet.ctl {ChannelId : Type*} (interest : InterestSet ChannelId)
    (operation : EpollOperation) (fd : Nat) (event : EpollEvent ChannelId) :
    Except Errno (InterestSet ChannelId) :=
  match operation, interest fd with
  | .add, none => .ok (Function.update interest fd (some event))
  | .add, some _ => .error .EEXIST
  | .mod, some _ => .ok (Function.update interest fd (some event))
  | .mod, none => .error .ENOENT
  | .del, some _ => .ok (Function.update interest fd none)
  | .del, none => .error .ENOENT

def kNew : Int := 0

def kAdded : Int := 1

/-- What a channel keeps itself. -/
structure PolledChannel where
  fd : Nat
  index : Int := kNew
  events : EventMask := .noEvent
  writing : Bool := false

/-- What the poller does: a call of `epoll_ctl`, with its `errno` where it fails, and the
complaint about an index. -/
inductive PollerDid where
  | epollCtl (operation : EpollOperation) (fd : Nat) (failed : Option Errno)
  | perror

def PollerDid.Succeeds : PollerDid → Prop
  | .epollCtl _ _ failed => failed = none
  | .perror => False

structure Poller (ChannelId : Type*) where
  interest : InterestSet ChannelId := fun _ => none
  channels : ChannelId → PolledChannel
  did : List PollerDid := []

inductive ChannelOperation where
  | enableReading | enableWriting | disableReading | disableWriting | disableAll | update | remove
  deriving DecidableEq

namespace Poller
variable {ChannelId : Type*} [DecidableEq ChannelId] (s : Poller ChannelId) (id : ChannelId)

def modify (change : PolledChannel → PolledChannel) : Poller ChannelId :=
  { s with channels := Function.update s.channels id (change (s.channels id)) }

/-- What `epoll_ctl` returns is looked at by nobody. -/
def epollCtl (operation : EpollOperation) (fd : Nat) (event : EpollEvent ChannelId) :
    Poller ChannelId :=
  match s.interest.ctl operation fd event with
  | .ok interest => { s with interest, did := s.did ++ [.epollCtl operation fd none] }
  | .error errno => { s with did := s.did ++ [.epollCtl operation fd (some errno)] }

def upDateChannel : Poller ChannelId :=
  let channel := s.channels id
  let event := ⟨channel.events, id⟩
  if channel.index = kNew then
    (s.epollCtl .add channel.fd event).modify id fun c => { c with index := kAdded }
  else if channel.index = kAdded then s.epollCtl .mod channel.fd event
  else { s with did := s.did ++ [.perror] }

def removeChannel : Poller ChannelId :=
  let channel := s.channels id
  if channel.index = kNew then s
  else
    (s.epollCtl .del channel.fd ⟨channel.events, id⟩).modify id fun c => { c with index := kNew }

/-- `Channel::update` and the operations of `Channel` that call it -/
def update : Poller ChannelId := s.upDateChannel id

def enableReading : Poller ChannelId :=
  (s.modify id fun c => { c with events := c.events ||| .readEvent }).update id

def enableWriting : Poller ChannelId :=
  (s.modify id fun c => { c with writing := true, events := c.events ||| .writeEvent }).update id

def disableWriting : Poller ChannelId :=
  ((s.modify id fun c => { c with events := c.events &&& ~~~.writeEvent }).update id).modify id
    fun c => { c with writing := false }

def disableReading : Poller ChannelId :=
  (s.modify id fun c => { c with events := c.events &&& ~~~.readEvent }).update id

def disableAll : Poller ChannelId :=
  ((s.modify id fun c => { c with events := .noEvent }).update id).modify id
    fun c => { c with writing := false }

def remove : Poller ChannelId := (s.disableAll id).removeChannel id

def operate : ChannelOperation → Poller ChannelId
  | .enableReading => s.enableReading id
  | .enableWriting => s.enableWriting id
  | .disableReading => s.disableReading id
  | .disableWriting => s.disableWriting id
  | .disableAll => s.disableAll id
  | .update => s.update id
  | .remove => s.remove id

def step (s : Poller ChannelId) (event : ChannelId × ChannelOperation) : Poller ChannelId :=
  s.operate event.1 event.2

/-- All channels before the first operation. -/
def start (fd : ChannelId ↪ Nat) : Poller ChannelId where
  channels id := { fd := fd id }

end Poller

/-- The entry that a channel's own fields ask for. -/
def PolledChannel.entry {ChannelId : Type*} (c : PolledChannel) (id : ChannelId) :
    Option (EpollEvent ChannelId) :=
  if c.index = kAdded then some ⟨c.events, id⟩ else none

/-- What an operation comes to for its channel. -/
def ChannelOperation.after (c : PolledChannel) : ChannelOperation → PolledChannel
  | .enableReading => { c with events := c.events ||| .readEvent, index := kAdded }
  | .enableWriting =>
    { c with events := c.events ||| .writeEvent, index := kAdded, writing := true }
  | .disableReading => { c with events := c.events &&& ~~~.readEvent, index := kAdded }
  | .disableWriting =>
    { c with events := c.events &&& ~~~.writeEvent, index := kAdded, writing := false }
  | .disableAll => { c with events := .noEvent, index := kAdded, writing := false }
  | .update => { c with index := kAdded }
  | .remove => { c with events := .noEvent, index := kNew, writing := false }

namespace Poller
variable {ChannelId : Type*} [DecidableEq ChannelId] {s : Poller ChannelId} {id : ChannelId}

/-- The channel and its entry are replaced together. -/
def settle (s : Poller ChannelId) (id : ChannelId) (c : PolledChannel) (did : List PollerDid) :
    Poller ChannelId where
  interest := Function.update s.interest c.fd (c.entry id)
  channels := Function.update s.channels id c
  did := s.did ++ did

/-- The index tells whether the descriptor has an entry. -/
def Tracked (s : Poller ChannelId) (id : ChannelId) : Prop :=
  (s.channels id).index = kNew ∧ s.interest (s.channels id).fd = none ∨
    (s.channels id).index = kAdded ∧ ∃ event, s.interest (s.channels id).fd = some event

section
variable {c : PolledChannel} {did : List PollerDid} {change : PolledChannel → PolledChannel}

theorem modify_settle : (s.modify id change).settle id c did = s.settle id c did := by
  simp [settle, modify]

/-- What the entry does not depend on is changed behind it. -/
theorem settle_modify (fd : (change c).fd = c.fd) (entry : (change c).entry id = c.entry id) :
    (s.settle id c did).modify id change = s.settle id (change c) did := by
  simp [settle, modify, fd, entry]

theorem settle_settle {next : PolledChannel} (fd : next.fd = c.fd) (more : List PollerDid) :
    (s.settle id c did).settle id next more = s.settle id next (did ++ more) := by
  simp [settle, fd]

end

/-- Known to the kernel or not, the channel has its entry afterwards. -/
theorem upDateChannel_settle (tracked : s.Tracked id) :
    ∃ did, (∀ d ∈ did, d.Succeeds) ∧
      s.upDateChannel id = s.settle id { s.channels id with index := kAdded } did := by
  have different : kAdded ≠ kNew := by decide
  rcases tracked with ⟨new, absent⟩ | ⟨added, event, present⟩
  · refine ⟨[.epollCtl .add (s.channels id).fd none], List.forall_mem_singleton.mpr rfl, ?_⟩
    simp [upDateChannel, epollCtl, InterestSet.ctl, settle, modify, PolledChannel.entry, new,
      absent]
  · have same : { s.channels id with index := kAdded } = s.channels id := by rw [← added]
    refine ⟨[.epollCtl .mod (s.channels id).fd none], List.forall_mem_singleton.mpr rfl, ?_⟩
    simp [upDateChannel, epollCtl, InterestSet.ctl, settle, PolledChannel.entry, same, added,
      present, different]

theorem removeChannel_settle {event : EpollEvent ChannelId}
    (added : (s.channels id).index = kAdded)
    (present : s.interest (s.channels id).fd = some event) :
    s.removeChannel id =
      s.settle id { s.channels id with index := kNew }
        [.epollCtl .del (s.channels id).fd none] := by
  have different : kAdded ≠ kNew := by decide
  simp [removeChannel, epollCtl, InterestSet.ctl, settle, modify, PolledChannel.entry, added,
    present, different, different.symm]

/-- A change of what the channel keeps, and the `update()` behind it. -/
theorem update_modify (tracked : s.Tracked id) (change : PolledChannel → PolledChannel)
    (fd : (change (s.channels id)).fd = (s.channels id).fd)
    (index : (change (s.channels id)).index = (s.channels id).index) :
    ∃ did, (∀ d ∈ did, d.Succeeds) ∧
      (s.modify id change).update id =
        s.settle id { change (s.channels id) with index := kAdded } did := by
  have still : (s.modify id change).Tracked id := by
    simpa [Tracked, modify, fd, index] using tracked
  obtain ⟨did, succeed, settled⟩ := upDateChannel_settle still
  refine ⟨did, succeed, ?_⟩
  rw [update, settled, modify_settle]
  simp [modify]

theorem disableAll_settle (tracked : s.Tracked id) :
    ∃ did, (∀ d ∈ did, d.Succeeds) ∧
      s.disableAll id = s.settle id (ChannelOperation.disableAll.after (s.channels id)) did := by
  obtain ⟨did, succeed, settled⟩ :=
    update_modify tracked (fun c => { c with events := .noEvent }) rfl rfl
  refine ⟨did, succeed, ?_⟩
  rw [disableAll, settled, settle_modify rfl rfl]
  rfl

/-- A channel that was never added is added and deleted again. -/
theorem remove_settle (tracked : s.Tracked id) :
    ∃ did, (∀ d ∈ did, d.Succeeds) ∧
      s.remove id = s.settle id (ChannelOperation.remove.after (s.channels id)) did := by
  obtain ⟨did, succeed, settled⟩ := disableAll_settle tracked
  have channel : (s.disableAll id).channels id =
      ChannelOperation.disableAll.after (s.channels id) := by
    rw [settled]
    exact Function.update_self ..
  have present : (s.disableAll id).interest ((s.disableAll id).channels id).fd =
      some ⟨.noEvent, id⟩ := by
    rw [channel, settled]
    exact Function.update_self ..
  refine ⟨did ++ [.epollCtl .del (s.channels id).fd none], ?_, ?_⟩
  · intro d member
    rcases List.mem_append.mp member with before | last
    · exact succeed d before
    · rw [List.mem_singleton.mp last]
      rfl
  · have fd : (ChannelOperation.remove.after (s.channels id)).fd =
        (ChannelOperation.disableAll.after (s.channels id)).fd := rfl
    rw [remove, removeChannel_settle (by rw [channel]; rfl) present, channel, settled]
    exact settle_settle fd _

/-- Every operation replaces its channel and the entry, and no call of `epoll_ctl` fails. -/
theorem operate_settle (tracked : s.Tracked id) (operation : ChannelOperation) :
    ∃ did, (∀ d ∈ did, d.Succeeds) ∧
      s.operate id operation = s.settle id (operation.after (s.channels id)) did := by
  cases operation with
  | enableReading => exact update_modify tracked _ rfl rfl
  | enableWriting => exact update_modify tracked _ rfl rfl
  | disableReading => exact update_modify tracked _ rfl rfl
  | disableWriting =>
    obtain ⟨did, succeed, settled⟩ :=
      update_modify tracked (fun c => { c with events := c.events &&& ~~~.writeEvent }) rfl rfl
    refine ⟨did, succeed, ?_⟩
    rw [operate, disableWriting, settled, settle_modify rfl rfl]
    rfl
  | disableAll => exact disableAll_settle tracked
  | update => exact upDateChannel_settle tracked
  | remove => exact remove_settle tracked

end Poller

end RabbitServer.Net
