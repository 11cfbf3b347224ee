import Mathlib.Data.Finset.Basic

/-! `net/Channel.cpp` and the two operations of `net/Poller.cpp` on a channel. A mask
of epoll events is the set of its flags. -/

namespace RabbitServer.Net

inductive EpollFlag where
  | EPOLLIN | EPOLLPRI | EPOLLOUT | EPOLLERR | EPOLLHUP | EPOLLRDHUP
  deriving DecidableEq

abbrev Events := Finset EpollFlag

inductive ChannelIndex where
  | kNew | kAdded
  deriving DecidableEq

/-- `interest` is the kernel's entry for the descriptor in the epoll instance. Every
change of `events_` is followed by `update()`, so it follows the channel's own view. -/
structure Channel where
  index : ChannelIndex := .kNew
  events : Events := ∅
  writing : Bool := false
  interest : Option Events := none
  tracked : interest = if index = .kAdded then some events else none := by rfl

/-- `epoll_ctl`: an entry is added only where there is none, modified only where there is one. -/
inductive EpollOperation where
  | add | mod | del

def epollCtl (interest : Option Events) (operation : EpollOperation) (events : Events) :
    Option Events :=
  match operation, interest with
  | .add, none => some events
  | .add, some present => some present
  | .mod, none => none
  | .mod, some _ => some events
  | .del, _ => none

namespace Channel

def readEvent : Events := {.EPOLLIN, .EPOLLPRI}

def writeEvent : Events := {.EPOLLOUT}

/-- `events_ = events`, then `update()`, which is `Poller::upDateChannel`. -/
def update (c : Channel) (events : Events) : Channel where
  index := .kAdded
  events
  writing := c.writing
  interest :=
    match c.index with
    | .kNew => epollCtl c.interest .add events
    | .kAdded => epollCtl c.interest .mod events
  tracked := by
    rw [c.tracked]
    cases c.index <;> rfl

/-- `Poller::removeChannel` -/
def removeChannel (c : Channel) : Channel :=
  match c.index with
  | .kNew => c
  | .kAdded =>
    { c with
      index := .kNew
      interest := epollCtl c.interest .del c.events
      tracked := rfl }

def enableReading (c : Channel) : Channel := c.update (c.events ∪ readEvent)

def enableWriting (c : Channel) : Channel :=
  { c.update (c.events ∪ writeEvent) with writing := true }

def disableWriting (c : Channel) : Channel :=
  { c.update (c.events \ writeEvent) with writing := false }

def disableReading (c : Channel) : Channel := c.update (c.events \ readEvent)

def disableAll (c : Channel) : Channel := { c.update ∅ with writing := false }

def remove (c : Channel) : Channel := c.disableAll.removeChannel

end Channel

/-- The callbacks a channel can be asked to run. -/
inductive ChannelCallback where
  | errorCallback | hupCallback | readCallback | writeCallback
  deriving DecidableEq

/-- `Channel::handleEventWithGuard`: the callbacks it runs, in order. -/
def handleEventWithGuard (revents : Events) : List ChannelCallback :=
  (if .EPOLLERR ∈ revents then [.errorCallback] else []) ++
  (if .EPOLLHUP ∈ revents then [.hupCallback]
    else if .EPOLLIN ∈ revents ∨ .EPOLLPRI ∈ revents ∨ .EPOLLRDHUP ∈ revents then [.readCallback]
    else []) ++
  (if .EPOLLOUT ∈ revents then [.writeCallback] else [])

namespace Channel

/-- What `epoll_wait` can report for a channel: events in its entry, and errors and
hang-ups whatever the entry says. -/
def Reports (c : Channel) (revents : Events) : Prop :=
  revents ≠ ∅ ∧ ∃ interest, c.interest = some interest ∧
    revents ⊆ interest ∪ {.EPOLLERR, .EPOLLHUP}

instance (c : Channel) (revents : Events) : Decidable (c.Reports revents) :=
  match same : c.interest with
  | none => isFalse fun reports => by
      obtain ⟨_, interest, present, _⟩ := reports
      rw [same] at present
      cases present
  | some interest =>
    decidable_of_iff (revents ≠ ∅ ∧ revents ⊆ interest ∪ {.EPOLLERR, .EPOLLHUP}) (by
      simp [Reports, same])

variable (c : Channel)

@[simp] theorem removeChannel_events : c.removeChannel.events = c.events := by
  unfold removeChannel
  split <;> rfl

@[simp] theorem removeChannel_writing : c.removeChannel.writing = c.writing := by
  unfold removeChannel
  split <;> rfl

@[simp] theorem enableWriting_writing : c.enableWriting.writing = true := rfl

@[simp] theorem disableWriting_writing : c.disableWriting.writing = false := rfl

@[simp] theorem remove_writing : c.remove.writing = false := removeChannel_writing c.disableAll

end Channel

end RabbitServer.Net
