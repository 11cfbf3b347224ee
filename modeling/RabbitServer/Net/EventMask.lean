import RabbitServer.Library.Masks
import RabbitServer.Net.Channel

/-! The masks of epoll events as the source has them, and the sets of flags they stand for. -/

namespace RabbitServer.Net
open Library

abbrev EventMask := BitVec 32

namespace EventMask

def EPOLLIN : EventMask := 0x001#32

def EPOLLPRI : EventMask := 0x002#32

def EPOLLOUT : EventMask := 0x004#32

/-- `Channel::NoEvent`, `ReadEvent` and `WriteEvent` -/
def noEvent : EventMask := 0#32

def readEvent : EventMask := EPOLLIN ||| EPOLLPRI

def writeEvent : EventMask := EPOLLOUT

end EventMask

instance : Fintype EpollFlag where
  elems := {.EPOLLIN, .EPOLLPRI, .EPOLLOUT, .EPOLLERR, .EPOLLHUP, .EPOLLRDHUP}
  complete flag := by cases flag <;> decide

namespace EpollFlag

/-- Where `sys/epoll.h` has the flag. -/
def bit : EpollFlag ↪ Fin 32 where
  toFun
    | .EPOLLIN => 0
    | .EPOLLPRI => 1
    | .EPOLLOUT => 2
    | .EPOLLERR => 3
    | .EPOLLHUP => 4
    | .EPOLLRDHUP => 13
  inj' := by
    intro flag other
    cases flag <;> cases other <;> decide

end EpollFlag

namespace EventMask
open Masks

def flags (mask : EventMask) : Events := Masks.flags EpollFlag.bit mask

/-- The header's constants have the one bit each. -/
theorem EPOLLIN_eq : EPOLLIN = ofFlag EpollFlag.bit .EPOLLIN := rfl

theorem EPOLLPRI_eq : EPOLLPRI = ofFlag EpollFlag.bit .EPOLLPRI := rfl

theorem EPOLLOUT_eq : EPOLLOUT = ofFlag EpollFlag.bit .EPOLLOUT := rfl

theorem flags_noEvent : flags noEvent = ∅ := flags_zero

theorem flags_readEvent : flags readEvent = Channel.readEvent := by
  rw [readEvent, EPOLLIN_eq, EPOLLPRI_eq, flags, flags_or, flags_ofFlag, flags_ofFlag]
  rfl

theorem flags_writeEvent : flags writeEvent = Channel.writeEvent := by
  rw [writeEvent, EPOLLOUT_eq, flags, flags_ofFlag]
  rfl

/-- How the source asks a mask for the flag of writing. -/
theorem and_EPOLLOUT_ne_noEvent {mask : EventMask} :
    mask &&& EPOLLOUT ≠ noEvent ↔ .EPOLLOUT ∈ mask.flags := by
  rw [EPOLLOUT_eq]
  exact and_ofFlag_ne_zero

variable (mask : EventMask)

theorem flags_enable (events : EventMask) :
    flags (mask ||| events) = mask.flags ∪ events.flags := flags_or

theorem flags_disable (events : EventMask) :
    flags (mask &&& ~~~events) = mask.flags \ events.flags := flags_clear

end EventMask

end RabbitServer.Net
