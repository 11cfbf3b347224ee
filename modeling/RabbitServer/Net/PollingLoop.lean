import Mathlib.Algebra.Group.Nat.Defs
import RabbitServer.Net.ChannelView

/-! `Poller::Poll` and `fillActiveChannels`: what `epoll_wait` finds, in the list `events_` that
grows when it has been filled, and the channels that a turn of the loop calls. -/

namespace RabbitServer.Net
open Library.Runs

def InitEventsNum : Nat := 255

/-- An `epoll_event` of zeroes has no channel; it is `none` in `events_`. `crashed` is where such
a one has been followed as a pointer. -/
structure PollingLoop (ChannelId : Type*) where
  poller : Poller ChannelId
  events_ : List (Option (EpollEvent ChannelId)) := List.replicate InitEventsNum none
  revents : ChannelId → EventMask := fun _ => .noEvent
  activeChannels : List ChannelId := []
  crashed : Bool := false

/-- What `epoll_wait` does: fail, or report some of the ready descriptors. `more` of them had no
room. -/
inductive EpollWait where
  | failed (errno : Int)
  | reported (found : List (Nat × EventMask)) (more : Nat)

/-- What the kernel stores for a descriptor: the mask it has found, and the `data` of its entry. -/
def InterestSet.event {ChannelId : Type*} (interest : InterestSet ChannelId)
    (found : Nat × EventMask) : Option (EpollEvent ChannelId) :=
  (interest found.1).map fun entry => { entry with events := found.2 }

/-- Each descriptor is reported once, for events of its entry, errors or a hang-up; and none is
left out where there is room. -/
structure InterestSet.CanReport {ChannelId : Type*} (interest : InterestSet ChannelId)
    (maxevents : Nat) (found : List (Nat × EventMask)) (more : Nat) : Prop where
  fits : found.length ≤ maxevents
  once : (found.map Prod.fst).Nodup
  present : ∀ ready ∈ found, ∃ entry, interest ready.1 = some entry ∧ ready.2.flags ≠ ∅ ∧
    ready.2.flags ⊆ entry.events.flags ∪ {.EPOLLERR, .EPOLLHUP}
  room : found.length < maxevents → more = 0

namespace PollingLoop
variable {ChannelId : Type*} [DecidableEq ChannelId] (s : PollingLoop ChannelId)

def fill : Option (EpollEvent ChannelId) → PollingLoop ChannelId
  | some event => { s with
      revents := Function.update s.revents event.ptr event.events
      activeChannels := s.activeChannels ++ [event.ptr] }
  | none => { s with crashed := true }

def fillActiveChannels (num : Nat) : PollingLoop ChannelId := (s.events_.take num).foldl fill s

/-- The kernel stores what it has found at the front of the list. -/
def stored (found : List (Nat × EventMask)) : PollingLoop ChannelId :=
  { s with events_ := found.map s.poller.interest.event ++ s.events_.drop found.length }

/-- Where the list is full its size is doubled, with zeroes behind what there is. -/
def Poll : EpollWait → PollingLoop ChannelId
  | .failed _ => s
  | .reported found _ =>
    let ret := found.length
    let s := (s.stored found).fillActiveChannels ret
    if s.events_.length = ret then
      { s with events_ := s.events_ ++ List.replicate ret none }
    else s

inductive Event (ChannelId : Type*) where
  | operate (id : ChannelId) (operation : ChannelOperation)
  | poll (result : EpollWait)

/-- `loop()` clears `activeChannels` before each `Poll`. -/
def step : Event ChannelId → PollingLoop ChannelId
  | .operate id operation => { s with poller := s.poller.operate id operation }
  | .poll result => Poll { s with activeChannels := [] } result

/-- All channels before the first operation. -/
def start (fd : ChannelId ↪ Nat) : PollingLoop ChannelId where
  poller := .start fd

/-- What an event does to a channel, if it is an operation. -/
def Event.operation : Event ChannelId → Option (ChannelId × ChannelOperation)
  | .operate id operation => some (id, operation)
  | .poll _ => none

/-- What `epoll_wait` returns in a run is what it can return there. -/
def Polls (s : PollingLoop ChannelId) : Event ChannelId → Prop
  | .poll (.reported found more) => s.poller.interest.CanReport s.events_.length found more
  | _ => True

section
variable {s : PollingLoop ChannelId}

theorem fill_poller (event : Option (EpollEvent ChannelId)) :
    (s.fill event).poller = s.poller ∧ (s.fill event).events_ = s.events_ := by
  cases event <;> exact ⟨rfl, rfl⟩

theorem foldl_fill_poller (events : List (Option (EpollEvent ChannelId))) :
    (events.foldl fill s).poller = s.poller ∧ (events.foldl fill s).events_ = s.events_ := by
  induction events generalizing s with
  | nil => exact ⟨rfl, rfl⟩
  | cons event rest ih =>
    obtain ⟨poller, events_⟩ := s.fill_poller event
    obtain ⟨laterPoller, laterEvents⟩ := ih (s := s.fill event)
    exact ⟨laterPoller.trans poller, laterEvents.trans events_⟩

/-- The channels of the events become active in their order, each with its mask. -/
theorem foldl_fill (events : List (EpollEvent ChannelId)) (once : (events.map (·.ptr)).Nodup) :
    let after := (events.map some).foldl fill s
    after.crashed = s.crashed ∧
      after.activeChannels = s.activeChannels ++ events.map (·.ptr) ∧
      (∀ event ∈ events, after.revents event.ptr = event.events) ∧
      ∀ id, id ∉ events.map (·.ptr) → after.revents id = s.revents id := by
  induction events generalizing s with
  | nil => exact ⟨rfl, (List.append_nil _).symm, nofun, fun _ _ => rfl⟩
  | cons event rest ih =>
    obtain ⟨new, once⟩ := List.nodup_cons.mp once
    obtain ⟨crashed, active, own, others⟩ := ih (s := s.fill (some event)) once
    refine ⟨crashed, ?_, ?_, ?_⟩
    · rw [List.map_cons, List.foldl_cons, active]
      exact List.append_assoc ..
    · intro other member
      rcases List.mem_cons.mp member with rfl | later
      · exact (others _ new).trans (Function.update_self ..)
      · exact own other later
    · intro id outside
      obtain ⟨different, later⟩ := not_or.mp (mt List.mem_cons.mpr outside)
      exact (others id later).trans (Function.update_of_ne different ..)

omit [DecidableEq ChannelId] in
theorem stored_length {found : List (Nat × EventMask)} (fits : found.length ≤ s.events_.length) :
    (s.stored found).events_.length = s.events_.length := by
  rw [stored, List.length_append, List.length_map, List.length_drop]
  omega

theorem Poll_poller (result : EpollWait) : (s.Poll result).poller = s.poller := by
  cases result with
  | failed errno => rfl
  | reported found more =>
    have kept := (foldl_fill_poller (s := s.stored found)
      ((s.stored found).events_.take found.length)).1
    simp only [Poll]
    split <;> exact kept

theorem Poll_length {found : List (Nat × EventMask)} (more : Nat)
    (fits : found.length ≤ s.events_.length) :
    (s.Poll (.reported found more)).events_.length =
      if s.events_.length = found.length then s.events_.length * 2 else s.events_.length := by
  have list := (foldl_fill_poller (s := s.stored found)
    ((s.stored found).events_.take found.length)).2
  simp only [Poll, fillActiveChannels, list, s.stored_length fits]
  split
  next full =>
    rw [List.length_append, s.stored_length fits, List.length_replicate]
    omega
  next => rw [list, s.stored_length fits]

omit [DecidableEq ChannelId] in
/-- The kernel's list, as the channels have it: each has its entry, and what was found for it. -/
theorem channels_of_reported {fd : ChannelId ↪ Nat} (agrees : s.poller.Agrees fd)
    {found : List (Nat × EventMask)} {more : Nat}
    (can : s.poller.interest.CanReport s.events_.length found more) :
    ∃ events : List (EpollEvent ChannelId),
      found = events.map (fun event => (fd event.ptr, event.events)) ∧
        found.map s.poller.interest.event = events.map some := by
  have own : ∀ ready ∈ found, ready ∈ Set.range fun event : EpollEvent ChannelId =>
      (fd event.ptr, event.events) := by
    intro ready member
    obtain ⟨entry, present, -⟩ := can.present ready member
    have known : ready.1 ∈ Set.range fd := by
      by_contra unknown
      rw [agrees.others _ unknown] at present
      cases present
    obtain ⟨id, same⟩ := known
    exact ⟨⟨ready.2, id⟩, Prod.ext same rfl⟩
  have lifted : found ∈ Set.range (List.map fun event : EpollEvent ChannelId =>
      (fd event.ptr, event.events)) := by
    rw [Set.range_list_map]
    exact own
  obtain ⟨events, rfl⟩ := lifted
  refine ⟨events, rfl, ?_⟩
  rw [List.map_map]
  apply List.map_congr_left
  intro event member
  obtain ⟨entry, present, -⟩ := can.present _ (List.mem_map_of_mem member)
  have own := agrees.entries event.ptr
  rw [present] at own
  split at own
  · cases own
    simp [InterestSet.event, present]
  · cases own

/-- A poll that reports: the channels of the descriptors become active, each with its mask. -/
theorem Poll_fills {fd : ChannelId ↪ Nat} (agrees : s.poller.Agrees fd)
    {found : List (Nat × EventMask)} {more : Nat}
    (can : s.poller.interest.CanReport s.events_.length found more) :
    let after := s.Poll (.reported found more)
    after.crashed = s.crashed ∧
      ∃ events : List (EpollEvent ChannelId),
        found = events.map (fun event => (fd event.ptr, event.events)) ∧
          after.activeChannels = s.activeChannels ++ events.map (·.ptr) ∧
          ∀ event ∈ events, after.revents event.ptr = event.events := by
  obtain ⟨events, same, stores⟩ := channels_of_reported agrees can
  have once : (events.map (·.ptr)).Nodup := by
    have descriptors := can.once
    rw [same, List.map_map] at descriptors
    apply List.Nodup.of_map fd
    rw [List.map_map]
    exact descriptors
  have front : (s.stored found).events_.take found.length = events.map some := by
    rw [stored, List.take_left' (List.length_map _), stores]
  obtain ⟨crashed, active, masks, -⟩ := foldl_fill (s := s.stored found) events once
  simp only [Poll, fillActiveChannels, front]
  split
  · exact ⟨crashed, events, same, active, masks⟩
  · exact ⟨crashed, events, same, active, masks⟩

end

/-- The poller is left to the operations on its channels. -/
theorem run_poller (s : PollingLoop ChannelId) (events : List (Event ChannelId)) :
    (run step s events).poller = run Poller.step s.poller (events.filterMap Event.operation) := by
  induction events generalizing s with
  | nil => rfl
  | cons event rest ih =>
    rw [run_cons, ih]
    cases event with
    | operate id operation => rfl
    | poll result =>
      rw [List.filterMap_cons_none rfl, step, Poll_poller]

theorem agrees_step {fd : ChannelId ↪ Nat} {s : PollingLoop ChannelId} (agrees : s.poller.Agrees fd)
    (event : Event ChannelId) : (s.step event).poller.Agrees fd := by
  cases event with
  | operate id operation => exact agrees.step (id, operation)
  | poll result =>
    rw [step, Poll_poller]
    exact agrees

/-- No zeroes are followed as a pointer. -/
theorem Polls.crashed {fd : ChannelId ↪ Nat} {s : PollingLoop ChannelId} {event : Event ChannelId}
    (polls : s.Polls event) (agrees : s.poller.Agrees fd) : (s.step event).crashed = s.crashed := by
  cases event with
  | operate id operation => rfl
  | poll result =>
    cases result with
    | failed errno => rfl
    | reported found more => exact (Poll_fills (s := { s with activeChannels := [] }) agrees polls).1

/-- In any run of operations and polls: a poll makes active exactly the channels whose descriptors
are reported, in that order, with the masks found for them, and a channel by itself, after its own
operations, can have that reported. -/
theorem poll_exact (fd : ChannelId ↪ Nat) (events : List (Event ChannelId))
    (polls : Along step Polls (start fd) events) {found : List (Nat × EventMask)} {more : Nat}
    (can : (run step (start fd) events).Polls (.poll (.reported found more))) :
    let after := (run step (start fd) events).step (.poll (.reported found more))
    after.crashed = false ∧ after.activeChannels.map fd = found.map Prod.fst ∧
      ∀ id ∈ after.activeChannels, (fd id, after.revents id) ∈ found ∧
        (run Channel.operate {} (ownEvents id (events.filterMap Event.operation))).Reports
          (after.revents id).flags := by
  have sound := polls.invariant (fun s => s.poller.Agrees fd ∧ s.crashed = false)
    ⟨Poller.start_agrees fd, rfl⟩ fun s event inv polls =>
      ⟨agrees_step inv.1 event, (polls.crashed inv.1).trans inv.2⟩
  have poller := run_poller (start fd) events
  generalize run step (start fd) events = s at can sound poller ⊢
  obtain ⟨agrees, uncrashed⟩ := sound
  obtain ⟨crashed, reported, same, active, masks⟩ :=
    Poll_fills (s := { s with activeChannels := [] }) agrees can
  rw [List.nil_append] at active
  refine ⟨crashed.trans uncrashed, ?_, ?_⟩
  · rw [step, active, same, List.map_map, List.map_map]
    rfl
  · intro id member
    rw [step, active] at member
    obtain ⟨event, inside, rfl⟩ := List.mem_map.mp member
    have mask : (s.step (.poll (.reported found more))).revents event.ptr = event.events :=
      masks event inside
    have ready : (fd event.ptr, event.events) ∈ found := by
      rw [same]
      exact List.mem_map_of_mem inside
    rw [mask]
    refine ⟨ready, ?_⟩
    obtain ⟨entry, present, some, within⟩ := can.present _ ready
    have shows := Poller.run_shows fd (events.filterMap Event.operation) event.ptr
    rw [show Poller.start fd = (start fd).poller from rfl, ← poller] at shows
    have own := shows.interest
    rw [agrees.fds, present] at own
    exact ⟨some, entry.events.flags, own.symm, within⟩

/-- Two channels, of which one wants to write. -/
def twoChannels : List (Event Nat) :=
  [.operate 3 .enableReading, .operate 5 .enableReading, .operate 5 .enableWriting]

def bothReady : List (Nat × EventMask) := [(5, .EPOLLOUT), (3, .EPOLLIN)]

theorem bothReady_can :
    (run step (start (.refl Nat)) twoChannels).Polls (.poll (.reported bothReady 0)) where
  fits := by
    change 2 ≤ (List.replicate InitEventsNum (none : Option (EpollEvent Nat))).length
    rw [List.length_replicate]
    decide
  once := by decide
  present := by
    intro ready member
    simp only [bothReady, List.mem_cons, List.not_mem_nil, or_false] at member
    rcases member with rfl | rfl
    · exact ⟨⟨.readEvent ||| .writeEvent, 5⟩, rfl, by decide, by decide⟩
    · exact ⟨⟨.readEvent, 3⟩, rfl, by decide, by decide⟩
  room := fun _ => rfl

theorem poll_exact_two :
    let after := (run step (start (.refl Nat)) twoChannels).step (.poll (.reported bothReady 0))
    after.crashed = false ∧ after.activeChannels.map id = bothReady.map Prod.fst ∧
      ∀ id ∈ after.activeChannels, (id, after.revents id) ∈ bothReady ∧
        (run Channel.operate {} (ownEvents id (twoChannels.filterMap Event.operation))).Reports
          (after.revents id).flags :=
  poll_exact (.refl Nat) twoChannels ⟨trivial, trivial, trivial, trivial⟩ bothReady_can

/-- What the polls of a run have come to: how many have filled the list, and how many have left
out a descriptor that was ready. -/
structure PollCount where
  full : Nat := 0
  short : Nat := 0

def recordPolls (s : PollingLoop ChannelId) (event : Event ChannelId) (count : PollCount) :
    PollCount :=
  match event with
  | .poll (.reported found more) => {
      full := if s.events_.length = found.length then count.full + 1 else count.full
      short := if more = 0 then count.short else count.short + 1 }
  | _ => count

/-- No more descriptors than that are ready. -/
def Event.ReadyAtMost (n : Nat) : Event ChannelId → Prop
  | .poll (.reported found more) => found.length + more ≤ n
  | _ => True

/-- The size tells how often the list has been filled, which is as often as ready descriptors
have been left out, or more. -/
structure Grown (k : Nat) (s : PollingLoop ChannelId × PollCount) : Prop where
  size : s.1.events_.length = InitEventsNum * 2 ^ s.2.full
  full : s.2.full ≤ k + 1
  short : s.2.short ≤ min s.2.full k

theorem Grown.step {k : Nat} {s : PollingLoop ChannelId × PollCount} (grown : Grown k s)
    {event : Event ChannelId} (polls : s.1.Polls event)
    (atMost : event.ReadyAtMost (InitEventsNum * 2 ^ k)) :
    Grown k (recorded PollingLoop.step recordPolls s event) := by
  cases event with
  | operate id operation => exact ⟨grown.size, grown.full, grown.short⟩
  | poll result =>
    cases result with
    | failed errno => exact ⟨grown.size, grown.full, grown.short⟩
    | reported found more =>
      obtain ⟨size, full, short⟩ := grown
      have length := Poll_length (s := { s.1 with activeChannels := [] }) more polls.fits
      have room := polls.room
      have fits := polls.fits
      have bound : found.length + more ≤ InitEventsNum * 2 ^ k := atMost
      have filled : s.1.events_.length = found.length → s.2.full ≤ k := by
        intro same
        have pow : 2 ^ s.2.full ≤ 2 ^ k := by
          apply Nat.le_of_mul_le_mul_left _ (show 0 < InitEventsNum by decide)
          omega
        exact (Nat.pow_le_pow_iff_right (by decide)).mp pow
      constructor
      · simp only [recorded, recordPolls, PollingLoop.step, length]
        split_ifs
        · rw [size, Nat.pow_succ, Nat.mul_assoc]
        · exact size
      · simp only [recorded, recordPolls]
        split_ifs with same
        · have := filled same
          omega
        · exact full
      · simp only [recorded, recordPolls]
        split_ifs with none same same
        · omega
        · exact short
        · -- the list was full, and too small for all that was ready
          have less : s.2.full < k := by
            have pow : 2 ^ s.2.full < 2 ^ k := by
              apply Nat.lt_of_mul_lt_mul_left (a := InitEventsNum)
              omega
            exact (Nat.pow_lt_pow_iff_right (by decide)).mp pow
          omega
        · omega

/-- Where no more than 255 * 2^k descriptors are ever ready at once, no more than k polls leave a
ready one out, and the list does not grow beyond the double of that. -/
theorem events_grow (fd : ChannelId ↪ Nat) (k : Nat) (events : List (Event ChannelId))
    (polls : Along (recorded step recordPolls)
      (fun s event => s.1.Polls event ∧ event.ReadyAtMost (InitEventsNum * 2 ^ k))
      (start fd, {}) events) :
    let s := run (recorded step recordPolls) (start fd, {}) events
    s.2.short ≤ k ∧ s.1.events_.length = InitEventsNum * 2 ^ s.2.full ∧ s.2.full ≤ k + 1 := by
  have grown := polls.invariant (Grown k)
    { size := List.length_replicate, full := Nat.zero_le _, short := Nat.zero_le _ }
    fun s event grown polls => grown.step polls.1 polls.2
  exact ⟨grown.short.trans (Nat.min_le_right ..), grown.size, grown.full⟩

theorem events_grow_two :
    let s := run (recorded step recordPolls) (start (.refl Nat), {})
      (twoChannels ++ [.poll (.reported bothReady 0)])
    s.2.short ≤ 0 ∧ s.1.events_.length = InitEventsNum * 2 ^ s.2.full ∧ s.2.full ≤ 0 + 1 := by
  apply events_grow
  exact ⟨⟨trivial, trivial⟩, ⟨trivial, trivial⟩, ⟨trivial, trivial⟩,
    ⟨bothReady_can, show 2 + 0 ≤ InitEventsNum * 2 ^ 0 by decide⟩, trivial⟩

end PollingLoop

end RabbitServer.Net
