import RabbitServer.Library.Runs
import RabbitServer.Net.TcpServer

/-! `Acceptor::handleRead`, the `newConnetion` it calls, and the loop that call takes from the
thread pool. The descriptor is handed from the one to the other without a look at it. -/

namespace RabbitServer.Net
open Library.Runs

/-- What `accept` does: fail with an `errno`, or return a descriptor. -/
inductive Accept where
  | failed (errno : Int)
  | connected (fd : Nat)

/-- `Socket::acceptConnection` -/
def acceptConnection : Accept → Int
  | .failed _ => -1
  | .connected fd => fd

/-- A started `EventLoopThreadPool`. -/
structure EventLoopThreadPool (LoopId : Type) where
  loops : List LoopId
  next : Nat := 0
  next_lt : loops ≠ [] → next < loops.length

namespace EventLoopThreadPool
variable {LoopId : Type}

def started (loops : List LoopId) : EventLoopThreadPool LoopId where
  loops
  next_lt := List.length_pos_iff.mpr

def getNextLoop (pool : EventLoopThreadPool LoopId) (baseLoop : LoopId) :
    LoopId × EventLoopThreadPool LoopId :=
  if filled : pool.loops ≠ [] then
    have := pool.next_lt filled
    (pool.loops[pool.next], {
      loops := pool.loops
      next := if pool.next + 1 ≥ pool.loops.length then 0 else pool.next + 1
      next_lt := by
        intro _
        split <;> omega })
  else (baseLoop, pool)

end EventLoopThreadPool

/-- `fds` are the descriptors the connections were given, `accepted` those that `accept` has
returned so far. -/
structure AcceptingServer (LoopId : Type) where
  server : TcpServer LoopId := {}
  pool : EventLoopThreadPool LoopId
  fds : ConnectionId → Option Int := fun _ => none
  accepted : List Int := []

namespace AcceptingServer
variable {LoopId : Type} [DecidableEq LoopId] (base : LoopId)

inductive Event (LoopId : Type) where
  | handleRead (result : Accept)
  | server (event : TcpServer.Event LoopId)

def start (loops : List LoopId) : AcceptingServer LoopId where
  pool := .started loops

/-- The base loop makes the callbacks of its channels, that of the acceptor among them. -/
def accepting (s : AcceptingServer LoopId) : Bool :=
  match (s.server.loops base).turn with
  | .dispatching _ => !s.server.assertFailed
  | _ => false

def newConnetion (s : AcceptingServer LoopId) (fd : Int) : AcceptingServer LoopId :=
  let (ioLoop, pool) := s.pool.getNextLoop base
  { s with
    server := s.server.step base (.newConnetion ioLoop)
    pool
    fds := Function.update s.fds s.server.nextConnectionId (some fd) }

def handleRead (s : AcceptingServer LoopId) (result : Accept) : AcceptingServer LoopId :=
  let newFd := acceptConnection result
  let accepted :=
    match result with
    | .failed _ => s.accepted
    | .connected fd => s.accepted ++ [(fd : Int)]
  { s with accepted }.newConnetion base newFd

/-- The descriptor is one the kernel can know. -/
def isOpen (s : AcceptingServer LoopId) (id : ConnectionId) : Bool :=
  match s.fds id with
  | some fd => 0 ≤ fd
  | none => false

def writeFails : WriteResult → Bool
  | .failed _ => true
  | .accepted _ => false

/-- What the kernel can answer, and who can call: for the descriptor -1 no event is reported and
every write fails, and `newConnetion` is left to the acceptor. -/
def possible (s : AcceptingServer LoopId) : TcpServer.Event LoopId → Bool
  | .newConnetion _ => false
  | .poll _ active => active.all fun entry => s.isOpen entry.1
  | .functor loop write =>
    match (s.server.loops loop).turn with
    | .running (.connection id _ :: _) => s.isOpen id || writeFails write
    | _ => true
  | .call _ id _ write => s.isOpen id || writeFails write
  | _ => true

def step (s : AcceptingServer LoopId) : Event LoopId → AcceptingServer LoopId
  | .handleRead result => if s.accepting base then s.handleRead base result else s
  | .server event => if s.possible event then { s with server := s.server.step base event } else s

/-- The channel is in the epoll set of the loop. Without a descriptor `epoll_ctl` puts none
there, whatever the channel holds of it. -/
def Registered (s : AcceptingServer LoopId) (loop : LoopId) (id : ConnectionId) : Prop :=
  s.isOpen id = true ∧ ∃ served ∈ s.server.served id,
    served.loop = loop ∧ served.conn.channel.interest ≠ none

structure Unchanged (before after : AcceptingServer LoopId) : Prop where
  connections : after.server.connections = before.server.connections
  nextConnectionId : after.server.nextConnectionId = before.server.nextConnectionId
  next : after.pool.next = before.pool.next
  registered : ∀ loop id, after.Registered loop id ↔ before.Registered loop id

/-- Every connection in the map has a descriptor, and `accept` has returned it. -/
def Backed (s : AcceptingServer LoopId) : Prop :=
  ∀ id ∈ s.server.connections, ∃ fd ∈ s.accepted, s.fds id = some fd ∧ 0 ≤ fd

/-- A failed `accept` changes nothing, and whatever happens leaves the connections backed. -/
def Undisturbed (s : AcceptingServer LoopId) (event : Event LoopId) : Prop :=
  (∀ errno, event = .handleRead (.failed errno) → s.Unchanged (s.step base event)) ∧
    (s.step base event).Backed

/-- No `accept` fails here. -/
def Accepts (s : AcceptingServer LoopId) (event : Event LoopId) : Prop :=
  ∀ errno, event = .handleRead (.failed errno) → s.accepting base = false

end AcceptingServer

namespace TcpServer
variable {LoopId : Type} [DecidableEq LoopId] {base : LoopId} (s : TcpServer LoopId)

theorem removeConnectionInLoop_connections (id : ConnectionId) :
    (s.removeConnectionInLoop id).connections ⊆ s.connections := by
  unfold removeConnectionInLoop
  split_ifs
  · simp only
    split <;> exact Finset.erase_subset _ _
  · exact Finset.Subset.refl _

omit [DecidableEq LoopId] in
theorem removeConnectionFromMapInLoop_connections (id : ConnectionId) :
    (s.removeConnectionFromMapInLoop id).connections ⊆ s.connections := by
  unfold removeConnectionFromMapInLoop
  split_ifs
  · exact Finset.erase_subset _ _
  · exact Finset.Subset.refl _

theorem serve_connections (loop : LoopId) (id : ConnectionId) (callback : Option ServerCallback) :
    (s.serve base loop id callback).connections ⊆ s.connections := by
  unfold serve
  split
  · split_ifs
    · exact s.removeConnectionInLoop_connections id
    · exact Finset.Subset.refl _
  · split_ifs
    · exact s.removeConnectionFromMapInLoop_connections id
    · exact Finset.Subset.refl _
  · exact Finset.Subset.refl _

theorem handleEvent_connections (loop : LoopId) (id : ConnectionId) (callback : ChannelCallback)
    (read : Buffer.Readv) (left : Bytes) (calls : List ConnCall) (writes : List WriteResult) :
    (s.handleEvent base loop id callback read left calls writes).connections ⊆ s.connections := by
  unfold handleEvent
  split
  · exact Finset.Subset.refl _
  · simp only
    split_ifs
    · exact Finset.Subset.refl _
    · exact serve_connections _ loop id _

theorem functor_connections (loop : LoopId) (f : ServerFunctor) (write : WriteResult) :
    (s.functor base loop f write).connections ⊆ s.connections := by
  cases f with
  | connection id f =>
    simp only [functor]
    split
    · exact Finset.Subset.refl _
    · exact serve_connections _ loop id _
  | removeConnectionInLoop id => exact s.removeConnectionInLoop_connections id
  | removeConnectionFromMapInLoop id => exact s.removeConnectionFromMapInLoop_connections id

/-- Only `newConnetion` puts a connection into the map. -/
theorem step_connections (event : Event LoopId) (other : ∀ ioLoop, event ≠ .newConnetion ioLoop) :
    (s.step base event).connections ⊆ s.connections := by
  unfold step
  split_ifs
  · exact Finset.Subset.refl _
  cases event with
  | newConnetion ioLoop => exact absurd rfl (other ioLoop)
  | handleEvent loop read left calls writes =>
    simp only [next]
    split
    · exact handleEvent_connections _ loop _ _ read left calls writes
    · exact Finset.Subset.refl _
  | functor loop write =>
    simp only [next]
    split
    · exact functor_connections _ loop _ write
    · exact Finset.Subset.refl _
  | poll loop active =>
    simp only [next]
    split_ifs <;> exact Finset.Subset.refl _
  | doPendingFunctors loop =>
    simp only [next]
    split_ifs <;> exact Finset.Subset.refl _
  | iterate loop =>
    simp only [next]
    split_ifs <;> exact Finset.Subset.refl _
  | call thread id c write =>
    simp only [next]
    split
    · exact Finset.Subset.refl _
    · split_ifs <;> exact Finset.Subset.refl _

end TcpServer

namespace AcceptingServer
variable {LoopId : Type} [DecidableEq LoopId] {base : LoopId} {s : AcceptingServer LoopId}

/-- A connection enters the map under the next number, whatever `accept` has returned. -/
theorem handleRead_server (accepting : s.accepting base = true) (result : Accept) :
    (s.handleRead base result).server.connections =
        insert s.server.nextConnectionId s.server.connections ∧
      (s.handleRead base result).server.nextConnectionId = s.server.nextConnectionId + 1 := by
  unfold AcceptingServer.accepting at accepting
  split at accepting
  next rest turn =>
    have running : s.server.assertFailed = false := by simpa using accepting
    simp only [handleRead, newConnetion, TcpServer.step, running, TcpServer.next, turn]
    exact ⟨rfl, rfl⟩
  next => cases accepting

theorem handleRead_fds (result : Accept) (id : ConnectionId) :
    (s.handleRead base result).fds id =
      if id = s.server.nextConnectionId then some (acceptConnection result) else s.fds id :=
  Function.update_apply ..

theorem Backed.connected (backed : s.Backed) (accepting : s.accepting base = true) (fd : Nat) :
    (s.handleRead base (.connected fd)).Backed := by
  intro id member
  rw [(handleRead_server accepting _).1, Finset.mem_insert] at member
  rw [handleRead_fds]
  by_cases new : id = s.server.nextConnectionId
  · rw [if_pos new]
    exact ⟨fd, List.mem_append_right _ (List.mem_singleton_self _), rfl, Int.natCast_nonneg fd⟩
  · obtain ⟨known, returned, same, nonneg⟩ := backed id (member.resolve_left new)
    rw [if_neg new]
    exact ⟨known, List.mem_append_left _ returned, same, nonneg⟩

theorem Backed.server (backed : s.Backed) (event : TcpServer.Event LoopId) :
    (s.step base (.server event)).Backed := by
  unfold AcceptingServer.step
  simp only
  split_ifs with possible
  · intro id member
    apply backed id (TcpServer.step_connections _ event _ member)
    rintro ioLoop rfl
    cases possible
  · exact backed

/-- A failed `accept` disturbs the server wherever the acceptor is called at all. -/
theorem undisturbed_iff (backed : s.Backed) (event : Event LoopId) :
    s.Undisturbed base event ↔ s.Accepts base event := by
  constructor
  · intro undisturbed errno same
    by_contra accepting
    have kept := (undisturbed.1 errno same).nextConnectionId
    subst same
    rw [Bool.not_eq_false] at accepting
    rw [AcceptingServer.step, if_pos accepting] at kept
    rw [(handleRead_server accepting _).2] at kept
    exact Nat.succ_ne_self _ kept
  · intro accepts
    refine ⟨?_, ?_⟩
    · rintro errno rfl
      rw [AcceptingServer.step, if_neg (by rw [accepts errno rfl]; decide)]
      exact ⟨rfl, rfl, rfl, fun _ _ => Iff.rfl⟩
    · cases event with
      | server event => exact backed.server event
      | handleRead result =>
        unfold AcceptingServer.step
        simp only
        split_ifs with accepting
        · cases result with
          | failed errno => exact absurd accepting (by rw [accepts errno rfl]; decide)
          | connected fd => exact backed.connected accepting fd
        · exact backed

/-- Over the whole life of a server a failed `accept` changes nothing and every connection has
its descriptor from `accept`, exactly when no `accept` fails. -/
theorem undisturbed_iff_accepts (base : LoopId) (loops : List LoopId)
    (events : List (Event LoopId)) :
    Along (step base) (Undisturbed base) (start loops) events ↔
      Along (step base) (Accepts base) (start loops) events := by
  apply along_iff_of_exact fun s _ => s.Backed
  · exact nofun
  · exact fun s event _ backed accepts => ((undisturbed_iff backed event).mpr accepts).2
  · exact fun s event _ backed => undisturbed_iff backed event

/-- The process is out of descriptors: the connection #0 is made with the descriptor -1. -/
theorem undisturbed_accepts_fails :
    ¬ Along (step ()) (Undisturbed ()) (start [])
      [.server (.poll () []), .handleRead (.failed 24)] := by
  intro along
  have kept := (along.2.1.1 24 rfl).nextConnectionId
  revert kept
  decide +kernel

end AcceptingServer

end RabbitServer.Net
