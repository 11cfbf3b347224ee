import RabbitServer.Net.Destroyed
import RabbitServer.Net.LoopHomes

/-! Who owns a connection while its channel can still be called. A `Channel` is a part of its
connection, the poller and the list of active channels have plain pointers to it, and what keeps
the connection alive is the map, the functors bound to it, and the `guard` of `handleEvent`. -/

namespace RabbitServer.Net

theorem Channel.interest_eq_none_iff (c : Channel) : c.interest = none ↔ c.index = .kNew := by
  rw [c.tracked]
  cases c.index <;> simp

theorem Channel.Reports.added {c : Channel} {revents : Events} (reports : c.Reports revents) :
    c.index = .kAdded := by
  obtain ⟨-, interest, present, -⟩ := reports
  cases index : c.index with
  | kAdded => rfl
  | kNew =>
    rw [c.interest_eq_none_iff.mpr index] at present
    cases present

namespace TcpConnection
variable {conn : TcpConnection}

theorem Removed.index (removed : conn.Removed) : conn.channel.index = .kNew :=
  conn.channel.interest_eq_none_iff.mp removed.interest

section
variable (added : conn.channel.index = .kAdded)
include added

theorem handleClose_added : conn.handleClose.1.channel.index = .kAdded := by
  unfold handleClose
  split
  · rfl
  · exact added

theorem handleWrite_added (write : WriteResult) :
    (conn.handleWrite write).1.channel.index = .kAdded := by
  simp only [handleWrite]
  split_ifs
  · exact handleClose_added rfl
  · rfl
  all_goals exact added

/-- Only a hang-up takes the channel out of the poller. -/
theorem handleEvent_added {callback : ChannelCallback} (other : callback ≠ .hupCallback)
    (read : Buffer.Readv) (write : WriteResult) :
    (conn.handleEvent callback read write).1.channel.index = .kAdded := by
  cases callback with
  | errorCallback => exact added
  | hupCallback => exact absurd rfl other
  | writeCallback => exact handleWrite_added added write
  | readCallback =>
    cases read with
    | failed errno => exact added
    | delivered data =>
      simp only [handleEvent, handleRead]
      split
      · exact added
      · exact handleClose_added added

theorem sendInLoop_added (data : Bytes) (write : WriteResult) :
    (conn.sendInLoop data write).channel.index = .kAdded := by
  simp only [sendInLoop]
  split_ifs <;> first | exact added | rfl

theorem call_added (inLoopThread : Bool) (c : ConnCall) (write : WriteResult) :
    (conn.call inLoopThread c write).1.channel.index = .kAdded := by
  cases c with
  | send message =>
    simp only [call]
    split_ifs
    · exact sendInLoop_added added message write
    · exact added
    · exact added
  | closeConnection =>
    simp only [call]
    split_ifs <;> exact added

theorem calls_added (cs : List ConnCall) (writes : List WriteResult) :
    (conn.calls cs writes).1.channel.index = .kAdded := by
  induction cs generalizing conn writes with
  | nil => exact added
  | cons c rest ih => exact ih (call_added added true c _) _

end

theorem Outcome.established {hup : Prop} {result : TcpConnection × Option ServerCallback}
    (outcome : conn.Outcome hup result) : result.1.state ≠ .kConnecting := by
  unfold Outcome at outcome
  split at outcome
  · rw [outcome.2]
    decide
  · rw [outcome.2]
    decide
  · exact outcome.2

/-- A hang-up leaves the connection removed, and nothing else asks for the map's pointer only. -/
theorem handleEvent_hungUp (established : conn.state ≠ .kConnecting) {callback : ChannelCallback}
    {read : Buffer.Readv} {write : WriteResult}
    (hungUp : (conn.handleEvent callback read write).2 = some .removeConnectionFromMap) :
    (conn.handleEvent callback read write).1.Removed := by
  have outcome := handleEvent_outcome established callback read write
  unfold Outcome at outcome
  rw [hungUp] at outcome
  rw [outcome.1]
  exact connectionDestroyed_removed established

theorem Removed.closeConnectionInLoop (removed : conn.Removed) :
    conn.closeConnectionInLoop.1.Removed := by
  unfold TcpConnection.closeConnectionInLoop
  rw [if_neg (by rw [removed.state]; decide)]
  exact removed

end TcpConnection

/-- Runs of one element are not broken up, the one that goes on being `last`. -/
def Grouped {α : Type} [DecidableEq α] : Option α → List α → Prop
  | _, [] => True
  | last, a :: rest => (∀ other, last = some other → other ≠ a → other ∉ rest) ∧
      Grouped (some a) rest

section
variable {α : Type} [DecidableEq α]

theorem Grouped.replicate_append {a : α} {later : List α} (n : Nat) {last : Option α}
    (outside : ∀ other, last = some other → other ≠ a → other ∉ later)
    (now : Grouped last later) (after : Grouped (some a) later) :
    Grouped last (List.replicate n a ++ later) := by
  induction n generalizing last with
  | zero => exact now
  | succ n ih =>
    refine ⟨?_, ih (fun other same different => absurd (Option.some.inj same).symm different) after⟩
    intro other same different member
    rcases List.mem_append.mp member with here | there
    · exact different (List.eq_of_mem_replicate here)
    · exact outside other same different there

/-- Elements without repetition, each as often as one likes. -/
theorem grouped_flatMap {entries : List (α × Nat)} (distinct : (entries.map Prod.fst).Nodup)
    {last : Option α} (outside : ∀ other, last = some other → other ∉ entries.map Prod.fst) :
    Grouped last (entries.flatMap fun entry => List.replicate entry.2 entry.1) := by
  induction entries generalizing last with
  | nil => exact trivial
  | cons entry rest ih =>
    obtain ⟨a, n⟩ := entry
    rw [List.map_cons, List.nodup_cons] at distinct
    have within : ∀ other ∈ rest.flatMap (fun entry => List.replicate entry.2 entry.1),
        other ∈ rest.map Prod.fst := by
      intro other member
      obtain ⟨entry, inside, same⟩ := List.mem_flatMap.mp member
      exact List.mem_map.mpr ⟨entry, inside, (List.eq_of_mem_replicate same).symm⟩
    have apart : ∀ other, last = some other → other ∉ rest.map Prod.fst := by
      intro other same member
      exact outside other same (List.mem_cons_of_mem a member)
    rw [List.flatMap_cons]
    apply Grouped.replicate_append
    · intro other same _ member
      exact apart other same (within other member)
    · exact ih distinct.2 apart
    · apply ih distinct.2
      intro other same
      rw [← Option.some.inj same]
      exact distinct.1

end

/-- The connection whose `shared_ptr` the functor holds. -/
def ServerFunctor.bound : ServerFunctor → ConnectionId
  | .connection id _ | .removeConnectionInLoop id | .removeConnectionFromMapInLoop id => id

/-- The connection whose channel the functor, or what comes of it, takes out of the poller. -/
def ServerFunctor.anchored : ServerFunctor → Option ConnectionId
  | .connection id .connectionDestroyed | .removeConnectionInLoop id => some id
  | _ => none

theorem ServerFunctor.bound_of_anchored {f : ServerFunctor} {id : ConnectionId}
    (anchored : f.anchored = some id) : f.bound = id := by
  cases f with
  | connection other f =>
    cases f with
    | connectionDestroyed => exact Option.some.inj anchored
    | _ => cases anchored
  | removeConnectionInLoop other => exact Option.some.inj anchored
  | removeConnectionFromMapInLoop other => cases anchored

namespace TcpServer
variable {LoopId : Type}

/-- A `shared_ptr` of the connection is in the map, or bound to a functor. -/
def Held (s : TcpServer LoopId) (id : ConnectionId) : Prop :=
  id ∈ s.connections ∨ ∃ loop, ∃ f ∈ (s.loops loop).functors, f.bound = id

def Anchored (s : TcpServer LoopId) (id : ConnectionId) : Prop :=
  id ∈ s.connections ∨ ∃ loop, ∃ f ∈ (s.loops loop).functors, f.anchored = some id

theorem Anchored.held {s : TcpServer LoopId} {id : ConnectionId} (anchored : s.Anchored id) :
    s.Held id := by
  rcases anchored with present | ⟨loop, f, member, same⟩
  · exact Or.inl present
  · exact Or.inr ⟨loop, f, member, ServerFunctor.bound_of_anchored same⟩

/-- `guard` is the connection whose channel a loop has called last in its turn. `late` are the
connections that have sent a message after their channel was taken out of the poller. -/
structure Lifetimes (LoopId : Type) where
  guard : LoopId → Option ConnectionId := fun _ => none
  late : Finset ConnectionId := ∅

/-- `handleEvent` has called a callback of the connection and comes to another: `guard` is a
`shared_ptr` of it, locked before the first. -/
def Guarded (s : TcpServer LoopId) (h : Lifetimes LoopId) (id : ConnectionId) : Prop :=
  ∃ loop callback rest, (s.loops loop).turn = .dispatching ((id, callback) :: rest) ∧
    h.guard loop = some id

/-- What holds the connections up, but for the one that is `owed`. -/
structure Tied (base : LoopId) (h : Lifetimes LoopId) (owed : Option ConnectionId)
    (s : TcpServer LoopId) : Prop where
  home : s.AtHome base
  established : ∀ id served, s.served id = some served → served.conn.state ≠ .kConnecting
  anchored : ∀ id served, s.served id = some served → id ∉ h.late → owed ≠ some id →
    served.conn.Removed ∨ s.Anchored id
  hungUp : ∀ id served, s.served id = some served → id ∉ h.late →
    ∀ loop, .removeConnectionFromMapInLoop id ∈ (s.loops loop).functors → served.conn.Removed
  entered : ∀ loop active, (s.loops loop).turn = .dispatching active →
    ∀ entry ∈ active, entry.1 ∉ h.late → h.guard loop ≠ some entry.1 →
      ∀ served, s.served entry.1 = some served → served.conn.channel.index = .kAdded
  grouped : ∀ loop active, (s.loops loop).turn = .dispatching active →
    Grouped (h.guard loop) (active.map Prod.fst)

theorem start_tied (base : LoopId) : ({} : TcpServer LoopId).Tied base {} none where
  home := start_atHome
  established := nofun
  anchored := nofun
  hungUp := nofun
  entered := nofun
  grouped := nofun

section
variable {base : LoopId} {h : Lifetimes LoopId} {owed : Option ConnectionId}
  {s : TcpServer LoopId} (tied : s.Tied base h owed)
include tied

theorem Tied.failed : ({ s with assertFailed := true } : TcpServer LoopId).Tied base h owed :=
  ⟨tied.home.failed, tied.established, tied.anchored, tied.hungUp, tied.entered, tied.grouped⟩

/-- A removed connection needs nothing that holds it. -/
theorem Tied.settle {id : ConnectionId} (only : ∀ other, owed = some other → other = id)
    (removed : ∀ served, s.served id = some served → id ∉ h.late → served.conn.Removed) :
    s.Tied base h none where
  home := tied.home
  established := tied.established
  anchored := by
    intro other served known timely _
    by_cases owing : owed = some other
    · obtain rfl := only other owing
      exact Or.inl (removed served known timely)
    · exact tied.anchored other served known timely owing
  hungUp := tied.hungUp
  entered := tied.entered
  grouped := tied.grouped

theorem Tied.erase {id : ConnectionId} (only : ∀ other, owed = some other → other = id) :
    ({ s with connections := s.connections.erase id } : TcpServer LoopId).Tied base h
      (some id) where
  home := tied.home.connections _
  established := tied.established
  anchored := by
    intro other served known timely unowed
    have different : other ≠ id := fun same => unowed (congrArg some same.symm)
    have before := tied.anchored other served known timely fun owing =>
      different (only other owing)
    refine before.imp_right (Or.imp_left fun present => ?_)
    exact Finset.mem_erase.mpr ⟨different, present⟩
  hungUp := tied.hungUp
  entered := tied.entered
  grouped := tied.grouped

/-- An operation on a connection. One that is removed stays removed; one that is registered
stays registered, unless no channel of its loop but its own is still to be called. -/
theorem Tied.setConn {id : ConnectionId} {served : Served LoopId}
    (known : s.served id = some served) (conn : TcpConnection)
    (established : conn.state ≠ .kConnecting)
    (kept : served.conn.Removed → id ∉ h.late → conn.Removed)
    (stays : served.conn.channel.index = .kAdded → conn.channel.index = .kAdded ∨
      h.guard served.loop = some id ∨ ∀ active, (s.loops served.loop).turn ≠ .dispatching active) :
    (s.setConn id served.loop conn).Tied base h owed where
  home := tied.home.setConn known conn
  established := by
    intro other now here
    simp only [TcpServer.setConn, Function.update_apply] at here
    split at here
    · cases here
      exact established
    · exact tied.established other now here
  anchored := by
    intro other now here timely unowed
    simp only [TcpServer.setConn, Function.update_apply] at here
    split at here
    next same =>
      subst same
      cases here
      exact (tied.anchored other served known timely unowed).imp_left fun removed =>
        kept removed timely
    next => exact tied.anchored other now here timely unowed
  hungUp := by
    intro other now here timely loop member
    simp only [TcpServer.setConn, Function.update_apply] at here
    split at here
    next same =>
      subst same
      cases here
      exact kept (tied.hungUp other served known timely loop member) timely
    next => exact tied.hungUp other now here timely loop member
  entered := by
    intro loop active turn entry member timely unguarded now here
    simp only [TcpServer.setConn, Function.update_apply] at here
    split at here
    next same =>
      cases here
      have own : served.loop = loop := by
        have placed := tied.home.active loop active turn entry member
        rw [same, home_served known] at placed
        exact Option.some.inj placed
      rw [same] at timely unguarded
      have before := tied.entered loop active turn entry member (same ▸ timely) (same ▸ unguarded)
        served (same ▸ known)
      rcases stays before with added | guarded | idle
      · exact added
      · exact absurd (own ▸ guarded) unguarded
      · exact absurd turn (own ▸ idle active)
    next => exact tied.entered loop active turn entry member timely unguarded now here
  grouped := tied.grouped

theorem Tied.newConnetion (ioLoop : LoopId) :
    ({ s.setConn s.nextConnectionId ioLoop .established with
      connections := insert s.nextConnectionId s.connections
      nextConnectionId := s.nextConnectionId + 1 } : TcpServer LoopId).Tied base h owed := by
  have unused := tied.home.fresh s.nextConnectionId (Nat.le_refl _)
  have older : ∀ {id served}, s.served id = some served → id ≠ s.nextConnectionId := by
    rintro id served known rfl
    rw [unused] at known
    cases known
  refine ⟨tied.home.newConnetion ioLoop, ?_, ?_, ?_, ?_, tied.grouped⟩
  · intro id served here
    simp only [TcpServer.setConn, Function.update_apply] at here
    split at here
    · cases here
      intro registered
      cases registered
    · exact tied.established id served here
  · intro id served here timely unowed
    simp only [TcpServer.setConn, Function.update_apply] at here
    split at here
    next same => exact Or.inr (Or.inl (same ▸ Finset.mem_insert_self _ _))
    next =>
      exact (tied.anchored id served here timely unowed).imp_right
        (Or.imp_left Finset.mem_insert_of_mem)
  · intro id served here timely loop member
    simp only [TcpServer.setConn, Function.update_apply] at here
    split at here
    next same =>
      obtain ⟨-, known⟩ := tied.home.functors loop _ member
      exact absurd (by rw [same, TcpServer.home, unused]; rfl) known
    next => exact tied.hungUp id served here timely loop member
  · intro loop active turn entry member timely unguarded served here
    simp only [TcpServer.setConn, Function.update_apply] at here
    split at here
    next same =>
      have placed := tied.home.active loop active turn entry member
      rw [same, TcpServer.home, unused] at placed
      cases placed
    next => exact tied.entered loop active turn entry member timely unguarded served here

end

variable [DecidableEq LoopId] {base : LoopId} {h : Lifetimes LoopId} {owed : Option ConnectionId}
  {s : TcpServer LoopId}

/-- A loop may change what it holds, as long as what was anchored by it stays so or is owed. -/
theorem Tied.setLoop (tied : s.Tied base h owed) (loop : LoopId) (value : IoLoop)
    (last later : Option ConnectionId)
    (functors : ∀ f ∈ value.functors, s.Belongs base loop f)
    (hungUp : ∀ id, .removeConnectionFromMapInLoop id ∈ value.functors → id ∉ h.late →
      ∀ served, s.served id = some served → served.conn.Removed)
    (anchors : ∀ f ∈ (s.loops loop).functors, ∀ id, f.anchored = some id →
      f ∈ value.functors ∨ later = some id)
    (owing : ∀ id, owed = some id →
      later = some id ∨ ∃ f ∈ value.functors, f.anchored = some id)
    (active : ∀ active, value.turn = .dispatching active →
      (∀ entry ∈ active, s.home entry.1 = some loop) ∧
      (∀ entry ∈ active, entry.1 ∉ h.late → last ≠ some entry.1 →
        ∀ served, s.served entry.1 = some served → served.conn.channel.index = .kAdded) ∧
      Grouped last (active.map Prod.fst)) :
    (s.setLoop loop value).Tied base { h with guard := Function.update h.guard loop last }
      later where
  home := tied.home.setLoop loop value functors fun entries turn => (active entries turn).1
  established := tied.established
  anchored := by
    intro id served known timely unowed
    by_cases due : owed = some id
    · rcases owing id due with again | ⟨f, member, same⟩
      · exact absurd again unowed
      · exact Or.inr (Or.inr ⟨loop, f, by rw [setLoop_loops, if_pos rfl]; exact member, same⟩)
    · rcases tied.anchored id served known timely due with removed | present | there
      · exact Or.inl removed
      · exact Or.inr (Or.inl present)
      · obtain ⟨other, f, member, same⟩ := there
        right
        right
        by_cases here : other = loop
        · subst here
          rcases anchors f member id same with kept | again
          · exact ⟨other, f, by rw [setLoop_loops, if_pos rfl]; exact kept, same⟩
          · exact absurd again unowed
        · exact ⟨other, f, by rw [setLoop_loops, if_neg here]; exact member, same⟩
  hungUp := by
    intro id served known timely other member
    rw [setLoop_loops] at member
    split at member
    · exact hungUp id member timely served known
    · exact tied.hungUp id served known timely other member
  entered := by
    intro other entries turn entry member timely unguarded
    rw [setLoop_loops] at turn
    split at turn
    next here =>
      subst here
      simp only [Function.update_self] at unguarded
      exact (active entries turn).2.1 entry member timely unguarded
    next away =>
      simp only [Function.update_of_ne away] at unguarded
      exact tied.entered other entries turn entry member timely unguarded
  grouped := by
    intro other entries turn
    rw [setLoop_loops] at turn
    split at turn
    next here =>
      subst here
      simp only [Function.update_self]
      exact (active entries turn).2.2
    next away =>
      simp only [Function.update_of_ne away]
      exact tied.grouped other entries turn

/-- Functors can be queued where they belong; what is owed may be among them. -/
theorem Tied.queueInLoop (tied : s.Tied base h owed) {loop : LoopId} {fs : List ServerFunctor}
    (later : Option ConnectionId) (belong : ∀ f ∈ fs, s.Belongs base loop f)
    (hungUp : ∀ id, .removeConnectionFromMapInLoop id ∈ fs → id ∉ h.late →
      ∀ served, s.served id = some served → served.conn.Removed)
    (owing : ∀ id, owed = some id → later = some id ∨ ∃ f ∈ fs, f.anchored = some id) :
    (s.queueInLoop loop fs).Tied base h later := by
  have split : ∀ {f}, f ∈ (s.loops loop).turn.toRun ++ ((s.loops loop).pendingFunctors ++ fs) ↔
      f ∈ (s.loops loop).functors ∨ f ∈ fs := by
    intro f
    rw [← List.append_assoc, List.mem_append]
    rfl
  have queued := tied.setLoop loop
    { s.loops loop with pendingFunctors := (s.loops loop).pendingFunctors ++ fs }
    (h.guard loop) later ?_ ?_ ?_ ?_ ?_
  · rwa [Function.update_eq_self] at queued
  · intro f member
    rcases split.mp member with before | now
    · exact tied.home.functors loop f before
    · exact belong f now
  · intro id member timely served known
    rcases split.mp member with before | now
    · exact tied.hungUp id served known timely loop before
    · exact hungUp id now timely served known
  · exact fun f member id _ => Or.inl (split.mpr (Or.inl member))
  · intro id due
    rcases owing id due with again | ⟨f, member, same⟩
    · exact Or.inl again
    · exact Or.inr ⟨f, split.mpr (Or.inr member), same⟩
  · intro active turn
    exact ⟨tied.home.active loop active turn, tied.entered loop active turn,
      tied.grouped loop active turn⟩

theorem Tied.queueCalls (tied : s.Tied base h none) {id : ConnectionId} {loop : LoopId}
    (placed : s.home id = some loop) (queued : List LoopFunctor) :
    (s.queueInLoop loop (queued.map (.connection id))).Tied base h none := by
  apply tied.queueInLoop none
  · intro f member
    obtain ⟨g, -, rfl⟩ := List.mem_map.mp member
    exact placed
  · intro other member
    obtain ⟨g, -, same⟩ := List.mem_map.mp member
    cases same
  · intro other due
    cases due

/-- The removal comes to its end, or the process has. -/
theorem Tied.removeConnectionInLoop {id : ConnectionId} (tied : s.Tied base h owed)
    (only : ∀ other, owed = some other → other = id) (known : s.home id ≠ none)
    (running : (s.removeConnectionInLoop id).assertFailed = false) :
    (s.removeConnectionInLoop id).Tied base h none := by
  unfold TcpServer.removeConnectionInLoop at running ⊢
  split at running
  next present =>
    rw [if_pos present]
    have erased := tied.erase only
    dsimp only
    split
    next served here =>
      apply erased.queueInLoop none
      · intro f member
        rw [List.mem_singleton.mp member]
        exact home_served here
      · intro other member
        cases List.mem_singleton.mp member
      · intro other due
        exact Or.inr ⟨_, List.mem_singleton_self _, due⟩
    next absent => exact absurd (by rw [TcpServer.home, absent]; rfl) known
  next => cases running

omit [DecidableEq LoopId] in
theorem Tied.removeConnectionFromMapInLoop {id : ConnectionId} (tied : s.Tied base h none)
    (removed : ∀ served, s.served id = some served → id ∉ h.late → served.conn.Removed) :
    (s.removeConnectionFromMapInLoop id).Tied base h none := by
  unfold TcpServer.removeConnectionFromMapInLoop
  split
  · have only : ∀ other, (none : Option ConnectionId) = some other → other = id := by simp
    have erased := tied.erase only
    exact erased.settle (fun other due => (Option.some.inj due).symm) removed
  · exact tied.failed

theorem Tied.serve {id : ConnectionId} (tied : s.Tied base h none) (loop : LoopId)
    (known : s.home id ≠ none) (callback : Option ServerCallback)
    (removed : callback = some .removeConnectionFromMap →
      ∀ served, s.served id = some served → id ∉ h.late → served.conn.Removed)
    (running : (s.serve base loop id callback).assertFailed = false) :
    (s.serve base loop id callback).Tied base h none := by
  unfold TcpServer.serve at running ⊢
  split at running
  · split at running
    next here =>
      rw [if_pos here]
      exact tied.removeConnectionInLoop (by simp) known running
    next away =>
      rw [if_neg away]
      apply tied.queueInLoop none
      · simpa [Belongs] using known
      · intro other member
        cases List.mem_singleton.mp member
      · intro other due
        cases due
  · split at running
    next here =>
      rw [if_pos here]
      exact tied.removeConnectionFromMapInLoop (removed rfl)
    next away =>
      rw [if_neg away]
      apply tied.queueInLoop none
      · simpa [Belongs] using known
      · intro other member timely served here
        cases List.mem_singleton.mp member
        exact removed rfl served here timely
      · intro other due
        cases due
  · exact tied

omit [DecidableEq LoopId] in
theorem Tied.mono (tied : s.Tied base h owed) {late : Finset ConnectionId} (more : h.late ⊆ late) :
    s.Tied base { h with late } owed where
  home := tied.home
  established := tied.established
  anchored := fun id served known timely => tied.anchored id served known (mt (@more id) timely)
  hungUp := fun id served known timely => tied.hungUp id served known (mt (@more id) timely)
  entered := fun loop active turn entry member timely =>
    tied.entered loop active turn entry member (mt (@more entry.1) timely)
  grouped := tied.grouped

end TcpServer

end RabbitServer.Net
