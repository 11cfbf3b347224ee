import Mathlib.Data.Int.CardIntervalMod
import RabbitServer.Net.Acceptor
import RabbitServer.Net.LoopHomes

/-! `net/EventLoopThreadPool.cpp`: which loop a connection is given, and how evenly the loops are
loaded by this. -/

namespace RabbitServer.Net
open Library.Runs

namespace EventLoopThreadPool
variable {LoopId : Type} (pool : EventLoopThreadPool LoopId) (baseLoop : LoopId)

def getLoopForHash (hashCode : Nat) : LoopId :=
  if filled : pool.loops ≠ [] then
    pool.loops.get ⟨hashCode % pool.loops.length, Nat.mod_lt _ (List.length_pos_iff.mpr filled)⟩
  else baseLoop

def getAllLoops : List LoopId := if pool.loops = [] then [baseLoop] else pool.loops

variable {pool}

theorem getLoopForHash_member (hashCode : Nat) :
    pool.getLoopForHash baseLoop hashCode ∈ pool.getAllLoops baseLoop := by
  unfold getLoopForHash getAllLoops
  by_cases empty : pool.loops = []
  · rw [if_pos empty, dif_neg (not_not.mpr empty)]
    exact List.mem_singleton_self _
  · rw [if_neg empty, dif_pos empty]
    exact List.get_mem ..

theorem getLoopForHash_loops {other : EventLoopThreadPool LoopId}
    (same : other.loops = pool.loops) (hashCode : Nat) :
    other.getLoopForHash baseLoop hashCode = pool.getLoopForHash baseLoop hashCode := by
  obtain ⟨loops, next, next_lt⟩ := pool
  subst same
  rfl

theorem getNextLoop_loops : (pool.getNextLoop baseLoop).2.loops = pool.loops := by
  unfold getNextLoop
  split <;> rfl

/-- The round robin is the hash of a count. -/
theorem getNextLoop_count {count : Nat}
    (next : pool.loops ≠ [] → pool.next = count % pool.loops.length) :
    (pool.getNextLoop baseLoop).1 = pool.getLoopForHash baseLoop count ∧
      (pool.loops ≠ [] →
        (pool.getNextLoop baseLoop).2.next = (count + 1) % pool.loops.length) := by
  by_cases filled : pool.loops ≠ []
  · have bound := pool.next_lt filled
    have here := next filled
    rw [getNextLoop, getLoopForHash, dif_pos filled, dif_pos filled]
    constructor
    · simp only [here, List.get_eq_getElem]
    · intro _
      simp only
      rw [Nat.add_mod, ← here]
      split
      next last =>
        have last : pool.next + 1 = pool.loops.length := by omega
        rcases Nat.lt_or_ge 1 pool.loops.length with several | one
        · rw [Nat.mod_eq_of_lt several, last, Nat.mod_self]
        · have one : pool.loops.length = 1 := by omega
          rw [one, Nat.mod_one]
      next inside => rw [Nat.mod_eq_of_lt (by omega : 1 < _), Nat.mod_eq_of_lt (by omega)]
  · rw [getNextLoop, getLoopForHash, dif_neg filled, dif_neg filled]
    exact ⟨rfl, fun some => absurd some filled⟩

end EventLoopThreadPool

namespace AcceptingServer
variable {LoopId : Type} [DecidableEq LoopId] {base : LoopId} {loops : List LoopId}
  {s : AcceptingServer LoopId}

/-- The pool is as far as the numbers of the connections, and each connection lives where its
number says. -/
structure Dealt (base : LoopId) (loops : List LoopId) (s : AcceptingServer LoopId) : Prop where
  loops : s.pool.loops = loops
  next : s.pool.loops ≠ [] → s.pool.next = s.server.nextConnectionId % s.pool.loops.length
  home : ∀ id, s.server.home id =
    if id < s.server.nextConnectionId then some (s.pool.getLoopForHash base id) else none

omit [DecidableEq LoopId] in
theorem start_dealt (base : LoopId) (loops : List LoopId) : (start loops).Dealt base loops where
  loops := rfl
  next := fun _ => (Nat.zero_mod _).symm
  home := fun _ => rfl

theorem Dealt.server (dealt : s.Dealt base loops) (event : TcpServer.Event LoopId) :
    (s.step base (.server event)).Dealt base loops := by
  simp only [AcceptingServer.step]
  split
  next possible =>
    have other : ∀ ioLoop, event ≠ .newConnetion ioLoop := by
      rintro ioLoop rfl
      cases possible
    have kept : (s.server.step base event).home = s.server.home ∧
        (s.server.step base event).nextConnectionId = s.server.nextConnectionId := by
      unfold TcpServer.step
      split
      · exact ⟨rfl, rfl⟩
      · exact ⟨TcpServer.next_home event other, TcpServer.next_nextConnectionId event other⟩
    exact {
      loops := dealt.loops
      next := by
        rw [kept.2]
        exact dealt.next
      home := by
        rw [kept.1, kept.2]
        exact dealt.home }
  next => exact dealt

theorem Dealt.handleRead (dealt : s.Dealt base loops) (result : Accept) :
    (s.step base (.handleRead result)).Dealt base loops := by
  simp only [AcceptingServer.step]
  split
  next accepting =>
    obtain ⟨given, next⟩ := EventLoopThreadPool.getNextLoop_count base dealt.next
    have number := (handleRead_server accepting result).2
    have kept : (s.handleRead base result).pool.loops = s.pool.loops :=
      EventLoopThreadPool.getNextLoop_loops base
    have home : ∀ id, (s.handleRead base result).server.home id =
        if id = s.server.nextConnectionId then some (s.pool.getNextLoop base).1
        else s.server.home id := by
      intro id
      unfold AcceptingServer.accepting at accepting
      split at accepting
      next active turn =>
        have running : s.server.assertFailed = false := by simpa using accepting
        have after : (s.handleRead base result).server = { s.server.setConn
              s.server.nextConnectionId (s.pool.getNextLoop base).1 .established with
            connections := insert s.server.nextConnectionId s.server.connections
            nextConnectionId := s.server.nextConnectionId + 1 } := by
          simp only [AcceptingServer.handleRead, newConnetion, TcpServer.step, running,
            TcpServer.next, turn]
          rfl
        rw [after]
        simp only [TcpServer.home, TcpServer.setConn, Function.update_apply]
        split <;> rfl
      next => cases accepting
    exact {
      loops := kept.trans dealt.loops
      next := by
        rw [number, kept]
        exact next
      home := by
        intro id
        rw [home, number, EventLoopThreadPool.getLoopForHash_loops base kept, given, dealt.home]
        by_cases new : id = s.server.nextConnectionId
        · rw [if_pos new, new, if_pos (Nat.lt_succ_self _)]
        · rw [if_neg new]
          by_cases before : id < s.server.nextConnectionId
          · rw [if_pos before, if_pos (Nat.lt_succ_of_lt before)]
          · rw [if_neg before, if_neg (mt Nat.lt_succ_iff_lt_or_eq.mp (not_or.mpr ⟨before, new⟩))] }
  next => exact dealt

/-- Every connection lives in the loop that its number hashes to, and no loop of the pool is ever
given more than one connection more than another. -/
theorem round_robin (base : LoopId) (loops : List LoopId) (distinct : loops.Nodup)
    (events : List (Event LoopId)) :
    let s := run (step base) (start loops) events
    (∀ id served, s.server.served id = some served →
        served.loop = s.pool.getLoopForHash base id ∧
          served.loop ∈ s.pool.getAllLoops base) ∧
      ∀ loop ∈ loops,
        let given := Nat.count (fun id => s.server.home id = some loop) s.server.nextConnectionId
        s.server.nextConnectionId / loops.length ≤ given ∧
          given ≤ s.server.nextConnectionId / loops.length + 1 := by
  intro s
  have dealt : s.Dealt base loops := run_invariant (Dealt base loops) _ events
    (start_dealt base loops) fun s event dealt => by
      cases event with
      | handleRead result => exact dealt.handleRead result
      | server event => exact dealt.server event
  constructor
  · intro id served known
    have home := dealt.home id
    rw [TcpServer.home_served known] at home
    split at home
    · rw [Option.some.inj home]
      exact ⟨rfl, EventLoopThreadPool.getLoopForHash_member base id⟩
    · cases home
  · intro loop member given
    obtain ⟨position, bound, rfl⟩ := List.getElem_of_mem member
    have filled : loops ≠ [] := List.ne_nil_of_length_pos (by omega)
    have same : ∀ id < s.server.nextConnectionId,
        (s.server.home id = some loops[position] ↔ id ≡ position [MOD loops.length]) := by
      intro id before
      have hashed : s.pool.getLoopForHash base id =
          loops.get ⟨id % loops.length, Nat.mod_lt _ (by omega)⟩ := by
        have started : (EventLoopThreadPool.started loops).loops = loops := rfl
        rw [EventLoopThreadPool.getLoopForHash_loops base (dealt.loops.trans started.symm)]
        exact dif_pos filled
      rw [dealt.home, if_pos before, hashed, Option.some.injEq, List.get_eq_getElem,
        distinct.getElem_inj_iff, Nat.ModEq, Nat.mod_eq_of_lt bound]
    have count : given =
        Nat.count (fun id => id ≡ position [MOD loops.length]) s.server.nextConnectionId :=
      Nat.le_antisymm (Nat.count_mono_left fun id before => (same id before).mp)
        (Nat.count_mono_left fun id before => (same id before).mpr)
    rw [count, Nat.count_modEq_card _ (by omega)]
    split
    · exact ⟨Nat.le_add_right _ _, Nat.le_refl _⟩
    · exact ⟨Nat.le_refl _, Nat.le_succ _⟩

/-- Three connections for two loops. -/
def threeAccepted : List (Event Nat) :=
  [.server (.poll 0 []), .handleRead (.connected 5), .handleRead (.connected 6),
    .handleRead (.connected 7)]

theorem round_robin_three :
    let s := run (step 0) (start [1, 2]) threeAccepted
    (∀ id served, s.server.served id = some served →
        served.loop = s.pool.getLoopForHash 0 id ∧ served.loop ∈ s.pool.getAllLoops 0) ∧
      ∀ loop ∈ [1, 2],
        let given := Nat.count (fun id => s.server.home id = some loop) s.server.nextConnectionId
        s.server.nextConnectionId / [1, 2].length ≤ given ∧
          given ≤ s.server.nextConnectionId / [1, 2].length + 1 :=
  round_robin 0 [1, 2] (by decide) threeAccepted

end AcceptingServer

end RabbitServer.Net
