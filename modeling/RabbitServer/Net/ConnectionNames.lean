import RabbitServer.Http.ResponseStream
import RabbitServer.Net.LoopHomes

/-! The names of the connections, and `connections_` as it is: a map from the names. A connection
is as well known by its name as by the number in it. -/

namespace RabbitServer.Net
open Library.Runs RabbitServer.Http

/-- `snprintf(buf, sizeof buf, "#%d", nextConnectionId_++)` behind the name of the server. -/
def conName (name : Bytes) (id : ConnectionId) : Bytes :=
  name ++ snprintf 32 (ascii "#" ++ decimal id)

/-- `INT_MAX`: at this value `nextConnectionId_++` overflows. -/
def intMax : Nat := 2147483647

theorem conName_whole (name : Bytes) {id : ConnectionId} (small : id < intMax) :
    conName name id = name ++ ascii "#" ++ decimal id := by
  have digits : (decimal id).length ≤ 10 :=
    decimal_length_le (by decide) (small.trans_le (by decide))
  have one : (ascii "#").length = 1 := rfl
  rw [conName, snprintf_whole (by rw [List.length_append]; omega), List.append_assoc]

/-- No two connections of a server have the same name. -/
theorem conName_inj {name : Bytes} {id other : ConnectionId} (small : id < intMax)
    (less : other < intMax) (same : conName name id = conName name other) : id = other := by
  rw [conName_whole name small, conName_whole name less, List.append_cancel_left_eq] at same
  have numbers := congrArg number same
  rwa [number_decimal, number_decimal, Option.some.injEq] at numbers

namespace TcpServer
variable {LoopId : Type} [DecidableEq LoopId] (base : LoopId)

/-- The callback is one of the two that take a connection out of the map. -/
def removing (callback : Option ServerCallback) : Bool :=
  callback = some .closeCallback || callback = some .removeConnectionFromMap

/-- The connection whose removal an event executes in the base loop. -/
def removes (s : TcpServer LoopId) : Event LoopId → Option ConnectionId
  | .handleEvent loop read _ _ writes =>
    match (s.loops loop).turn with
    | .dispatching ((id, callback) :: _) =>
      match s.served id with
      | some served =>
        if loop = base ∧
            removing (served.conn.handleEvent callback read (writes.headD (.accepted 0))).2 then
          some id
        else none
      | none => none
    | _ => none
  | .functor loop write =>
    match (s.loops loop).turn with
    | .running (.connection id f :: _) =>
      match s.served id with
      | some served =>
        if loop = base ∧ removing (served.conn.functor f write).2 then some id else none
      | none => none
    | .running (.removeConnectionInLoop id :: _) => some id
    | .running (.removeConnectionFromMapInLoop id :: _) => some id
    | _ => none
  | _ => none

/-- The connection an event puts into the map. -/
def inserts (s : TcpServer LoopId) : Event LoopId → Option ConnectionId
  | .newConnetion _ =>
    match (s.loops base).turn with
    | .dispatching _ => some s.nextConnectionId
    | _ => none
  | _ => none

/-- The keys of the map after an event. -/
def mapped (s : TcpServer LoopId) (event : Event LoopId) : Finset ConnectionId :=
  match s.inserts base event, s.removes base event with
  | some id, _ => insert id s.connections
  | none, some id => s.connections.erase id
  | none, none => s.connections

/-- `assert(it != connections_.end())` -/
def misses (s : TcpServer LoopId) (event : Event LoopId) : Bool :=
  match s.removes base event with
  | some id => id ∉ s.connections
  | none => false

variable {base} {s : TcpServer LoopId}

theorem removeConnectionInLoop_map (id : ConnectionId) :
    (s.removeConnectionInLoop id).connections = s.connections.erase id ∧
      (s.removeConnectionInLoop id).assertFailed =
        (s.assertFailed || decide (id ∉ s.connections)) := by
  unfold removeConnectionInLoop
  split
  next member =>
    dsimp only
    split <;> simp [member, queueInLoop, setLoop]
  next absent => simp [absent]

omit [DecidableEq LoopId] in
theorem removeConnectionFromMapInLoop_map (id : ConnectionId) :
    (s.removeConnectionFromMapInLoop id).connections = s.connections.erase id ∧
      (s.removeConnectionFromMapInLoop id).assertFailed =
        (s.assertFailed || decide (id ∉ s.connections)) := by
  unfold removeConnectionFromMapInLoop
  split
  next member => simp [member]
  next absent => simp [absent]

variable (base) in
/-- A callback that removes does so at once in the base loop, and nowhere else. -/
theorem serve_map (loop : LoopId) (id : ConnectionId) (callback : Option ServerCallback) :
    (s.serve base loop id callback).connections =
        (if loop = base ∧ removing callback then s.connections.erase id else s.connections) ∧
      (s.serve base loop id callback).assertFailed =
        if loop = base ∧ removing callback then
          s.assertFailed || decide (id ∉ s.connections)
        else s.assertFailed := by
  unfold serve
  split
  next =>
    by_cases here : loop = base
    · simp only [here, removing, if_true, true_and, decide_true, Bool.true_or]
      exact removeConnectionInLoop_map id
    · simp [here, queueInLoop, setLoop]
  next =>
    by_cases here : loop = base
    · simp only [here, removing, if_true, true_and, decide_true, Bool.or_true]
      exact removeConnectionFromMapInLoop_map id
    · simp [here, queueInLoop, setLoop]
  next close gone =>
    have none : removing callback = false := by
      cases callback with
      | none => rfl
      | some callback =>
        cases callback with
        | messageCallback => rfl
        | closeCallback => exact absurd rfl close
        | removeConnectionFromMap => exact absurd rfl gone
    simp [none]

variable (base) in
/-- An event puts at most one connection into the map or takes one out of it. -/
theorem next_map (event : Event LoopId) :
    (s.next base event).connections = s.mapped base event ∧
      (s.next base event).assertFailed = (s.assertFailed || s.misses base event) := by
  cases event with
  | newConnetion ioLoop =>
    simp only [next, mapped, misses, inserts, removes]
    cases turn : (s.loops base).turn with
    | dispatching active => simp [setConn]
    | _ => simp
  | poll loop active =>
    simp only [next, mapped, misses, inserts, removes, Bool.or_false]
    split <;> exact ⟨rfl, rfl⟩
  | handleEvent loop read left calls writes =>
    cases turn : (s.loops loop).turn with
    | dispatching active =>
      cases active with
      | nil => simp [next, mapped, misses, inserts, removes, turn]
      | cons entry rest =>
        obtain ⟨id, callback⟩ := entry
        simp only [next, mapped, misses, inserts, removes, turn]
        cases known : s.served id with
        | none => simp [handleEvent, known, setTurn, setLoop]
        | some served =>
          have popped : (s.setTurn loop (.dispatching rest)).served id = some served := known
          simp only [handleEvent, popped]
          split
          next message =>
            rw [message, if_neg (by simp [removing])]
            simp [receive, queueInLoop, setLoop, setConn, setTurn]
          next =>
            obtain ⟨connections, failed⟩ := serve_map base
              (s := (s.setTurn loop (.dispatching rest)).setConn id served.loop
                (served.conn.handleEvent callback read (writes.headD (.accepted 0))).1) loop id
              (served.conn.handleEvent callback read (writes.headD (.accepted 0))).2
            rw [connections, failed]
            split <;> simp [setConn, setTurn, setLoop]
    | _ => simp [next, mapped, misses, inserts, removes, turn]
  | doPendingFunctors loop =>
    simp only [next, mapped, misses, inserts, removes, Bool.or_false]
    split <;> exact ⟨rfl, rfl⟩
  | functor loop write =>
    cases turn : (s.loops loop).turn with
    | running toRun =>
      cases toRun with
      | nil => simp [next, mapped, misses, inserts, removes, turn]
      | cons f toRun =>
        simp only [next, mapped, misses, inserts, removes, turn]
        cases f with
        | connection id f =>
          simp only [functor]
          cases known : s.served id with
          | none => simp [known, setTurn, setLoop]
          | some served =>
            have popped : (s.setTurn loop (.running toRun)).served id = some served := known
            simp only [popped]
            obtain ⟨connections, failed⟩ := serve_map base
              (s := (s.setTurn loop (.running toRun)).setConn id served.loop
                (served.conn.functor f write).1) loop id (served.conn.functor f write).2
            rw [connections, failed]
            split
            · exact ⟨rfl, rfl⟩
            · exact ⟨rfl, (Bool.or_false _).symm⟩
        | removeConnectionInLoop id => exact removeConnectionInLoop_map id
        | removeConnectionFromMapInLoop id => exact removeConnectionFromMapInLoop_map id
    | _ => simp [next, mapped, misses, inserts, removes, turn]
  | iterate loop =>
    simp only [next, mapped, misses, inserts, removes, Bool.or_false]
    split <;> exact ⟨rfl, rfl⟩
  | call thread id c write =>
    simp only [next, mapped, misses, inserts, removes, Bool.or_false]
    split
    next => exact ⟨rfl, rfl⟩
    next => split <;> exact ⟨rfl, rfl⟩

/-- `connections_`, with each pointer seen as the number of its connection, and whether a removal
has found nothing under its name. -/
structure NameMap where
  connections_ : Bytes → Option ConnectionId := fun _ => none
  assertFailed : Bool := false

/-- `connections_[conName] = conn` where a connection is made, and `find`, `assert` and `erase`
where one is removed. -/
def recordMap (name : Bytes) (base : LoopId) (s : TcpServer LoopId) (event : Event LoopId)
    (map : NameMap) : NameMap :=
  if s.assertFailed then map
  else
    match s.inserts base event, s.removes base event with
    | some id, _ =>
      { map with connections_ := Function.update map.connections_ (conName name id) (some id) }
    | none, some id =>
      match map.connections_ (conName name id) with
      | some _ =>
        { map with connections_ := Function.update map.connections_ (conName name id) none }
      | none => { map with assertFailed := true }
    | none, none => map

/-- The map holds exactly the connections, each under its name. -/
structure Named (name : Bytes) (base : LoopId) (s : TcpServer LoopId × NameMap) : Prop where
  map : ∀ key id, s.2.connections_ key = some id ↔
    id ∈ s.1.connections ∧ key = conName name id
  assertFailed : s.2.assertFailed = s.1.assertFailed
  numbered : ∀ id ∈ s.1.connections, id < s.1.nextConnectionId
  home : s.1.AtHome base

omit [DecidableEq LoopId] in
theorem start_named (name : Bytes) (base : LoopId) :
    Named name base (({}, {}) : TcpServer LoopId × NameMap) where
  map := by simp
  assertFailed := rfl
  numbered := by simp
  home := start_atHome

/-- Only a connection that has been made is removed. -/
theorem AtHome.removes_lt (home : s.AtHome base) {event : Event LoopId} {id : ConnectionId}
    (removed : s.removes base event = some id) : id < s.nextConnectionId := by
  have made : ∀ {own}, s.home id = some own → id < s.nextConnectionId := by
    intro own known
    by_contra later
    rw [TcpServer.home, home.fresh id (Nat.le_of_not_lt later)] at known
    cases known
  have waiting : ∀ loop f toRun, (s.loops loop).turn = .running (f :: toRun) →
      s.Belongs base loop f := by
    intro loop f toRun turn
    apply home.functors
    rw [IoLoop.functors, turn]
    exact List.mem_cons_self ..
  cases event with
  | handleEvent loop read left calls writes =>
    simp only [removes] at removed
    split at removed
    next other callback rest turn =>
      have own := home.active loop _ turn (other, callback) (List.mem_cons_self ..)
      split at removed
      next served known =>
        split at removed
        next => exact made (Option.some.inj removed ▸ own)
        next => cases removed
      next => cases removed
    next => cases removed
  | functor loop write =>
    simp only [removes] at removed
    split at removed
    next other f toRun turn =>
      have own := waiting loop _ toRun turn
      split at removed
      next served known =>
        split at removed
        next => exact made (Option.some.inj removed ▸ own)
        next => cases removed
      next => cases removed
    next other toRun turn =>
      obtain ⟨own, known⟩ := Option.ne_none_iff_exists'.mp (waiting loop _ toRun turn).2
      exact made (Option.some.inj removed ▸ known)
    next other toRun turn =>
      obtain ⟨own, known⟩ := Option.ne_none_iff_exists'.mp (waiting loop _ toRun turn).2
      exact made (Option.some.inj removed ▸ known)
    next => cases removed
  | _ => cases removed

variable (base) in
/-- A number is taken by the connection that is put into the map, and by no other. -/
theorem next_number (event : Event LoopId) :
    (∃ ioLoop, event = .newConnetion ioLoop ∧
        s.inserts base event = some s.nextConnectionId ∧
        (s.next base event).nextConnectionId = s.nextConnectionId + 1) ∨
      (s.inserts base event = none ∧
        (s.next base event).nextConnectionId = s.nextConnectionId) := by
  cases event with
  | newConnetion ioLoop =>
    cases turn : (s.loops base).turn with
    | dispatching active =>
      exact Or.inl ⟨ioLoop, rfl, by simp only [inserts, turn], by simp only [next, turn]⟩
    | _ => exact Or.inr ⟨by simp only [inserts, turn], by simp only [next, turn]⟩
  | _ =>
    refine Or.inr ⟨rfl, next_nextConnectionId _ ?_⟩
    rintro ioLoop ⟨⟩

theorem Named.step {name : Bytes} {s : TcpServer LoopId × NameMap} (named : Named name base s)
    (event : Event LoopId)
    (few : (recorded (TcpServer.step base) (recordMap name base) s event).1.nextConnectionId ≤
      intMax) :
    Named name base (recorded (TcpServer.step base) (recordMap name base) s event) := by
  by_cases failed : s.1.assertFailed
  · simp only [recorded, TcpServer.step, recordMap, if_pos failed]
    exact named
  have running : s.1.assertFailed = false := Bool.not_eq_true _ ▸ failed
  simp only [recorded, TcpServer.step, recordMap, if_neg failed] at few ⊢
  obtain ⟨connections, asserted⟩ := next_map base (s := s.1) event
  have home := named.home.next event
  rcases next_number base (s := s.1) event with
    ⟨ioLoop, rfl, inserted, number⟩ | ⟨inserted, number⟩
  · rw [number] at few
    have fresh : s.1.nextConnectionId < intMax := Nat.lt_of_succ_le few
    have none : s.1.removes base (.newConnetion ioLoop) = none := rfl
    have own : ∀ id ∈ s.1.connections, conName name id ≠ conName name s.1.nextConnectionId := by
      intro id member same
      have before := named.numbered id member
      exact Nat.ne_of_lt before (conName_inj (before.trans fresh) fresh same)
    have keys : (s.1.next base (.newConnetion ioLoop)).connections =
        insert s.1.nextConnectionId s.1.connections := by
      rw [connections, mapped, inserted]
    refine {
      map := ?_
      assertFailed := by
        rw [asserted, inserted, misses, none, Bool.or_false]
        exact named.assertFailed
      numbered := ?_
      home }
    · intro key id
      rw [inserted]
      simp only [keys, Finset.mem_insert, Function.update_apply]
      split
      next here =>
        rw [Option.some.injEq]
        constructor
        · rintro rfl
          exact ⟨Or.inl rfl, here⟩
        · rintro ⟨rfl | member, same⟩
          · rfl
          · exact absurd (same.symm.trans here) (own id member)
      next elsewhere =>
        rw [named.map]
        constructor
        · exact fun known => ⟨Or.inr known.1, known.2⟩
        · rintro ⟨rfl | member, same⟩
          · exact absurd same elsewhere
          · exact ⟨member, same⟩
    · intro id member
      rw [keys] at member
      rw [number]
      rcases Finset.mem_insert.mp member with rfl | before
      · exact Nat.lt_succ_self _
      · exact Nat.lt_succ_of_lt (named.numbered id before)
  · rw [number] at few
    rw [inserted]
    cases removed : s.1.removes base event with
    | none =>
      have keys : (s.1.next base event).connections = s.1.connections := by
        rw [connections, mapped, inserted, removed]
      exact {
        map := by
          rw [keys]
          exact named.map
        assertFailed := by rw [asserted, misses, removed, Bool.or_false, named.assertFailed]
        numbered := by
          rw [keys, number]
          exact named.numbered
        home }
    | some id =>
      have keys : (s.1.next base event).connections = s.1.connections.erase id := by
        rw [connections, mapped, inserted, removed]
      have small : id < intMax :=
        (named.home.removes_lt removed).trans_le few
      have numbered : ∀ other ∈ (s.1.next base event).connections,
          other < (s.1.next base event).nextConnectionId := by
        rw [keys, number]
        exact fun other member => named.numbered other (Finset.mem_of_mem_erase member)
      have own : ∀ other ∈ s.1.connections, conName name id = conName name other → other = id := by
        intro other member same
        have less := (named.numbered other member).trans_le few
        exact (conName_inj small less same).symm
      dsimp only
      split
      next other found =>
        obtain ⟨member, same⟩ := (named.map _ _).mp found
        obtain rfl := own other member same
        exact {
          map := by
            intro key known
            simp only [keys, Finset.mem_erase, Function.update_apply]
            split
            next here =>
              apply iff_of_false (Option.some_ne_none known).symm
              rintro ⟨⟨different, inside⟩, elsewhere⟩
              exact different (own known inside (here.symm.trans elsewhere))
            next elsewhere =>
              rw [named.map]
              constructor
              · rintro ⟨inside, rfl⟩
                refine ⟨⟨?_, inside⟩, rfl⟩
                rintro rfl
                exact elsewhere rfl
              · exact fun kept => ⟨kept.1.2, kept.2⟩
          assertFailed := by
            rw [asserted, misses, removed]
            simp only [member, not_true_eq_false, decide_false, Bool.or_false]
            exact named.assertFailed
          numbered
          home }
      next absent =>
        have gone : id ∉ s.1.connections := by
          intro member
          rw [(named.map _ id).mpr ⟨member, rfl⟩] at absent
          cases absent
        exact {
          map := by
            rw [keys, Finset.erase_eq_of_notMem gone]
            exact named.map
          assertFailed := by rw [asserted, misses, removed]; simp [gone]
          numbered
          home }

/-- While the numbers are those of an `int`, the map of names and the set of numbers are the same
thing: a connection is found under its name exactly while it is in the set, a removal misses in
the one as in the other, and a new connection never takes the place of another. -/
theorem names_exact (name : Bytes) (base : LoopId) (events : List (Event LoopId))
    (few : (run (recorded (step base) (recordMap name base)) ({}, {}) events).1.nextConnectionId ≤
      intMax) :
    let s := run (recorded (step base) (recordMap name base)) ({}, {}) events
    (∀ key id, s.2.connections_ key = some id ↔ id ∈ s.1.connections ∧ key = conName name id) ∧
      s.2.assertFailed = s.1.assertFailed ∧
      (s.1.nextConnectionId < intMax →
        s.2.connections_ (conName name s.1.nextConnectionId) = none) := by
  intro s
  have later : ∀ (s : TcpServer LoopId) event,
      s.nextConnectionId ≤ (s.step base event).nextConnectionId := by
    intro s event
    unfold TcpServer.step
    split
    · exact Nat.le_refl _
    · rcases next_number base (s := s) event with ⟨_, _, _, number⟩ | ⟨_, number⟩
      · exact number ▸ Nat.le_succ _
      · exact Nat.le_of_eq number.symm
  have named : Named name base s := by
    apply run_invariant (fun s : TcpServer LoopId × NameMap =>
      s.1.nextConnectionId ≤ intMax → Named name base s) _ events
    · exact fun _ => start_named name base
    · exact fun s event ih few => (ih ((later s.1 event).trans few)).step event few
    · exact few
  refine ⟨named.map, named.assertFailed, ?_⟩
  intro fresh
  cases found : s.2.connections_ (conName name s.1.nextConnectionId) with
  | none => rfl
  | some id =>
    obtain ⟨member, same⟩ := (named.map _ _).mp found
    have before := named.numbered id member
    exact absurd (conName_inj fresh (before.trans fresh) same).symm (Nat.ne_of_lt before)

/-- Two connections, the second of which is closed by its peer. -/
def secondCloses : List (Event Unit) :=
  [.poll () [], .newConnetion (), .newConnetion (), .doPendingFunctors (), .iterate (),
    .poll () [(1, {.EPOLLIN})], .handleEvent () (.delivered []) [] [] []]

theorem names_exact_dummy :
    let s := run (recorded (step ()) (recordMap (ascii "dummy") ())) ({}, {}) secondCloses
    (∀ key id, s.2.connections_ key = some id ↔
        id ∈ s.1.connections ∧ key = conName (ascii "dummy") id) ∧
      s.2.assertFailed = s.1.assertFailed ∧
      (s.1.nextConnectionId < intMax →
        s.2.connections_ (conName (ascii "dummy") s.1.nextConnectionId) = none) :=
  names_exact (ascii "dummy") () secondCloses (by decide +kernel)

end TcpServer

end RabbitServer.Net
