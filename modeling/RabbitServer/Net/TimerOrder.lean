import RabbitServer.Net.TimerKept

/-! What stands in `timers_`, and in which order: the multimap against the story of what the
queue has done. -/

namespace RabbitServer.Net

/-- The clock reading that is taken. -/
def Did.reading : Did → Option Timestamp
  | .addTimer _ _ now | .handleRead now => some now
  | _ => none

/-- The entry that is inserted: `addTimer` takes no timer that is past. -/
def Did.inserted : Did → Option (Timestamp × Nat)
  | .addTimer id expiration now => if expiration < now then none else some (expiration, id)
  | _ => none

namespace TimerQueue
open Library

/-- The clock does not go back from one reading of the queue to the next. -/
def Clock (did : List Did) : Prop := (did.filterMap Did.reading).Pairwise (· ≤ ·)

def inserted (did : List Did) : List (Timestamp × Nat) := did.filterMap Did.inserted

variable {wide : ℚ → Int32} {s : TimerQueue}

theorem Clock.of_prefix {did later : List Did} (before : did <+: later) (clock : Clock later) :
    Clock did :=
  List.Pairwise.sublist (before.filterMap Did.reading).sublist clock

/-- Behind the ticks so far nothing is due, and what is due at none of them is in `timers_` as it
was inserted. -/
structure Timely (timers : Multimap Timestamp Nat) (did : List Did) : Prop where
  past : ∀ now, .handleRead now ∈ did → ∀ entry ∈ timers.entries, now ≤ entry.1
  kept : ∀ key, (∀ now, .handleRead now ∈ did → now ≤ key) →
    timers.group key = (inserted did).filter fun entry => entry.1 = key

/-- As far as the clock has not gone back. -/
def Timed (s : TimerQueue) : Prop := Clock s.did → Timely s.timers s.did

theorem inserted_concat (did : List Did) (d : Did) :
    inserted (did ++ [d]) = inserted did ++ d.inserted.toList := by
  rw [inserted, List.filterMap_append, List.filterMap_cons, List.filterMap_nil]
  cases d.inserted <;> rfl

section
variable {d : Did} (other : ∀ now, d ≠ .handleRead now)
include other

theorem ticked_concat {did : List Did} {now : Timestamp} :
    .handleRead now ∈ did ++ [d] ↔ .handleRead now ∈ did := by
  rw [List.mem_append, List.mem_singleton]
  exact or_iff_left fun same => other now same.symm

/-- What inserts nothing has nothing to do with the entries. -/
theorem Timed.log (timed : s.Timed) (none : d.inserted = none) : (s.log d).Timed := by
  intro clock
  have before := timed (clock.of_prefix (List.prefix_append _ _))
  constructor
  · exact fun now ticked => before.past now ((ticked_concat other).mp ticked)
  · intro key above
    have same := before.kept key fun now ticked => above now ((ticked_concat other).mpr ticked)
    show s.timers.group key = (inserted (s.did ++ [d])).filter _
    rw [inserted_concat, none, same]
    exact (List.append_nil _).symm ▸ rfl

end

theorem Clock.le_of_ticked {did : List Did} {d : Did} {read now : Timestamp}
    (clock : Clock (did ++ [d])) (ticked : .handleRead read ∈ did) (here : d.reading = some now) :
    read ≤ now := by
  rw [Clock, List.filterMap_append, List.pairwise_append] at clock
  apply clock.2.2
  · exact List.mem_filterMap.mpr ⟨_, ticked, rfl⟩
  · exact List.mem_filterMap.mpr ⟨d, List.mem_singleton_self d, here⟩

/-- A timer that is due at no tick so far is inserted behind those with its expiration. -/
theorem Timely.insert {timers : Multimap Timestamp Nat} {did : List Did}
    (timely : Timely timers did) {id : Nat} {expiration now : Timestamp}
    (early : ¬ expiration < now) (above : ∀ read, .handleRead read ∈ did → read ≤ expiration) :
    Timely (timers.insert expiration id) (did ++ [.addTimer id expiration now]) := by
  have other : ∀ read, Did.addTimer id expiration now ≠ .handleRead read := nofun
  have entry : (Did.addTimer id expiration now).inserted = some (expiration, id) := if_neg early
  constructor
  · intro read ticked e member
    have ticked := (ticked_concat other).mp ticked
    rcases (Multimap.mem_insert ..).mp member with rfl | old
    · exact above read ticked
    · exact timely.past read ticked e old
  · intro key later
    have same := timely.kept key fun read ticked => later read ((ticked_concat other).mpr ticked)
    rw [inserted_concat, entry, List.filter_append, ← same]
    by_cases this : expiration = key
    · subst this
      rw [Multimap.group_insert_self]
      simp
    · rw [Multimap.group_insert_ne _ _ _ this]
      simp [this]

/-- A timer that is taken is due at no tick so far: the clock has not gone back. -/
theorem Timed.addTimer (timed : s.Timed) (id : Nat) (now : Timestamp) :
    (s.addTimer id now).2.Timed := by
  unfold TimerQueue.addTimer
  split
  next timer _ =>
    simp only
    split_ifs with late
    · exact timed.log (d := .addTimer id timer.expiration now) nofun (if_pos late)
    · intro clock
      have clock : Clock (s.did ++ [.addTimer id timer.expiration now]) := clock
      apply (timed (clock.of_prefix (List.prefix_append _ _))).insert late
      exact fun read ticked => (clock.le_of_ticked ticked rfl).trans (not_lt.mp late)
  next => exact timed

/-- A tick takes out what is due. -/
theorem Timed.tick (timed : s.Timed) (now : Timestamp) :
    ((s.log (.handleRead now)).getExpiredTimers now).Timed := by
  rw [getExpiredTimers_eq]
  intro clock
  have clock : Clock (s.did ++ [.handleRead now]) := clock
  have before := timed (clock.of_prefix (List.prefix_append _ _))
  constructor
  · intro read ticked entry member
    obtain ⟨old, above⟩ := (Multimap.mem_eraseBelow ..).mp member
    rcases List.mem_append.mp ticked with earlier | this
    · exact before.past read earlier entry old
    · cases List.mem_singleton.mp this
      exact above
  · intro key above
    have here : now ≤ key := above now (List.mem_append_right _ (List.mem_singleton_self _))
    have same := before.kept key fun read ticked => above read (List.mem_append_left _ ticked)
    show (s.timers.eraseBelow now).group key = (inserted (s.did ++ [.handleRead now])).filter _
    rw [Multimap.group_eraseBelow _ _ here, same, inserted_concat]
    exact (List.append_nil _).symm ▸ rfl

theorem Timed.call (timed : s.Timed) (c : Call) : (s.call wide c).Timed := by
  cases c with
  | inLoop request made now =>
    exact Timed.addTimer (s := s.newTimer wide made request) timed s.asked.length now
  | newTimer request made => exact timed
  | queueInLoop caller =>
    simp only [TimerQueue.call]
    split <;> exact timed

theorem Timed.calls (timed : s.Timed) (cs : List Call) : (s.calls wide cs).Timed := by
  induction cs generalizing s with
  | nil => exact timed
  | cons c rest ih => exact ih (timed.call c)

theorem Timed.resetTimer (timed : s.Timed) (id : Nat) (turn : Turn) :
    (s.resetTimer wide id turn).Timed := by
  unfold TimerQueue.resetTimer
  split
  next timer _ =>
    have run : ((s.log (.run id)).calls wide turn.calls).Timed :=
      (timed.log (d := .run id) nofun rfl).calls turn.calls
    simp only
    split_ifs
    · exact Timed.addTimer (s := TimerQueue.store _ id _) run id turn.now
    · exact Timed.log (s := TimerQueue.store _ id none) (d := .free id) nofun run rfl
  next => exact timed

theorem Timed.resetTimers (timed : s.Timed) (batch : List (Timestamp × Nat)) (turns : Nat → Turn) :
    (TimerQueue.resetTimers wide batch turns s).Timed := by
  induction batch generalizing s turns with
  | nil => exact timed
  | cons entry rest ih => exact ih (timed.resetTimer entry.2 (turns 0)) _

theorem Timed.step (timed : s.Timed) (event : Event) : (s.step wide event).Timed := by
  cases event with
  | call c => exact timed.call c
  | functor now =>
    simp only [TimerQueue.step]
    split
    next id rest _ =>
      exact Timed.addTimer (s := { s with pendingFunctors := rest }) timed id now
    next => exact timed
  | handleRead now turns =>
    rw [TimerQueue.step, handleRead_eq]
    exact (timed.tick now).resetTimers _ turns

end TimerQueue
end RabbitServer.Net
