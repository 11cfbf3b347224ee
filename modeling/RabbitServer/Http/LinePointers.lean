import RabbitServer.Http.RequestLine
import RabbitServer.Library.Ranges

/-! `processRequestLine` pointer by pointer: a pointer is its distance from `begin`, and every
access is checked against the line. -/

namespace RabbitServer.Http
open RabbitServer.Net Library.Ranges

/-- What can go wrong while a buffer is parsed: one of the three assertions, a pointer outside
the range it belongs to, a loop that never ends. -/
inductive Fault where
  | setMethod | findCLRF | retrieveUntill
  | outside
  | spins
  deriving DecidableEq

def Fault.ofHalt : Halt → Fault
  | .assertFailed => .setMethod
  | .spins => .spins

def inside {α : Type} (access : Option α) : Except Fault α :=
  match access with
  | some value => .ok value
  | none => .error .outside

@[simp] theorem inside_bind {α β : Type} (value : α) (next : α → Except Fault β) :
    (inside (some value) >>= next) = next value := rfl

@[simp] theorem ok_bind {α β : Type} (value : α) (next : α → Except Fault β) :
    (Except.ok value >>= next) = next value := rfl

@[simp] theorem error_bind {α β : Type} (fault : Fault) (next : α → Except Fault β) :
    ((Except.error fault : Except Fault α) >>= next) = .error fault := rfl

/-- `setPath` and `setQuery` on the target `[start, space)`. -/
def setTargetAt (request : HttpRequest) (line : Bytes) (start space : Nat) :
    Except Fault HttpRequest := do
  let question ← inside (find line start space QUESTION)
  if question ≠ space then
    let path ← inside (copy line start question)
    let query ← inside (copy line question space)
    pure ((request.setPath path).setQuery query)
  else
    let path ← inside (copy line start space)
    pure (request.setPath path)

/-- The comparison of `[start, end - 1)`, and the version at `end - 1`. -/
def setVersionAt (request : HttpRequest) (line : Bytes) (start stop : Nat) :
    Except Fault (Bool × HttpRequest) := do
  if stop - start = 8 then
    let fixed ← inside (equal line (stop - 1) (ascii "HTTP/1.") start)
    if fixed then
      let last ← inside (line)[stop - 1]?
      if last = 49 then pure (true, request.setVersion .kHttp11)
      else if last = 48 then pure (true, request.setVersion .kHttp10)
      else pure (false, request)
    else pure (false, request)
  else pure (false, request)

/-- `processRequestLine` on the bytes `[begin, end)`. -/
def processRequestLineAt (request : HttpRequest) (line : Bytes) :
    Except Fault (Bool × HttpRequest) := do
  let stop := line.length
  let space ← inside (find line 0 stop SP)
  if space ≠ stop then
    let token ← inside (copy line 0 space)
    let (known, request) ← (request.setMethod token).mapError Fault.ofHalt
    if known then
      let start := space + 1
      let space ← inside (find line start stop SP)
      if space ≠ stop then
        let request ← setTargetAt request line start space
        setVersionAt request line (space + 1) stop
      else pure (false, request)
    else pure (false, request)
  else pure (false, request)

section
variable (request : HttpRequest) {line : Bytes}

theorem setTargetAt_eq {start space : Nat} (ordered : start ≤ space) (bound : space ≤ line.length) :
    setTargetAt request line start space = .ok (setTarget request (slice line start space)) := by
  have length : (slice line start space).length = space - start := slice_length line bound
  have at_most := List.idxOf_le_length (a := QUESTION) (l := slice line start space)
  have path := slice_take line start space ((slice line start space).idxOf QUESTION)
  have query := slice_drop line start ((slice line start space).idxOf QUESTION) space
  rw [length] at at_most
  simp only [setTargetAt, setTarget, find_eq line QUESTION ordered bound, inside_bind, length]
  generalize (slice line start space).idxOf QUESTION = count at *
  by_cases present : count ≠ space - start
  · rw [if_pos present, if_pos (show start + count ≠ space by omega), path (by omega), query,
      copy_eq line (show start ≤ start + count by omega) (by omega),
      copy_eq line (show start + count ≤ space by omega) bound]
    rfl
  · rw [if_neg present, if_neg (show ¬ start + count ≠ space by omega),
      copy_eq line ordered bound]
    rfl

theorem setVersionAt_eq {start : Nat} (ordered : start ≤ line.length) :
    setVersionAt request line start line.length = .ok (setVersionOf request (line.drop start)) := by
  simp only [setVersionAt, setVersionOf, List.length_drop]
  by_cases long : line.length - start = 8
  · -- the last pointer of the line is taken only here, where there are eight bytes before `end`
    have seven : start + (ascii "HTTP/1.").length = line.length - 1 := by
      have : (ascii "HTTP/1.").length = 7 := by decide
      omega
    have fixed : slice line start (line.length - 1) = (line.drop start).take 7 := by
      rw [← slice_end, slice_take line start line.length 7 (by omega)]
      congr 1
      omega
    have last : (line)[line.length - 1]? = (line.drop start).getLast? := by
      rw [List.getLast?_drop, if_neg (by omega), List.getLast?_eq_getElem?]
    obtain ⟨byte, here⟩ : ∃ byte, (line)[line.length - 1]? = some byte :=
      ⟨_, List.getElem?_eq_getElem (by omega)⟩
    rw [if_pos long, equal_eq line _ (by omega) seven, fixed, ← last, here]
    simp only [inside_bind, long, true_and, decide_eq_true_eq, Option.some.injEq]
    split_ifs <;> rfl
  · rw [if_neg long, if_neg fun both => long both.1]
    rfl

/-- Followed pointer by pointer the line is evaluated as a whole: no access leaves it. -/
theorem processRequestLineAt_eq (line : Bytes) :
    processRequestLineAt request line =
      (processRequestLine request line).mapError Fault.ofHalt := by
  have bound := List.idxOf_le_length (a := SP) (l := line)
  have space := find_eq line SP (Nat.zero_le _) (Nat.le_refl line.length)
  rw [slice_end, List.drop_zero, Nat.zero_add] at space
  simp only [processRequestLineAt, processRequestLine, space, inside_bind]
  by_cases spaced : line.idxOf SP ≠ line.length
  · rw [if_pos spaced, if_pos spaced, copy_eq line (Nat.zero_le _) bound, inside_bind, slice_zero]
    cases request.setMethod (line.take (line.idxOf SP)) with
    | error halt => rfl
    | ok result =>
      obtain ⟨known, next⟩ := result
      cases known with
      | false => rfl
      | true =>
        generalize begins : line.idxOf SP + 1 = start
        have ordered : start ≤ line.length := by omega
        have rest : (line.drop start).length = line.length - start := List.length_drop
        have second := find_eq line SP ordered (Nat.le_refl line.length)
        have at_most := List.idxOf_le_length (a := SP) (l := line.drop start)
        have target := slice_take line start line.length ((line.drop start).idxOf SP)
        rw [slice_end] at second target
        rw [rest] at at_most
        simp only [Except.mapError, Except.bind, bind, if_true, second, rest, inside]
        generalize (line.drop start).idxOf SP = count at *
        by_cases other : count ≠ line.length - start
        · have named : setTargetAt next line start (start + count) =
              .ok (setTarget next (slice line start (start + count))) :=
            setTargetAt_eq next (Nat.le_add_right start count) (by omega)
          have version := setVersionAt_eq (setTarget next (slice line start (start + count)))
            (show start + count + 1 ≤ line.length by omega)
          rw [if_pos other, if_pos (by omega), target (by omega), List.drop_drop, named]
          exact version
        · rw [if_neg other, if_neg (by omega)]
          rfl
  · rw [if_neg spaced, if_neg spaced]
    rfl

end

end RabbitServer.Http
