import Cryptoki.Proofs.Session.Ledger
import Cryptoki.Token.Answer

/-!
A bench: the token in memory with all sessions that are open on it, each with the history of its
calls. What a history says of an operation is the mechanism of its start, and the chunks that it has
been fed since.
-/
namespace Cryptoki

namespace Session

abbrev History := List (Call × Result Outcome)

variable {k : OperationKind} {history : History} {e : Call × Result Outcome}

def isStart (k : OperationKind) (e : Call × Result Outcome) : Bool :=
  e.2.isOk && e.1.role? == some (k, .start)

/-- What the operation was fed by an update that succeeded. Updates with output feed nothing. -/
def chunk? (k : OperationKind) : Call × Result Outcome → Option Bytes
  | (.feed f data, .ok _) => if f.kind = k then some data else none
  | _ => none

def startedWith (k : OperationKind) (history : History) : Option Code :=
  (history.filter (isStart k)).getLast?.bind (·.1.mechanism?)

def sinceStart (k : OperationKind) (history : History) : History :=
  (history.reverse.takeWhile fun e => !isStart k e).reverse

def chunks (k : OperationKind) (history : History) : List Bytes :=
  (sinceStart k history).filterMap (chunk? k)

theorem startedWith_append_start (start : isStart k e) :
    startedWith k (history ++ [e]) = e.1.mechanism? := by
  simp [startedWith, start]

theorem startedWith_append (other : isStart k e = false) :
    startedWith k (history ++ [e]) = startedWith k history := by
  simp [startedWith, other]

theorem chunks_append_start (start : isStart k e) : chunks k (history ++ [e]) = [] := by
  simp [chunks, sinceStart, start]

theorem chunks_append (other : isStart k e = false) :
    chunks k (history ++ [e]) = chunks k history ++ (chunk? k e).toList := by
  have kept : sinceStart k (history ++ [e]) = sinceStart k history ++ [e] := by
    simp [sinceStart, other]
  rw [chunks, kept, List.filterMap_append]
  cases fed : chunk? k e <;> simp [chunks, fed]

theorem kind_of_isStart (start : isStart k e) : e.1.kind? = some k := by
  have role : e.1.role? = some (k, .start) := by
    simp only [isStart, Bool.and_eq_true, beq_iff_eq] at start
    exact start.2
  rw [Call.kind?, role]
  rfl

theorem kind_of_chunk {data : Bytes} (fed : chunk? k e = some data) : e.1.kind? = some k := by
  obtain ⟨c, r⟩ := e
  cases c
  case feed f chunk =>
    cases r with
    | error error => cases fed
    | ok v =>
      by_cases same : f.kind = k
      · exact congrArg some same
      · simp [chunk?, same] at fed
  all_goals cases fed

theorem silent_of_kind_ne (other : e.1.kind? ≠ some k) :
    isStart k e = false ∧ chunk? k e = none := by
  constructor
  · exact Bool.eq_false_iff.mpr fun start => other (kind_of_isStart start)
  · exact Option.eq_none_iff_forall_ne_some.mpr fun data fed => other (kind_of_chunk fed)

theorem silent_of_error {c : Call} {error : Error} :
    isStart k (c, .error error) = false ∧ chunk? k (c, .error error) = none := by
  constructor
  · rfl
  · cases c <;> rfl

end Session

structure Desk where
  session : Session
  history : Session.History

structure Bench where
  host : Host Token
  desks : Table Handle Desk

namespace Bench

def new : Bench := ⟨⟨.new, []⟩, .empty⟩

inductive Event where
  | openSession (slot flags : UInt64)
  | call (handle : Handle) (c : Session.Call)
  | close (handle : Handle)
  /-- A session is let go of without being closed, and closes itself. -/
  | drop (handle : Handle)
  | failAfter (f : Function) (skip : Nat) (rv : Code)
  | addObject (o : Token.Object)

def step (b : Bench) : Event → Bench
  | .openSession slot flags =>
    match Session.openOn Token.module slot flags b.host with
    | (.ok s, host) => ⟨host, b.desks.insert s.handle ⟨s, []⟩⟩
    | (.error _, host) => ⟨host, b.desks⟩
  | .call handle c =>
    match b.desks.get? handle with
    | none => b
    | some d =>
      let (r, s, host) := Session.step Token.module c d.session b.host
      ⟨host, b.desks.insert handle ⟨s, d.history ++ [(c, r)]⟩⟩
  | .close handle =>
    match b.desks.get? handle with
    | none => b
    | some d => ⟨(d.session.close Token.module b.host).2, b.desks.erase handle⟩
  | .drop handle =>
    match b.desks.get? handle with
    | none => b
    | some d => ⟨(d.session.drop Token.module b.host).2, b.desks.erase handle⟩
  | .failAfter f skip rv => ⟨⟨b.host.state.failAfter f skip rv, b.host.journal⟩, b.desks⟩
  | .addObject o => ⟨⟨(b.host.state.addObject o).1, b.host.journal⟩, b.desks⟩

def run (b : Bench) (events : List Event) : Bench := events.foldl step b

end Bench

end Cryptoki
