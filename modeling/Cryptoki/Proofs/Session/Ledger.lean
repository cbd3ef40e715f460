import Cryptoki.Session.Call

/-!
The protocol of the operations, told without sessions: which calls are refused, and what state a
call leaves. A ledger knows of a run what was called, and what succeeded.
-/
namespace Cryptoki.Session

inductive Role where
  | start
  | oneShot
  | update
  | final
  | whole
  deriving DecidableEq, Repr

namespace Call

def role? : Call → Option (OperationKind × Role)
  | .init k _ _ => some (k.kind, .start)
  | .digestInit _ => some (.digest, .start)
  | .findObjectsInit _ => some (.findObjects, .start)
  | .oneShot k _ => some (k.kind, .oneShot)
  | .verify _ _ => some (.verify, .oneShot)
  | .stream k _ => some (k.kind, .update)
  | .feed k _ => some (k.kind, .update)
  | .findObjectsNext _ => some (.findObjects, .update)
  | .finish k => some (k.kind, .final)
  | .verifyFinal _ => some (.verify, .final)
  | .findObjectsFinal => some (.findObjects, .final)
  | .findObjects _ _ => some (.findObjects, .whole)
  | _ => none

def mechanism? : Call → Option Code
  | .init _ m _ | .digestInit m => some m.code
  | _ => none

def kind? (c : Call) : Option OperationKind := c.role?.map (·.1)

end Call

structure Ledger where
  state : OperationKind → OperationState
  /-- The mechanism of the last start that succeeded. Searches have none. -/
  mechanism : OperationKind → Option Code

namespace Ledger

def fresh : Ledger := ⟨fun _ => .idle, fun _ => none⟩

def isSingleStep (l : Ledger) (k : OperationKind) : Bool :=
  match l.mechanism k with
  | some m => protocol m k = .singleShot ∨ protocol m k = .recover
  | none => false

def refusesRole (l : Ledger) (k : OperationKind) : Role → Bool
  | .start | .whole => l.state k ≠ .idle
  | .oneShot => l.state k ≠ .initialized
  | .update | .final => l.state k = .idle ∨ l.isSingleStep k

def refuses (l : Ledger) (c : Call) : Bool :=
  match c.role? with
  | some (k, role) => l.refusesRole k role
  | none => false

def setState (l : Ledger) (k : OperationKind) (state : OperationState) : Ledger :=
  { l with state := fun j => if j = k then state else l.state j }

def setMechanism (l : Ledger) (k : OperationKind) (m : Option Code) : Ledger :=
  { l with mechanism := fun j => if j = k then m else l.mechanism j }

def after (l : Ledger) (c : Call) (succeeded : Bool) : Ledger :=
  if l.refuses c then l
  else
    match c.role?, succeeded with
    | none, _ => l
    | some (k, .start), true => (l.setState k .initialized).setMechanism k c.mechanism?
    | some (_, .start), false => l
    | some (k, .update), true => l.setState k .updated
    | some (k, .update), false => l.setState k .idle
    | some (k, .oneShot), _ | some (k, .final), _ | some (k, .whole), _ => l.setState k .idle

def afterAll (l : Ledger) : List (Call × Result Outcome) → Ledger
  | [] => l
  | (c, r) :: rest => (l.after c r.isOk).afterAll rest

end Ledger

end Cryptoki.Session
