import Cryptoki.Module.Function
import Cryptoki.Table
import Cryptoki.Token.Object

/-!
A token in memory, that behaves enough like a real one to drive sessions through their
protocols. Failures can be injected into any of its functions.
-/
namespace Cryptoki

namespace Token

structure Operation where
  mechanism : Code
  data : Bytes
  deriving DecidableEq, Repr

/-- A failure to come: how many calls are let through before, and what it returns. -/
structure Failure where
  skip : Nat
  rv : Code
  deriving DecidableEq, Repr

end Token

structure Token where
  lastSession : Handle
  sessions : List Handle
  lastObject : Handle
  objects : Table Handle Token.Object
  operations : Table (Handle × OperationKind) Token.Operation
  searches : Table Handle (List Handle)
  failures : Table Function Token.Failure
  calls : List Function

namespace Token

def new : Token := ⟨0, [], 0, .empty, .empty, .empty, .empty, []⟩

instance : Inhabited Token := ⟨new⟩

def failAfter (t : Token) (f : Function) (skip : Nat) (rv : Code) : Token :=
  { t with failures := t.failures.insert f ⟨skip, rv⟩ }

def addObject (t : Token) (o : Object) : Token × Handle :=
  let h := t.lastObject + 1
  ({ t with lastObject := h, objects := t.objects.insert h o }, h)

def objectValue? (t : Token) (object : Handle) (type : Code) : Option Value :=
  (t.objects.get? object).bind (·.value? type)

def callCount (t : Token) (f : Function) : Nat := t.calls.count f

def dueFailure (t : Token) (f : Function) : Token × Option Code :=
  match t.failures.get? f with
  | none => (t, none)
  | some ⟨0, rv⟩ => ({ t with failures := t.failures.erase f }, some rv)
  | some ⟨skip + 1, rv⟩ => ({ t with failures := t.failures.insert f ⟨skip, rv⟩ }, none)

def dropOperation (t : Token) (h : Handle) (f : Function) : Token :=
  match f.operation? with
  | some kind => { t with operations := t.operations.erase (h, kind) }
  | none => t

def record (t : Token) (f : Function) : Token := { t with calls := t.calls ++ [f] }

/-- Counts the call. It is refused if a failure is due, which also ends the operation that it
belongs to, or if the session is not open. -/
def enter (t : Token) (f : Function) (h : Handle) : Token × Option Code :=
  match (t.record f).dueFailure f with
  | (t, some rv) => (t.dropOperation h f, some rv)
  | (t, none) =>
    (t, if t.sessions.contains h then none else some Return.sessionHandleInvalid)

def cipher (data : Bytes) : Bytes := data.map (· ^^^ 0x5a)

def accumulate (mechanism : Code) (data : Bytes) : UInt64 :=
  data.foldl (fun acc b => acc * 31 + b.toUInt64) mechanism

/-- Stands for signatures and digests: eight bytes, the most significant first. -/
def tag (mechanism : Code) (data : Bytes) : Bytes :=
  (Bytes.ofWord (accumulate mechanism data)).reverse

def output (kind : OperationKind) (op : Operation) (data : Bytes) : Bytes :=
  match kind with
  | .encrypt | .decrypt => cipher (op.data ++ data)
  | .signRecover | .verifyRecover => (op.data ++ data).reverse
  | _ => tag op.mechanism (op.data ++ data)

end Token

end Cryptoki
