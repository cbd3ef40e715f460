import Cryptoki.Module.Basic
import Cryptoki.Token.Basic

/-!
Operations of the token in memory: how they start, take data and give output.
-/
namespace Cryptoki.Token

def refuse (rv : Code) (t : Token) : Answer s × Token :=
  (⟨.nothing, .error (.returned rv)⟩, t)

def give (v : s.Value) (t : Token) : Answer s × Token := (⟨.nothing, .ok v⟩, t)

def begin (kind : OperationKind) (h : Handle) (code : Code) (t : Token) : Answer .done × Token :=
  if code = vendorBit then refuse Return.mechanismInvalid t
  else if t.operations.contains (h, kind) then refuse Return.operationActive t
  else give () { t with operations := t.operations.insert (h, kind) ⟨code, []⟩ }

/-- Puts output into the buffer, or gives its length when there is none. -/
def deliver (b : Bytes) (capacity : Option Nat) (t : Token) : Answer .length × Token :=
  match capacity with
  | none => give b.length t
  | some n =>
    if n < b.length then refuse Return.bufferTooSmall t else (⟨.bytes b, .ok b.length⟩, t)

/-- Output that ends the operation. A question for its length does not, but a buffer that is too
small does. -/
def conclude (kind : OperationKind) (h : Handle) (data : Bytes) (capacity : Option Nat)
    (t : Token) : Answer .length × Token :=
  match t.operations.get? (h, kind) with
  | none => refuse Return.operationNotInitialized t
  | some op =>
    deliver (output kind op data) capacity
      (if capacity.isSome then { t with operations := t.operations.erase (h, kind) } else t)

def stream (kind : OperationKind) (h : Handle) (data : Bytes) (capacity : Option Nat)
    (t : Token) : Answer .length × Token :=
  match t.operations.get? (h, kind) with
  | none => refuse Return.operationNotInitialized t
  | some _ => deliver (cipher data) capacity t

def feed (kind : OperationKind) (h : Handle) (data : Bytes) (t : Token) : Answer .done × Token :=
  match t.operations.get? (h, kind) with
  | none => refuse Return.operationNotInitialized t
  | some op =>
    give () { t with operations :=
      t.operations.insert (h, kind) { op with data := op.data ++ data } }

def check (h : Handle) (data signature : Bytes) (t : Token) : Answer .done × Token :=
  match t.operations.get? (h, .verify) with
  | none => refuse Return.operationNotInitialized t
  | some op =>
    let t' := { t with operations := t.operations.erase (h, .verify) }
    if output .verify op data = signature then give () t'
    else refuse Return.signatureInvalid t'

end Cryptoki.Token
