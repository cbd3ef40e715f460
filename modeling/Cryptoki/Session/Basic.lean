import Cryptoki.Mechanism.Protocol
import Cryptoki.Module.Basic

/-!
Sessions, and the state of their operations. Each kind of operation has a state of its own. A
call that does not fit the state fails before anything reaches the module; an error of the
module ends the operation.
-/
namespace Cryptoki

/-- One kind of operation in a session: its state, and what its start said of the mechanism. -/
structure Operation where
  state : OperationState
  mechanism : Code
  protocol : Protocol
  deriving DecidableEq, Repr

def noMechanism : Code := 0xffffffffffffffff

def Operation.idle : Operation := ⟨.idle, noMechanism, .unclassified⟩

structure Session where
  handle : Handle
  slot : UInt64
  operation : OperationKind → Operation

namespace Session

def state (s : Session) (kind : OperationKind) : OperationState := (s.operation kind).state

def active (s : Session) : List OperationKind :=
  OperationKind.all.filter fun k => s.state k ≠ .idle

def isIdle (s : Session) : Bool := s.active.isEmpty

def setOperation (s : Session) (kind : OperationKind) (op : Operation) : Session :=
  { s with operation := fun k => if k = kind then op else s.operation k }

def checkStart (s : Session) (kind : OperationKind) : Result Unit :=
  let op := s.operation kind
  if op.state = .idle then .ok () else .error (.operationActive kind (mechanismName op.mechanism))

def checkActive (s : Session) (kind : OperationKind) : Result Operation :=
  let op := s.operation kind
  if op.state = .idle then .error (.operationMissing kind) else .ok op

def checkUpdate (s : Session) (kind : OperationKind) : Result Unit := do
  let op ← s.checkActive kind
  if op.protocol.isSingleStep then .error (.updateUnsupported kind (mechanismName op.mechanism))

def checkOneShot (s : Session) (kind : OperationKind) : Result Unit := do
  let op ← s.checkActive kind
  if op.state = .updated then .error (.singlePartAfterUpdate kind)

def checkFinal (s : Session) (kind : OperationKind) : Result Unit := do
  let op ← s.checkActive kind
  if op.protocol.isSingleStep then .error (.finalUnsupported kind (mechanismName op.mechanism))

end Session

/-- What an action can come to instead of a value. -/
class Fault (ε : Type) where
  ofError : Error → ε
  /-- The error that a caller gets in hand, if it gets one. -/
  error? : ε → Option Error
  /-- What asking for a buffer of so many bytes comes to, if it cannot be had. -/
  lack : Nat → Option ε

/-- Where every buffer can be had, errors are all that actions fail with. -/
@[default_instance]
instance : Fault Error := ⟨id, some, fun _ => none⟩

/-- The most bytes that a buffer can have, however much memory there is. -/
def bufferLimit : Nat := 0x7fffffffffffffff

/-- Where buffers have that limit, an action that asks for more does not return: it unwinds, past
whatever its callers do about errors. -/
inductive Halt where
  | error (e : Error)
  | unwound

def Halt.error? : Halt → Option Error
  | .error e => some e
  | .unwound => none

instance : Fault Halt :=
  ⟨.error, Halt.error?, fun size => if bufferLimit < size then some .unwound else none⟩

/-- What is done in a session. The session and the host keep what happened before a failure. -/
abbrev ActionM (ε σ : Type) := ExceptT ε (StateT Session (HostM σ))

abbrev SessionM (σ : Type) := ActionM Error σ

namespace SessionM

variable {ε σ : Type} [Fault ε]

def ofResult : Result α → ActionM ε σ α
  | .ok a => pure a
  | .error e => throw (Fault.ofError e)

def ofHost (act : HostM σ α) : ActionM ε σ α := ExceptT.mk fun s h =>
  let (a, h) := act h
  ((.ok a, s), h)

def tell (level : Level) (text : String) : ActionM ε σ Unit := ofHost (note level text)

/-- What an action returns, failure or not. One that unwinds does not get here. -/
def outcome (act : ActionM ε σ α) : ActionM ε σ (Result α) := ExceptT.mk do
  match ← act.run with
  | .ok a => return .ok (.ok a)
  | .error f =>
    match Fault.error? f with
    | some e => return .ok (.error e)
    | none => return .error f

def askAnswer (M : Module σ) (q : Request s) : ActionM ε σ (Answer s) :=
  ofHost (M.ask q)

def ask (M : Module σ) (q : Request s) : ActionM ε σ s.Value := do
  ofResult (← askAnswer M q).result

/-- Makes room for so many bytes. -/
def reserve (size : Nat) : ActionM ε σ Unit :=
  match Fault.lack size with
  | none => pure ()
  | some f => throw f

def ownHandle : ActionM ε σ Handle := return (← get).handle

def stateNote (s : Session) (kind : OperationKind) (state : OperationState) : String :=
  "session " ++ toString s.handle ++ ": " ++ kind.title ++ " " ++ (s.state kind).title ++ " -> " ++
    state.title

def setState (kind : OperationKind) (state : OperationState) : ActionM ε σ Unit := do
  let s ← get
  if s.state kind ≠ state then tell .debug (stateNote s kind state)
  set (s.setOperation kind
    (if state = .idle then .idle else { s.operation kind with state := state }))

/-- A call that ends the operation, whatever it returns. -/
def finishing (kind : OperationKind) (act : ActionM ε σ α) : ActionM ε σ α := do
  let r ← outcome act
  setState kind .idle
  ofResult r

/-- A call that goes on with the operation, unless it fails. -/
def updating (kind : OperationKind) (act : ActionM ε σ α) : ActionM ε σ α := do
  match ← outcome act with
  | .ok a =>
    setState kind .updated
    return a
  | .error e =>
    setState kind .idle
    throw (Fault.ofError e)

def starting (M : Module σ) (kind : OperationKind) (m : Mechanism)
    (q : Handle → MechanismBlock → Request .done) : ActionM ε σ Unit := do
  ofResult ((← get).checkStart kind)
  let p := protocol m.code kind
  if p = .notSupported then
    tell .debug (m.name ++ " is not known to support " ++ kind.title)
  ask M (q (← ownHandle) m.layOut.2)
  modify fun s => s.setOperation kind { s.operation kind with mechanism := m.code, protocol := p }
  setState kind .initialized

/-- Asks for the length of the output, then for the output in a buffer of that length, however much
the module says it is. Of the buffer as much is kept as the second answer says. -/
def sizedOutput (M : Module σ) (q : Option Nat → Request .length) : ActionM ε σ Bytes := do
  let size ← ask M (q none)
  reserve size
  let a ← askAnswer M (q (some size))
  let length ← ofResult a.result
  return a.written.buffer (min size length)

end SessionM

end Cryptoki
