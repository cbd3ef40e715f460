import Cryptoki.Session.Basic
import Cryptoki.Wire.Template

/-!
What a session can be asked to do. Calls that belong to an operation keep to its protocol; the
others leave all operations as they are.
-/
namespace Cryptoki

def serialFlag : UInt64 := 4

namespace Session

variable {ε σ : Type} [Fault ε]

def openOn (M : Module σ) (slot flags : UInt64) : HostM σ (Result Session) := do
  if flags &&& serialFlag ≠ serialFlag then return .error .serialFlagMissing
  match (← M.ask (.openSession slot flags)).result with
  | .error e => return .error e
  | .ok h =>
    note .debug ("opened session " ++ toString h ++ " on slot " ++ toString slot.toNat)
    return .ok ⟨h, slot, fun _ => .idle⟩

def close (M : Module σ) (s : Session) : HostM σ (Result Unit) := do
  note .debug ("closing session " ++ toString s.handle)
  return (← M.ask (.closeSession s.handle)).result

def closeFailure (s : Session) (e : Error) : String :=
  "failed to close session " ++ toString s.handle ++ ": " ++ e.message

def drop (M : Module σ) (s : Session) : HostM σ Unit := do
  match (← M.ask (.closeSession s.handle)).result with
  | .ok () => pure ()
  | .error e => note .warn (s.closeFailure e)

open SessionM

def init (M : Module σ) (k : Keyed) (m : Mechanism) (key : Handle) : ActionM ε σ Unit :=
  starting M k.kind m fun h b => .init k h b key

def digestInit (M : Module σ) (m : Mechanism) : ActionM ε σ Unit :=
  starting M .digest m .digestInit

def oneShot (M : Module σ) (k : OneShot) (data : Bytes) : ActionM ε σ Bytes := do
  ofResult ((← get).checkOneShot k.kind)
  let h ← ownHandle
  finishing k.kind (sizedOutput M (.oneShot k h data))

def stream (M : Module σ) (k : Stream) (data : Bytes) : ActionM ε σ Bytes := do
  ofResult ((← get).checkUpdate k.kind)
  let h ← ownHandle
  updating k.kind (sizedOutput M (.stream k h data))

def feed (M : Module σ) (k : Feed) (data : Bytes) : ActionM ε σ Unit := do
  ofResult ((← get).checkUpdate k.kind)
  updating k.kind (ask M (.feed k (← ownHandle) data))

def finish (M : Module σ) (k : Finish) : ActionM ε σ Bytes := do
  ofResult ((← get).checkFinal k.kind)
  let h ← ownHandle
  finishing k.kind (sizedOutput M (.finish k h))

def verify (M : Module σ) (data signature : Bytes) : ActionM ε σ Unit := do
  ofResult ((← get).checkOneShot .verify)
  finishing .verify (ask M (.verify (← ownHandle) data signature))

def verifyFinal (M : Module σ) (signature : Bytes) : ActionM ε σ Unit := do
  ofResult ((← get).checkFinal .verify)
  finishing .verify (ask M (.verifyFinal (← ownHandle) signature))

def findObjectsInit (M : Module σ) (t : Template) : ActionM ε σ Unit := do
  ofResult ((← get).checkStart .findObjects)
  ask M (.findObjectsInit (← ownHandle) t.toArray)
  setState .findObjects .initialized

def handleSize : Nat := 8

def findObjectsNext (M : Module σ) (max : Nat) : ActionM ε σ (List Handle) := do
  ofResult ((← get).checkUpdate .findObjects)
  let h ← ownHandle
  reserve (handleSize * max)
  updating .findObjects do
    let a ← askAnswer M (.findObjects h max)
    let count ← ofResult a.result
    return a.written.handleBuffer (min max count)

def findObjectsFinal (M : Module σ) : ActionM ε σ Unit := do
  ofResult ((← get).checkFinal .findObjects)
  finishing .findObjects (ask M (.findObjectsFinal (← ownHandle)))

def findBatch : Nat := 64

def gather (M : Module σ) : Nat → ActionM ε σ (List Handle)
  | 0 => return []
  | batches + 1 => do
    match ← findObjectsNext M findBatch with
    | [] => return []
    | h :: hs => return (h :: hs) ++ (← gather M batches)

def findObjects (M : Module σ) (batches : Nat) (t : Template) : ActionM ε σ (List Handle) := do
  findObjectsInit M t
  let found ← gather M batches
  findObjectsFinal M
  return found

def generateKey (M : Module σ) (m : Mechanism) (t : Template) : ActionM ε σ Handle := do
  ask M (.generateKey (← ownHandle) m.layOut.2 t.toArray)

def generateKeyPair (M : Module σ) (m : Mechanism) (publicTemplate privateTemplate : Template) :
    ActionM ε σ (Handle × Handle) := do
  ask M (.generateKeyPair (← ownHandle) m.layOut.2 publicTemplate.toArray privateTemplate.toArray)

def wrapKey (M : Module σ) (m : Mechanism) (wrapping key : Handle) : ActionM ε σ Bytes := do
  let h ← ownHandle
  sizedOutput M (.wrapKey h m.layOut.2 wrapping key)

def unwrapKey (M : Module σ) (m : Mechanism) (unwrapping : Handle) (wrapped : Bytes)
    (t : Template) : ActionM ε σ Handle := do
  ask M (.unwrapKey (← ownHandle) m.layOut.2 unwrapping wrapped t.toArray)

/-- Derives a key, and gives the mechanism after that. Its outputs are readable only if the
derivation succeeded. -/
def deriveKey (M : Module σ) (m : Mechanism) (base : Handle) (t : Template) :
    ActionM ε σ (Result Handle × Mechanism) := do
  let (m, b) := m.layOut
  let a ← askAnswer M (.deriveKey (← ownHandle) b base t.toArray)
  let after := a.written.blockAfter b.block
  let m := m.absorb after
  match a.result with
  | .ok key => return (.ok key, m.complete after.outputs)
  | .error e => return (.error e, m)

def createObject (M : Module σ) (t : Template) : ActionM ε σ Handle := do
  ask M (.createObject (← ownHandle) t.toArray)

def copyObject (M : Module σ) (object : Handle) (t : Template) : ActionM ε σ Handle := do
  ask M (.copyObject (← ownHandle) object t.toArray)

def destroyObject (M : Module σ) (object : Handle) : ActionM ε σ Unit := do
  ask M (.destroyObject (← ownHandle) object)

def setAttributes (M : Module σ) (object : Handle) (t : Template) : ActionM ε σ Unit := do
  ask M (.setAttributeValue (← ownHandle) object t.toArray)

/-- One reading of attributes: the array after it, and whether the module spoke of secrets. That
some attribute is a secret or unknown is no failure. -/
def readAttributes (M : Module σ) (object : Handle) (entries : List Wire.Entry) :
    ActionM ε σ (List Wire.Entry × Bool) := do
  let a ← askAnswer M (.getAttributeValue (← ownHandle) object entries)
  let entries := a.written.array entries
  match a.result with
  | .ok () => return (entries, false)
  | .error e =>
    if e.rv = Return.attributeSensitive then return (entries, true)
    else if e.rv = Return.attributeTypeInvalid then return (entries, false)
    else throw (Fault.ofError e)

def attributePasses : Nat := 3

def readPasses (M : Module σ) (object : Handle) :
    Nat → List Wire.Entry → ActionM ε σ (List Wire.Entry × Bool)
  | 0, entries => return (entries, false)
  | passes + 1, entries => do
    let (entries, secret) ← readAttributes M object entries
    let (entries, made) := Wire.allocate .bundled entries
    reserve (Wire.extent entries)
    if ← ofResult made then
      let (entries, secret') ← readPasses M object passes entries
      return (entries, secret || secret')
    else return (entries, secret)

def flagSecrets (M : Module σ) (object : Handle) : List Code → Template → ActionM ε σ Template
  | [], t => return t
  | type :: rest, t => do
    let (_, secret) ← readAttributes M object (Wire.query [type])
    flagSecrets M object rest (if secret then t.markSensitive type else t)

/-- The attributes of the types. Those that cannot be had are absent, and flagged if they are
secrets. -/
def getAttributes (M : Module σ) (object : Handle) (types : List Code) : ActionM ε σ Template := do
  let (entries, secret) ← readPasses M object attributePasses (Wire.query types)
  let t ← ofResult (Template.ofArray entries)
  if secret then
    flagSecrets M object ((t.attributes.filter (!·.isPresent)).map (·.type)) t
  else return t

def generateRandom (M : Module σ) (size : Nat) : ActionM ε σ Bytes := do
  reserve size
  let a ← askAnswer M (.generateRandom (← ownHandle) size)
  ofResult a.result
  return a.written.buffer size

def seedRandom (M : Module σ) (seed : Bytes) : ActionM ε σ Unit := do
  ask M (.seedRandom (← ownHandle) seed)

end Session

end Cryptoki
