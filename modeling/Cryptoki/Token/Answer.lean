import Cryptoki.Token.Keys
import Cryptoki.Token.Reading

/-!
How the token in memory answers requests.
-/
namespace Cryptoki.Token

def matching (t : Token) (template : Object) : List Handle :=
  ((t.objects.entries.filter fun e => Object.matchesTemplate e.2 template).map (·.1)).mergeSort
    (· ≤ ·)

def search (h : Handle) (template : List Wire.Entry) (t : Token) : Answer .done × Token :=
  if t.searches.contains h then refuse Return.operationActive t
  else
    let found := t.matching (Object.ofTemplate template)
    give () { t with searches := t.searches.insert h found }

def nextFound (h : Handle) (capacity : Nat) (t : Token) : Answer .count × Token :=
  match t.searches.get? h with
  | none => refuse Return.operationNotInitialized t
  | some pending =>
    let batch := pending.take capacity
    (⟨.handles batch, .ok batch.length⟩,
      { t with searches := t.searches.insert h (pending.drop capacity) })

def endSearch (h : Handle) (t : Token) : Answer .done × Token :=
  if t.searches.contains h then give () { t with searches := t.searches.erase h }
  else refuse Return.operationNotInitialized t

def openSession (slot : UInt64) (t : Token) : Answer .handle × Token :=
  match (t.record .openSession).dueFailure .openSession with
  | (t, some rv) => refuse rv t
  | (t, none) =>
    if slot = 1 then
      let h := t.lastSession + 1
      give h { t with lastSession := h, sessions := t.sessions ++ [h] }
    else refuse Return.slotIdInvalid t

def closeSession (h : Handle) (t : Token) : Answer .done × Token :=
  give () { t with
    sessions := t.sessions.filter (· != h)
    operations := t.operations.retain fun k => k.1 != h
    searches := t.searches.erase h }

def perform : Request s → Token → Answer s × Token
  | .openSession slot _, t => openSession slot t
  | .closeSession h, t => closeSession h t
  | .init k h m _, t => begin k.kind h m.code t
  | .digestInit h m, t => begin .digest h m.code t
  | .oneShot k h data capacity, t => conclude k.kind h data capacity t
  | .stream k h data capacity, t => stream k.kind h data capacity t
  | .feed k h data, t => feed k.kind h data t
  | .finish k h capacity, t => conclude k.kind h [] capacity t
  | .verify h data signature, t => check h data signature t
  | .verifyFinal h signature, t => check h [] signature t
  | .generateKey _ _ template, t => newKey (List.replicate 16 0x42) template t
  | .generateKeyPair _ _ publicTemplate privateTemplate, t =>
    let (t, a) := t.addObject (Object.ofTemplate publicTemplate)
    let (t, b) := t.addObject (Object.ofTemplate privateTemplate)
    give (a, b) t
  | .wrapKey _ _ wrapping key capacity, t => wrap wrapping key capacity t
  | .unwrapKey _ _ unwrapping wrapped template, t =>
    if t.objects.contains unwrapping then newKey (cipher wrapped) template t
    else refuse Return.unwrappingKeyHandleInvalid t
  | .deriveKey _ m base template, t => derive m base template t
  | .createObject _ template, t => store (Object.hideSecrets (Object.ofTemplate template)) t
  | .copyObject _ object template, t =>
    match t.objects.get? object with
    | none => refuse Return.objectHandleInvalid t
    | some o => store (Object.merge o (Object.ofTemplate template)) t
  | .destroyObject _ object, t =>
    if t.objects.contains object then give () { t with objects := t.objects.erase object }
    else refuse Return.objectHandleInvalid t
  | .getAttributeValue _ object entries, t =>
    match t.objects.get? object with
    | none => refuse Return.objectHandleInvalid t
    | some o => (readAttributes o entries, t)
  | .setAttributeValue _ object template, t =>
    match t.objects.get? object with
    | none => refuse Return.objectHandleInvalid t
    | some o =>
      give () { t with
        objects := t.objects.insert object (Object.merge o (Object.ofTemplate template)) }
  | .findObjectsInit h template, t => search h template t
  | .findObjects h capacity, t => nextFound h capacity t
  | .findObjectsFinal h, t => endSearch h t
  | .generateRandom _ size, t =>
    (⟨.bytes ((List.range size).map UInt8.ofNat), .ok ()⟩, t)
  | .seedRandom .., t => give () t

def answer (q : Request s) (t : Token) : Answer s × Token :=
  match q.session? with
  | none => perform q t
  | some h =>
    match t.enter q.function h with
    | (t, some rv) => refuse rv t
    | (t, none) => perform q t

def module : Module Token :=
  ⟨fun q t => let (a, t) := t.answer q; (a, t, [])⟩

end Cryptoki.Token
