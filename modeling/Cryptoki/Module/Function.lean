import Cryptoki.Operation

/-!
The functions of a token module. Those that drive operations come in families, which differ in
the operations that have them.
-/
namespace Cryptoki

/-- Operations that start with a key. -/
inductive Keyed where
  | encrypt
  | decrypt
  | sign
  | verify
  | signRecover
  | verifyRecover
  deriving DecidableEq, Repr

/-- Operations that give all their output for all their data at once. -/
inductive OneShot where
  | encrypt
  | decrypt
  | sign
  | signRecover
  | verifyRecover
  | digest
  deriving DecidableEq, Repr

/-- Operations that give output for each part of their data. -/
inductive Stream where
  | encrypt
  | decrypt
  deriving DecidableEq, Repr

/-- Operations that take parts of their data without output. -/
inductive Feed where
  | sign
  | verify
  | digest
  deriving DecidableEq, Repr

/-- Operations that give output after the last part of their data. -/
inductive Finish where
  | encrypt
  | decrypt
  | sign
  | digest
  deriving DecidableEq, Repr

def Keyed.kind : Keyed → OperationKind
  | .encrypt => .encrypt
  | .decrypt => .decrypt
  | .sign => .sign
  | .verify => .verify
  | .signRecover => .signRecover
  | .verifyRecover => .verifyRecover

def OneShot.kind : OneShot → OperationKind
  | .encrypt => .encrypt
  | .decrypt => .decrypt
  | .sign => .sign
  | .signRecover => .signRecover
  | .verifyRecover => .verifyRecover
  | .digest => .digest

def Stream.kind : Stream → OperationKind
  | .encrypt => .encrypt
  | .decrypt => .decrypt

def Feed.kind : Feed → OperationKind
  | .sign => .sign
  | .verify => .verify
  | .digest => .digest

def Finish.kind : Finish → OperationKind
  | .encrypt => .encrypt
  | .decrypt => .decrypt
  | .sign => .sign
  | .digest => .digest

inductive Function where
  | openSession
  | closeSession
  | init (k : Keyed)
  | digestInit
  | oneShot (k : OneShot)
  | stream (k : Stream)
  | feed (k : Feed)
  | finish (k : Finish)
  | verify
  | verifyFinal
  | generateKey
  | generateKeyPair
  | wrapKey
  | unwrapKey
  | deriveKey
  | createObject
  | copyObject
  | destroyObject
  | getAttributeValue
  | setAttributeValue
  | findObjectsInit
  | findObjects
  | findObjectsFinal
  | generateRandom
  | seedRandom
  deriving DecidableEq, Repr

namespace Function

def all : List Function := [
  .openSession, .closeSession,
  .init .encrypt, .oneShot .encrypt, .stream .encrypt, .finish .encrypt,
  .init .decrypt, .oneShot .decrypt, .stream .decrypt, .finish .decrypt,
  .init .sign, .oneShot .sign, .feed .sign, .finish .sign,
  .init .verify, .verify, .feed .verify, .verifyFinal,
  .init .signRecover, .oneShot .signRecover,
  .init .verifyRecover, .oneShot .verifyRecover,
  .digestInit, .oneShot .digest, .feed .digest, .finish .digest,
  .generateKey, .generateKeyPair, .wrapKey, .unwrapKey, .deriveKey,
  .createObject, .copyObject, .destroyObject, .getAttributeValue, .setAttributeValue,
  .findObjectsInit, .findObjects, .findObjectsFinal,
  .generateRandom, .seedRandom]

def operationWords : OperationKind → List String
  | .encrypt => ["encrypt"]
  | .decrypt => ["decrypt"]
  | .sign => ["sign"]
  | .verify => ["verify"]
  | .signRecover => ["sign", "recover"]
  | .verifyRecover => ["verify", "recover"]
  | .digest => ["digest"]
  | .findObjects => ["find", "objects"]

def words : Function → List String
  | openSession => ["open", "session"]
  | closeSession => ["close", "session"]
  | init k => operationWords k.kind ++ ["init"]
  | digestInit => ["digest", "init"]
  | oneShot k => operationWords k.kind
  | stream k => operationWords k.kind ++ ["update"]
  | feed k => operationWords k.kind ++ ["update"]
  | finish k => operationWords k.kind ++ ["final"]
  | verify => ["verify"]
  | verifyFinal => ["verify", "final"]
  | generateKey => ["generate", "key"]
  | generateKeyPair => ["generate", "key", "pair"]
  | wrapKey => ["wrap", "key"]
  | unwrapKey => ["unwrap", "key"]
  | deriveKey => ["derive", "key"]
  | createObject => ["create", "object"]
  | copyObject => ["copy", "object"]
  | destroyObject => ["destroy", "object"]
  | getAttributeValue => ["get", "attribute", "value"]
  | setAttributeValue => ["set", "attribute", "value"]
  | findObjectsInit => ["find", "objects", "init"]
  | findObjects => ["find", "objects"]
  | findObjectsFinal => ["find", "objects", "final"]
  | generateRandom => ["generate", "random"]
  | seedRandom => ["seed", "random"]

def name (f : Function) : String := "_".intercalate f.words

def symbol (f : Function) : String := "C_" ++ String.join (f.words.map String.capitalize)

def ofName? (s : String) : Option Function := all.find? (·.name == s)

def ofSymbol? (s : String) : Option Function := all.find? (·.symbol == s)

/-- The operation that a call of the function continues or ends. A search is none of these. -/
def operation? : Function → Option OperationKind
  | oneShot k => some k.kind
  | stream k => some k.kind
  | feed k => some k.kind
  | finish k => some k.kind
  | verify | verifyFinal => some .verify
  | _ => none

end Function

end Cryptoki
