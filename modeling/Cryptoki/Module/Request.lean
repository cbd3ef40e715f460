import Cryptoki.Mechanism.Block
import Cryptoki.Module.Function
import Cryptoki.Wire.Exchange

/-!
Calls of a module as data. A request says what is asked and how much room there is for the
answer; an answer has a result, and what the module wrote into the memory of the caller. The
caller puts that into its own memory itself, so nothing is ever written beyond it.
-/
namespace Cryptoki

inductive Shape where
  | done
  | handle
  | handlePair
  | length
  | count
  deriving DecidableEq, Repr

abbrev Shape.Value : Shape → Type
  | .done => Unit
  | .handle => Handle
  | .handlePair => Handle × Handle
  | .length => Nat
  | .count => Nat

/-- One write to an attribute array: the path of indices, and what is written there. -/
structure Patch where
  path : List Nat
  write : Wire.Write
  deriving DecidableEq, Repr

def Wire.patch (entries : List Wire.Entry) (p : Patch) : List Wire.Entry :=
  Wire.writeAt p.path p.write entries

inductive BlockWrite where
  | version (v : Version)
  | material (handles : KeyHandles) (clientIv serverIv : Bytes)
  deriving DecidableEq, Repr

def Block.write (b : Block) : BlockWrite → Block
  | .version v => b.writeVersion v
  | .material h c s => b.writeMaterial h c s

inductive Written where
  | nothing
  | bytes (b : Bytes)
  | handles (hs : List Handle)
  | attributes (patches : List Patch)
  | block (w : BlockWrite)
  deriving DecidableEq, Repr

def Written.buffer (size : Nat) : Written → Bytes
  | .bytes b => Bytes.overwrite (List.replicate size 0) b
  | _ => List.replicate size 0

def Written.handleBuffer (size : Nat) : Written → List Handle
  | .handles hs => hs.take size ++ List.replicate (size - hs.length) 0
  | _ => List.replicate size 0

def Written.array (entries : List Wire.Entry) : Written → List Wire.Entry
  | .attributes patches => patches.foldl Wire.patch entries
  | _ => entries

def Written.blockAfter (b : Block) : Written → Block
  | .block w => b.write w
  | _ => b

structure Answer (s : Shape) where
  written : Written
  result : Result s.Value

/-- Without a capacity the length of the output is asked for, otherwise there is a buffer of that
many bytes. -/
inductive Request : Shape → Type where
  | openSession (slot flags : UInt64) : Request .handle
  | closeSession (session : Handle) : Request .done
  | init (k : Keyed) (session : Handle) (mechanism : MechanismBlock) (key : Handle) :
      Request .done
  | digestInit (session : Handle) (mechanism : MechanismBlock) : Request .done
  | oneShot (k : OneShot) (session : Handle) (data : Bytes) (capacity : Option Nat) :
      Request .length
  | stream (k : Stream) (session : Handle) (data : Bytes) (capacity : Option Nat) :
      Request .length
  | feed (k : Feed) (session : Handle) (data : Bytes) : Request .done
  | finish (k : Finish) (session : Handle) (capacity : Option Nat) : Request .length
  | verify (session : Handle) (data signature : Bytes) : Request .done
  | verifyFinal (session : Handle) (signature : Bytes) : Request .done
  | generateKey (session : Handle) (mechanism : MechanismBlock) (template : List Wire.Entry) :
      Request .handle
  | generateKeyPair (session : Handle) (mechanism : MechanismBlock)
      (publicTemplate privateTemplate : List Wire.Entry) : Request .handlePair
  | wrapKey (session : Handle) (mechanism : MechanismBlock) (wrapping key : Handle)
      (capacity : Option Nat) : Request .length
  | unwrapKey (session : Handle) (mechanism : MechanismBlock) (unwrapping : Handle)
      (wrapped : Bytes) (template : List Wire.Entry) : Request .handle
  | deriveKey (session : Handle) (mechanism : MechanismBlock) (base : Handle)
      (template : List Wire.Entry) : Request .handle
  | createObject (session : Handle) (template : List Wire.Entry) : Request .handle
  | copyObject (session object : Handle) (template : List Wire.Entry) : Request .handle
  | destroyObject (session object : Handle) : Request .done
  | getAttributeValue (session object : Handle) (entries : List Wire.Entry) : Request .done
  | setAttributeValue (session object : Handle) (template : List Wire.Entry) : Request .done
  | findObjectsInit (session : Handle) (template : List Wire.Entry) : Request .done
  | findObjects (session : Handle) (capacity : Nat) : Request .count
  | findObjectsFinal (session : Handle) : Request .done
  | generateRandom (session : Handle) (size : Nat) : Request .done
  | seedRandom (session : Handle) (seed : Bytes) : Request .done

namespace Request

def function : Request s → Function
  | openSession .. => .openSession
  | closeSession .. => .closeSession
  | init k .. => .init k
  | digestInit .. => .digestInit
  | oneShot k .. => .oneShot k
  | stream k .. => .stream k
  | feed k .. => .feed k
  | finish k .. => .finish k
  | verify .. => .verify
  | verifyFinal .. => .verifyFinal
  | generateKey .. => .generateKey
  | generateKeyPair .. => .generateKeyPair
  | wrapKey .. => .wrapKey
  | unwrapKey .. => .unwrapKey
  | deriveKey .. => .deriveKey
  | createObject .. => .createObject
  | copyObject .. => .copyObject
  | destroyObject .. => .destroyObject
  | getAttributeValue .. => .getAttributeValue
  | setAttributeValue .. => .setAttributeValue
  | findObjectsInit .. => .findObjectsInit
  | findObjects .. => .findObjects
  | findObjectsFinal .. => .findObjectsFinal
  | generateRandom .. => .generateRandom
  | seedRandom .. => .seedRandom

def session? : Request s → Option Handle
  | openSession .. => none
  | closeSession h | init _ h .. | digestInit h .. | oneShot _ h .. | stream _ h ..
  | feed _ h .. | finish _ h .. | verify h .. | verifyFinal h .. | generateKey h ..
  | generateKeyPair h .. | wrapKey h .. | unwrapKey h .. | deriveKey h .. | createObject h ..
  | copyObject h .. | destroyObject h .. | getAttributeValue h .. | setAttributeValue h ..
  | findObjectsInit h .. | findObjects h .. | findObjectsFinal h | generateRandom h ..
  | seedRandom h .. => some h

end Request

end Cryptoki
