import Cryptoki.Mechanism.Basic

/-!
The form in which a mechanism reaches a module: its code, and a block with the parameters, laid
out by their kind. A span is a pointer and a length.
-/
namespace Cryptoki

structure Span where
  bytes : Option Bytes
  length : Nat
  deriving DecidableEq, Repr

def pointerTo (b : Bytes) : Option Bytes := if b.isEmpty then none else some b

def Span.of (b : Bytes) : Span := ⟨pointerTo b, b.length⟩

structure RandomSpans where
  client : Span
  server : Span
  deriving DecidableEq, Repr

def Randoms.spans (r : Randoms) : RandomSpans :=
  ⟨⟨some r.client, randomSize⟩, ⟨some r.server, randomSize⟩⟩

inductive Block where
  | none
  /-- The bytes themselves. The pointer leads somewhere even when there are none. -/
  | bytes (b : Bytes)
  | derivationString (data : Span)
  | pss (hash mask : Code) (saltLength : UInt64)
  | oaep (hash mask sourceKind : Code) (source : Span)
  | gcm (vector : Span) (vectorBits : Nat) (aad : Span) (tagBits : UInt64)
  | ccm (dataLength : UInt64) (nonce aad : Span) (macLength : UInt64)
  | ecdh (kdf : Code) (sharedData publicData : Span)
  | master (randoms : RandomSpans) (version : Version) (prf : Option Code)
  | keyMaterial (macBits keyBits ivBits : UInt64) (exported : Bool) (randoms : RandomSpans)
      (prf : Option Code) (handles : KeyHandles) (clientIv serverIv : Option Bytes)
  deriving DecidableEq, Repr

def sourceSpecified : Code := 1

def Parameters.block : Parameters → Block
  | .iv vector => .bytes vector
  | .derivationString data => .derivationString (.of data)
  | .pss p => .pss p.hash p.mask p.saltLength
  | .oaep p =>
    .oaep p.hash p.mask (if p.source.isEmpty then 0 else sourceSpecified) (.of p.source)
  | .gcm p => .gcm (.of p.vector) (p.vector.length * 8) (.of p.aad) p.tagBits
  | .ccm p => .ccm p.dataLength (.of p.nonce) (.of p.aad) p.macLength
  | .ecdh p => .ecdh p.kdf (.of p.sharedData) (.of p.publicData)
  | .master p => .master p.randoms.spans ⟨0, 0⟩ p.prf
  | .keyMaterial p =>
    .keyMaterial p.macBits p.keyBits p.ivBits p.exported p.randoms.spans p.prf .none
      (pointerTo p.material.value.clientIv) (pointerTo p.material.value.serverIv)

def Block.size : Block → Nat
  | .none => 0
  | .bytes b => b.length
  | .derivationString _ => 16
  | .pss .. => 24
  | .oaep .. => 40
  | .gcm .. => 48
  | .ccm .. => 48
  | .ecdh .. => 40
  | .master _ _ prf => if prf.isSome then 48 else 40
  | .keyMaterial _ _ _ _ _ prf .. => if prf.isSome then 80 else 72

def Block.isNull : Block → Bool
  | .none => true
  | _ => false

structure MechanismBlock where
  code : Code
  block : Block
  deriving DecidableEq, Repr

/-- The mechanism with its outputs reset, and what the module is given. -/
def Mechanism.layOut (m : Mechanism) : Mechanism × MechanismBlock :=
  (m.resetOutputs, ⟨m.code, (m.parameters.map Parameters.block).getD .none⟩)

def Block.outputs : Block → Outputs
  | .master _ v _ => .version v
  | .keyMaterial _ _ _ _ _ _ h _ _ => .handles h
  | _ => .none

def Block.vectors : Block → Bytes × Bytes
  | .keyMaterial _ _ _ _ _ _ _ c s => (c.getD [], s.getD [])
  | _ => ([], [])

def Block.writeVersion (v : Version) : Block → Block
  | .master r _ prf => .master r v prf
  | b => b

def Block.writeMaterial (h : KeyHandles) (client server : Bytes) : Block → Block
  | .keyMaterial mac key iv e r prf _ c s =>
    .keyMaterial mac key iv e r prf h (c.map (·.overwrite client)) (s.map (·.overwrite server))
  | b => b

/-- The mechanism after a call that left `b` behind. -/
def Mechanism.absorb (b : Block) (m : Mechanism) : Mechanism :=
  m.writeVectors b.vectors.1 b.vectors.2

end Cryptoki
