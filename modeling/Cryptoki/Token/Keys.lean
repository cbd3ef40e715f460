import Cryptoki.Token.Operations

/-!
Keys of the token in memory: made anew, wrapped, and derived.
-/
namespace Cryptoki.Token

def store (o : Object) (t : Token) : Answer .handle × Token :=
  let (t, h) := t.addObject o
  give h t

def newKey (value : Bytes) (template : List Wire.Entry) (t : Token) : Answer .handle × Token :=
  store (Object.hideSecrets (Object.merge [(keyValue, .bytes value)] (Object.ofTemplate template)))
    t

def wrappable? (o : Object) : Option Bytes :=
  match o.value? keyValue with
  | some (.bytes b) | some (.secret b) => some b
  | _ => none

def wrap (wrapping key : Handle) (capacity : Option Nat) (t : Token) :
    Answer .length × Token :=
  if t.objects.contains wrapping then
    match t.objects.get? key with
    | none => refuse Return.keyHandleInvalid t
    | some o =>
      match wrappable? o with
      | none => refuse Return.keyNotWrappable t
      | some b => deliver (cipher b) capacity t
  else refuse Return.wrappingKeyHandleInvalid t

def masterVersion? (code : Code) : Option Version :=
  if code = 0x371 then some ⟨3, 0⟩
  else if code = 0x375 then some ⟨3, 1⟩
  else if code = 0x3e0 then some ⟨3, 3⟩
  else none

def isMaterialDerivation (code : Code) : Bool := code = 0x372 || code = 0x376 || code = 0x3e1

def materialKey (n : UInt8) : Object := [(keyValue, .bytes (List.replicate 16 n))]

def addMaterial (t : Token) : Token × KeyHandles :=
  let (t, a) := t.addObject (materialKey 0)
  let (t, b) := t.addObject (materialKey 1)
  let (t, c) := t.addObject (materialKey 2)
  let (t, d) := t.addObject (materialKey 3)
  (t, ⟨a, b, c, d⟩)

def derive (m : MechanismBlock) (base : Handle) (template : List Wire.Entry) (t : Token) :
    Answer .handle × Token :=
  if t.objects.contains base then
    match masterVersion? m.code with
    | some version =>
      match m.block with
      | .master .. =>
        let (a, t) := newKey (List.replicate 48 0x48) template t
        ({ a with written := .block (.version version) }, t)
      | _ => refuse Return.mechanismParamInvalid t
    | none =>
      if isMaterialDerivation m.code then
        match m.block with
        | .keyMaterial _ _ ivBits .. =>
          let (t, handles) := addMaterial t
          let size := (ivBits / 8).toNat
          (⟨.block (.material handles (List.replicate size 0xc1) (List.replicate size 0x5e)),
            .ok 0⟩, t)
        | _ => refuse Return.mechanismParamInvalid t
      else newKey (List.replicate 32 0x44) template t
  else refuse Return.keyHandleInvalid t

end Cryptoki.Token
