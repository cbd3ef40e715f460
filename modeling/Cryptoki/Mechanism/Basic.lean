import Cryptoki.Mechanism.Parameters

/-!
Mechanisms: a code and perhaps parameters. Whether the layout fits the code is for the module to
say.
-/
namespace Cryptoki

structure Mechanism where
  code : Code
  parameters : Option Parameters
  deriving DecidableEq, Repr

inductive Outputs where
  | none
  | version (v : Version)
  | handles (h : KeyHandles)
  deriving DecidableEq, Repr

namespace Mechanism

def plain (code : Code) : Mechanism := ⟨code, none⟩

def withParameters (code : Code) (p : Parameters) : Mechanism := ⟨code, some p⟩

def withVector (code : Code) (vector : Bytes) : Result Mechanism :=
  if vector.isEmpty then .error (.vectorMissing (mechanismName code))
  else .ok (withParameters code (.iv vector))

def name (m : Mechanism) : String := mechanismName m.code

def hasOutputs (m : Mechanism) : Bool :=
  match m.parameters with
  | some (.master _) | some (.keyMaterial _) => true
  | _ => false

def mapParameters (f : Parameters → Parameters) (m : Mechanism) : Mechanism :=
  { m with parameters := m.parameters.map f }

def resetOutputs : Mechanism → Mechanism :=
  mapParameters fun
    | .master p => .master { p with version := p.version.reset }
    | .keyMaterial p => .keyMaterial { p with material := p.material.reset }
    | p => p

/-- What the module writes through the pointers to the vectors stays, however the call ends. Each
vector keeps its size. -/
def writeVectors (client server : Bytes) : Mechanism → Mechanism :=
  mapParameters fun
    | .keyMaterial p =>
      let old := p.material.value
      .keyMaterial { p with material := { p.material with value := { old with
        clientIv := old.clientIv.overwrite client
        serverIv := old.serverIv.overwrite server } } }
    | p => p

/-- Makes outputs readable. Outputs that do not fit the parameters change nothing. -/
def complete (outputs : Outputs) : Mechanism → Mechanism :=
  mapParameters fun p =>
    match p, outputs with
    | .master p, .version v => .master { p with version := p.version.complete v }
    | .keyMaterial p, .handles h =>
      .keyMaterial { p with
        material := p.material.complete { p.material.value with handles := h } }
    | p, _ => p

end Mechanism

end Cryptoki
