import Cryptoki.Token.Answer

/-!
The recorder stands before the token. It keeps every exchange, and can bend answers: report other
lengths than the token did, and read attributes from a script.
-/
namespace Cryptoki

structure Exchange where
  shape : Shape
  request : Request shape
  answer : Answer shape

/-- A false length or count: how many true ones are let through before, and what is said then. -/
structure Lie where
  skip : Nat
  value : Nat
  deriving DecidableEq, Repr

structure Pass where
  rv : Code
  patches : List Patch
  deriving DecidableEq, Repr

structure Recorder where
  token : Token
  trace : List Exchange
  lies : Table Function (List Lie)
  script : Option (List Pass)

namespace Recorder

def new : Recorder := ⟨.new, [], .empty, none⟩

instance : Inhabited Recorder := ⟨new⟩

def addLie (r : Recorder) (f : Function) (lie : Lie) : Recorder :=
  { r with lies := r.lies.insert f ((r.lies.get? f).getD [] ++ [lie]) }

def bend (r : Recorder) (f : Function) (n : Nat) : Recorder × Nat :=
  match r.lies.get? f with
  | none | some [] => (r, n)
  | some (⟨0, value⟩ :: rest) => ({ r with lies := r.lies.insert f rest }, value)
  | some (⟨skip + 1, value⟩ :: rest) =>
    ({ r with lies := r.lies.insert f (⟨skip, value⟩ :: rest) }, n)

def bendAnswer (f : Function) : {s : Shape} → Answer s → Recorder → Answer s × Recorder
  | .length, ⟨w, .ok n⟩, r => let (r, n) := r.bend f n; (⟨w, .ok n⟩, r)
  | .count, ⟨w, .ok n⟩, r => let (r, n) := r.bend f n; (⟨w, .ok n⟩, r)
  | _, a, r => (a, r)

def play (r : Recorder) (passes : List Pass) : Answer .done × Recorder :=
  match passes with
  | [] => (⟨.nothing, .ok ()⟩, r)
  | p :: rest =>
    (⟨.attributes p.patches, if p.rv = Return.ok then .ok () else .error (.returned p.rv)⟩,
      { r with script := some rest })

/-- Whether the layout of the parameters is the one that the derivation takes. Derivations that
take any layout, and missing parameters, are for the token to judge. -/
def acceptsLayout (m : MechanismBlock) : Bool :=
  match m.block with
  | .none => true
  | .master .. => !Token.isMaterialDerivation m.code
  | .keyMaterial .. => (Token.masterVersion? m.code).isNone
  | _ => (Token.masterVersion? m.code).isNone && !Token.isMaterialDerivation m.code

def delegate (q : Request s) (r : Recorder) : Answer s × Recorder :=
  let (a, token) := r.token.answer q
  bendAnswer q.function a { r with token := token }

def respond : Request s → Recorder → Answer s × Recorder
  | .deriveKey h m base template, r =>
    if acceptsLayout m then delegate (.deriveKey h m base template) r
    else (⟨.nothing, .error (.returned Return.mechanismParamInvalid)⟩, r)
  | .getAttributeValue h object entries, r =>
    match r.script with
    | some passes => r.play passes
    | none => delegate (.getAttributeValue h object entries) r
  | q, r => delegate q r

def answer (q : Request s) (r : Recorder) : Answer s × Recorder :=
  let (a, r) := respond q r
  (a, { r with trace := r.trace ++ [⟨s, q, a⟩] })

def module : Module Recorder :=
  ⟨fun q r => let (a, r) := r.answer q; (a, r, [])⟩

end Recorder

end Cryptoki
