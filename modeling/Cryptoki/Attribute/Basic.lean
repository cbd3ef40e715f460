import Cryptoki.Attribute.Registry
import Cryptoki.Attribute.Scalar

/-!
Attributes: a type, perhaps a value, and whether the value is to be kept out of texts. A value
that is a template holds attributes again, to any depth.
-/
namespace Cryptoki

inductive Attribute where
  | absent (type : Code) (sensitive : Bool)
  | scalar (type : Code) (sensitive : Bool) (value : Scalar)
  | template (type : Code) (sensitive : Bool) (members : List Attribute)
  deriving Repr

/-- An ordered set of attributes, at most one of each type. -/
structure Template where
  attributes : List Attribute
  deriving Repr

inductive Value where
  | scalar (s : Scalar)
  | template (t : Template)
  deriving Repr

def Value.kind : Value → Kind
  | .scalar s => s.kind
  | .template _ => .template

def Value.encode : Value → Result Bytes
  | .scalar s => .ok s.encode
  | .template _ => .error .templateToBytes

def Value.decode (kind : Kind) (b : Bytes) : Result Value := .scalar <$> Scalar.decode kind b

def Value.conform (v : Value) (kind : Kind) : Option Value :=
  match v with
  | .scalar s => .scalar <$> s.conform kind
  | .template t => if kind = .template then some (.template t) else none

namespace Attribute

def type : Attribute → Code
  | .absent t _ | .scalar t _ _ | .template t _ _ => t

def isSensitive : Attribute → Bool
  | .absent _ s | .scalar _ s _ | .template _ s _ => s

def isPresent : Attribute → Bool
  | .absent .. => false
  | _ => true

def value? : Attribute → Option Value
  | .absent .. => none
  | .scalar _ _ v => some (.scalar v)
  | .template _ _ members => some (.template ⟨members⟩)

def ofValue (type : Code) (sensitive : Bool) : Value → Attribute
  | .scalar v => .scalar type sensitive v
  | .template t => .template type sensitive t.attributes

def make (type : Code) (v : Value) : Attribute :=
  ofValue type (Registry.bundled.isSensitive type) v

def withSensitive (sensitive : Bool) : Attribute → Attribute
  | .absent t _ => .absent t sensitive
  | .scalar t _ v => .scalar t sensitive v
  | .template t _ members => .template t sensitive members

def typeName (type : Code) : String := Registry.bundled.name type

def name (a : Attribute) : String := typeName a.type

def encode (a : Attribute) : Result Bytes :=
  match a.value? with
  | some v => v.encode
  | none => .error (.notFound a.name)

def decode (r : Registry) (type : Code) (b : Bytes) : Result Attribute :=
  .scalar type (r.isSensitive type) <$> Scalar.decode (r.kind type) b

def conformed (r : Registry) (type : Code) (v : Value) : Result Value :=
  match v.conform (r.kind type) with
  | some w => .ok w
  | none => .error (.kindMismatch (r.name type) (r.kind type) v.kind)

mutual

/-- Whether the value, and each value inside it, can be given the registered kind. The outermost
failure comes first. -/
def check (r : Registry) : Attribute → Result Unit
  | .absent .. => .ok ()
  | .scalar t _ v => do discard <| conformed r t (.scalar v)
  | .template t _ members => do
      discard <| conformed r t (.template ⟨members⟩)
      checkAll r members

def checkAll (r : Registry) : List Attribute → Result Unit
  | [] => .ok ()
  | a :: rest => do
      a.check r
      checkAll r rest

end

/-- The attribute as a module would give it back. What is inside a template is checked and kept
as it is. -/
def normalize (r : Registry) : Attribute → Result Attribute
  | .absent t s => .ok (.absent t s)
  | .scalar t s v => ofValue t s <$> conformed r t (.scalar v)
  | .template t s members => do
      let v ← conformed r t (.template ⟨members⟩)
      checkAll r members
      return ofValue t s v

def get (pick : Value → Option α) (a : Attribute) : Result α :=
  match a.value? with
  | none => .error (.notFound a.name)
  | some v =>
    match pick v with
    | some x => .ok x
    | none => .error (.returned Return.attributeTypeInvalid)

def toBool : Attribute → Result Bool :=
  get fun | .scalar (.bool b) => some b | _ => none

def toUlong : Attribute → Result UInt64 :=
  get fun | .scalar (.ulong n) => some n | _ => none

def toText : Attribute → Result String :=
  get fun | .scalar (.string s) => some s | _ => none

def toBigInt : Attribute → Result Nat :=
  get fun | .scalar (.bigInt n) => some n | _ => none

def toDate : Attribute → Result (Option Date) :=
  get fun | .scalar (.date d) => some d | _ => none

def toMechanism : Attribute → Result Code :=
  get fun | .scalar (.mechanism c) => some c | _ => none

def toMechanisms : Attribute → Result (List Code) :=
  get fun | .scalar (.mechanismArray cs) => some cs | _ => none

def toTemplate : Attribute → Result Template :=
  get fun | .template t => some t | _ => none

def toObjectClass : Attribute → Result Code :=
  get fun | .scalar (.objectClass c) => some c | _ => none

def toKeyType : Attribute → Result Code :=
  get fun | .scalar (.keyType c) => some c | _ => none

def toBytes : Attribute → Result Bytes :=
  get fun
    | .scalar (.bytes b) | .scalar (.raw b) => some b
    | .scalar (.bigInt n) => some (Bytes.bigEndian n)
    | _ => none

end Attribute

end Cryptoki
