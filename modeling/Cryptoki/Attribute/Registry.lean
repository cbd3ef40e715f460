import Cryptoki.Attribute.Standard
import Cryptoki.Vendor.Definitions

/-!
The registry resolves attribute types to names and kinds: standard types from their table, then
vendor types from the vendor definitions. All other types carry raw bytes.
-/
namespace Cryptoki

structure Registry where
  vendor : Vendor.Definitions
  deriving DecidableEq, Repr

def Registry.bundled : Registry := ⟨.bundled⟩

def standardByCode? (code : Code) : Option AttributeRow :=
  bisect AttributeRow.code code standardAttributes

def standardByName? (name : String) : Option AttributeRow :=
  standardAttributes.find? (·.name == name)

def Registry.kind (r : Registry) (code : Code) : Kind :=
  match standardByCode? code with
  | some row => row.kind
  | none => (r.vendor.attributeKind? code).getD .raw

def Registry.isKnown (r : Registry) (code : Code) : Bool :=
  (standardByCode? code).isSome || (r.vendor.attributeKind? code).isSome

def Registry.name (r : Registry) (code : Code) : String :=
  match standardByCode? code with
  | some row => row.name
  | none => (r.vendor.name? .attributes code).getD ("CKA_" ++ Text.hexCode code)

def Registry.byName (r : Registry) (name : String) : Result (Code × Kind) :=
  match standardByName? name with
  | some row => .ok (row.code, row.kind)
  | none =>
    match r.vendor.code? .attributes name with
    | some code => .ok (code, r.kind code)
    | none => .error (.notFound name)

/-- Whether values of the type are secret by nature. Vendor types are not. -/
def Registry.isSensitive (_ : Registry) (code : Code) : Bool :=
  match standardByCode? code with
  | some row => row.sensitive
  | none => false

end Cryptoki
