import Cryptoki.Error
import Cryptoki.Vendor.NameMap

/-!
Configured vendor definitions: for each family a map from names to codes, for attributes also
the kind of their values.
-/
namespace Cryptoki.Vendor

inductive Family where
  | mechanisms
  | attributes
  | objectClasses
  | keyTypes
  deriving DecidableEq, Repr

def Family.title : Family → String
  | .mechanisms => "mechanism"
  | .attributes => "attribute"
  | .objectClasses => "object class"
  | .keyTypes => "key type"

structure AttributeDefinition where
  code : Code
  kind : Kind
  deriving DecidableEq, Repr

structure Config where
  mechanisms : NameMap Code := .empty
  attributes : NameMap AttributeDefinition := .empty
  objectClasses : NameMap Code := .empty
  keyTypes : NameMap Code := .empty
  deriving DecidableEq

def Config.codes (c : Config) : Family → List (String × Code)
  | .mechanisms => c.mechanisms.entries
  | .attributes => c.attributes.entries.map fun e => (e.1, e.2.code)
  | .objectClasses => c.objectClasses.entries
  | .keyTypes => c.keyTypes.entries

def Config.allCodes (c : Config) : List (String × Code) :=
  c.codes .mechanisms ++ c.codes .objectClasses ++ c.codes .keyTypes ++ c.codes .attributes

def inVendorRange (code : Code) : Bool := code &&& vendorBit == vendorBit

def Config.validate (c : Config) : Result Unit :=
  match c.allCodes.find? fun e => !inVendorRange e.2 with
  | none => .ok ()
  | some (name, code) => .error (.vendorRange code name)

def Config.bundled : Config where
  mechanisms := .ofList [("KRM_SSHKDF_DERIVE", 0x8007678C)]
  objectClasses := .ofList [("KRO_TOKEN_DATA", 0x8007678C)]
  attributes := .ofList [
    ("KRA_MAX_LOGIN_ATTEMPTS", ⟨0x8007678C, .ulong⟩),
    ("KRA_LOGIN_ATTEMPTS", ⟨0x8007678D, .ulong⟩)]

end Cryptoki.Vendor
