import Cryptoki.Mechanism.Capability
import Cryptoki.Text.Number
import Cryptoki.Vendor.Definitions

/-!
Names of mechanisms: classified ones first, then vendor definitions, else the code itself.
-/
namespace Cryptoki

def mechanismName (code : Code) : String :=
  match classifiedName? code with
  | some n => n
  | none =>
    match Vendor.Definitions.bundled.name? .mechanisms code with
    | some n => n
    | none => "CKM_" ++ Text.hexCode code

end Cryptoki
