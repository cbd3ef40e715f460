import Cryptoki.Mechanism.Capability
import Cryptoki.Operation

/-!
How an operation has to be driven with a mechanism, read off the mechanism's capabilities.
-/
namespace Cryptoki

inductive Protocol where
  | multiPart
  | singleShot
  | recover
  | unclassified
  | notSupported
  deriving DecidableEq, Repr

def Protocol.title : Protocol → String
  | .multiPart => "MultiPart"
  | .singleShot => "SingleShot"
  | .recover => "Recover"
  | .unclassified => "Unclassified"
  | .notSupported => "NotSupported"

def Protocol.isSingleStep : Protocol → Bool
  | .singleShot | .recover => true
  | _ => false

/-- The full form wins over the single form. -/
def fullOrSingle (capabilities full single : List Capability) : Protocol :=
  if full.any capabilities.contains then .multiPart
  else if single.any capabilities.contains then .singleShot
  else .notSupported

/-- Searches take no mechanism, so none is classified for them. -/
def protocol (code : Code) (kind : OperationKind) : Protocol :=
  match capabilities code with
  | [] => .unclassified
  | c :: cs =>
    match kind with
    | .encrypt | .decrypt => fullOrSingle (c :: cs) [.fullEncryptDecrypt] [.singleEncryptDecrypt]
    | .sign | .verify => fullOrSingle (c :: cs) [.fullSignVerify] [.singleSignVerify]
    | .signRecover | .verifyRecover =>
      if (c :: cs).contains .signVerifyRecover then .recover else .notSupported
    | .digest => fullOrSingle (c :: cs) [.digest] []
    | .findObjects => .unclassified

end Cryptoki
