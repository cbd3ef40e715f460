/-!
The kinds of operation that a session keeps a state for, and the states.
-/
namespace Cryptoki

inductive OperationKind where
  | encrypt
  | decrypt
  | sign
  | verify
  | signRecover
  | verifyRecover
  | digest
  | findObjects
  deriving DecidableEq, Repr

def OperationKind.all : List OperationKind :=
  [.encrypt, .decrypt, .sign, .verify, .signRecover, .verifyRecover, .digest, .findObjects]

def OperationKind.title : OperationKind → String
  | .encrypt => "Encrypt"
  | .decrypt => "Decrypt"
  | .sign => "Sign"
  | .verify => "Verify"
  | .signRecover => "SignRecover"
  | .verifyRecover => "VerifyRecover"
  | .digest => "Digest"
  | .findObjects => "FindObjects"

inductive OperationState where
  | idle
  | initialized
  | updated
  deriving DecidableEq, Repr

def OperationState.title : OperationState → String
  | .idle => "Idle"
  | .initialized => "Initialized"
  | .updated => "Updated"

end Cryptoki
