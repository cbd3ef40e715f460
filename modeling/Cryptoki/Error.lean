import Cryptoki.Attribute.Kind
import Cryptoki.Bytes
import Cryptoki.Code.Return
import Cryptoki.Operation
import Cryptoki.Text.Number

/-!
What can go wrong. An error is its cause; kind, return value and wording follow from it. Errors
of a module carry the module's return value unchanged.
-/
namespace Cryptoki

inductive ErrorKind where
  | module
  | invalidArgument
  | invalidState
  | noSession
  | malformed
  | notFound
  | other
  deriving DecidableEq, Repr

inductive Error where
  | returned (rv : Code)
  | returnedFrom (rv : Code) (origin : String)
  | returnedWith (rv : Code) (text : String)
  | argument (text : String)
  | state (rv : Code) (text : String)
  | malformed (rv : Code) (text : String)
  | notFound (text : String)
  | other (text : String)
  | noSession (waited : Duration)
  -- values
  | invalidDate (year month day : Nat)
  | malformedDate (value : Bytes)
  | dateOutOfRange (year month day : Nat)
  | boolLength (length : Nat)
  | wordLength (length : Nat)
  | mechanismArrayLength (length : Nat)
  | notUtf8
  | templateFromBytes
  | templateToBytes
  | kindMismatch (subject : String) (expected actual : Kind)
  -- attribute arrays
  | valueMissing (subject : String)
  | arrayLength (subject : String) (length : Nat)
  -- mechanism parameters
  | unsupportedHash (mechanism : String)
  | unsupportedMask (code : Code)
  | vectorMissing (mechanism : String)
  | gcmVectorMissing
  | gcmTagBits (bits : UInt64)
  | ccmNonceLength (length : Nat)
  | ccmMacLength (length : UInt64)
  | unsupportedKdf (code : Code)
  | sharedDataWithoutKdf
  | publicDataMissing
  | randomLength (side : String) (expected actual : Nat)
  | vectorBits (bits : UInt64)
  | outputUnread
  -- sessions and pools
  | serialFlagMissing
  | operationActive (kind : OperationKind) (mechanism : String)
  | operationMissing (kind : OperationKind)
  | updateUnsupported (kind : OperationKind) (mechanism : String)
  | singlePartAfterUpdate (kind : OperationKind)
  | finalUnsupported (kind : OperationKind) (mechanism : String)
  | poolClosed
  -- function tables
  | tableMissing
  | entryPointMissing
  | tableFailed (rv : Code)
  | functionMissing (name : String)
  -- vendor definitions
  | malformedDefinitions
  | vendorRange (code : Code) (name : String)
  | unknownVendorName (family name : String)
  deriving DecidableEq, Repr

def Error.kind : Error → ErrorKind
  | .returned _ | .returnedFrom .. | .returnedWith .. | .tableFailed _ | .functionMissing _
  | .malformedDefinitions => .module
  | .argument _ | .invalidDate .. | .templateToBytes | .kindMismatch .. | .unsupportedHash _
  | .unsupportedMask _ | .vectorMissing _ | .gcmVectorMissing | .gcmTagBits _
  | .ccmNonceLength _ | .ccmMacLength _ | .unsupportedKdf _ | .sharedDataWithoutKdf
  | .publicDataMissing | .randomLength .. | .vectorBits _ | .serialFlagMissing | .tableMissing
  | .entryPointMissing | .vendorRange .. => .invalidArgument
  | .state .. | .outputUnread | .operationActive .. | .operationMissing _
  | .updateUnsupported .. | .singlePartAfterUpdate _ | .finalUnsupported .. | .poolClosed =>
    .invalidState
  | .noSession _ => .noSession
  | .malformed .. | .malformedDate _ | .dateOutOfRange .. | .boolLength _ | .wordLength _
  | .mechanismArrayLength _ | .notUtf8 | .templateFromBytes | .valueMissing _
  | .arrayLength .. => .malformed
  | .notFound _ | .unknownVendorName .. => .notFound
  | .other _ => .other

def Error.rv : Error → Code
  | .returned rv | .returnedFrom rv _ | .returnedWith rv _ | .state rv _ | .malformed rv _
  | .tableFailed rv => rv
  | .functionMissing _ | .updateUnsupported .. | .finalUnsupported .. =>
    Return.functionNotSupported
  | .noSession _ => Return.sessionCount
  | .malformedDate _ | .dateOutOfRange .. | .boolLength _ | .wordLength _
  | .mechanismArrayLength _ | .notUtf8 | .arrayLength .. => Return.attributeValueInvalid
  | .notFound _ | .unknownVendorName .. | .other _ | .templateFromBytes | .valueMissing _ =>
    Return.generalError
  | .outputUnread | .operationMissing _ => Return.operationNotInitialized
  | .operationActive .. | .singlePartAfterUpdate _ => Return.operationActive
  | .poolClosed => Return.sessionClosed
  | .argument _ | .invalidDate .. | .templateToBytes | .kindMismatch .. | .unsupportedHash _
  | .unsupportedMask _ | .vectorMissing _ | .gcmVectorMissing | .gcmTagBits _
  | .ccmNonceLength _ | .ccmMacLength _ | .unsupportedKdf _ | .sharedDataWithoutKdf
  | .publicDataMissing | .randomLength .. | .vectorBits _ | .serialFlagMissing | .tableMissing
  | .entryPointMissing | .malformedDefinitions | .vendorRange .. => Return.argumentsBad

def Return.describe (rv : Code) : String :=
  (Return.name? rv).getD ("CK_RV(" ++ Text.hexCode rv ++ ")")

def Error.dateText (year month day : Nat) : String :=
  "invalid date " ++ Text.padded 4 year ++ "-" ++ Text.padded 2 month ++ "-" ++ Text.padded 2 day

def Error.message : Error → String
  | .returned rv | .returnedFrom rv _ => Return.describe rv
  | .malformedDefinitions => Return.describe Return.argumentsBad
  | .returnedWith _ text | .argument text | .state _ text | .malformed _ text | .notFound text
  | .other text => text
  | .noSession waited => "no session available after waiting " ++ waited.text
  | .invalidDate y m d | .dateOutOfRange y m d => dateText y m d
  | .malformedDate v => "malformed CK_DATE value " ++ v.hex
  | .boolLength n => "invalid boolean length " ++ toString n
  | .wordLength n => "expected 8 bytes, got " ++ toString n
  | .mechanismArrayLength n => "invalid mechanism array length " ++ toString n
  | .notUtf8 => "string attribute is not valid UTF-8"
  | .templateFromBytes => "nested templates are decoded from attribute arrays"
  | .templateToBytes => "nested templates have no flat encoding"
  | .kindMismatch a e k => a ++ " expects a " ++ e.title ++ " value, got " ++ k.title
  | .valueMissing a => a ++ " returned a length but no value"
  | .arrayLength a n => a ++ " length " ++ toString n ++ " is not an attribute array"
  | .unsupportedHash m => "unsupported hash algorithm " ++ m
  | .unsupportedMask c => "unsupported mask generation function " ++ Text.hexCode c
  | .vectorMissing m => m ++ " requires an initialization vector"
  | .gcmVectorMissing => "GCM requires an initialization vector"
  | .gcmTagBits n => "invalid GCM tag length " ++ toString n ++ " bits"
  | .ccmNonceLength n => "invalid CCM nonce length " ++ toString n
  | .ccmMacLength n => "invalid CCM MAC length " ++ toString n
  | .unsupportedKdf c => "unsupported ECDH KDF " ++ Text.hexCode c
  | .sharedDataWithoutKdf => "shared data requires a KDF"
  | .publicDataMissing => "ECDH requires the peer public data"
  | .randomLength side e n =>
    side ++ " random must be " ++ toString e ++ " bytes, got " ++ toString n
  | .vectorBits n => "IV size must be a whole number of bytes, got " ++ toString n ++ " bits"
  | .outputUnread => "output parameter read before the call completed"
  | .serialFlagMissing => "sessions must be opened with CKF_SERIAL_SESSION"
  | .operationActive k m => k.title ++ " operation with " ++ m ++ " already active"
  | .operationMissing k => k.title ++ " operation not initialized"
  | .updateUnsupported k m => m ++ " does not support multi-part " ++ k.title
  | .singlePartAfterUpdate k => "single part " ++ k.title ++ " after update"
  | .finalUnsupported k m => m ++ " has no multi-part " ++ k.title ++ " final"
  | .poolClosed => "session pool is closed"
  | .tableMissing => "null pkcs11 function list"
  | .entryPointMissing => "missing C_GetFunctionList entry point"
  | .tableFailed rv => "Failed to load pkcs11 function list: " ++ Text.hexCode rv
  | .functionMissing name => "Broken pkcs11 module, no " ++ name ++ " function"
  | .vendorRange c name =>
    "vendor code " ++ Text.hexCode c ++ " for " ++ name ++ " is outside the vendor range"
  | .unknownVendorName family name => "unknown vendor " ++ family ++ " " ++ name

def Error.origin? : Error → Option String
  | .returnedFrom _ text | .other text => some text
  | _ => none

abbrev Result (α : Type) := Except Error α

end Cryptoki
