import Cryptoki.Code.Basic

/-!
Return values of module calls: the ones this library acts on or gives, and the ones that have
a name in messages.
-/
namespace Cryptoki.Return

def ok : Code := 0x0
def slotIdInvalid : Code := 0x3
def generalError : Code := 0x5
def argumentsBad : Code := 0x7
def attributeSensitive : Code := 0x11
def attributeTypeInvalid : Code := 0x12
def attributeValueInvalid : Code := 0x13
def functionNotSupported : Code := 0x54
def keyHandleInvalid : Code := 0x60
def keyNotWrappable : Code := 0x69
def mechanismInvalid : Code := 0x70
def mechanismParamInvalid : Code := 0x71
def objectHandleInvalid : Code := 0x82
def operationActive : Code := 0x90
def operationNotInitialized : Code := 0x91
def sessionClosed : Code := 0xb0
def sessionCount : Code := 0xb1
def sessionHandleInvalid : Code := 0xb3
def signatureInvalid : Code := 0xc0
def unwrappingKeyHandleInvalid : Code := 0xf0
def wrappingKeyHandleInvalid : Code := 0x113
def bufferTooSmall : Code := 0x150

def names : List NamedCode := [
  ⟨0x0, "CKR_OK"⟩,
  ⟨0x1, "CKR_CANCEL"⟩,
  ⟨0x2, "CKR_HOST_MEMORY"⟩,
  ⟨0x3, "CKR_SLOT_ID_INVALID"⟩,
  ⟨0x5, "CKR_GENERAL_ERROR"⟩,
  ⟨0x6, "CKR_FUNCTION_FAILED"⟩,
  ⟨0x7, "CKR_ARGUMENTS_BAD"⟩,
  ⟨0x10, "CKR_ATTRIBUTE_READ_ONLY"⟩,
  ⟨0x11, "CKR_ATTRIBUTE_SENSITIVE"⟩,
  ⟨0x12, "CKR_ATTRIBUTE_TYPE_INVALID"⟩,
  ⟨0x13, "CKR_ATTRIBUTE_VALUE_INVALID"⟩,
  ⟨0x20, "CKR_DATA_INVALID"⟩,
  ⟨0x21, "CKR_DATA_LEN_RANGE"⟩,
  ⟨0x30, "CKR_DEVICE_ERROR"⟩,
  ⟨0x40, "CKR_ENCRYPTED_DATA_INVALID"⟩,
  ⟨0x41, "CKR_ENCRYPTED_DATA_LEN_RANGE"⟩,
  ⟨0x54, "CKR_FUNCTION_NOT_SUPPORTED"⟩,
  ⟨0x60, "CKR_KEY_HANDLE_INVALID"⟩,
  ⟨0x63, "CKR_KEY_TYPE_INCONSISTENT"⟩,
  ⟨0x68, "CKR_KEY_FUNCTION_NOT_PERMITTED"⟩,
  ⟨0x70, "CKR_MECHANISM_INVALID"⟩,
  ⟨0x71, "CKR_MECHANISM_PARAM_INVALID"⟩,
  ⟨0x82, "CKR_OBJECT_HANDLE_INVALID"⟩,
  ⟨0x90, "CKR_OPERATION_ACTIVE"⟩,
  ⟨0x91, "CKR_OPERATION_NOT_INITIALIZED"⟩,
  ⟨0xb0, "CKR_SESSION_CLOSED"⟩,
  ⟨0xb1, "CKR_SESSION_COUNT"⟩,
  ⟨0xb3, "CKR_SESSION_HANDLE_INVALID"⟩,
  ⟨0xc0, "CKR_SIGNATURE_INVALID"⟩,
  ⟨0xc1, "CKR_SIGNATURE_LEN_RANGE"⟩,
  ⟨0xd0, "CKR_TEMPLATE_INCOMPLETE"⟩,
  ⟨0xd1, "CKR_TEMPLATE_INCONSISTENT"⟩,
  ⟨0x101, "CKR_USER_NOT_LOGGED_IN"⟩,
  ⟨0x150, "CKR_BUFFER_TOO_SMALL"⟩,
  ⟨0x190, "CKR_CRYPTOKI_NOT_INITIALIZED"⟩]

def name? (rv : Code) : Option String := nameOf? names rv

end Cryptoki.Return
