import Cryptoki.Attribute.Kind
import Cryptoki.Code.Basic

/-!
The standard attribute types, in ascending order of their codes: name, kind of value, and
whether values are secret by nature.
-/
namespace Cryptoki

structure AttributeRow where
  code : Code
  name : String
  kind : Kind
  sensitive : Bool
  deriving DecidableEq, Repr

def standardAttributes : List AttributeRow := [
  ⟨0x0, "CKA_CLASS", .objectClass, false⟩,
  ⟨0x1, "CKA_TOKEN", .bool, false⟩,
  ⟨0x2, "CKA_PRIVATE", .bool, false⟩,
  ⟨0x3, "CKA_LABEL", .string, false⟩,
  ⟨0x4, "CKA_UNIQUE_ID", .string, false⟩,
  ⟨0x10, "CKA_APPLICATION", .string, false⟩,
  ⟨0x11, "CKA_VALUE", .bytes, false⟩,
  ⟨0x12, "CKA_OBJECT_ID", .bytes, false⟩,
  ⟨0x80, "CKA_CERTIFICATE_TYPE", .certificateType, false⟩,
  ⟨0x81, "CKA_ISSUER", .bytes, false⟩,
  ⟨0x82, "CKA_SERIAL_NUMBER", .bytes, false⟩,
  ⟨0x83, "CKA_AC_ISSUER", .bytes, false⟩,
  ⟨0x84, "CKA_OWNER", .bytes, false⟩,
  ⟨0x85, "CKA_ATTR_TYPES", .bytes, false⟩,
  ⟨0x86, "CKA_TRUSTED", .bool, false⟩,
  ⟨0x87, "CKA_CERTIFICATE_CATEGORY", .ulong, false⟩,
  ⟨0x88, "CKA_JAVA_MIDP_SECURITY_DOMAIN", .ulong, false⟩,
  ⟨0x89, "CKA_URL", .string, false⟩,
  ⟨0x8a, "CKA_HASH_OF_SUBJECT_PUBLIC_KEY", .bytes, false⟩,
  ⟨0x8b, "CKA_HASH_OF_ISSUER_PUBLIC_KEY", .bytes, false⟩,
  ⟨0x8c, "CKA_NAME_HASH_ALGORITHM", .mechanism, false⟩,
  ⟨0x90, "CKA_CHECK_VALUE", .bytes, false⟩,
  ⟨0x100, "CKA_KEY_TYPE", .keyType, false⟩,
  ⟨0x101, "CKA_SUBJECT", .bytes, false⟩,
  ⟨0x102, "CKA_ID", .bytes, false⟩,
  ⟨0x103, "CKA_SENSITIVE", .bool, false⟩,
  ⟨0x104, "CKA_ENCRYPT", .bool, false⟩,
  ⟨0x105, "CKA_DECRYPT", .bool, false⟩,
  ⟨0x106, "CKA_WRAP", .bool, false⟩,
  ⟨0x107, "CKA_UNWRAP", .bool, false⟩,
  ⟨0x108, "CKA_SIGN", .bool, false⟩,
  ⟨0x109, "CKA_SIGN_RECOVER", .bool, false⟩,
  ⟨0x10a, "CKA_VERIFY", .bool, false⟩,
  ⟨0x10b, "CKA_VERIFY_RECOVER", .bool, false⟩,
  ⟨0x10c, "CKA_DERIVE", .bool, false⟩,
  ⟨0x110, "CKA_START_DATE", .date, false⟩,
  ⟨0x111, "CKA_END_DATE", .date, false⟩,
  ⟨0x120, "CKA_MODULUS", .bigInt, false⟩,
  ⟨0x121, "CKA_MODULUS_BITS", .ulong, false⟩,
  ⟨0x122, "CKA_PUBLIC_EXPONENT", .bigInt, false⟩,
  ⟨0x123, "CKA_PRIVATE_EXPONENT", .bigInt, true⟩,
  ⟨0x124, "CKA_PRIME_1", .bigInt, true⟩,
  ⟨0x125, "CKA_PRIME_2", .bigInt, true⟩,
  ⟨0x126, "CKA_EXPONENT_1", .bigInt, true⟩,
  ⟨0x127, "CKA_EXPONENT_2", .bigInt, true⟩,
  ⟨0x128, "CKA_COEFFICIENT", .bigInt, true⟩,
  ⟨0x129, "CKA_PUBLIC_KEY_INFO", .bytes, false⟩,
  ⟨0x130, "CKA_PRIME", .bigInt, false⟩,
  ⟨0x131, "CKA_SUBPRIME", .bigInt, false⟩,
  ⟨0x132, "CKA_BASE", .bigInt, false⟩,
  ⟨0x133, "CKA_PRIME_BITS", .ulong, false⟩,
  ⟨0x134, "CKA_SUBPRIME_BITS", .ulong, false⟩,
  ⟨0x160, "CKA_VALUE_BITS", .ulong, false⟩,
  ⟨0x161, "CKA_VALUE_LEN", .ulong, false⟩,
  ⟨0x162, "CKA_EXTRACTABLE", .bool, false⟩,
  ⟨0x163, "CKA_LOCAL", .bool, false⟩,
  ⟨0x164, "CKA_NEVER_EXTRACTABLE", .bool, false⟩,
  ⟨0x165, "CKA_ALWAYS_SENSITIVE", .bool, false⟩,
  ⟨0x166, "CKA_KEY_GEN_MECHANISM", .mechanism, false⟩,
  ⟨0x170, "CKA_MODIFIABLE", .bool, false⟩,
  ⟨0x171, "CKA_COPYABLE", .bool, false⟩,
  ⟨0x172, "CKA_DESTROYABLE", .bool, false⟩,
  ⟨0x180, "CKA_EC_PARAMS", .bytes, false⟩,
  ⟨0x181, "CKA_EC_POINT", .bytes, false⟩,
  ⟨0x202, "CKA_ALWAYS_AUTHENTICATE", .bool, false⟩,
  ⟨0x210, "CKA_WRAP_WITH_TRUSTED", .bool, false⟩,
  ⟨0x250, "CKA_GOSTR3410_PARAMS", .bytes, false⟩,
  ⟨0x251, "CKA_GOSTR3411_PARAMS", .bytes, false⟩,
  ⟨0x252, "CKA_GOST28147_PARAMS", .bytes, false⟩,
  ⟨0x300, "CKA_HW_FEATURE_TYPE", .hardwareFeature, false⟩,
  ⟨0x301, "CKA_RESET_ON_INIT", .bool, false⟩,
  ⟨0x302, "CKA_HAS_RESET", .bool, false⟩,
  ⟨0x400, "CKA_PIXEL_X", .ulong, false⟩,
  ⟨0x401, "CKA_PIXEL_Y", .ulong, false⟩,
  ⟨0x402, "CKA_RESOLUTION", .ulong, false⟩,
  ⟨0x403, "CKA_CHAR_ROWS", .ulong, false⟩,
  ⟨0x404, "CKA_CHAR_COLUMNS", .ulong, false⟩,
  ⟨0x405, "CKA_COLOR", .bool, false⟩,
  ⟨0x406, "CKA_BITS_PER_PIXEL", .ulong, false⟩,
  ⟨0x500, "CKA_MECHANISM_TYPE", .mechanism, false⟩,
  ⟨0x40000211, "CKA_WRAP_TEMPLATE", .template, false⟩,
  ⟨0x40000212, "CKA_UNWRAP_TEMPLATE", .template, false⟩,
  ⟨0x40000213, "CKA_DERIVE_TEMPLATE", .template, false⟩,
  ⟨0x40000600, "CKA_ALLOWED_MECHANISMS", .mechanismArray, false⟩]

end Cryptoki
