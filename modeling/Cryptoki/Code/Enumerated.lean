import Cryptoki.Code.Basic

/-!
Names of the enumerated attribute values: object classes, key types, certificate types and
hardware features.
-/
namespace Cryptoki.Enumerated

def objectClasses : List NamedCode := [
  ⟨0x0, "CKO_DATA"⟩,
  ⟨0x1, "CKO_CERTIFICATE"⟩,
  ⟨0x2, "CKO_PUBLIC_KEY"⟩,
  ⟨0x3, "CKO_PRIVATE_KEY"⟩,
  ⟨0x4, "CKO_SECRET_KEY"⟩,
  ⟨0x5, "CKO_HW_FEATURE"⟩,
  ⟨0x6, "CKO_DOMAIN_PARAMETERS"⟩,
  ⟨0x7, "CKO_MECHANISM"⟩,
  ⟨0x8, "CKO_OTP_KEY"⟩]

def keyTypes : List NamedCode := [
  ⟨0x0, "CKK_RSA"⟩,
  ⟨0x1, "CKK_DSA"⟩,
  ⟨0x2, "CKK_DH"⟩,
  ⟨0x3, "CKK_EC"⟩,
  ⟨0x4, "CKK_X9_42_DH"⟩,
  ⟨0x10, "CKK_GENERIC_SECRET"⟩,
  ⟨0x13, "CKK_DES"⟩,
  ⟨0x14, "CKK_DES2"⟩,
  ⟨0x15, "CKK_DES3"⟩,
  ⟨0x1f, "CKK_AES"⟩,
  ⟨0x25, "CKK_CAMELLIA"⟩,
  ⟨0x26, "CKK_ARIA"⟩,
  ⟨0x28, "CKK_SHA_1_HMAC"⟩,
  ⟨0x2b, "CKK_SHA256_HMAC"⟩,
  ⟨0x2c, "CKK_SHA384_HMAC"⟩,
  ⟨0x2d, "CKK_SHA512_HMAC"⟩,
  ⟨0x40, "CKK_EC_EDWARDS"⟩,
  ⟨0x41, "CKK_EC_MONTGOMERY"⟩]

def certificateTypes : List NamedCode := [
  ⟨0x0, "CKC_X_509"⟩,
  ⟨0x1, "CKC_X_509_ATTR_CERT"⟩,
  ⟨0x2, "CKC_WTLS"⟩]

def hardwareFeatures : List NamedCode := [
  ⟨0x1, "CKH_MONOTONIC_COUNTER"⟩,
  ⟨0x2, "CKH_CLOCK"⟩,
  ⟨0x3, "CKH_USER_INTERFACE"⟩]

def objectClass? (c : Code) : Option String := nameOf? objectClasses c
def keyType? (c : Code) : Option String := nameOf? keyTypes c
def certificateType? (c : Code) : Option String := nameOf? certificateTypes c
def hardwareFeature? (c : Code) : Option String := nameOf? hardwareFeatures c

end Cryptoki.Enumerated
