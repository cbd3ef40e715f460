import Cryptoki.Code.Basic

/-!
Mechanisms by what they can be used for. A mechanism may stand under several capabilities, but
never under both the full and the single form of one.
-/
namespace Cryptoki

inductive Capability where
  | fullEncryptDecrypt
  | singleEncryptDecrypt
  | fullSignVerify
  | singleSignVerify
  | signVerifyRecover
  | digest
  | keyGeneration
  | keyPairGeneration
  | wrapUnwrap
  | derive
  deriving DecidableEq, Repr

def Capability.all : List Capability :=
  [.fullEncryptDecrypt, .singleEncryptDecrypt, .fullSignVerify, .singleSignVerify,
    .signVerifyRecover, .digest, .keyGeneration, .keyPairGeneration, .wrapUnwrap, .derive]

def Capability.name : Capability → String
  | .fullEncryptDecrypt => "FULL_ENCRYPT_DECRYPT"
  | .singleEncryptDecrypt => "SINGLE_ENCRYPT_DECRYPT"
  | .fullSignVerify => "FULL_SIGN_VERIFY"
  | .singleSignVerify => "SINGLE_SIGN_VERIFY"
  | .signVerifyRecover => "SIGN_VERIFY_RECOVER"
  | .digest => "DIGEST"
  | .keyGeneration => "KEY_GENERATION"
  | .keyPairGeneration => "KEY_PAIR_GENERATION"
  | .wrapUnwrap => "WRAP_UNWRAP"
  | .derive => "DERIVE"

def Capability.bit : Capability → Nat
  | .fullEncryptDecrypt => 0x1
  | .singleEncryptDecrypt => 0x2
  | .fullSignVerify => 0x4
  | .singleSignVerify => 0x8
  | .signVerifyRecover => 0x10
  | .digest => 0x20
  | .keyGeneration => 0x40
  | .keyPairGeneration => 0x80
  | .wrapUnwrap => 0x100
  | .derive => 0x200

def Capability.mechanisms : Capability → List NamedCode
  | .fullEncryptDecrypt => [
      ⟨0x1081, "CKM_AES_ECB"⟩,
      ⟨0x1082, "CKM_AES_CBC"⟩,
      ⟨0x1085, "CKM_AES_CBC_PAD"⟩,
      ⟨0x1086, "CKM_AES_CTR"⟩,
      ⟨0x2104, "CKM_AES_OFB"⟩,
      ⟨0x2106, "CKM_AES_CFB8"⟩,
      ⟨0x2107, "CKM_AES_CFB128"⟩,
      ⟨0x1089, "CKM_AES_CTS"⟩,
      ⟨0x132, "CKM_DES3_ECB"⟩,
      ⟨0x133, "CKM_DES3_CBC"⟩,
      ⟨0x136, "CKM_DES3_CBC_PAD"⟩]
  | .singleEncryptDecrypt => [
      ⟨0x1, "CKM_RSA_PKCS"⟩,
      ⟨0x9, "CKM_RSA_PKCS_OAEP"⟩,
      ⟨0x3, "CKM_RSA_X_509"⟩,
      ⟨0x1087, "CKM_AES_GCM"⟩,
      ⟨0x1088, "CKM_AES_CCM"⟩]
  | .fullSignVerify => [
      ⟨0x6, "CKM_SHA1_RSA_PKCS"⟩,
      ⟨0x46, "CKM_SHA224_RSA_PKCS"⟩,
      ⟨0x40, "CKM_SHA256_RSA_PKCS"⟩,
      ⟨0x41, "CKM_SHA384_RSA_PKCS"⟩,
      ⟨0x42, "CKM_SHA512_RSA_PKCS"⟩,
      ⟨0x60, "CKM_SHA3_256_RSA_PKCS"⟩,
      ⟨0x61, "CKM_SHA3_384_RSA_PKCS"⟩,
      ⟨0x62, "CKM_SHA3_512_RSA_PKCS"⟩,
      ⟨0xe, "CKM_SHA1_RSA_PKCS_PSS"⟩,
      ⟨0x47, "CKM_SHA224_RSA_PKCS_PSS"⟩,
      ⟨0x43, "CKM_SHA256_RSA_PKCS_PSS"⟩,
      ⟨0x44, "CKM_SHA384_RSA_PKCS_PSS"⟩,
      ⟨0x45, "CKM_SHA512_RSA_PKCS_PSS"⟩,
      ⟨0x1042, "CKM_ECDSA_SHA1"⟩,
      ⟨0x1043, "CKM_ECDSA_SHA224"⟩,
      ⟨0x1044, "CKM_ECDSA_SHA256"⟩,
      ⟨0x1045, "CKM_ECDSA_SHA384"⟩,
      ⟨0x1046, "CKM_ECDSA_SHA512"⟩,
      ⟨0x12, "CKM_DSA_SHA1"⟩,
      ⟨0x13, "CKM_DSA_SHA224"⟩,
      ⟨0x14, "CKM_DSA_SHA256"⟩,
      ⟨0x221, "CKM_SHA_1_HMAC"⟩,
      ⟨0x256, "CKM_SHA224_HMAC"⟩,
      ⟨0x251, "CKM_SHA256_HMAC"⟩,
      ⟨0x261, "CKM_SHA384_HMAC"⟩,
      ⟨0x271, "CKM_SHA512_HMAC"⟩,
      ⟨0x2b1, "CKM_SHA3_256_HMAC"⟩,
      ⟨0x2d1, "CKM_SHA3_512_HMAC"⟩,
      ⟨0x108a, "CKM_AES_CMAC"⟩]
  | .singleSignVerify => [
      ⟨0x1, "CKM_RSA_PKCS"⟩,
      ⟨0xd, "CKM_RSA_PKCS_PSS"⟩,
      ⟨0x3, "CKM_RSA_X_509"⟩,
      ⟨0x1041, "CKM_ECDSA"⟩,
      ⟨0x11, "CKM_DSA"⟩,
      ⟨0x1057, "CKM_EDDSA"⟩]
  | .signVerifyRecover => [
      ⟨0x1, "CKM_RSA_PKCS"⟩,
      ⟨0x3, "CKM_RSA_X_509"⟩,
      ⟨0x2, "CKM_RSA_9796"⟩]
  | .digest => [
      ⟨0x210, "CKM_MD5"⟩,
      ⟨0x220, "CKM_SHA_1"⟩,
      ⟨0x255, "CKM_SHA224"⟩,
      ⟨0x250, "CKM_SHA256"⟩,
      ⟨0x260, "CKM_SHA384"⟩,
      ⟨0x270, "CKM_SHA512"⟩,
      ⟨0x48, "CKM_SHA512_224"⟩,
      ⟨0x4c, "CKM_SHA512_256"⟩,
      ⟨0x2b5, "CKM_SHA3_224"⟩,
      ⟨0x2b0, "CKM_SHA3_256"⟩,
      ⟨0x2c0, "CKM_SHA3_384"⟩,
      ⟨0x2d0, "CKM_SHA3_512"⟩]
  | .keyGeneration => [
      ⟨0x1080, "CKM_AES_KEY_GEN"⟩,
      ⟨0x131, "CKM_DES3_KEY_GEN"⟩,
      ⟨0x350, "CKM_GENERIC_SECRET_KEY_GEN"⟩,
      ⟨0x374, "CKM_TLS_PRE_MASTER_KEY_GEN"⟩]
  | .keyPairGeneration => [
      ⟨0x0, "CKM_RSA_PKCS_KEY_PAIR_GEN"⟩,
      ⟨0x1040, "CKM_EC_KEY_PAIR_GEN"⟩,
      ⟨0x10, "CKM_DSA_KEY_PAIR_GEN"⟩,
      ⟨0x20, "CKM_DH_PKCS_KEY_PAIR_GEN"⟩,
      ⟨0x1055, "CKM_EC_EDWARDS_KEY_PAIR_GEN"⟩,
      ⟨0x1056, "CKM_EC_MONTGOMERY_KEY_PAIR_GEN"⟩]
  | .wrapUnwrap => [
      ⟨0x1, "CKM_RSA_PKCS"⟩,
      ⟨0x9, "CKM_RSA_PKCS_OAEP"⟩,
      ⟨0x2109, "CKM_AES_KEY_WRAP"⟩,
      ⟨0x210a, "CKM_AES_KEY_WRAP_PAD"⟩,
      ⟨0x1081, "CKM_AES_ECB"⟩,
      ⟨0x1082, "CKM_AES_CBC"⟩,
      ⟨0x1085, "CKM_AES_CBC_PAD"⟩,
      ⟨0x136, "CKM_DES3_CBC_PAD"⟩]
  | .derive => [
      ⟨0x1050, "CKM_ECDH1_DERIVE"⟩,
      ⟨0x1051, "CKM_ECDH1_COFACTOR_DERIVE"⟩,
      ⟨0x21, "CKM_DH_PKCS_DERIVE"⟩,
      ⟨0x360, "CKM_CONCATENATE_BASE_AND_KEY"⟩,
      ⟨0x362, "CKM_CONCATENATE_BASE_AND_DATA"⟩,
      ⟨0x364, "CKM_XOR_BASE_AND_DATA"⟩,
      ⟨0x365, "CKM_EXTRACT_KEY_FROM_KEY"⟩,
      ⟨0x371, "CKM_SSL3_MASTER_KEY_DERIVE"⟩,
      ⟨0x372, "CKM_SSL3_KEY_AND_MAC_DERIVE"⟩,
      ⟨0x375, "CKM_TLS_MASTER_KEY_DERIVE"⟩,
      ⟨0x376, "CKM_TLS_KEY_AND_MAC_DERIVE"⟩,
      ⟨0x3e0, "CKM_TLS12_MASTER_KEY_DERIVE"⟩,
      ⟨0x3e1, "CKM_TLS12_KEY_AND_MAC_DERIVE"⟩,
      ⟨0x1104, "CKM_AES_ECB_ENCRYPT_DATA"⟩,
      ⟨0x1105, "CKM_AES_CBC_ENCRYPT_DATA"⟩,
      ⟨0x402a, "CKM_HKDF_DERIVE"⟩]

def capabilities (code : Code) : List Capability :=
  Capability.all.filter fun c => c.mechanisms.any (·.code == code)

def classifiedName? (code : Code) : Option String :=
  Capability.all.findSome? fun c => nameOf? c.mechanisms code

end Cryptoki
