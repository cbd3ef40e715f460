import Cryptoki.Mechanism.Block
import Cryptoki.Attribute.Scalar

/-!
Texts that show mechanisms, their parameters and their blocks with all fields.
-/
namespace Cryptoki

def codeDigits (c : UInt64) : String := toString c.toNat

def flagText (b : Bool) : String := if b then "true" else "false"

def Output.inspect (show_ : α → String) (o : Output α) : String :=
  Text.record "OutParam" [("value", show_ o.value), ("written", flagText o.written)]

def Version.inspect (v : Version) : String :=
  Text.record "Version" [("major", toString v.major.toNat), ("minor", toString v.minor.toNat)]

def Randoms.inspect (r : Randoms) : String :=
  Text.record "HandshakeRandoms" [("client", r.client.numbers), ("server", r.server.numbers)]

def KeyMaterial.inspect (k : KeyMaterial) : String :=
  Text.record "KeyMaterial" [
    ("client_mac_secret", toString k.handles.clientMac),
    ("server_mac_secret", toString k.handles.serverMac),
    ("client_key", toString k.handles.clientKey),
    ("server_key", toString k.handles.serverKey),
    ("client_iv", k.clientIv.numbers), ("server_iv", k.serverIv.numbers)]

def Parameters.inspect : Parameters → String
  | .iv vector => Text.applied "Iv" vector.numbers
  | .derivationString data => Text.applied "KeyDerivationString" data.numbers
  | .pss p =>
    Text.applied "RsaPkcsPss" <| Text.record "RsaPssParams" [("hash_alg", codeDigits p.hash),
      ("mgf", codeDigits p.mask), ("salt_len", codeDigits p.saltLength)]
  | .oaep p =>
    Text.applied "RsaPkcsOaep" <| Text.record "RsaOaepParams" [("hash_alg", codeDigits p.hash),
      ("mgf", codeDigits p.mask), ("source_data", p.source.numbers)]
  | .gcm p =>
    Text.applied "Gcm" <| Text.record "GcmParams" [("iv", p.vector.numbers),
      ("aad", p.aad.numbers), ("tag_bits", codeDigits p.tagBits)]
  | .ccm p =>
    Text.applied "Ccm" <| Text.record "CcmParams" [("data_len", codeDigits p.dataLength),
      ("nonce", p.nonce.numbers), ("aad", p.aad.numbers), ("mac_len", codeDigits p.macLength)]
  | .ecdh p =>
    Text.applied "Ecdh1Derive" <| Text.record "Ecdh1DeriveParams" [("kdf", codeDigits p.kdf),
      ("shared_data", p.sharedData.numbers), ("public_data", p.publicData.numbers)]
  | .master p =>
    Text.applied "MasterKeyDerive" <| Text.record "MasterKeyDeriveParams" [
      ("randoms", p.randoms.inspect), ("prf", Text.optional codeDigits p.prf),
      ("version", p.version.inspect Version.inspect)]
  | .keyMaterial p =>
    Text.applied "KeyMatDerive" <| Text.record "KeyMatDeriveParams" [
      ("mac_bits", codeDigits p.macBits), ("key_bits", codeDigits p.keyBits),
      ("iv_bits", codeDigits p.ivBits), ("export", flagText p.exported),
      ("randoms", p.randoms.inspect), ("prf", Text.optional codeDigits p.prf),
      ("material", p.material.inspect KeyMaterial.inspect)]

def Mechanism.inspect (m : Mechanism) : String :=
  Text.record "Mechanism" [("code", codeDigits m.code),
    ("params", Text.optional Parameters.inspect m.parameters)]

def MechanismBlock.inspect (b : MechanismBlock) : String :=
  Text.record "CkMechanism" [("mechanism", Text.quote (mechanismName b.code)),
    ("ulParameterLen", toString b.block.size)]

end Cryptoki
