import Cryptoki.Error
import Cryptoki.Mechanism.Name

/-!
Mechanism parameters. Each layout can only be built within its rules, and carries them. Two
layouts have outputs, which the module writes during a call.
-/
namespace Cryptoki

/-- A value that is readable only after a call that wrote it has succeeded. -/
structure Output (α : Type) where
  value : α
  written : Bool
  deriving DecidableEq, Repr

def Output.pending (a : α) : Output α := ⟨a, false⟩

def Output.get (o : Output α) : Result α :=
  if o.written then .ok o.value else .error .outputUnread

def Output.reset (o : Output α) : Output α := { o with written := false }

def Output.complete (_ : Output α) (a : α) : Output α := ⟨a, true⟩

structure Version where
  major : UInt8
  minor : UInt8
  deriving DecidableEq, Repr

def Version.text (v : Version) : String :=
  toString v.major.toNat ++ "." ++ toString v.minor.toNat

def hashMasks : List (Code × Code) :=
  [(0x220, 1), (0x255, 5), (0x250, 2), (0x260, 3), (0x270, 4), (0x2b0, 7), (0x2c0, 8), (0x2d0, 9)]

def acceptedHashes : List Code := hashMasks.map (·.1)

def acceptedMasks : List Code := hashMasks.map (·.2)

structure PssParameters where
  hash : Code
  mask : Code
  saltLength : UInt64
  hash_accepted : hash ∈ acceptedHashes
  mask_accepted : mask ∈ acceptedMasks
  deriving DecidableEq, Repr

def PssParameters.make (hash mask : Code) (saltLength : UInt64) : Result PssParameters :=
  if h : hash ∈ acceptedHashes then
    if m : mask ∈ acceptedMasks then .ok ⟨hash, mask, saltLength, h, m⟩
    else .error (.unsupportedMask mask)
  else .error (.unsupportedHash (mechanismName hash))

structure OaepParameters where
  hash : Code
  mask : Code
  source : Bytes
  hash_accepted : hash ∈ acceptedHashes
  mask_accepted : mask ∈ acceptedMasks
  deriving DecidableEq, Repr

def OaepParameters.make (hash mask : Code) (source : Bytes) : Result OaepParameters :=
  if h : hash ∈ acceptedHashes then
    if m : mask ∈ acceptedMasks then .ok ⟨hash, mask, source, h, m⟩
    else .error (.unsupportedMask mask)
  else .error (.unsupportedHash (mechanismName hash))

def gcmTagSizes : List UInt64 := [32, 64, 96, 104, 112, 120, 128]

def gcmDefaultTagBits : UInt64 := 128

structure GcmParameters where
  vector : Bytes
  aad : Bytes
  tagBits : UInt64
  vector_given : vector ≠ []
  tag_allowed : tagBits ∈ gcmTagSizes
  deriving DecidableEq, Repr

def GcmParameters.make (vector aad : Bytes) (tagBits : UInt64) : Result GcmParameters :=
  if v : vector = [] then .error .gcmVectorMissing
  else if t : tagBits ∈ gcmTagSizes then .ok ⟨vector, aad, tagBits, v, t⟩
  else .error (.gcmTagBits tagBits)

def GcmParameters.withDefaultTag (vector aad : Bytes) : Result GcmParameters :=
  make vector aad gcmDefaultTagBits

structure CcmParameters where
  dataLength : UInt64
  nonce : Bytes
  aad : Bytes
  macLength : UInt64
  nonce_allowed : 7 ≤ nonce.length ∧ nonce.length ≤ 13
  mac_allowed : 4 ≤ macLength ∧ macLength ≤ 16 ∧ macLength % 2 = 0
  deriving DecidableEq, Repr

def CcmParameters.make (dataLength : UInt64) (nonce aad : Bytes) (macLength : UInt64) :
    Result CcmParameters :=
  if n : 7 ≤ nonce.length ∧ nonce.length ≤ 13 then
    if m : 4 ≤ macLength ∧ macLength ≤ 16 ∧ macLength % 2 = 0 then
      .ok ⟨dataLength, nonce, aad, macLength, n, m⟩
    else .error (.ccmMacLength macLength)
  else .error (.ccmNonceLength nonce.length)

def kdfNull : Code := 1

def keyDerivationFunctions : List Code := [kdfNull, 2, 5, 6, 7, 8]

structure EcdhParameters where
  kdf : Code
  sharedData : Bytes
  publicData : Bytes
  kdf_known : kdf ∈ keyDerivationFunctions
  shared_used : kdf = kdfNull → sharedData = []
  public_given : publicData ≠ []
  deriving DecidableEq, Repr

def EcdhParameters.make (kdf : Code) (sharedData publicData : Bytes) : Result EcdhParameters :=
  if k : kdf ∈ keyDerivationFunctions then
    if s : kdf = kdfNull → sharedData = [] then
      if p : publicData = [] then .error .publicDataMissing
      else .ok ⟨kdf, sharedData, publicData, k, s, p⟩
    else .error .sharedDataWithoutKdf
  else .error (.unsupportedKdf kdf)

def randomSize : Nat := 28

structure Randoms where
  client : Bytes
  server : Bytes
  client_size : client.length = randomSize
  server_size : server.length = randomSize
  deriving DecidableEq, Repr

def Randoms.make (client server : Bytes) : Result Randoms :=
  if c : client.length = randomSize then
    if s : server.length = randomSize then .ok ⟨client, server, c, s⟩
    else .error (.randomLength "server" randomSize server.length)
  else .error (.randomLength "client" randomSize client.length)

structure MasterParameters where
  randoms : Randoms
  prf : Option Code
  version : Output Version
  deriving DecidableEq, Repr

def MasterParameters.make (randoms : Randoms) (prf : Option Code) : MasterParameters :=
  ⟨randoms, prf, .pending ⟨0, 0⟩⟩

structure KeyHandles where
  clientMac : Handle
  serverMac : Handle
  clientKey : Handle
  serverKey : Handle
  deriving DecidableEq, Repr

def KeyHandles.none : KeyHandles := ⟨0, 0, 0, 0⟩

structure KeyMaterial where
  handles : KeyHandles
  clientIv : Bytes
  serverIv : Bytes
  deriving DecidableEq, Repr

structure KeyMaterialParameters where
  macBits : UInt64
  keyBits : UInt64
  ivBits : UInt64
  exported : Bool
  randoms : Randoms
  prf : Option Code
  material : Output KeyMaterial
  iv_whole : ivBits % 8 = 0
  deriving DecidableEq, Repr

def KeyMaterialParameters.make (macBits keyBits ivBits : UInt64) (exported : Bool)
    (randoms : Randoms) (prf : Option Code) : Result KeyMaterialParameters :=
  if w : ivBits % 8 = 0 then
    let iv := List.replicate (ivBits / 8).toNat 0
    .ok ⟨macBits, keyBits, ivBits, exported, randoms, prf, .pending ⟨.none, iv, iv⟩, w⟩
  else .error (.vectorBits ivBits)

inductive Parameters where
  | iv (vector : Bytes)
  | pss (p : PssParameters)
  | oaep (p : OaepParameters)
  | gcm (p : GcmParameters)
  | ccm (p : CcmParameters)
  | ecdh (p : EcdhParameters)
  | derivationString (data : Bytes)
  | master (p : MasterParameters)
  | keyMaterial (p : KeyMaterialParameters)
  deriving DecidableEq, Repr

end Cryptoki
