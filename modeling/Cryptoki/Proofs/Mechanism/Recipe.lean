import Cryptoki.Mechanism.Basic
import Cryptoki.Proofs.Result

/-!
The constructors of mechanisms. A constructor succeeds just when its arguments keep its rules, and
the parameters that it makes are its arguments.
-/
namespace Cryptoki

theorem PssParameters.make_eq_ok {hash mask : Code} {saltLength : UInt64} {p : PssParameters} :
    make hash mask saltLength = .ok p ↔
      p.hash = hash ∧ p.mask = mask ∧ p.saltLength = saltLength := by
  constructor
  · intro made
    unfold make at made
    split at made
    · split at made <;> cases made
      exact ⟨rfl, rfl, rfl⟩
    · cases made
  · rintro ⟨rfl, rfl, rfl⟩
    simp [make, p.hash_accepted, p.mask_accepted]

theorem OaepParameters.make_eq_ok {hash mask : Code} {source : Bytes} {p : OaepParameters} :
    make hash mask source = .ok p ↔ p.hash = hash ∧ p.mask = mask ∧ p.source = source := by
  constructor
  · intro made
    unfold make at made
    split at made
    · split at made <;> cases made
      exact ⟨rfl, rfl, rfl⟩
    · cases made
  · rintro ⟨rfl, rfl, rfl⟩
    simp [make, p.hash_accepted, p.mask_accepted]

theorem GcmParameters.make_eq_ok {vector aad : Bytes} {tagBits : UInt64} {p : GcmParameters} :
    make vector aad tagBits = .ok p ↔ p.vector = vector ∧ p.aad = aad ∧ p.tagBits = tagBits := by
  constructor
  · intro made
    unfold make at made
    split at made
    · cases made
    · split at made <;> cases made
      exact ⟨rfl, rfl, rfl⟩
  · rintro ⟨rfl, rfl, rfl⟩
    simp [make, p.vector_given, p.tag_allowed]

theorem CcmParameters.make_eq_ok {dataLength macLength : UInt64} {nonce aad : Bytes}
    {p : CcmParameters} :
    make dataLength nonce aad macLength = .ok p ↔
      p.dataLength = dataLength ∧ p.nonce = nonce ∧ p.aad = aad ∧ p.macLength = macLength := by
  constructor
  · intro made
    unfold make at made
    split at made
    · split at made <;> cases made
      exact ⟨rfl, rfl, rfl, rfl⟩
    · cases made
  · rintro ⟨rfl, rfl, rfl, rfl⟩
    rw [make, dif_pos p.nonce_allowed, dif_pos p.mac_allowed]

theorem EcdhParameters.make_eq_ok {kdf : Code} {sharedData publicData : Bytes}
    {p : EcdhParameters} :
    make kdf sharedData publicData = .ok p ↔
      p.kdf = kdf ∧ p.sharedData = sharedData ∧ p.publicData = publicData := by
  constructor
  · intro made
    unfold make at made
    split at made
    · split at made
      · split at made <;> cases made
        exact ⟨rfl, rfl, rfl⟩
      · cases made
    · cases made
  · rintro ⟨rfl, rfl, rfl⟩
    rw [make, dif_pos p.kdf_known, dif_pos p.shared_used, dif_neg p.public_given]

theorem Randoms.make_eq_ok {client server : Bytes} {r : Randoms} :
    make client server = .ok r ↔ r.client = client ∧ r.server = server := by
  constructor
  · intro made
    unfold make at made
    split at made
    · split at made <;> cases made
      exact ⟨rfl, rfl⟩
    · cases made
  · rintro ⟨rfl, rfl⟩
    rw [make, dif_pos r.client_size, dif_pos r.server_size]

theorem KeyMaterialParameters.make_eq_ok {macBits keyBits ivBits : UInt64} {exported : Bool}
    {randoms : Randoms} {prf : Option Code} {p : KeyMaterialParameters} :
    make macBits keyBits ivBits exported randoms prf = .ok p ↔
      p.macBits = macBits ∧ p.keyBits = keyBits ∧ p.ivBits = ivBits ∧ p.exported = exported ∧
        p.randoms = randoms ∧ p.prf = prf ∧
        p.material = .pending ⟨.none, List.replicate (ivBits / 8).toNat 0,
          List.replicate (ivBits / 8).toNat 0⟩ := by
  constructor
  · intro made
    unfold make at made
    split at made <;> cases made
    exact ⟨rfl, rfl, rfl, rfl, rfl, rfl, rfl⟩
  · rintro ⟨rfl, rfl, rfl, rfl, rfl, rfl, unwritten⟩
    simp only [make, dif_pos p.iv_whole, ← unwritten]

namespace Mechanism

inductive Recipe where
  | plain
  | iv (v : Bytes)
  | rawIv (v : Bytes)
  | derivationString (data : Bytes)
  | pss (hash mask : Code) (saltLength : UInt64)
  | oaep (hash mask : Code) (source : Option Bytes)
  | gcm (vector aad : Bytes) (tagBits : Option UInt64)
  | ccm (dataLength : UInt64) (nonce aad : Bytes) (macLength : UInt64)
  | ecdh (kdf : Code) (sharedData publicData : Bytes)
  | master (client server : Bytes) (prf : Option Code)
  | keyMaterial (macBits keyBits ivBits : UInt64) (exported : Bool) (client server : Bytes)
      (prf : Option Code)

namespace Recipe

def build (code : Code) : Recipe → Result Mechanism
  | .plain => .ok (Mechanism.plain code)
  | .iv v => withVector code v
  | .rawIv v => .ok (withParameters code (.iv v))
  | .derivationString data => .ok (withParameters code (.derivationString data))
  | .pss hash mask saltLength =>
    (withParameters code <| .pss ·) <$> PssParameters.make hash mask saltLength
  | .oaep hash mask source =>
    (withParameters code <| .oaep ·) <$> OaepParameters.make hash mask (source.getD [])
  | .gcm vector aad (some tagBits) =>
    (withParameters code <| .gcm ·) <$> GcmParameters.make vector aad tagBits
  | .gcm vector aad none =>
    (withParameters code <| .gcm ·) <$> GcmParameters.withDefaultTag vector aad
  | .ccm dataLength nonce aad macLength =>
    (withParameters code <| .ccm ·) <$> CcmParameters.make dataLength nonce aad macLength
  | .ecdh kdf sharedData publicData =>
    (withParameters code <| .ecdh ·) <$> EcdhParameters.make kdf sharedData publicData
  | .master client server prf =>
    (fun randoms => withParameters code (.master (.make randoms prf))) <$>
      Randoms.make client server
  | .keyMaterial macBits keyBits ivBits exported client server prf => do
    let randoms ← Randoms.make client server
    (withParameters code <| .keyMaterial ·) <$>
      KeyMaterialParameters.make macBits keyBits ivBits exported randoms prf

def Allowed : Recipe → Prop
  | .plain | .rawIv _ | .derivationString _ => True
  | .iv v => v ≠ []
  | .pss hash mask _ | .oaep hash mask _ => hash ∈ acceptedHashes ∧ mask ∈ acceptedMasks
  | .gcm vector _ tagBits =>
    vector ≠ [] ∧ tagBits.getD 128 ∈ ([32, 64, 96, 104, 112, 120, 128] : List UInt64)
  | .ccm _ nonce _ macLength =>
    (7 ≤ nonce.length ∧ nonce.length ≤ 13) ∧ 4 ≤ macLength ∧ macLength ≤ 16 ∧ macLength % 2 = 0
  | .ecdh kdf sharedData publicData =>
    kdf ∈ keyDerivationFunctions ∧ (kdf = kdfNull → sharedData = []) ∧ publicData ≠ []
  | .master client server _ => client.length = 28 ∧ server.length = 28
  | .keyMaterial _ _ ivBits _ client server _ =>
    client.length = 28 ∧ server.length = 28 ∧ ivBits % 8 = 0

end Recipe

/-- The arguments, and the parameters that hold them. -/
inductive Made : Recipe → Option Parameters → Prop where
  | plain : Made .plain none
  | iv {v : Bytes} : v ≠ [] → Made (.iv v) (some (.iv v))
  | rawIv (v : Bytes) : Made (.rawIv v) (some (.iv v))
  | derivationString (data : Bytes) : Made (.derivationString data) (some (.derivationString data))
  | pss (p : PssParameters) : Made (.pss p.hash p.mask p.saltLength) (some (.pss p))
  | oaep (p : OaepParameters) {source : Option Bytes} :
      p.source = source.getD [] → Made (.oaep p.hash p.mask source) (some (.oaep p))
  | gcm (p : GcmParameters) {tagBits : Option UInt64} :
      p.tagBits = tagBits.getD 128 → Made (.gcm p.vector p.aad tagBits) (some (.gcm p))
  | ccm (p : CcmParameters) : Made (.ccm p.dataLength p.nonce p.aad p.macLength) (some (.ccm p))
  | ecdh (p : EcdhParameters) : Made (.ecdh p.kdf p.sharedData p.publicData) (some (.ecdh p))
  | master (r : Randoms) (prf : Option Code) :
      Made (.master r.client r.server prf) (some (.master (.make r prf)))
  | keyMaterial (p : KeyMaterialParameters) :
      p.material = .pending ⟨.none, List.replicate (p.ivBits / 8).toNat 0,
        List.replicate (p.ivBits / 8).toNat 0⟩ →
      Made (.keyMaterial p.macBits p.keyBits p.ivBits p.exported p.randoms.client p.randoms.server
        p.prf) (some (.keyMaterial p))

variable {r : Recipe} {m : Mechanism} {code : Code}

open Result in
theorem made_of_build (built : r.build code = .ok m) : m.code = code ∧ Made r m.parameters := by
  cases r with
  | plain => cases built; exact ⟨rfl, .plain⟩
  | rawIv v => cases built; exact ⟨rfl, .rawIv v⟩
  | derivationString data => cases built; exact ⟨rfl, .derivationString data⟩
  | iv v =>
    simp only [Recipe.build, withVector, List.isEmpty_iff] at built
    split at built <;> cases built
    exact ⟨rfl, .iv ‹_›⟩
  | pss =>
    obtain ⟨p, made, rfl⟩ := map_eq_ok.mp built
    obtain ⟨rfl, rfl, rfl⟩ := PssParameters.make_eq_ok.mp made
    exact ⟨rfl, .pss p⟩
  | oaep =>
    obtain ⟨p, made, rfl⟩ := map_eq_ok.mp built
    obtain ⟨rfl, rfl, source⟩ := OaepParameters.make_eq_ok.mp made
    exact ⟨rfl, .oaep p source⟩
  | gcm _ _ tagBits =>
    cases tagBits <;>
    · obtain ⟨p, made, rfl⟩ := map_eq_ok.mp built
      obtain ⟨rfl, rfl, tag⟩ := GcmParameters.make_eq_ok.mp made
      exact ⟨rfl, .gcm p tag⟩
  | ccm =>
    obtain ⟨p, made, rfl⟩ := map_eq_ok.mp built
    obtain ⟨rfl, rfl, rfl, rfl⟩ := CcmParameters.make_eq_ok.mp made
    exact ⟨rfl, .ccm p⟩
  | ecdh =>
    obtain ⟨p, made, rfl⟩ := map_eq_ok.mp built
    obtain ⟨rfl, rfl, rfl⟩ := EcdhParameters.make_eq_ok.mp made
    exact ⟨rfl, .ecdh p⟩
  | master _ _ prf =>
    obtain ⟨randoms, made, rfl⟩ := map_eq_ok.mp built
    obtain ⟨rfl, rfl⟩ := Randoms.make_eq_ok.mp made
    exact ⟨rfl, .master randoms prf⟩
  | keyMaterial =>
    obtain ⟨randoms, random, rest⟩ := bind_eq_ok.mp built
    obtain ⟨p, made, rfl⟩ := map_eq_ok.mp rest
    obtain ⟨rfl, rfl⟩ := Randoms.make_eq_ok.mp random
    obtain ⟨rfl, rfl, rfl, rfl, rfl, rfl, unwritten⟩ := KeyMaterialParameters.make_eq_ok.mp made
    exact ⟨rfl, .keyMaterial p unwritten⟩

theorem Made.allowed {p : Option Parameters} (made : Made r p) : r.Allowed := by
  cases made with
  | plain | rawIv | derivationString => trivial
  | iv given => exact given
  | pss p => exact ⟨p.hash_accepted, p.mask_accepted⟩
  | oaep p => exact ⟨p.hash_accepted, p.mask_accepted⟩
  | gcm p tag => exact ⟨p.vector_given, tag ▸ p.tag_allowed⟩
  | ccm p => exact ⟨p.nonce_allowed, p.mac_allowed⟩
  | ecdh p => exact ⟨p.kdf_known, p.shared_used, p.public_given⟩
  | master randoms => exact ⟨randoms.client_size, randoms.server_size⟩
  | keyMaterial p => exact ⟨p.randoms.client_size, p.randoms.server_size, p.iv_whole⟩

open Result in
theorem build_of_allowed (code : Code) (allowed : r.Allowed) : ∃ m, r.build code = .ok m := by
  cases r with
  | plain | rawIv | derivationString => exact ⟨_, rfl⟩
  | iv v => exact ⟨_, if_neg (by simpa [Recipe.Allowed] using allowed)⟩
  | pss hash mask saltLength =>
    let p : PssParameters := ⟨hash, mask, saltLength, allowed.1, allowed.2⟩
    exact ⟨_, map_eq_ok.mpr ⟨p, PssParameters.make_eq_ok.mpr ⟨rfl, rfl, rfl⟩, rfl⟩⟩
  | oaep hash mask source =>
    let p : OaepParameters := ⟨hash, mask, source.getD [], allowed.1, allowed.2⟩
    exact ⟨_, map_eq_ok.mpr ⟨p, OaepParameters.make_eq_ok.mpr ⟨rfl, rfl, rfl⟩, rfl⟩⟩
  | gcm vector aad tagBits =>
    let p : GcmParameters := ⟨vector, aad, tagBits.getD 128, allowed.1, allowed.2⟩
    cases tagBits <;>
      exact ⟨_, map_eq_ok.mpr ⟨p, GcmParameters.make_eq_ok.mpr ⟨rfl, rfl, rfl⟩, rfl⟩⟩
  | ccm dataLength nonce aad macLength =>
    let p : CcmParameters := ⟨dataLength, nonce, aad, macLength, allowed.1, allowed.2⟩
    exact ⟨_, map_eq_ok.mpr ⟨p, CcmParameters.make_eq_ok.mpr ⟨rfl, rfl, rfl, rfl⟩, rfl⟩⟩
  | ecdh kdf sharedData publicData =>
    let p : EcdhParameters := ⟨kdf, sharedData, publicData, allowed.1, allowed.2.1, allowed.2.2⟩
    exact ⟨_, map_eq_ok.mpr ⟨p, EcdhParameters.make_eq_ok.mpr ⟨rfl, rfl, rfl⟩, rfl⟩⟩
  | master client server prf =>
    let randoms : Randoms := ⟨client, server, allowed.1, allowed.2⟩
    exact ⟨_, map_eq_ok.mpr ⟨randoms, Randoms.make_eq_ok.mpr ⟨rfl, rfl⟩, rfl⟩⟩
  | keyMaterial macBits keyBits ivBits exported client server prf =>
    let randoms : Randoms := ⟨client, server, allowed.1, allowed.2.1⟩
    have random := Randoms.make_eq_ok.mpr ⟨(rfl : randoms.client = client), rfl⟩
    let vector : Bytes := List.replicate (ivBits / 8).toNat 0
    let p : KeyMaterialParameters := ⟨macBits, keyBits, ivBits, exported, randoms, prf,
      .pending ⟨.none, vector, vector⟩, allowed.2.2⟩
    have made := KeyMaterialParameters.make_eq_ok.mpr
      ⟨(rfl : p.macBits = _), rfl, rfl, rfl, rfl, rfl, rfl⟩
    exact ⟨_, bind_eq_ok.mpr ⟨randoms, random, map_eq_ok.mpr ⟨p, made, rfl⟩⟩⟩

end Mechanism

end Cryptoki
