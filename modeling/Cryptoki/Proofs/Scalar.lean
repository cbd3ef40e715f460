import Cryptoki.Attribute.Scalar
import Cryptoki.Proofs.Bytes
import Cryptoki.Proofs.Date
import Cryptoki.Proofs.Result

/-!
Scalar values come back from their bytes, and a value in the form of a kind has that kind. Bytes
that are no value are malformed.
-/
namespace Cryptoki

open Result

theorem wordOf_ofWord (w : UInt64) : wordOf (Bytes.ofWord w) = .ok w := by
  simp [wordOf, Bytes.toWord?_ofWord]

theorem Date.onlyMalformed_ofBytes (b : Bytes) : OnlyMalformed (Date.ofBytes b) := by
  unfold Date.ofBytes
  split
  · dsimp only
    split
    · exact onlyMalformed_ok _
    · exact onlyMalformed_error rfl
  · exact onlyMalformed_error rfl

theorem onlyMalformed_wordOf (b : Bytes) : OnlyMalformed (wordOf b) := by
  unfold wordOf
  split
  · exact onlyMalformed_ok _
  · exact onlyMalformed_error rfl

namespace Scalar

theorem decode_encode_date (d : Date) : decode .date d.toBytes = .ok (.date (some d)) := by
  have nonempty : d.toBytes ≠ [] := List.cons_ne_nil _ _
  simp only [decode, Date.ofBytes_toBytes]
  rfl

theorem decode_encode_mechanismArray (cs : List Code) :
    decode .mechanismArray (cs.flatMap Bytes.ofWord) = .ok (.mechanismArray cs) := by
  have whole : (cs.flatMap Bytes.ofWord).length % 8 = 0 := by
    rw [Bytes.flatMap_length _ Bytes.ofWord_length, Nat.mul_mod_right]
  simp only [decode, whole, ↓reduceIte]
  rw [Bytes.chunks_flatMap _ (by decide) Bytes.ofWord_length, List.map_map]
  congr 2
  rw [List.map_congr_left (g := id) fun c _ => ?_, List.map_id]
  simp [Bytes.littleEndianValue_ofWord]

theorem decode_encode (v : Scalar) : decode v.kind v.encode = .ok v := by
  cases v with
  | bool b => cases b <;> rfl
  | ulong n | mechanism n | objectClass n | keyType n | certificateType n | hardwareFeature n =>
    simp only [kind, encode, decode, wordOf_ofWord]
    rfl
  | bytes b | raw b => rfl
  | bigInt n => simp [kind, encode, decode, Bytes.bigEndianValue_bigEndian]
  | string s => simp [kind, encode, decode, Bytes.toString?_ofString]
  | date d =>
    cases d with
    | none => rfl
    | some d => exact decode_encode_date d
  | mechanismArray cs => exact decode_encode_mechanismArray cs

theorem onlyMalformed_decode (kind : Kind) (b : Bytes) : OnlyMalformed (decode kind b) := by
  unfold decode
  cases kind with
  | ulong | mechanism | objectClass | keyType | certificateType | hardwareFeature =>
    exact onlyMalformed_map _ (onlyMalformed_wordOf b)
  | bytes | raw | bigInt => exact onlyMalformed_ok _
  | template => exact onlyMalformed_error rfl
  | date =>
    dsimp only
    split
    · exact onlyMalformed_ok _
    · exact onlyMalformed_map _ (Date.onlyMalformed_ofBytes b)
  | bool | string | mechanismArray =>
    dsimp only
    split
    · exact onlyMalformed_ok _
    · exact onlyMalformed_error rfl

theorem kind_of_decode {k : Kind} {b : Bytes} {v : Scalar} (decoded : decode k b = .ok v) :
    v.kind = k := by
  cases k with
  | bool =>
    simp only [decode] at decoded
    split at decoded <;> cases decoded
    rfl
  | ulong | mechanism | objectClass | keyType | certificateType | hardwareFeature =>
    obtain ⟨w, _, rfl⟩ := map_eq_ok.mp decoded
    rfl
  | bytes | raw | bigInt =>
    cases decoded
    rfl
  | string =>
    simp only [decode] at decoded
    split at decoded <;> cases decoded
    rfl
  | date =>
    simp only [decode] at decoded
    split at decoded
    · cases decoded
      rfl
    · obtain ⟨d, _, rfl⟩ := map_eq_ok.mp decoded
      rfl
  | mechanismArray =>
    simp only [decode] at decoded
    split at decoded <;> cases decoded
    rfl
  | template => cases decoded

theorem kind_ne_template (v : Scalar) : v.kind ≠ .template := by
  cases v <;> simp [kind]

theorem kind_of_conform {v w : Scalar} {k : Kind} (formed : v.conform k = some w) :
    w.kind = k := by
  unfold conform at formed
  split at formed
  · rename_i same
    cases formed
    exact same
  · split at formed
    · split at formed <;> cases formed <;> rfl
    · cases formed; rfl
    · cases formed; rfl
    · cases formed

end Scalar

end Cryptoki
