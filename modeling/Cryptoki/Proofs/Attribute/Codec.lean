import Cryptoki.Attribute.Basic
import Cryptoki.Proofs.Scalar

/-!
Which bytes are a value of a kind, and what the value is sent as. Values come back from their bytes;
bytes come back from their value but for a truth value, which has two forms, and a number, which
loses its leading zeros.
-/
namespace Cryptoki

namespace Kind

/-- The bytes are a value of the kind. -/
def Accepts : Kind → Bytes → Prop
  | .bool, b => b.length = 1
  | .ulong, b | .mechanism, b | .objectClass, b | .keyType, b | .certificateType, b
  | .hardwareFeature, b => b.length = 8
  | .string, b => b.IsUTF8
  | .date, b => b = [] ∨ Date.Written b
  | .mechanismArray, b => 8 ∣ b.length
  | .bytes, _ | .raw, _ | .bigInt, _ => True
  | .template, _ => False

/-- The bytes in the form in which the value is sent. -/
def canonical : Kind → Bytes → Bytes
  | .bool, b => b.map fun x => if x = 0 then 0 else 1
  | .bigInt, b => b.trimmed
  | _, b => b

end Kind

open Result

theorem wordOf_succeeds_iff {b : Bytes} : (∃ w, wordOf b = .ok w) ↔ b.length = 8 := by
  unfold wordOf Bytes.toWord?
  split <;> simp_all

theorem ofWord_of_wordOf {b : Bytes} {w : UInt64} (read : wordOf b = .ok w) :
    Bytes.ofWord w = b := by
  unfold wordOf at read
  split at read
  · rename_i found
    cases read
    exact Bytes.ofWord_of_toWord? found
  · cases read

namespace Scalar

theorem decode_succeeds_iff {k : Kind} {b : Bytes} : (∃ v, decode k b = .ok v) ↔ k.Accepts b := by
  cases k with
  | ulong | mechanism | objectClass | keyType | certificateType | hardwareFeature =>
    exact (map_succeeds_iff _ _).trans wordOf_succeeds_iff
  | bytes | raw | bigInt => exact ⟨fun _ => trivial, fun _ => ⟨_, rfl⟩⟩
  | template => simp [decode, Kind.Accepts]
  | bool =>
    simp only [decode, Kind.Accepts]
    split
    · simp
    · rename_i other
      have length : b.length ≠ 1 := fun one => by
        obtain ⟨x, single⟩ := List.length_eq_one_iff.mp one
        exact other x single
      simp [length]
  | string =>
    simp only [decode, Kind.Accepts, ← Bytes.toString?_succeeds_iff]
    split <;> simp_all
  | date =>
    simp only [decode, Kind.Accepts]
    split
    · simp
    · rename_i nonempty
      rw [map_succeeds_iff, Date.ofBytes_succeeds_iff]
      simp_all
  | mechanismArray =>
    simp only [decode, Kind.Accepts, Nat.dvd_iff_mod_eq_zero]
    split <;> simp_all

theorem flatMap_ofWord_chunks {b : Bytes} (whole : b.length % 8 = 0) :
    ((b.chunks 8).map fun c => UInt64.ofNat (Bytes.littleEndianValue c)).flatMap Bytes.ofWord =
      b := by
  have back : ∀ c ∈ b.chunks 8, Bytes.ofWord (UInt64.ofNat (Bytes.littleEndianValue c)) = c :=
    fun c member =>
      Bytes.ofWord_ofNat_littleEndianValue (Bytes.length_of_mem_chunks (by decide) member)
  rw [List.flatMap_map, List.flatMap_def, List.map_congr_left back, List.map_id']
  exact Bytes.flatten_chunks (by decide) whole

theorem encode_of_decode {k : Kind} {b : Bytes} {v : Scalar} (decoded : decode k b = .ok v) :
    v.encode = k.canonical b := by
  cases k with
  | ulong | mechanism | objectClass | keyType | certificateType | hardwareFeature =>
    obtain ⟨w, read, rfl⟩ := map_eq_ok.mp decoded
    exact ofWord_of_wordOf read
  | bytes | raw =>
    cases decoded
    rfl
  | bigInt =>
    cases decoded
    exact Bytes.bigEndian_bigEndianValue b
  | template => cases decoded
  | bool =>
    simp only [decode] at decoded
    split at decoded <;> cases decoded
    rename_i x
    by_cases zero : x = 0 <;> simp [encode, Kind.canonical, zero]
  | string =>
    simp only [decode] at decoded
    split at decoded <;> cases decoded
    rename_i found
    exact Bytes.ofString_of_toString? found
  | date =>
    simp only [decode] at decoded
    split at decoded
    · cases decoded
      rfl
    · obtain ⟨d, read, rfl⟩ := map_eq_ok.mp decoded
      exact Date.toBytes_of_ofBytes read
  | mechanismArray =>
    simp only [decode] at decoded
    split at decoded <;> cases decoded
    rename_i whole
    exact flatMap_ofWord_chunks whole

end Scalar

namespace Value

theorem decode_eq_ok {k : Kind} {b : Bytes} {v : Value} :
    decode k b = .ok v ↔ ∃ s, Scalar.decode k b = .ok s ∧ Value.scalar s = v :=
  map_eq_ok

theorem encode_succeeds_iff {v : Value} : (∃ b, v.encode = .ok b) ↔ v.kind ≠ .template := by
  cases v with
  | scalar s => exact ⟨fun _ => s.kind_ne_template, fun _ => ⟨_, rfl⟩⟩
  | template t => simp [encode, kind]

theorem decode_of_encode {v : Value} {b : Bytes} (encoded : v.encode = .ok b) :
    decode v.kind b = .ok v := by
  cases v with
  | scalar s =>
    cases encoded
    exact decode_eq_ok.mpr ⟨s, s.decode_encode, rfl⟩
  | template t => cases encoded

theorem shortest_of_encode {v : Value} {b : Bytes} (number : v.kind = .bigInt)
    (encoded : v.encode = .ok b) : b.Shortest := by
  cases v with
  | scalar s =>
    cases s <;> cases number
    cases encoded
    exact Bytes.shortest_bigEndian _
  | template t => cases number

/-- Bytes are read as a value just when its kind accepts them, and are malformed otherwise. The
value is sent as the bytes in their canonical form. Each value but a template has bytes and is what
they are read as, and no fewer bytes stand for a big integer. -/
theorem codec_is_exact :
    (∀ k b,
      ((∃ v, decode k b = .ok v) ↔ k.Accepts b) ∧
      (∀ e, decode k b = .error e → e.kind = .malformed) ∧
      ∀ v, decode k b = .ok v → v.kind = k ∧ v.encode = .ok (k.canonical b)) ∧
    ∀ v : Value,
      ((∃ b, v.encode = .ok b) ↔ v.kind ≠ .template) ∧
      ∀ b, v.encode = .ok b → decode v.kind b = .ok v ∧ (v.kind = .bigInt → b.Shortest) := by
  refine ⟨fun k b => ⟨?_, ?_, fun v decoded => ?_⟩,
    fun v => ⟨encode_succeeds_iff, fun b encoded => ?_⟩⟩
  · rw [← Scalar.decode_succeeds_iff]
    exact Result.map_succeeds_iff _ _
  · exact onlyMalformed_map _ (Scalar.onlyMalformed_decode k b)
  · obtain ⟨s, read, rfl⟩ := decode_eq_ok.mp decoded
    exact ⟨Scalar.kind_of_decode read, congrArg Except.ok (Scalar.encode_of_decode read)⟩
  · exact ⟨decode_of_encode encoded, fun number => shortest_of_encode number encoded⟩

/-- The month of the date is out of range, the truth value is not in its usual form, and the number
has zeros in front. -/
theorem codec_is_exact_at_bounds :
    (¬ Kind.date.Accepts (Bytes.ofString "20241301") ∧
      (Error.dateOutOfRange 2024 13 1).kind = .malformed) ∧
    (Value.scalar (.bool true)).encode = .ok (Kind.bool.canonical [7]) ∧
    (Value.scalar (.bigInt 5)).encode = .ok [5] ∧
    Bytes.Shortest [5] := by
  obtain ⟨decoding, encoding⟩ := codec_is_exact
  have refused : decode .date (Bytes.ofString "20241301") =
      .error (.dateOutOfRange 2024 13 1) := rfl
  have number : decode .bigInt [0, 0, 5] = .ok (.scalar (.bigInt 5)) := rfl
  have sent := ((decoding .bigInt [0, 0, 5]).2.2 _ number).2
  refine ⟨⟨fun accepted => ?_, (decoding .date _).2.1 _ refused⟩,
    ((decoding .bool [7]).2.2 (.scalar (.bool true)) rfl).2, sent,
    ((encoding (.scalar (.bigInt 5))).2 [5] sent).2 rfl⟩
  obtain ⟨v, decoded⟩ := (decoding .date _).1.mpr accepted
  rw [refused] at decoded
  cases decoded

end Value

end Cryptoki
