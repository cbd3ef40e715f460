import Cryptoki.Proofs.Attribute.Codec

/-!
Which values can be given a kind. A value that is given one is sent as before, and is what its bytes
are read as.
-/
namespace Cryptoki

namespace Scalar

theorem conform_self (v : Scalar) : v.conform v.kind = some v := by
  simp [conform]

theorem conform_bytes_bigInt (b : Bytes) :
    (Scalar.bytes b).conform .bigInt =
      if b.trimmed = b then some (.bigInt b.bigEndianValue) else none := by
  have other : (Scalar.bytes b).kind ≠ .bigInt := by simp [kind]
  unfold conform
  rw [if_neg other]
  cases b with
  | nil => rfl
  | cons x rest =>
    cases rest with
    | nil => simp [Bytes.trimmed_cons_eq_self_iff]
    | cons y rest' =>
      by_cases zero : x = 0
      · simp [Bytes.trimmed_cons_eq_self_iff, zero]
      · simp [Bytes.trimmed_cons_eq_self_iff, zero]

theorem conform_of_shortest {b : Bytes} (shortest : b.Shortest) :
    (Scalar.bytes b).conform .bigInt = some (.bigInt b.bigEndianValue) := by
  rw [conform_bytes_bigInt, if_pos (Bytes.shortest_iff_trimmed.mp shortest)]

theorem conform_raw (v : Scalar) : v.conform .raw = some (.raw v.encode) := by
  cases v <;> rfl

theorem conform_eq_some {v w : Scalar} {k : Kind} (formed : v.conform k = some w) :
    (v.kind = k ∧ w = v) ∨
    (∃ b, v = .bytes b ∧ k = .bigInt ∧ b.Shortest ∧ w = .bigInt b.bigEndianValue) ∨
    (∃ n, v = .bigInt n ∧ k = .bytes ∧ w = .bytes (Bytes.bigEndian n)) ∨
    (k = .raw ∧ w = .raw v.encode) := by
  by_cases same : v.kind = k
  · subst same
    rw [conform_self] at formed
    cases formed
    exact .inl ⟨rfl, rfl⟩
  · have whole := formed
    unfold conform at formed
    rw [if_neg same] at formed
    split at formed
    · rename_i b
      rw [conform_bytes_bigInt] at whole
      split at whole <;> cases whole
      rename_i kept
      exact .inr (.inl ⟨b, rfl, rfl, Bytes.shortest_iff_trimmed.mpr kept, rfl⟩)
    · cases formed
      exact .inr (.inr (.inl ⟨_, rfl, rfl, rfl⟩))
    · cases formed
      exact .inr (.inr (.inr ⟨rfl, rfl⟩))
    · cases formed

theorem encode_of_conform {v w : Scalar} {k : Kind} (formed : v.conform k = some w) :
    w.encode = v.encode := by
  obtain ⟨_, rfl⟩ | ⟨b, rfl, _, shortest, rfl⟩ | ⟨n, rfl, _, rfl⟩ | ⟨_, rfl⟩ :=
    conform_eq_some formed
  · rfl
  · have kept := Bytes.shortest_iff_trimmed.mp shortest
    rwa [← Bytes.bigEndian_bigEndianValue] at kept
  · rfl
  · rfl

theorem decode_of_conform {v w : Scalar} {k : Kind} (formed : v.conform k = some w) :
    decode k v.encode = .ok w := by
  rw [← kind_of_conform formed, ← encode_of_conform formed]
  exact w.decode_encode

end Scalar

namespace Value

/-- The value has a form of the kind: its own, that of a number in its shortest form, or raw
bytes. -/
inductive Conformable : Value → Kind → Prop where
  | own (v : Value) : Conformable v v.kind
  | number {b : Bytes} (shortest : b.Shortest) : Conformable (.scalar (.bytes b)) .bigInt
  | digits (n : Nat) : Conformable (.scalar (.bigInt n)) .bytes
  | raw {v : Value} (flat : v.kind ≠ .template) : Conformable v .raw

variable {v w : Value} {k : Kind}

theorem conform_own (v : Value) : v.conform v.kind = some v := by
  cases v with
  | scalar s => simp [conform, kind, Scalar.conform_self]
  | template t => rfl

theorem conform_scalar {s : Scalar} :
    (Value.scalar s).conform k = some w ↔ ∃ x, s.conform k = some x ∧ .scalar x = w :=
  Option.map_eq_some_iff

theorem conformable_of_conform (formed : v.conform k = some w) : v.Conformable k := by
  cases v with
  | scalar s =>
    obtain ⟨x, formed, _⟩ := conform_scalar.mp formed
    obtain ⟨rfl, _⟩ | ⟨b, rfl, rfl, shortest, _⟩ | ⟨n, rfl, rfl, _⟩ | ⟨rfl, _⟩ :=
      Scalar.conform_eq_some formed
    · exact .own (.scalar s)
    · exact .number shortest
    · exact .digits n
    · exact .raw s.kind_ne_template
  | template t =>
    simp only [conform] at formed
    split at formed
    · rename_i same
      exact same ▸ .own (.template t)
    · cases formed

theorem conform_of_conformable (conformable : v.Conformable k) : ∃ w, v.conform k = some w := by
  cases conformable with
  | own => exact ⟨v, conform_own v⟩
  | number shortest => exact ⟨_, conform_scalar.mpr ⟨_, Scalar.conform_of_shortest shortest, rfl⟩⟩
  | digits n => exact ⟨_, rfl⟩
  | raw flat =>
    cases v with
    | scalar s => exact ⟨_, conform_scalar.mpr ⟨_, s.conform_raw, rfl⟩⟩
    | template t => exact absurd rfl flat

theorem kind_of_conform (formed : v.conform k = some w) : w.kind = k := by
  cases v with
  | scalar s =>
    obtain ⟨x, found, rfl⟩ := conform_scalar.mp formed
    exact Scalar.kind_of_conform found
  | template t =>
    simp only [conform] at formed
    split at formed <;> cases formed
    rename_i same
    exact same.symm

/-- A value takes a form of a kind just in the ways that there are. The form is of the kind and is
kept from then on, as is a value of the kind. It is sent as the same bytes, which are read as it. -/
theorem conform_keeps_what_is_sent (v : Value) (k : Kind) :
    ((∃ w, v.conform k = some w) ↔ v.Conformable k) ∧
    ∀ w, v.conform k = some w →
      w.kind = k ∧ w.conform k = some w ∧ (v.kind = k → w = v) ∧
      (v.kind ≠ .template →
        ∃ b, v.encode = .ok b ∧ w.encode = .ok b ∧ decode k b = .ok w) := by
  refine ⟨⟨fun formed => ?_, conform_of_conformable⟩, fun w formed => ⟨?_, ?_, ?_, ?_⟩⟩
  · obtain ⟨w, formed⟩ := formed
    exact conformable_of_conform formed
  · exact kind_of_conform formed
  · rw [← kind_of_conform formed]
    exact conform_own w
  · rintro rfl
    rw [conform_own] at formed
    cases formed
    rfl
  · intro flat
    cases v with
    | scalar s =>
      obtain ⟨x, found, rfl⟩ := conform_scalar.mp formed
      refine ⟨s.encode, rfl, congrArg Except.ok (Scalar.encode_of_conform found), ?_⟩
      exact decode_eq_ok.mpr ⟨x, Scalar.decode_of_conform found, rfl⟩
    | template t => exact absurd rfl flat

/-- Zero is a number in one byte, and no number in two. -/
theorem conform_keeps_what_is_sent_zeros :
    (∃ w, (Value.scalar (.bytes [0])).conform .bigInt = some w ∧ w.kind = .bigInt ∧
      w.encode = .ok [0] ∧ decode .bigInt [0] = .ok w) ∧
    ¬ (Value.scalar (.bytes [0, 0])).Conformable .bigInt := by
  have formed : (Value.scalar (.bytes [0])).conform .bigInt = some (.scalar (.bigInt 0)) := rfl
  obtain ⟨kind, _, _, sent⟩ := (conform_keeps_what_is_sent _ _).2 _ formed
  obtain ⟨b, before, after, read⟩ := sent (by decide)
  cases before
  refine ⟨⟨_, formed, kind, after, read⟩, fun conformable => ?_⟩
  obtain ⟨w, formed⟩ := (conform_keeps_what_is_sent _ _).1.mpr conformable
  cases formed

end Value

end Cryptoki
