import Cryptoki.Attribute.Equality
import Cryptoki.Proofs.Attribute.Normal
import Cryptoki.Wire.Template

/-!
Equality of attributes is equality of what is left of them when all absent attributes are made one.
That is all that is hashed and all that is sent. Comparing sensitive values by their bytes is
comparing the values.
-/
namespace Cryptoki

namespace Bytes

theorem foldl_or_eq_zero {b : Bytes} {start : UInt8} :
    b.foldl (· ||| ·) start = 0 ↔ start = 0 ∧ ∀ x ∈ b, x = 0 := by
  induction b generalizing start with
  | nil => simp
  | cons x rest ih => simp [ih, UInt8.or_eq_zero_iff, and_assoc]

theorem zipWith_xor_eq_zero {a b : Bytes} (length : a.length = b.length) :
    (∀ x ∈ List.zipWith (· ^^^ ·) a b, x = 0) ↔ a = b := by
  induction a generalizing b with
  | nil => simp [List.length_eq_zero_iff.mp length.symm]
  | cons x rest ih =>
    cases b with
    | nil => cases length
    | cons y rest' =>
      have others := ih (Nat.succ.inj length)
      simp only [List.zipWith_cons_cons, List.forall_mem_cons, UInt8.xor_eq_zero_iff, others,
        List.cons.injEq]

theorem constantTimeEq_iff {a b : Bytes} : a.constantTimeEq b = true ↔ a = b := by
  simp only [constantTimeEq, Bool.and_eq_true, beq_iff_eq, foldl_or_eq_zero, true_and]
  constructor
  · rintro ⟨length, zero⟩
    exact (zipWith_xor_eq_zero length).mp zero
  · rintro rfl
    exact ⟨rfl, (zipWith_xor_eq_zero rfl).mpr rfl⟩

end Bytes

theorem Scalar.eq_of_encode {v w : Scalar} (kind : v.kind = w.kind) (bytes : v.encode = w.encode) :
    v = w := by
  have first := v.decode_encode
  rw [kind, bytes, w.decode_encode] at first
  cases first
  rfl

theorem Scalar.sameBytes_iff {v w : Scalar} : v.sameBytes w = true ↔ v = w := by
  simp only [sameBytes, Bool.and_eq_true, beq_iff_eq, Bytes.constantTimeEq_iff]
  constructor
  · rintro ⟨kind, bytes⟩
    exact eq_of_encode kind bytes
  · rintro rfl
    exact ⟨rfl, rfl⟩

namespace Attribute

mutual

/-- The attribute, and what it holds at any depth, with all that is absent made one. -/
def anonymous : Attribute → Attribute
  | .absent .. => .absent 0 false
  | .scalar t s v => .scalar t s v
  | .template t s members => .template t s (anonymousAll members)

def anonymousAll : List Attribute → List Attribute
  | [] => []
  | a :: rest => a.anonymous :: anonymousAll rest

end

theorem sameAll_iff_of_forall {as bs : List Attribute}
    (each : ∀ a ∈ as, ∀ b, a.same b = true ↔ a.anonymous = b.anonymous) :
    sameAll as bs = true ↔ anonymousAll as = anonymousAll bs := by
  induction as generalizing bs with
  | nil => cases bs <;> simp [sameAll, anonymousAll]
  | cons a rest ih =>
    cases bs with
    | nil => simp [sameAll, anonymousAll]
    | cons b rest' =>
      have others : sameAll rest rest' = true ↔ anonymousAll rest = anonymousAll rest' :=
        ih fun c member => each c (List.mem_cons_of_mem a member)
      simp [sameAll, anonymousAll, each a List.mem_cons_self, others]

theorem same_iff (a b : Attribute) : a.same b = true ↔ a.anonymous = b.anonymous := by
  induction a using nested_induction generalizing b with
  | absent t s => cases b <;> simp [same, anonymous]
  | scalar t s v =>
    cases b with
    | absent t' s' | template t' s' members' => simp [same, anonymous]
    | scalar t' s' v' =>
      cases s <;> simp [same, anonymous, Scalar.sameBytes_iff, and_assoc]
  | template t s members ih =>
    cases b with
    | absent t' s' | scalar t' s' v' => simp [same, anonymous]
    | template t' s' members' =>
      simp [same, anonymous, sameAll_iff_of_forall ih, and_assoc]

theorem sameAll_iff (as bs : List Attribute) :
    sameAll as bs = true ↔ anonymousAll as = anonymousAll bs :=
  sameAll_iff_of_forall fun a _ => same_iff a

theorem beq_iff {a b : Attribute} : a == b ↔ a.anonymous = b.anonymous := same_iff a b

end Attribute

namespace Template

def anonymous (t : Template) : Template := ⟨Attribute.anonymousAll t.attributes⟩

theorem beq_iff {t u : Template} : t == u ↔ t.anonymous = u.anonymous := by
  refine (Attribute.sameAll_iff t.attributes u.attributes).trans ?_
  simp [anonymous]

end Template

namespace Value

def anonymous : Value → Value
  | .scalar s => .scalar s
  | .template t => .template t.anonymous

theorem beq_iff {v w : Value} : v == w ↔ v.anonymous = w.anonymous := by
  cases v with
  | scalar s =>
    cases w with
    | scalar s' =>
      change (s == s') = true ↔ _
      simp [anonymous]
    | template u => exact ⟨fun same => absurd same Bool.false_ne_true, fun same => by cases same⟩
  | template t =>
    cases w with
    | scalar s' => exact ⟨fun same => absurd same Bool.false_ne_true, fun same => by cases same⟩
    | template u =>
      refine Template.beq_iff.trans ?_
      simp [anonymous]

def sameSecretly (v w : Value) : Bool :=
  match v.encode, w.encode with
  | .ok a, .ok b => v.kind == w.kind && a.constantTimeEq b
  | _, _ => v == w

theorem sameSecretly_eq (v w : Value) : v.sameSecretly w = (v == w) := by
  cases v with
  | scalar s =>
    cases w with
    | scalar s' =>
      change s.sameBytes s' = (s == s')
      rw [Bool.eq_iff_iff, Scalar.sameBytes_iff, beq_iff_eq]
    | template u => rfl
  | template t => cases w <;> rfl

end Value

theorem equivalence_of_beq_iff {α β : Type} [BEq α] {f : α → β}
    (iff : ∀ {a b : α}, a == b ↔ f a = f b) : Equivalence fun a b : α => a == b where
  refl _ := iff.mpr rfl
  symm same := iff.mpr (iff.mp same).symm
  trans same same' := iff.mpr ((iff.mp same).trans (iff.mp same'))

namespace Attribute

theorem hashInputAll_eq_of_forall {as : List Attribute}
    (each : ∀ a ∈ as, a.anonymous.hashInput = a.hashInput) :
    hashInputAll (anonymousAll as) = hashInputAll as := by
  induction as with
  | nil => rfl
  | cons a rest ih =>
    rw [anonymousAll, hashInputAll, hashInputAll, each a List.mem_cons_self,
      ih fun b member => each b (List.mem_cons_of_mem a member)]

theorem length_anonymousAll (as : List Attribute) : (anonymousAll as).length = as.length := by
  induction as with
  | nil => rfl
  | cons a rest ih => simp [anonymousAll, ih]

theorem hashInput_anonymous (a : Attribute) : a.anonymous.hashInput = a.hashInput := by
  induction a using nested_induction with
  | absent t s | scalar t s v => rfl
  | template t s members ih =>
    rw [anonymous, hashInput, hashInput, length_anonymousAll, hashInputAll_eq_of_forall ih]

theorem ofAttributes_eq_of_forall {as : List Attribute}
    (each : ∀ a ∈ as, Wire.ofAttribute a.anonymous = Wire.ofAttribute a) :
    Wire.ofAttributes (anonymousAll as) = Wire.ofAttributes as := by
  induction as with
  | nil => rfl
  | cons a rest ih =>
    rw [anonymousAll, Wire.ofAttributes, Wire.ofAttributes, each a List.mem_cons_self,
      ih fun b member => each b (List.mem_cons_of_mem a member)]

theorem ofAttribute_anonymous (a : Attribute) :
    Wire.ofAttribute a.anonymous = Wire.ofAttribute a := by
  induction a using nested_induction with
  | absent t s | scalar t s v => rfl
  | template t s members ih =>
    rw [anonymous, Wire.ofAttribute, Wire.ofAttribute, ofAttributes_eq_of_forall ih]

end Attribute

namespace Template

theorem hashInput_anonymous (t : Template) : t.anonymous.hashInput = t.hashInput := by
  rw [hashInput, hashInput, anonymous, Attribute.length_anonymousAll,
    Attribute.hashInputAll_eq_of_forall fun a _ => a.hashInput_anonymous]

theorem toArray_anonymous (t : Template) : t.anonymous.toArray = t.toArray :=
  Attribute.ofAttributes_eq_of_forall fun a _ => a.ofAttribute_anonymous

end Template

namespace Attribute

theorem beq_iff_absent_or_present {a b : Attribute} :
    a == b ↔ (a.isPresent = false ∧ b.isPresent = false) ∨
      ∃ v w, a.value? = some v ∧ b.value? = some w ∧ a.type = b.type ∧
        a.isSensitive = b.isSensitive ∧ v == w := by
  rw [beq_iff]
  cases a <;> cases b <;>
    simp [anonymous, isPresent, value?, type, isSensitive, Value.beq_iff, Value.anonymous,
      Template.anonymous]

theorem sameAll_iff_forall₂ (as bs : List Attribute) :
    sameAll as bs = true ↔ List.Forall₂ (fun a b => a == b) as bs := by
  induction as generalizing bs with
  | nil =>
    cases bs with
    | nil => exact ⟨fun _ => .nil, fun _ => rfl⟩
    | cons b rest' => exact ⟨fun same => (by cases same), fun pairs => (by cases pairs)⟩
  | cons a rest ih =>
    cases bs with
    | nil => exact ⟨fun same => (by cases same), fun pairs => (by cases pairs)⟩
    | cons b rest' =>
      simp only [sameAll, Bool.and_eq_true, ih, List.forall₂_cons]
      rfl

theorem beq_ofValue_sensitive (type : Code) (v w : Value) :
    (ofValue type true v == ofValue type true w) = (v == w) := by
  rw [Bool.eq_iff_iff, beq_iff_absent_or_present]
  cases v <;> cases w <;> simp [ofValue, isPresent, value?, Attribute.type, isSensitive]

theorem hashInput_eq_of_beq {a b : Attribute} (same : a == b) : a.hashInput = b.hashInput := by
  rw [← a.hashInput_anonymous, beq_iff.mp same, b.hashInput_anonymous]

end Attribute

namespace Template

variable {t u : Template}

theorem hashInput_eq_of_beq (same : t == u) : t.hashInput = u.hashInput := by
  rw [← t.hashInput_anonymous, beq_iff.mp same, u.hashInput_anonymous]

theorem toArray_eq_of_beq (same : t == u) : t.toArray = u.toArray := by
  rw [← t.toArray_anonymous, beq_iff.mp same, u.toArray_anonymous]

end Template

namespace Attribute

/-- Equality is an equivalence. Attributes are equal when both are absent, or both are there with
one type, one flag and equal values; templates are equal when their attributes are, one by one. How
values are compared does not depend on whether they are to be kept secret. What is equal is hashed
from the same bytes, and equal templates are sent as the same array. -/
theorem equality_is_sound :
    (Equivalence fun a b : Attribute => a == b) ∧
    (Equivalence fun v w : Value => v == w) ∧
    (Equivalence fun t u : Template => t == u) ∧
    (∀ a b : Attribute, a == b ↔ (a.isPresent = false ∧ b.isPresent = false) ∨
      ∃ v w, a.value? = some v ∧ b.value? = some w ∧ a.type = b.type ∧
        a.isSensitive = b.isSensitive ∧ v == w) ∧
    (∀ (type : Code) (v w : Value),
      (ofValue type true v == ofValue type true w) = v.sameSecretly w ∧
      v.sameSecretly w = (v == w)) ∧
    (∀ a b : Attribute, a == b → a.hashInput = b.hashInput ∧ hash a = hash b) ∧
    ∀ t u : Template,
      (t == u ↔ List.Forall₂ (fun a b => a == b) t.attributes u.attributes) ∧
      (t == u → t.hashInput = u.hashInput ∧ hash t = hash u ∧ t.toArray = u.toArray) := by
  refine ⟨equivalence_of_beq_iff beq_iff, equivalence_of_beq_iff Value.beq_iff,
    equivalence_of_beq_iff Template.beq_iff, fun a b => beq_iff_absent_or_present,
    fun type v w => ?_, fun a b same => ?_, fun t u => ⟨?_, fun same => ?_⟩⟩
  · exact ⟨(beq_ofValue_sensitive type v w).trans (v.sameSecretly_eq w).symm, v.sameSecretly_eq w⟩
  · have bytes := hashInput_eq_of_beq same
    have hashes : hash a.hashInput = hash b.hashInput := congrArg hash bytes
    exact ⟨bytes, hashes⟩
  · exact sameAll_iff_forall₂ t.attributes u.attributes
  · have bytes := Template.hashInput_eq_of_beq same
    have hashes : hash t.hashInput = hash u.hashInput := congrArg hash bytes
    exact ⟨bytes, hashes, Template.toArray_eq_of_beq same⟩

/-- Two templates inside which attributes of different types are missing are sent as one array. The
attributes that hold them have one hash, and a secret with another value makes them differ. -/
theorem equality_is_sound_of_missing_members :
    let holding := fun members => Attribute.template 0x40000211 true members
    let missing := holding [.absent 0x3 false, .scalar 0x11 true (.bytes [7])]
    let missing' := holding [.absent 0x102 true, .scalar 0x11 true (.bytes [7])]
    (missing == missing' ∧ missing.hashInput = missing'.hashInput) ∧
    ((⟨[missing]⟩ : Template) == ⟨[missing']⟩ ∧
      Template.toArray ⟨[missing]⟩ = Template.toArray ⟨[missing']⟩) ∧
    ¬ (missing == holding [.absent 0x3 false, .scalar 0x11 true (.bytes [8])]) := by
  intro holding missing missing'
  obtain ⟨_, _, _, _, _, hashes, templates⟩ := equality_is_sound
  have same : missing == missing' := by decide
  have same' : (⟨[missing]⟩ : Template) == ⟨[missing']⟩ :=
    (templates _ _).1.mpr (.cons same .nil)
  exact ⟨⟨same, (hashes _ _ same).1⟩, ⟨same', ((templates _ _).2 same').2.2⟩, by decide⟩

end Attribute

end Cryptoki
