import Cryptoki.Proofs.Template.Built
import Cryptoki.Proofs.Wire.Decoding

/-!
A template that went out as an array comes back from it, but for what is absent.
-/
namespace Cryptoki

open Attribute (typesOf)

mutual

/-- Without what is absent at any depth, and with the flags that `flag` gives to types and flags. -/
def Attribute.delivered (flag : Code → Bool → Bool) : Attribute → List Attribute
  | .absent .. => []
  | .scalar t s v => [.scalar t (flag t s) v]
  | .template t s members => [.template t (flag t s) (Attribute.deliveredAll flag members)]

def Attribute.deliveredAll (flag : Code → Bool → Bool) : List Attribute → List Attribute
  | [] => []
  | a :: rest => a.delivered flag ++ Attribute.deliveredAll flag rest

end

def Template.delivered (flag : Code → Bool → Bool) (t : Template) : Template :=
  ⟨Attribute.deliveredAll flag t.attributes⟩

def Registry.flagKept (r : Registry) (type : Code) (sensitive : Bool) : Bool :=
  sensitive || r.isSensitive type

def Registry.flagOfType (r : Registry) (type : Code) (_ : Bool) : Bool := r.isSensitive type

namespace Attribute

variable {flag : Code → Bool → Bool}

theorem typesOf_delivered_sublist (a : Attribute) :
    (typesOf (a.delivered flag)).Sublist [a.type] := by
  cases a with
  | absent t s => exact List.nil_sublist _
  | scalar t s v | template t s members => exact List.Sublist.refl _

theorem typesOf_deliveredAll_sublist (as : List Attribute) :
    (typesOf (deliveredAll flag as)).Sublist (typesOf as) := by
  induction as with
  | nil => exact List.Sublist.slnil
  | cons a rest ih =>
    rw [deliveredAll, typesOf_append]
    exact (typesOf_delivered_sublist a).append ih

theorem deliveredAll_length (flag : Code → Bool → Bool) (as : List Attribute) :
    (deliveredAll flag as).length = (Wire.ofAttributes as).length := by
  induction as with
  | nil => rfl
  | cons a rest ih =>
    rw [deliveredAll, Wire.ofAttributes, List.length_append, List.length_append, ih]
    cases a <;> simp [delivered, Wire.ofAttribute]

end Attribute

namespace Wire

variable {r : Registry}

theorem collect_deliveredAll {flag : Code → Bool → Bool} {as : List Attribute}
    (distinct : (typesOf as).Nodup) :
    collect (Attribute.deliveredAll flag as) = ⟨Attribute.deliveredAll flag as⟩ :=
  collect_of_distinct ((Attribute.typesOf_deliveredAll_sublist as).nodup distinct)

mutual

def encodeAttribute : Attribute → Result (List Entry)
  | .absent .. => .ok []
  | .scalar t s v => do
    let b ← (Attribute.scalar t s v).encode
    return [.buffer ⟨t, some b.length, if b.isEmpty then .null else .own, s⟩ b]
  | .template t s members => do
    let entries ← encodeAttributes members
    return [.nested ⟨t, some (entrySize * entries.length),
      if entries.isEmpty then .null else .own, s⟩ entries]

def encodeAttributes : List Attribute → Result (List Entry)
  | [] => .ok []
  | a :: rest => do
    let entries ← encodeAttribute a
    return entries ++ (← encodeAttributes rest)

end

theorem encodeAttributes_of_forall {as : List Attribute}
    (each : ∀ a ∈ as, encodeAttribute a = .ok (ofAttribute a)) :
    encodeAttributes as = .ok (ofAttributes as) := by
  induction as with
  | nil => rfl
  | cons a rest ih =>
    have others := ih fun b member => each b (List.mem_cons_of_mem a member)
    simp [encodeAttributes, ofAttributes, each a List.mem_cons_self, others]

theorem encodeAttribute_eq (a : Attribute) : encodeAttribute a = .ok (ofAttribute a) := by
  induction a using Attribute.nested_induction with
  | absent t s => rfl
  | scalar t s v => rfl
  | template t s members ih =>
    rw [encodeAttribute, encodeAttributes_of_forall ih]
    rfl

theorem encodeAttributes_eq (as : List Attribute) :
    encodeAttributes as = .ok (ofAttributes as) :=
  encodeAttributes_of_forall fun a _ => encodeAttribute_eq a

theorem flagged_nestedAttribute (h : Head) (t : Template) :
    flagged h (nestedAttribute h.type t) =
      .template h.type (r.flagKept h.type h.sensitive) t.attributes := by
  rcases h with ⟨type, length, pointer, sensitive⟩
  cases sensitive <;> rfl

theorem toAttributes_ofAttributes_of_forall {as : List Attribute}
    (each : ∀ a ∈ as, toAttributes r (ofAttribute a) = .ok (a.delivered r.flagKept)) :
    toAttributes r (ofAttributes as) = .ok (Attribute.deliveredAll r.flagKept as) := by
  induction as with
  | nil => rfl
  | cons a rest ih =>
    exact toAttributes_append (each a List.mem_cons_self)
      (ih fun b member => each b (List.mem_cons_of_mem a member))

theorem toAttributes_ofAttribute {a : Attribute} (normal : a.Normal r) :
    toAttributes r (ofAttribute a) = .ok (a.delivered r.flagKept) := by
  induction a using Attribute.nested_induction with
  | absent t s => rfl
  | scalar t s v =>
    have back : Scalar.decode (r.kind t) v.encode = .ok v := by
      rw [← normal]
      exact Scalar.decode_encode v
    simp [ofAttribute, toAttributes, Entry.toAttribute, Attribute.decode, back,
      Attribute.delivered, flagged, Registry.flagKept]
    cases s <;> rfl
  | template t s members ih =>
    obtain ⟨_, distinct, inner⟩ := normal
    have back := toAttributes_ofAttributes_of_forall fun a member =>
      ih a member (Attribute.normalAll_iff.mp inner a member)
    simp [ofAttribute, toAttributes, Entry.toAttribute, back, nestedCount_mul,
      flagged_nestedAttribute (r := r), collect_deliveredAll distinct, Attribute.delivered,
      ← Attribute.deliveredAll_length r.flagKept]

theorem toAttributesByHead_ofAttributes_of_forall {as : List Attribute}
    (each : ∀ a ∈ as, toAttributesByHead r (ofAttribute a) (ofAttribute a).length =
      .ok (a.delivered r.flagOfType)) :
    toAttributesByHead r (ofAttributes as) (ofAttributes as).length =
      .ok (Attribute.deliveredAll r.flagOfType as) := by
  induction as with
  | nil => rfl
  | cons a rest ih =>
    exact toAttributesByHead_append (each a List.mem_cons_self)
      (ih fun b member => each b (List.mem_cons_of_mem a member))

theorem toAttributesByHead_ofAttribute {a : Attribute} (normal : a.Normal r) :
    toAttributesByHead r (ofAttribute a) (ofAttribute a).length =
      .ok (a.delivered r.flagOfType) := by
  induction a using Attribute.nested_induction with
  | absent t s => rfl
  | scalar t s v =>
    have flat : r.kind t ≠ .template := normal ▸ v.kind_ne_template
    have back : Scalar.decode (r.kind t) v.encode = .ok v := by
      rw [← normal]
      exact Scalar.decode_encode v
    have safe : (if v.encode.isEmpty then Pointer.null else .own) = .null →
        v.encode.length = 0 := by
      cases v.encode <;> simp
    simp only [ofAttribute, List.length_singleton, toAttributesByHead, Entry.toAttributeByHead]
    rw [toAttribute_of_flat _ _ rfl safe flat, List.take_length, Attribute.decode, back]
    rfl
  | template t s members ih =>
    obtain ⟨nested, distinct, inner⟩ := normal
    have back := toAttributesByHead_ofAttributes_of_forall fun a member =>
      ih a member (Attribute.normalAll_iff.mp inner a member)
    have safe : (if (ofAttributes members).isEmpty then Pointer.null else .own) = .null →
        (ofAttributes members).length = 0 := by
      cases ofAttributes members <;> simp
    simp only [ofAttribute, List.length_singleton, toAttributesByHead, Entry.toAttributeByHead]
    rw [toAttribute_of_nested _ _ rfl safe nested, back, Except.map_ok,
      collect_deliveredAll distinct]
    rfl

end Wire

namespace Template

variable {r : Registry} {t : Template}

theorem ofArrayUnder_toArray (normal : t.Normal r) :
    ofArrayUnder r t.toArray = .ok (t.delivered r.flagKept) := by
  have back := Wire.toAttributes_ofAttributes_of_forall fun a member =>
    Wire.toAttributes_ofAttribute (normal.members a member)
  rw [ofArrayUnder, toArray, back, Except.map_ok, Wire.collect_deliveredAll normal.distinct]
  rfl

theorem ofHeadsUnder_toArray (normal : t.Normal r) :
    ofHeadsUnder r t.toArray = .ok (t.delivered r.flagOfType) := by
  have back := Wire.toAttributesByHead_ofAttributes_of_forall fun a member =>
    Wire.toAttributesByHead_ofAttribute (normal.members a member)
  rw [ofHeadsUnder, toArray, back, Except.map_ok, Wire.collect_deliveredAll normal.distinct]
  rfl

/-- However a template was built, its array can be made, and read in both ways. -/
theorem array_round_trip (built : t.Built r) :
    Wire.encodeAttributes t.attributes = .ok t.toArray ∧
    ofArrayUnder r t.toArray = .ok (t.delivered r.flagKept) ∧
    ofHeadsUnder r t.toArray = .ok (t.delivered r.flagOfType) := by
  have normal := normal_of_built built
  exact ⟨Wire.encodeAttributes_eq t.attributes, ofArrayUnder_toArray normal,
    ofHeadsUnder_toArray normal⟩

def nestedSample : Template :=
  ⟨[.absent 0x3 false, .scalar 0x123 false (.bigInt 0),
    .template 0x40000211 true [.absent 0x102 true, .template 0x40000212 false [],
      .scalar 0x110 true (.date none)]]⟩

theorem nestedSample_built : nestedSample.Built .bundled := by
  have noParts : ∀ a ∈ ([] : List Attribute), a.Built .bundled := by simp
  have emptyBuilt : Built .bundled .empty := .ofList noParts rfl
  have innerBuilt : Built .bundled ⟨[.absent 0x102 true, .template 0x40000212 false [],
      .scalar 0x110 true (.date none)]⟩ := by
    refine .set (.set (.set emptyBuilt (.absent 0x102 true) rfl)
      (.template 0x40000212 false emptyBuilt) rfl) (.scalar 0x110 true (.date none)) rfl
  exact .set (.set (.set emptyBuilt (.absent 0x3 false) rfl)
    (.scalar 0x123 false (.bigInt 0)) rfl) (.template 0x40000211 true innerBuilt) rfl

theorem array_round_trip_nestedSample :
    Wire.encodeAttributes nestedSample.attributes = .ok nestedSample.toArray ∧
    ofArrayUnder .bundled nestedSample.toArray =
      .ok ⟨[.scalar 0x123 true (.bigInt 0), .template 0x40000211 true
        [.template 0x40000212 false [], .scalar 0x110 true (.date none)]]⟩ ∧
    ofHeadsUnder .bundled nestedSample.toArray =
      .ok ⟨[.scalar 0x123 true (.bigInt 0), .template 0x40000211 false
        [.template 0x40000212 false [], .scalar 0x110 false (.date none)]]⟩ :=
  array_round_trip nestedSample_built

end Template

end Cryptoki
