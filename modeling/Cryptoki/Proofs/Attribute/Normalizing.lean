import Cryptoki.Proofs.Template.Built
import Cryptoki.Proofs.Wire.RoundTrip

/-!
Normalizing under one registry an attribute whose templates were built under another. Its own value
takes the registered form. What is inside its templates is found to have one, and is kept as it is:
it has the registered kind, and reads back, just where the two registries agree.
-/
namespace Cryptoki

namespace Attribute

variable {g r : Registry} {a a' b : Attribute}

mutual

def inside : Attribute → List Attribute
  | .absent .. | .scalar .. => []
  | .template _ _ members => insideAll members

def insideAll : List Attribute → List Attribute
  | [] => []
  | a :: rest => a :: a.inside ++ insideAll rest

end

theorem mem_insideAll {as : List Attribute} :
    b ∈ insideAll as ↔ ∃ a ∈ as, b = a ∨ b ∈ a.inside := by
  induction as with
  | nil => simp [insideAll]
  | cons a rest ih => simp [insideAll, ih, or_assoc]

theorem forall_inside {P : Attribute → Prop}
    (members : ∀ t s as, P (.template t s as) → ∀ a ∈ as, P a) (holds : P a) :
    ∀ b ∈ a.inside, P b := by
  induction a using nested_induction with
  | absent t s | scalar t s v => exact fun b member => absurd member List.not_mem_nil
  | template t s as ih =>
    intro b member
    obtain ⟨a, there, rfl | deeper⟩ := mem_insideAll.mp member
    · exact members t s as holds b there
    · exact ih a there (members t s as holds a there) b deeper

theorem forall_insideAll {P : Attribute → Prop} {as : List Attribute}
    (members : ∀ t s as, P (.template t s as) → ∀ a ∈ as, P a) (holds : ∀ a ∈ as, P a) :
    ∀ b ∈ insideAll as, P b := by
  intro b member
  obtain ⟨a, there, rfl | deeper⟩ := mem_insideAll.mp member
  · exact holds b there
  · exact forall_inside members (holds a there) b deeper

/-- The value, if there is one, has the kind that is registered for the type. -/
def OfKind (r : Registry) (a : Attribute) : Prop := ∀ v, a.value? = some v → v.kind = r.kind a.type

/-- The bytes of the value, if it has some, are read as the value. -/
def ReadsBack (r : Registry) (a : Attribute) : Prop :=
  ∀ v b, a.value? = some v → v.encode = .ok b →
    decode r a.type b = .ok (ofValue a.type (r.isSensitive a.type) v)

/-- The two registries give the type one kind. What has no value is of no concern. -/
def Agrees (g r : Registry) (a : Attribute) : Prop :=
  a.isPresent = true → g.kind a.type = r.kind a.type

theorem kind_of_template_check {t : Code} {s : Bool} {as : List Attribute}
    (checked : (Attribute.template t s as).check r = .ok ()) : r.kind t = .template := by
  obtain ⟨_, first, _⟩ := Result.bind_eq_ok.mp checked
  obtain ⟨w, formed, _⟩ := Result.map_eq_ok.mp first
  exact kind_of_template_conformed formed

theorem conformable_of_check (checked : b.check r = .ok ()) {v : Value}
    (value : b.value? = some v) : v.Conformable (r.kind b.type) := by
  cases b with
  | absent t s => cases value
  | scalar t s x =>
    cases value
    obtain ⟨w, formed, _⟩ := Result.map_eq_ok.mp checked
    exact Value.conformable_of_conform (conformed_eq_ok.mp formed)
  | template t s as =>
    cases value
    have kind : r.kind (Attribute.template t s as).type = .template := kind_of_template_check checked
    rw [kind]
    exact .own (.template ⟨as⟩)

theorem ofKind_iff_agrees (normal : b.Normal g) (checked : b.check r = .ok ()) :
    b.OfKind r ↔ b.Agrees g r := by
  cases b with
  | absent t s => simp [OfKind, Agrees, value?, isPresent]
  | scalar t s v =>
    have own : v.kind = g.kind t := normal
    simp [OfKind, Agrees, value?, isPresent, type, Value.kind, own]
  | template t s as =>
    have own : g.kind t = .template := normal.1
    have other := kind_of_template_check checked
    simp [OfKind, Agrees, value?, isPresent, type, Value.kind, own, other]

theorem readsBack_of_ofKind (ofKind : b.OfKind r) : b.ReadsBack r := by
  intro v bytes value encoded
  cases b with
  | absent t s => cases value
  | scalar t s x =>
    cases value
    cases encoded
    have own : x.kind = r.kind t := ofKind _ rfl
    change Attribute.scalar t _ <$> Scalar.decode (r.kind t) x.encode = _
    rw [← own, x.decode_encode]
    rfl
  | template t s as =>
    cases value
    cases encoded

theorem ofKind_of_readsBack (checked : b.check r = .ok ()) (back : b.ReadsBack r) : b.OfKind r := by
  intro v value
  cases b with
  | absent t s => cases value
  | scalar t s x =>
    cases value
    obtain ⟨y, decoded, same⟩ := Result.map_eq_ok.mp (back (.scalar x) x.encode rfl rfl)
    cases same
    exact Scalar.kind_of_decode decoded
  | template t s as =>
    cases value
    exact (kind_of_template_check checked).symm

theorem ofKind_of_normalize (done : a.normalize r = .ok a') : a'.OfKind r := by
  intro v value
  obtain ⟨t, s, rfl, rfl⟩ | ⟨t, s, x, w, rfl, rfl, kind⟩ | ⟨t, s, as, rfl, rfl, kind⟩ :=
    normalize_eq_ok done
  · cases value
  · cases value
    exact kind
  · cases value
    exact kind.symm

theorem inside_of_normalize (done : a.normalize r = .ok a') : a'.inside = a.inside := by
  obtain ⟨t, s, rfl, rfl⟩ | ⟨t, s, x, w, rfl, rfl, _⟩ | ⟨t, s, as, rfl, rfl, _⟩ :=
    normalize_eq_ok done <;> rfl

theorem inside_checked (done : a.normalize r = .ok a') : ∀ b ∈ a.inside, b.check r = .ok () := by
  cases a with
  | absent t s | scalar t s v => exact fun b member => absurd member List.not_mem_nil
  | template t s as =>
    obtain ⟨_, _, rest⟩ := Result.bind_eq_ok.mp done
    obtain ⟨_, checked, _⟩ := Result.bind_eq_ok.mp rest
    refine forall_insideAll (fun _ _ _ outer => ?_) (checkAll_eq_ok checked)
    obtain ⟨_, _, inner⟩ := Result.bind_eq_ok.mp outer
    exact checkAll_eq_ok inner

theorem inside_normal (inner : a.InnerNormal g) : ∀ b ∈ a.inside, b.Normal g := by
  cases a with
  | absent t s | scalar t s v => exact fun b member => absurd member List.not_mem_nil
  | template t s as =>
    exact forall_insideAll (fun _ _ _ outer => normalAll_iff.mp outer.2.2)
      (normalAll_iff.mp inner.2)

theorem normalize_again (done : a.normalize r = .ok a') : a'.normalize r = .ok a' := by
  obtain ⟨t, s, rfl, rfl⟩ | ⟨t, s, x, w, rfl, rfl, kind⟩ | ⟨t, s, as, rfl, rfl, _⟩ :=
    normalize_eq_ok done
  · rfl
  · have kept : conformed r t (.scalar w) = .ok (.scalar w) := by
      rw [conformed_eq_ok, ← kind]
      exact Value.conform_own (.scalar w)
    exact Result.map_eq_ok.mpr ⟨_, kept, rfl⟩
  · exact done

theorem normal_of_ofKind (inner : a.InnerNormal g) (own : a.OfKind r)
    (others : ∀ b ∈ a.inside, b.OfKind r) : a.Normal r := by
  induction a using nested_induction with
  | absent t s => trivial
  | scalar t s v => exact own _ rfl
  | template t s as ih =>
    refine ⟨(own _ rfl).symm, inner.1, normalAll_iff.mpr fun b there => ?_⟩
    refine ih b there ?_ ?_ fun c deeper => ?_
    · exact innerNormal_of_normal (normalAll_iff.mp inner.2 b there)
    · exact others b (mem_insideAll.mpr ⟨b, there, .inl rfl⟩)
    · exact others c (mem_insideAll.mpr ⟨b, there, .inr deeper⟩)

/-- What normalizing under `r` makes of an attribute whose templates were built under `g`. -/
structure NormalizedFrom (g r : Registry) (a a' : Attribute) : Prop where
  outermost : a'.OfKind r
  kept : a'.inside = a.inside
  conformable : ∀ b ∈ a'.inside, ∀ v, b.value? = some v → v.Conformable (r.kind b.type)
  kinds : ∀ b ∈ a'.inside, b.OfKind r ↔ b.Agrees g r
  bytes : ∀ b ∈ a'.inside, b.ReadsBack r ↔ b.Agrees g r
  array : (∀ b ∈ a'.inside, b.Agrees g r) →
    Wire.toAttributes r (Wire.ofAttribute a') = .ok (a'.delivered r.flagKept)
  again : a'.normalize r = .ok a'

/-- Normalizing gives an attribute the registered kind, once for all. Inside its templates, which
were built under another registry, nothing is changed, although each value has a form of the
registered kind: the value is of the kind, and its bytes are read as it, just where the two
registries agree. If they agree on all that is inside, it all comes back from its array. -/
theorem normalized_where_registries_agree (built : a.Built g) (done : a.normalize r = .ok a') :
    NormalizedFrom g r a a' := by
  have kept := inside_of_normalize done
  have inner := innerNormal_of_normalize (innerNormal_of_built built) done
  have own := ofKind_of_normalize done
  have normal := inside_normal inner
  have checked := inside_checked done
  rw [← kept] at checked
  have kinds : ∀ b ∈ a'.inside, b.OfKind r ↔ b.Agrees g r := fun b member =>
    ofKind_iff_agrees (normal b member) (checked b member)
  constructor
  case outermost => exact own
  case kept => exact kept
  case conformable => exact fun b member v => conformable_of_check (checked b member)
  case kinds => exact kinds
  case bytes =>
    intro b member
    rw [← kinds b member]
    exact ⟨ofKind_of_readsBack (checked b member), readsBack_of_ofKind⟩
  case array =>
    intro agreed
    have others : ∀ b ∈ a'.inside, b.OfKind r := fun b member =>
      (kinds b member).mpr (agreed b member)
    exact Wire.toAttributes_ofAttribute (normal_of_ofKind inner own others)
  case again => exact normalize_again done

def rawAttempts : Vendor.Config where
  attributes := .ofList [("KRA_MAX_LOGIN_ATTEMPTS", ⟨0x8007678C, .raw⟩)]

def limited : Attribute :=
  .template 0x40000211 false [.scalar 0x3 false (.string "a"),
    .template 0x40000212 false [.scalar 0x8007678C false (.ulong 5)]]

theorem limited_built : limited.Built .bundled := by
  have noParts : ∀ a ∈ ([] : List Attribute), a.Built .bundled := by simp
  have emptyBuilt : Template.Built .bundled .empty := .ofList noParts rfl
  have attempts : Template.Built .bundled ⟨[.scalar 0x8007678C false (.ulong 5)]⟩ :=
    .set emptyBuilt (.scalar 0x8007678C false (.ulong 5)) rfl
  exact .template 0x40000211 false (.set (.set emptyBuilt (.scalar 0x3 false (.string "a")) rfl)
    (.template 0x40000212 false attempts) rfl)

/-- The label is of its kind and the login attempts are not, although they have a form of it. -/
theorem normalized_where_registries_agree_limited :
    limited.normalize ⟨.ofConfig rawAttempts⟩ = .ok limited ∧
    (Attribute.scalar 0x3 false (.string "a")).ReadsBack ⟨.ofConfig rawAttempts⟩ ∧
    ¬ (Attribute.scalar 0x8007678C false (.ulong 5)).ReadsBack ⟨.ofConfig rawAttempts⟩ ∧
    (Value.scalar (.ulong 5)).Conformable .raw := by
  have done : limited.normalize ⟨.ofConfig rawAttempts⟩ = .ok limited := rfl
  have all := normalized_where_registries_agree limited_built done
  have label : .scalar 0x3 false (.string "a") ∈ limited.inside := by
    simp [limited, inside, insideAll]
  have attempts : .scalar 0x8007678C false (.ulong 5) ∈ limited.inside := by
    simp [limited, inside, insideAll]
  refine ⟨done, (all.bytes _ label).mpr fun _ => rfl, fun back => ?_,
    all.conformable _ attempts _ rfl⟩
  have agrees := (all.bytes _ attempts).mp back rfl
  revert agrees
  decide

/-- Under definitions that give it another kind, a value inside a template is neither given that
kind nor read back, and yet normalizing succeeds. -/
theorem normalize_leaves_members_unconverted :
    rawAttempts.validate = .ok () ∧ limited.Built .bundled ∧
    limited.normalize ⟨.ofConfig rawAttempts⟩ = .ok limited ∧
    .scalar 0x8007678C false (.ulong 5) ∈ limited.inside ∧
    (Registry.mk (.ofConfig rawAttempts)).kind 0x8007678C = .raw ∧
    (Value.scalar (.ulong 5)).kind = .ulong ∧
    Attribute.decode ⟨.ofConfig rawAttempts⟩ 0x8007678C (Scalar.ulong 5).encode =
      .ok (.scalar 0x8007678C false (.raw [5, 0, 0, 0, 0, 0, 0, 0])) :=
  ⟨rfl, limited_built, rfl, by simp [limited, inside, insideAll], rfl, rfl, rfl⟩

end Attribute

end Cryptoki
