import Cryptoki.Proofs.Attribute.Conform

/-!
Attributes in normal form: every value, at any depth, has the kind that is registered for its
type, and no template has two attributes of one type.
-/
namespace Cryptoki

/-- Induction on an attribute and all that it holds, at any depth. -/
@[elab_as_elim]
theorem Attribute.nested_induction {motive : Attribute → Prop}
    (absent : ∀ type sensitive, motive (.absent type sensitive))
    (scalar : ∀ type sensitive value, motive (.scalar type sensitive value))
    (template : ∀ type sensitive members, (∀ a ∈ members, motive a) →
      motive (.template type sensitive members)) : ∀ a, motive a
  | .absent t s => absent t s
  | .scalar t s v => scalar t s v
  | .template t s members =>
    template t s members fun a _ => nested_induction absent scalar template a

namespace Attribute

abbrev typesOf (attributes : List Attribute) : List Code := attributes.map type

theorem typesOf_append (as bs : List Attribute) :
    typesOf (as ++ bs) = typesOf as ++ typesOf bs :=
  List.map_append

mutual

def Normal (r : Registry) : Attribute → Prop
  | .absent .. => True
  | .scalar t _ v => v.kind = r.kind t
  | .template t _ members =>
    r.kind t = .template ∧ (typesOf members).Nodup ∧ NormalAll r members

def NormalAll (r : Registry) : List Attribute → Prop
  | [] => True
  | a :: rest => a.Normal r ∧ NormalAll r rest

end

theorem normalAll_iff {r : Registry} {attributes : List Attribute} :
    NormalAll r attributes ↔ ∀ a ∈ attributes, a.Normal r := by
  induction attributes with
  | nil => simp [NormalAll]
  | cons a rest ih => simp [NormalAll, ih]

theorem conformed_eq_ok {r : Registry} {type : Code} {v w : Value} :
    conformed r type v = .ok w ↔ v.conform (r.kind type) = some w := by
  unfold conformed
  split <;> simp_all

theorem kind_of_conformed {r : Registry} {type : Code} {v w : Value}
    (formed : conformed r type v = .ok w) : w.kind = r.kind type :=
  Value.kind_of_conform (conformed_eq_ok.mp formed)

theorem conformed_scalar {r : Registry} {type : Code} {v : Scalar} {w : Value}
    (formed : conformed r type (.scalar v) = .ok w) : ∃ x, w = .scalar x := by
  obtain ⟨x, _, rfl⟩ := Value.conform_scalar.mp (conformed_eq_ok.mp formed)
  exact ⟨x, rfl⟩

theorem conformed_template {r : Registry} {type : Code} {t : Template} {w : Value}
    (formed : conformed r type (.template t) = .ok w) : w = .template t := by
  have found := conformed_eq_ok.mp formed
  simp only [Value.conform] at found
  split at found <;> cases found
  rfl

theorem checkAll_eq_ok {r : Registry} {members : List Attribute}
    (checked : checkAll r members = .ok ()) :
    ∀ a ∈ members, a.check r = .ok () := by
  induction members with
  | nil => exact fun a member => absurd member List.not_mem_nil
  | cons b rest ih =>
    obtain ⟨_, first, others⟩ := Result.bind_eq_ok.mp checked
    intro a member
    rcases List.mem_cons.mp member with rfl | later
    · exact first
    · exact ih others a later

theorem kind_of_template_conformed {r : Registry} {type : Code} {t : Template} {w : Value}
    (formed : conformed r type (.template t) = .ok w) : r.kind type = .template := by
  rw [← kind_of_conformed formed, conformed_template formed]
  rfl

/-- The templates inside an attribute are in normal form. Its own value need not be. -/
def InnerNormal (r : Registry) : Attribute → Prop
  | .template _ _ members => (typesOf members).Nodup ∧ NormalAll r members
  | _ => True

theorem normalize_eq_ok {r : Registry} {a b : Attribute} (done : a.normalize r = .ok b) :
    (∃ t s, a = .absent t s ∧ b = .absent t s) ∨
    (∃ t s v w, a = .scalar t s v ∧ b = .scalar t s w ∧ w.kind = r.kind t) ∨
    (∃ t s members, a = .template t s members ∧ b = .template t s members ∧
      r.kind t = .template) := by
  cases a with
  | absent t s =>
    cases done
    exact .inl ⟨t, s, rfl, rfl⟩
  | scalar t s v =>
    obtain ⟨w, formed, rfl⟩ := Result.map_eq_ok.mp done
    obtain ⟨x, rfl⟩ := conformed_scalar formed
    exact .inr (.inl ⟨t, s, v, x, rfl, rfl, kind_of_conformed formed⟩)
  | template t s members =>
    obtain ⟨w, formed, rest⟩ := Result.bind_eq_ok.mp done
    obtain ⟨_, _, rest⟩ := Result.bind_eq_ok.mp rest
    cases rest
    obtain rfl := conformed_template formed
    exact .inr (.inr ⟨t, s, members, rfl, rfl, (kind_of_conformed formed).symm⟩)

theorem normal_of_normalize {r : Registry} {a b : Attribute} (inner : a.InnerNormal r)
    (done : a.normalize r = .ok b) : b.Normal r := by
  obtain ⟨t, s, rfl, rfl⟩ | ⟨t, s, v, w, rfl, rfl, same⟩ | ⟨t, s, members, rfl, rfl, same⟩ :=
    normalize_eq_ok done
  · trivial
  · exact same
  · exact ⟨same, inner⟩

theorem innerNormal_of_normal {r : Registry} {a : Attribute} (normal : a.Normal r) :
    a.InnerNormal r := by
  cases a with
  | absent t s | scalar t s v => trivial
  | template t s members => exact normal.2

theorem innerNormal_of_normalize {g r : Registry} {a b : Attribute} (inner : a.InnerNormal g)
    (done : a.normalize r = .ok b) : b.InnerNormal g := by
  obtain ⟨t, s, rfl, rfl⟩ | ⟨t, s, v, w, rfl, rfl, _⟩ | ⟨t, s, members, rfl, rfl, _⟩ :=
    normalize_eq_ok done
  · trivial
  · trivial
  · exact inner

end Attribute

end Cryptoki
