import Cryptoki.Proofs.Template.Insert

/-!
Templates that are built by setting and removing attributes. However they are built, they are in
normal form.
-/
namespace Cryptoki

open Attribute (typesOf)

namespace Template

structure Normal (r : Registry) (t : Template) : Prop where
  distinct : (typesOf t.attributes).Nodup
  members : ∀ a ∈ t.attributes, a.Normal r

variable {r : Registry} {t u : Template} {a : Attribute}

theorem normal_empty : Normal r .empty :=
  ⟨List.nodup_nil, fun _ member => absurd member List.not_mem_nil⟩

theorem normal_insert (normal : t.Normal r) (fits : a.Normal r) : (t.insert a).Normal r := by
  refine ⟨nodup_insertAttribute normal.distinct, fun b member => ?_⟩
  rcases mem_insertAttribute member with rfl | old
  · exact fits
  · exact normal.members b old

theorem normal_setUnder (normal : t.Normal r) (inner : a.InnerNormal r)
    (done : t.setUnder r a = .ok u) : u.Normal r := by
  obtain ⟨b, normalized, rfl⟩ := Result.map_eq_ok.mp done
  exact normal_insert normal (Attribute.normal_of_normalize inner normalized)

theorem normal_ofListUnder {as : List Attribute} (inner : ∀ a ∈ as, a.InnerNormal r)
    (done : ofListUnder r as = .ok t) : t.Normal r := by
  have steps : ∀ (as : List Attribute) (start : Template), start.Normal r →
      (∀ a ∈ as, a.InnerNormal r) → as.foldlM (setUnder r) start = .ok t → t.Normal r := by
    intro as
    induction as with
    | nil =>
      intro start normal _ done
      cases done
      exact normal
    | cons a rest ih =>
      intro start normal inner done
      rw [List.foldlM_cons] at done
      obtain ⟨next, first, done⟩ := Result.bind_eq_ok.mp done
      exact ih next (normal_setUnder normal (inner a List.mem_cons_self) first)
        (fun b member => inner b (List.mem_cons_of_mem a member)) done
  exact steps as .empty normal_empty inner done

theorem normal_of_sublist (normal : t.Normal r) (fewer : u.attributes.Sublist t.attributes) :
    u.Normal r :=
  ⟨(fewer.map _).nodup normal.distinct, fun a member => normal.members a (fewer.subset member)⟩

theorem normal_remove (normal : t.Normal r) (type : Code) : (t.remove type).Normal r :=
  normal_of_sublist normal List.eraseP_sublist

theorem normal_present (normal : t.Normal r) : t.present.Normal r :=
  normal_of_sublist normal List.filter_sublist

end Template

mutual

inductive Attribute.Built (r : Registry) : Attribute → Prop where
  | absent (type : Code) (sensitive : Bool) : Attribute.Built r (.absent type sensitive)
  | scalar (type : Code) (sensitive : Bool) (value : Scalar) :
    Attribute.Built r (.scalar type sensitive value)
  | template (type : Code) (sensitive : Bool) {t : Template} (inner : Template.Built r t) :
    Attribute.Built r (.template type sensitive t.attributes)

inductive Template.Built (r : Registry) : Template → Prop where
  | ofList {as : List Attribute} {t : Template} (parts : ∀ a ∈ as, Attribute.Built r a)
    (done : Template.ofListUnder r as = .ok t) : Template.Built r t
  | set {t u : Template} {a : Attribute} (before : Template.Built r t)
    (part : Attribute.Built r a) (done : t.setUnder r a = .ok u) : Template.Built r u
  | remove {t : Template} (type : Code) (before : Template.Built r t) :
    Template.Built r (t.remove type)
  | present {t : Template} (before : Template.Built r t) : Template.Built r t.present

end

mutual

theorem Attribute.innerNormal_of_built {r : Registry} {a : Attribute} :
    a.Built r → a.InnerNormal r
  | .absent .. | .scalar .. => trivial
  | .template _ _ inner =>
    have normal := Template.normal_of_built inner
    ⟨normal.distinct, Attribute.normalAll_iff.mpr normal.members⟩

theorem Template.normal_of_built {r : Registry} {t : Template} : t.Built r → t.Normal r
  | .ofList parts done =>
    Template.normal_ofListUnder
      (fun a member => Attribute.innerNormal_of_built (parts a member)) done
  | .set before part done =>
    Template.normal_setUnder (Template.normal_of_built before)
      (Attribute.innerNormal_of_built part) done
  | .remove type before => Template.normal_remove (Template.normal_of_built before) type
  | .present before => Template.normal_present (Template.normal_of_built before)

end

end Cryptoki
