import Cryptoki.Proofs.Attribute.Normal
import Cryptoki.Wire.Template

/-!
Attributes without their flags. Flags say who may see a value and are no part of it.
-/
namespace Cryptoki

namespace Attribute

mutual

/-- The attribute with no flag set, at any depth. -/
def bare : Attribute → Attribute
  | .absent t _ => .absent t false
  | .scalar t _ v => .scalar t false v
  | .template t _ members => .template t false (bareAll members)

def bareAll : List Attribute → List Attribute
  | [] => []
  | a :: rest => a.bare :: bareAll rest

end

theorem bareAll_eq_map (as : List Attribute) : bareAll as = as.map bare := by
  induction as with
  | nil => rfl
  | cons a rest ih => rw [bareAll, ih, List.map_cons]

theorem bare_type (a : Attribute) : a.bare.type = a.type := by
  cases a <;> rfl

theorem bare_withSensitive (a : Attribute) (sensitive : Bool) :
    (a.withSensitive sensitive).bare = a.bare := by
  cases a <;> rfl

theorem bare_flagged (h : Wire.Head) (a : Attribute) : (Wire.flagged h a).bare = a.bare := by
  unfold Wire.flagged
  split
  · exact bare_withSensitive a true
  · rfl

theorem map_bare_insertAttribute (a : Attribute) (as : List Attribute) :
    (insertAttribute a as).map bare = insertAttribute a.bare (as.map bare) := by
  induction as with
  | nil => rfl
  | cons b rest ih =>
    simp only [insertAttribute, List.map_cons, bare_type]
    split
    · rfl
    · rw [List.map_cons, ih]

end Attribute

namespace Template

def bare (t : Template) : Template := ⟨t.attributes.map Attribute.bare⟩

theorem bare_insert (t : Template) (a : Attribute) : (t.insert a).bare = t.bare.insert a.bare := by
  simp only [bare, insert, Attribute.map_bare_insertAttribute]

theorem bare_markSensitive (t : Template) (type : Code) : (t.markSensitive type).bare = t.bare := by
  unfold markSensitive
  cases found : t.get? type with
  | none => rfl
  | some a =>
    simp only [bare_insert, Attribute.bare_withSensitive]
    have replaced : ∀ as : List Attribute, as.find? (·.type == type) = some a →
        insertAttribute a.bare (as.map Attribute.bare) = as.map Attribute.bare := by
      intro as
      induction as with
      | nil =>
        intro absent
        cases absent
      | cons b rest ih =>
        intro first
        have same : a.type = type := by
          have holds := List.find?_some first
          exact eq_of_beq holds
        rw [List.find?_cons] at first
        by_cases here : b.type = type
        · rw [show (b.type == type) = true from beq_iff_eq.mpr here] at first
          cases first
          simp [insertAttribute]
        · rw [show (b.type == type) = false from beq_eq_false_iff_ne.mpr here] at first
          have other : b.bare.type ≠ a.bare.type := by
            rw [Attribute.bare_type, Attribute.bare_type, same]
            exact here
          simp [insertAttribute, other, ih first]
    exact congrArg Template.mk (replaced t.attributes found)

end Template

namespace Wire

theorem bare_foldl_insert (as : List Attribute) (start : Template) :
    (as.foldl Template.insert start).bare =
      (as.map Attribute.bare).foldl Template.insert start.bare := by
  induction as generalizing start with
  | nil => rfl
  | cons a rest ih => rw [List.foldl_cons, ih, Template.bare_insert, List.map_cons, List.foldl_cons]

theorem bare_collect (as : List Attribute) : (collect as).bare = collect (as.map Attribute.bare) :=
  bare_foldl_insert as .empty

theorem bare_map_flagged (h : Head) (x : Result Attribute) :
    Attribute.bare <$> (flagged h <$> x) = Attribute.bare <$> x := by
  cases x with
  | error e => rfl
  | ok a => exact congrArg Except.ok (Attribute.bare_flagged h a)

theorem bare_map_collect (x : Result (List Attribute)) :
    Template.bare <$> (collect <$> x) = collect <$> (List.map Attribute.bare <$> x) := by
  cases x with
  | error e => rfl
  | ok as => exact congrArg Except.ok (bare_collect as)

theorem bare_nestedAttribute (type : Code) (t : Template) :
    (nestedAttribute type t).bare = .template type false t.bare.attributes := by
  change Attribute.template type false (Attribute.bareAll t.attributes) = _
  rw [Attribute.bareAll_eq_map]
  rfl

end Wire

end Cryptoki
