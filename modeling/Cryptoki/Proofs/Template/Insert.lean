import Cryptoki.Proofs.Attribute.Normal
import Cryptoki.Template

/-!
Inserting an attribute: it takes the place of the one of its type, or the end. Attributes are looked
up and flagged by type.
-/
namespace Cryptoki

open Attribute (typesOf)

theorem typesOf_insertAttribute (a : Attribute) (as : List Attribute) :
    typesOf (insertAttribute a as) =
      if a.type ∈ typesOf as then typesOf as else typesOf as ++ [a.type] := by
  induction as with
  | nil => simp [insertAttribute]
  | cons b rest ih =>
    by_cases same : b.type = a.type
    · simp [insertAttribute, same]
    · have other : a.type ≠ b.type := fun h => same h.symm
      simp only [insertAttribute, beq_eq_false_iff_ne.mpr same, Bool.false_eq_true, ↓reduceIte,
        List.map_cons, ih, List.mem_cons, other, false_or]
      split <;> rfl

theorem nodup_insertAttribute {a : Attribute} {as : List Attribute}
    (distinct : (typesOf as).Nodup) : (typesOf (insertAttribute a as)).Nodup := by
  rw [typesOf_insertAttribute]
  split
  · exact distinct
  · rename_i fresh
    refine List.nodup_append.mpr ⟨distinct, by simp, ?_⟩
    intro x hx y hy same
    rw [List.mem_singleton] at hy
    exact fresh (hy ▸ same ▸ hx)

theorem mem_insertAttribute {a b : Attribute} {as : List Attribute}
    (member : b ∈ insertAttribute a as) : b = a ∨ b ∈ as := by
  induction as with
  | nil => exact .inl (List.mem_singleton.mp member)
  | cons c rest ih =>
    unfold insertAttribute at member
    split at member
    · exact (List.mem_cons.mp member).imp_right (List.mem_cons_of_mem c)
    · rcases List.mem_cons.mp member with rfl | deeper
      · exact .inr List.mem_cons_self
      · exact (ih deeper).imp_right (List.mem_cons_of_mem c)

theorem insertAttribute_of_fresh {a : Attribute} {as : List Attribute}
    (fresh : a.type ∉ typesOf as) : insertAttribute a as = as ++ [a] := by
  induction as with
  | nil => rfl
  | cons b rest ih =>
    simp only [List.map_cons, List.mem_cons, not_or] at fresh
    have other : ¬ b.type = a.type := fun h => fresh.1 h.symm
    simp [insertAttribute, other, ih fresh.2]

theorem find?_insertAttribute (a : Attribute) (as : List Attribute) (type : Code) :
    (insertAttribute a as).find? (·.type == type) =
      if a.type = type then some a else as.find? (·.type == type) := by
  induction as with
  | nil => by_cases here : a.type = type <;> simp [insertAttribute, here]
  | cons b rest ih =>
    unfold insertAttribute
    by_cases replaced : b.type = a.type
    · by_cases here : a.type = type <;> simp [replaced, here]
    · by_cases here : a.type = type
      · have other : ¬ b.type = type := fun same => replaced (same.trans here.symm)
        rw [if_pos here] at ih
        simp [other, ih, here]
      · rw [if_neg here] at ih
        simp only [beq_eq_false_iff_ne.mpr replaced, Bool.false_eq_true, ↓reduceIte,
          List.find?_cons, ih, here]

theorem length_insertAttribute_le (a : Attribute) (as : List Attribute) :
    (insertAttribute a as).length ≤ as.length + 1 := by
  induction as with
  | nil => exact Nat.le_refl _
  | cons b rest ih =>
    unfold insertAttribute
    split
    · simp
    · simpa using ih

@[simp] theorem Attribute.type_withSensitive (a : Attribute) (sensitive : Bool) :
    (a.withSensitive sensitive).type = a.type := by
  cases a <;> rfl

@[simp] theorem Attribute.isPresent_withSensitive (a : Attribute) (sensitive : Bool) :
    (a.withSensitive sensitive).isPresent = a.isPresent := by
  cases a <;> rfl

namespace Template

theorem get?_of_mem {t : Template} (distinct : (Attribute.typesOf t.attributes).Nodup)
    {a : Attribute} (member : a ∈ t.attributes) : t.get? a.type = some a := by
  obtain ⟨attributes⟩ := t
  change attributes.find? _ = _
  change (Attribute.typesOf attributes).Nodup at distinct
  change a ∈ attributes at member
  induction attributes with
  | nil => cases member
  | cons b rest ih =>
    obtain ⟨fresh, distinct⟩ := List.nodup_cons.mp distinct
    rcases List.mem_cons.mp member with rfl | later
    · simp
    · have other : b.type ≠ a.type := fun same =>
        fresh (same ▸ List.mem_map_of_mem later)
      rw [List.find?_cons, beq_eq_false_iff_ne.mpr other]
      exact ih distinct later

theorem mem_of_get? {t : Template} {type : Code} {a : Attribute} (found : t.get? type = some a) :
    a ∈ t.attributes ∧ a.type = type :=
  ⟨List.mem_of_find?_eq_some found, by simpa using List.find?_some found⟩

theorem get?_markSensitive (t : Template) (type x : Code) :
    (t.markSensitive type).get? x =
      (t.get? x).map fun a => if x = type then a.withSensitive true else a := by
  unfold markSensitive
  cases found : t.get? type with
  | none =>
    by_cases here : x = type
    · subst here
      rw [found]
      rfl
    · simp [here]
  | some a =>
    have own := (mem_of_get? found).2
    change (insertAttribute _ _).find? _ = _
    rw [find?_insertAttribute, Attribute.type_withSensitive, own]
    by_cases here : x = type
    · subst here
      simp [found]
    · simp [here, Ne.symm here, get?]

theorem types_markSensitive (t : Template) (type : Code) :
    Attribute.typesOf (t.markSensitive type).attributes = Attribute.typesOf t.attributes := by
  unfold markSensitive
  cases found : t.get? type with
  | none => rfl
  | some a =>
    have there := (mem_of_get? found).1
    refine (typesOf_insertAttribute _ _).trans ?_
    rw [Attribute.type_withSensitive]
    exact if_pos (List.mem_map_of_mem there)

end Template

end Cryptoki
