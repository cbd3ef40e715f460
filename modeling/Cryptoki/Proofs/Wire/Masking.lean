import Cryptoki.Attribute.Text
import Cryptoki.Proofs.Wire.RoundTrip
import Mathlib.Data.List.Forall2

/-!
Sensitive values do not show. Templates that differ only in values flagged as sensitive have the
same texts, their arrays have the same text, and so has what is read back from these.
-/
namespace Cryptoki

/-- The two differ at most in values that are flagged as sensitive, at any depth. Such a value may
have any form and length, and may be a template. -/
inductive Attribute.AlikeButSecrets : Attribute → Attribute → Prop where
  | same (a : Attribute) : AlikeButSecrets a a
  | template (type : Code) (sensitive : Bool) {as bs : List Attribute}
    (members : List.Forall₂ AlikeButSecrets as bs) :
    AlikeButSecrets (.template type sensitive as) (.template type sensitive bs)
  | secret {a b : Attribute} (types : a.type = b.type) (present : a.isPresent ∧ b.isPresent)
    (flagged : a.isSensitive ∧ b.isSensitive) : AlikeButSecrets a b

def Template.AlikeButSecrets (t u : Template) : Prop :=
  List.Forall₂ Attribute.AlikeButSecrets t.attributes u.attributes

structure Template.SameTexts (t u : Template) : Prop where
  text : t.text = u.text
  inspect : t.inspect = u.inspect

namespace Attribute

variable {r : Registry} {a b : Attribute} {as bs : List Attribute}

@[elab_as_elim]
theorem AlikeButSecrets.nested_induction {motive : Attribute → Attribute → Prop}
    (same : ∀ a, motive a a)
    (template : ∀ type sensitive as bs, List.Forall₂ AlikeButSecrets as bs →
      List.Forall₂ motive as bs → motive (.template type sensitive as) (.template type sensitive bs))
    (secret : ∀ a b, a.type = b.type → a.isPresent ∧ b.isPresent →
      a.isSensitive ∧ b.isSensitive → motive a b)
    {a b : Attribute} (alike : a.AlikeButSecrets b) : motive a b :=
  @AlikeButSecrets.rec (fun a b _ => motive a b) (fun as bs _ => List.Forall₂ motive as bs) same
    (fun type sensitive _ _ members each => template type sensitive _ _ members each)
    (fun types present flagged => secret _ _ types present flagged) .nil
    (fun _ _ first rest => .cons first rest) a b alike

theorem alikeAll_refl (as : List Attribute) : List.Forall₂ AlikeButSecrets as as :=
  List.forall₂_same.mpr fun a _ => .same a

theorem AlikeButSecrets.type_eq (alike : a.AlikeButSecrets b) : a.type = b.type := by
  cases alike with
  | same => rfl
  | template => rfl
  | secret types => exact types

theorem text_of_secret (present : a.isPresent) (flagged : a.isSensitive) :
    a.text = typeName a.type ++ ": " ++ sensitivePlaceholder := by
  cases a with
  | absent t s => cases present
  | scalar t s v | template t s members =>
    cases flagged
    rfl

theorem inspect_of_secret (present : a.isPresent) (flagged : a.isSensitive) :
    a.inspect = inspectParts a.type true (Text.quote sensitivePlaceholder) := by
  cases a with
  | absent t s => cases present
  | scalar t s v | template t s members =>
    cases flagged
    rfl

theorem texts_eq_map (as : List Attribute) : texts as = as.map text := by
  induction as with
  | nil => rfl
  | cons a rest ih => rw [texts, ih, List.map_cons]

theorem inspectAll_eq_map (as : List Attribute) : inspectAll as = as.map inspect := by
  induction as with
  | nil => rfl
  | cons a rest ih => rw [inspectAll, ih, List.map_cons]

theorem map_eq_of_forall₂ {β : Type} {f : Attribute → β}
    (each : List.Forall₂ (fun a b => f a = f b) as bs) : as.map f = bs.map f := by
  induction each with
  | nil => rfl
  | cons first _ ih => rw [List.map_cons, List.map_cons, first, ih]

theorem AlikeButSecrets.text_eq (alike : a.AlikeButSecrets b) : a.text = b.text := by
  refine AlikeButSecrets.nested_induction (fun _ => rfl) ?template ?secret alike
  case template =>
    intro type sensitive as bs _ each
    rw [text, text, texts_eq_map, texts_eq_map, map_eq_of_forall₂ each]
  case secret =>
    intro a b types present flagged
    rw [text_of_secret present.1 flagged.1, text_of_secret present.2 flagged.2, types]

theorem AlikeButSecrets.inspect_eq (alike : a.AlikeButSecrets b) : a.inspect = b.inspect := by
  refine AlikeButSecrets.nested_induction (fun _ => rfl) ?template ?secret alike
  case template =>
    intro type sensitive as bs _ each
    rw [inspect, inspect, inspectAll_eq_map, inspectAll_eq_map, map_eq_of_forall₂ each]
  case secret =>
    intro a b types present flagged
    rw [inspect_of_secret present.1 flagged.1, inspect_of_secret present.2 flagged.2, types]

theorem alikeAll_insertAttribute (alike : a.AlikeButSecrets b)
    (others : List.Forall₂ AlikeButSecrets as bs) :
    List.Forall₂ AlikeButSecrets (insertAttribute a as) (insertAttribute b bs) := by
  induction others with
  | nil => exact .cons alike .nil
  | @cons c d _ _ first rest ih =>
    rw [insertAttribute, insertAttribute, first.type_eq, alike.type_eq]
    split
    · exact .cons alike rest
    · exact .cons first ih

theorem alikeAll_collect (each : List.Forall₂ AlikeButSecrets as bs) :
    (Wire.collect as).AlikeButSecrets (Wire.collect bs) := by
  have steps : ∀ t u : Template, t.AlikeButSecrets u →
      (as.foldl Template.insert t).AlikeButSecrets (bs.foldl Template.insert u) := by
    induction each with
    | nil => exact fun _ _ before => before
    | cons first _ ih => exact fun t u before => ih _ _ (alikeAll_insertAttribute first before)
  exact steps .empty .empty .nil

end Attribute

theorem Template.AlikeButSecrets.sameTexts {t u : Template} (alike : t.AlikeButSecrets u) :
    t.SameTexts u where
  text := by
    rw [Template.text, Template.text, Attribute.texts_eq_map, Attribute.texts_eq_map,
      Attribute.map_eq_of_forall₂ (alike.imp fun _ _ each => each.text_eq)]
  inspect := by
    rw [Template.inspect, Template.inspect, Attribute.inspectAll_eq_map,
      Attribute.inspectAll_eq_map,
      Attribute.map_eq_of_forall₂ (alike.imp fun _ _ each => each.inspect_eq)]

namespace Wire

open Attribute (AlikeButSecrets)

variable {r : Registry} {a b : Attribute} {as bs : List Attribute}

theorem texts_of_secret (present : a.isPresent) (flagged : a.isSensitive) :
    (ofAttribute a).map Entry.text = [Attribute.typeName a.type ++ " <sensitive>"] := by
  cases a with
  | absent t s => cases present
  | scalar t s v | template t s members =>
    cases flagged
    rfl

theorem length_ofAttribute (alike : a.AlikeButSecrets b) :
    (ofAttribute a).length = (ofAttribute b).length := by
  have one : ∀ c : Attribute, c.isPresent → (ofAttribute c).length = 1 := by
    intro c present
    cases c with
    | absent t s => cases present
    | scalar t s v | template t s members => rfl
  cases alike with
  | same => rfl
  | template => rfl
  | secret _ present _ => rw [one a present.1, one b present.2]

theorem length_ofAttributes (each : List.Forall₂ AlikeButSecrets as bs) :
    (ofAttributes as).length = (ofAttributes bs).length := by
  induction each with
  | nil => rfl
  | cons first _ ih =>
    rw [ofAttributes, ofAttributes, List.length_append, List.length_append, ih,
      length_ofAttribute first]

theorem texts_ofAttribute (alike : a.AlikeButSecrets b) :
    (ofAttribute a).map Entry.text = (ofAttribute b).map Entry.text := by
  cases alike with
  | same => rfl
  | template type sensitive members =>
    simp only [ofAttribute, List.map_cons, Entry.text, Entry.head, Head.lengthWord,
      length_ofAttributes members]
    rfl
  | secret types present flagged =>
    rw [texts_of_secret present.1 flagged.1, texts_of_secret present.2 flagged.2, types]

theorem texts_ofAttributes (each : List.Forall₂ AlikeButSecrets as bs) :
    (ofAttributes as).map Entry.text = (ofAttributes bs).map Entry.text := by
  induction each with
  | nil => rfl
  | cons first _ ih =>
    rw [ofAttributes, ofAttributes, List.map_append, List.map_append, ih, texts_ofAttribute first]

theorem toAttributes_append_eq_ok {xs ys : List Entry} {all : List Attribute}
    (done : toAttributes r (xs ++ ys) = .ok all) :
    ∃ first rest, toAttributes r xs = .ok first ∧ toAttributes r ys = .ok rest ∧
      all = first ++ rest := by
  induction xs generalizing all with
  | nil => exact ⟨[], all, rfl, done, rfl⟩
  | cons e xs ih =>
    obtain ⟨c, here, done⟩ := Result.bind_eq_ok.mp done
    obtain ⟨later, there, last⟩ := Result.bind_eq_ok.mp done
    obtain ⟨first, rest, before, after, rfl⟩ := ih there
    cases last
    exact ⟨c :: first, rest, by simp [toAttributes, here, before], after, rfl⟩

theorem toAttributes_of_secret (present : a.isPresent) (flagged : a.isSensitive)
    (read : toAttributes r (ofAttribute a) = .ok as) :
    ∃ c, as = [c] ∧ c.type = a.type ∧ c.isPresent ∧ c.isSensitive := by
  cases a with
  | absent t s => cases present
  | scalar t s v =>
    cases flagged
    obtain ⟨c, here, read⟩ := Result.bind_eq_ok.mp read
    cases read
    obtain ⟨d, decoded, rfl⟩ := Result.map_eq_ok.mp here
    obtain ⟨w, _, rfl⟩ := Result.map_eq_ok.mp decoded
    exact ⟨_, rfl, rfl, rfl, rfl⟩
  | template t s members =>
    cases flagged
    obtain ⟨c, here, read⟩ := Result.bind_eq_ok.mp read
    cases read
    obtain ⟨count, _, here⟩ := Result.bind_eq_ok.mp here
    obtain ⟨inner, _, here⟩ := Result.bind_eq_ok.mp here
    cases here
    exact ⟨_, rfl, rfl, rfl, rfl⟩

theorem toAttributes_ofTemplate {type : Code} {sensitive : Bool}
    (read : toAttributes r (ofAttribute (.template type sensitive as)) = .ok bs) :
    ∃ inner, toAttributes r (ofAttributes as) = .ok inner ∧
      bs = [.template type (r.flagKept type sensitive)
        ((collect inner).attributes.take (ofAttributes as).length)] := by
  obtain ⟨c, here, read⟩ := Result.bind_eq_ok.mp read
  cases read
  obtain ⟨count, counted, here⟩ := Result.bind_eq_ok.mp here
  obtain ⟨inner, held, here⟩ := Result.bind_eq_ok.mp here
  cases here
  rw [nestedCount_mul] at counted
  cases counted
  exact ⟨inner, held, by rw [flagged_nestedAttribute (r := r)]⟩

theorem alike_read_of_forall
    (each : List.Forall₂ (fun a b => ∀ xs ys, toAttributes r (ofAttribute a) = .ok xs →
      toAttributes r (ofAttribute b) = .ok ys → List.Forall₂ AlikeButSecrets xs ys) as bs) :
    ∀ {xs ys : List Attribute}, toAttributes r (ofAttributes as) = .ok xs →
      toAttributes r (ofAttributes bs) = .ok ys → List.Forall₂ AlikeButSecrets xs ys := by
  induction each with
  | nil =>
    intro xs ys read read'
    cases read
    cases read'
    exact .nil
  | cons first _ ih =>
    intro xs ys read read'
    obtain ⟨x, xs', here, there, rfl⟩ := toAttributes_append_eq_ok read
    obtain ⟨y, ys', here', there', rfl⟩ := toAttributes_append_eq_ok read'
    exact List.rel_append (first x y here here') (ih there there')

theorem alike_read (alike : a.AlikeButSecrets b) :
    ∀ xs ys, toAttributes r (ofAttribute a) = .ok xs → toAttributes r (ofAttribute b) = .ok ys →
      List.Forall₂ AlikeButSecrets xs ys := by
  refine AlikeButSecrets.nested_induction ?same ?template ?secret alike
  case same =>
    intro a xs ys read read'
    rw [read] at read'
    cases read'
    exact Attribute.alikeAll_refl xs
  case template =>
    intro type sensitive as bs members each xs ys read read'
    obtain ⟨inner, held, rfl⟩ := toAttributes_ofTemplate read
    obtain ⟨inner', held', rfl⟩ := toAttributes_ofTemplate read'
    have collected := Attribute.alikeAll_collect (alike_read_of_forall each held held')
    rw [length_ofAttributes members]
    exact .cons (.template _ _ (List.forall₂_take _ collected)) .nil
  case secret =>
    intro a b types present flagged xs ys read read'
    obtain ⟨c, rfl, type, shown, kept⟩ := toAttributes_of_secret present.1 flagged.1 read
    obtain ⟨d, rfl, type', shown', kept'⟩ := toAttributes_of_secret present.2 flagged.2 read'
    exact .cons (.secret (type.trans (types.trans type'.symm)) ⟨shown, shown'⟩ ⟨kept, kept'⟩) .nil

end Wire

namespace Template

variable {r : Registry} {t u : Template}

theorem alike_ofArrayUnder {t' u' : Template} (alike : t.AlikeButSecrets u)
    (read : ofArrayUnder r t.toArray = .ok t') (read' : ofArrayUnder r u.toArray = .ok u') :
    t'.AlikeButSecrets u' := by
  obtain ⟨as, held, rfl⟩ := Result.map_eq_ok.mp read
  obtain ⟨bs, held', rfl⟩ := Result.map_eq_ok.mp read'
  exact Attribute.alikeAll_collect
    (Wire.alike_read_of_forall (alike.imp fun _ _ each => Wire.alike_read each) held held')

/-- The texts of a template, of its array and of what comes back from the array are the same for
any two templates that differ in sensitive values only. Templates in normal form do come back. -/
theorem sensitive_values_hidden (alike : t.AlikeButSecrets u) :
    t.SameTexts u ∧ Wire.text t.toArray = Wire.text u.toArray ∧
    (∀ t' u', ofArrayUnder r t.toArray = .ok t' → ofArrayUnder r u.toArray = .ok u' →
      t'.SameTexts u') ∧
    (t.Normal r → u.Normal r →
      ∃ t' u', ofArrayUnder r t.toArray = .ok t' ∧ ofArrayUnder r u.toArray = .ok u') := by
  refine ⟨alike.sameTexts, ?_, ?_, ?_⟩
  · rw [Wire.text, Wire.text, toArray, toArray, Wire.texts_ofAttributes alike]
  · intro t' u' read read'
    exact (alike_ofArrayUnder alike read read').sameTexts
  · intro normal normal'
    exact ⟨_, _, ofArrayUnder_toArray normal, ofArrayUnder_toArray normal'⟩

def keptSample (secret : Bytes) : Template :=
  ⟨[.absent 0x102 false, .template 0x40000211 false
    [.scalar 0x3 false (.string "key"), .scalar 0x11 true (.bytes secret)]]⟩

theorem keptSample_alike (secret other : Bytes) :
    (keptSample secret).AlikeButSecrets (keptSample other) :=
  .cons (.same _) (.cons (.template _ _ (.cons (.same _)
    (.cons (.secret rfl ⟨rfl, rfl⟩ ⟨rfl, rfl⟩) .nil))) .nil)

theorem keptSample_normal (secret : Bytes) : (keptSample secret).Normal .bundled where
  distinct := by simp [keptSample, Attribute.type]
  members := by
    intro a member
    simp only [keptSample, List.mem_cons, List.not_mem_nil, or_false] at member
    rcases member with rfl | rfl
    · trivial
    · exact ⟨rfl, by simp [Attribute.type], rfl, rfl, trivial⟩

theorem sensitive_values_hidden_in_member :
    (keptSample [1]).SameTexts (keptSample [2, 3]) ∧
    Wire.text (keptSample [1]).toArray = Wire.text (keptSample [2, 3]).toArray ∧
    ∃ t u, ofArrayUnder .bundled (keptSample [1]).toArray = .ok t ∧
      ofArrayUnder .bundled (keptSample [2, 3]).toArray = .ok u ∧ t.SameTexts u := by
  obtain ⟨same, arrays, back, returns⟩ :=
    sensitive_values_hidden (keptSample_alike [1] [2, 3])
  obtain ⟨t, u, read, read'⟩ := returns (keptSample_normal [1]) (keptSample_normal [2, 3])
  exact ⟨same, arrays, t, u, read, read', back t u read read'⟩

end Template

end Cryptoki
