import Cryptoki.Proofs.Template.Built
import Cryptoki.Proofs.Wire.Collected

/-!
A template by what was done to it: it has, in the order in which they came in, the types that were
set and not removed since, each with what was set last, and all of it can be sent.
-/
namespace Cryptoki

open Attribute (typesOf)

mutual

inductive Attribute.Obtained (r : Registry) : Attribute → Prop where
  | absent (type : Code) (sensitive : Bool) : Attribute.Obtained r (.absent type sensitive)
  | scalar (type : Code) (sensitive : Bool) (value : Scalar) :
    Attribute.Obtained r (.scalar type sensitive value)
  | template (type : Code) (sensitive : Bool) {t : Template} (held : Template.Obtained r t) :
    Attribute.Obtained r (.template type sensitive t.attributes)

/-- All ways to a template: building it, reading it, and taking it out of another. -/
inductive Template.Obtained (r : Registry) : Template → Prop where
  | empty : Template.Obtained r .empty
  | set {t u : Template} {a : Attribute} (before : Template.Obtained r t)
    (part : Attribute.Obtained r a) (done : t.setUnder r a = .ok u) : Template.Obtained r u
  | remove {t : Template} (type : Code) (before : Template.Obtained r t) :
    Template.Obtained r (t.remove type)
  | present {t : Template} (before : Template.Obtained r t) : Template.Obtained r t.present
  | marked {t : Template} (type : Code) (before : Template.Obtained r t) :
    Template.Obtained r (t.markSensitive type)
  | ofArray {entries : List Wire.Entry} {t : Template}
    (read : Template.ofArrayUnder r entries = .ok t) : Template.Obtained r t
  | ofHeads {entries : List Wire.Entry} {t : Template}
    (read : Template.ofHeadsUnder r entries = .ok t) : Template.Obtained r t
  | inside {t : Template} {type : Code} {sensitive : Bool} {members : List Attribute}
    (outer : Template.Obtained r t) (member : .template type sensitive members ∈ t.attributes) :
    Template.Obtained r ⟨members⟩

end

namespace Attribute

variable {r : Registry} {a b : Attribute}

def InnerDecent (r : Registry) : Attribute → Prop
  | .template _ _ members => (typesOf members).Nodup ∧ DecentAll r members
  | _ => True

theorem normal_of_checked (decent : a.Decent r) (checked : a.check r = .ok ()) : a.Normal r := by
  induction a using nested_induction with
  | absent t s => trivial
  | scalar t s v => exact decent
  | template t s members ih =>
    obtain ⟨distinct, inner⟩ := decent
    obtain ⟨_, formed, others⟩ := Result.bind_eq_ok.mp checked
    obtain ⟨w, formed, _⟩ := Result.map_eq_ok.mp formed
    refine ⟨kind_of_template_conformed formed, distinct, normalAll_iff.mpr fun a member => ?_⟩
    exact ih a member (decentAll_iff.mp inner a member) (checkAll_eq_ok others a member)

theorem normal_of_set (inner : a.InnerDecent r) (done : a.normalize r = .ok b) : b.Normal r := by
  refine normal_of_normalize ?_ done
  cases a with
  | absent t s | scalar t s v => trivial
  | template t s members =>
    obtain ⟨w, _, rest⟩ := Result.bind_eq_ok.mp done
    obtain ⟨_, checked, _⟩ := Result.bind_eq_ok.mp rest
    refine ⟨inner.1, normalAll_iff.mpr fun a member => ?_⟩
    exact normal_of_checked (decentAll_iff.mp inner.2 a member) (checkAll_eq_ok checked a member)

theorem decent_of_normal (normal : a.Normal r) : a.Decent r := by
  induction a using nested_induction with
  | absent t s => trivial
  | scalar t s v => exact normal
  | template t s members ih =>
    obtain ⟨_, distinct, inner⟩ := normal
    refine ⟨distinct, decentAll_iff.mpr fun a member => ?_⟩
    exact ih a member (normalAll_iff.mp inner a member)

theorem type_of_normalize (done : a.normalize r = .ok b) : b.type = a.type := by
  obtain ⟨t, s, rfl, rfl⟩ | ⟨t, s, v, w, rfl, rfl, _⟩ | ⟨t, s, members, rfl, rfl, _⟩ :=
    normalize_eq_ok done <;> rfl

end Attribute

namespace Template

variable {r : Registry} {t u : Template} {a : Attribute}

structure Decent (r : Registry) (t : Template) : Prop where
  distinct : (typesOf t.attributes).Nodup
  members : ∀ a ∈ t.attributes, a.Decent r

theorem decent_insert (decent : t.Decent r) (fits : a.Decent r) : (t.insert a).Decent r := by
  refine ⟨nodup_insertAttribute decent.distinct, fun b member => ?_⟩
  rcases mem_insertAttribute member with rfl | old
  · exact fits
  · exact decent.members b old

theorem decent_of_sublist (decent : t.Decent r) (fewer : u.attributes.Sublist t.attributes) :
    u.Decent r :=
  ⟨(fewer.map _).nodup decent.distinct, fun a member => decent.members a (fewer.subset member)⟩

theorem decent_markSensitive (decent : t.Decent r) (type : Code) :
    (t.markSensitive type).Decent r := by
  unfold markSensitive
  cases found : t.get? type with
  | none => exact decent
  | some a =>
    exact decent_insert decent
      (Attribute.decent_withSensitive (decent.members a (mem_of_get? found).1) true)

end Template

mutual

theorem Attribute.innerDecent_of_obtained {r : Registry} {a : Attribute} :
    a.Obtained r → a.InnerDecent r
  | .absent .. | .scalar .. => trivial
  | .template _ _ held =>
    have decent := Template.decent_of_obtained held
    ⟨decent.distinct, Attribute.decentAll_iff.mpr decent.members⟩

theorem Template.decent_of_obtained {r : Registry} {t : Template} : t.Obtained r → t.Decent r
  | .empty => ⟨List.nodup_nil, fun _ member => absurd member List.not_mem_nil⟩
  | .set before part done => by
    obtain ⟨b, normalized, rfl⟩ := Result.map_eq_ok.mp done
    have normal := Attribute.normal_of_set (Attribute.innerDecent_of_obtained part) normalized
    have old := Template.decent_of_obtained before
    exact Template.decent_insert old (Attribute.decent_of_normal normal)
  | .remove _ before =>
    Template.decent_of_sublist (Template.decent_of_obtained before) List.eraseP_sublist
  | .present before =>
    Template.decent_of_sublist (Template.decent_of_obtained before) List.filter_sublist
  | .marked type before =>
    Template.decent_markSensitive (Template.decent_of_obtained before) type
  | .ofArray read =>
    have gives := Wire.gives_ofArrayUnder read
    ⟨gives.distinct, Attribute.decentAll_iff.mp gives.decent⟩
  | .ofHeads read =>
    have gives := Wire.gives_ofHeadsUnder read
    ⟨gives.distinct, Attribute.decentAll_iff.mp gives.decent⟩
  | .inside outer member =>
    have decent := (Template.decent_of_obtained outer).members _ member
    ⟨decent.1, Attribute.decentAll_iff.mp decent.2⟩

end

namespace Template

inductive Step where
  | set (a : Attribute)
  | remove (type : Code)
  | present
  | becomePresent

namespace Step

def apply (r : Registry) (t : Template) : Step → Template
  | .set a =>
    match t.setUnder r a with
    | .ok u => u
    | .error _ => t
  | .remove type => t.remove type
  | .present => t
  | .becomePresent => t.present

def Obtained (r : Registry) : Step → Prop
  | .set a => a.Obtained r
  | _ => True

def sets? (r : Registry) (type : Code) : Step → Option Attribute
  | .set a => if a.type = type then (a.normalize r).toOption else none
  | _ => none

def removes (type : Code) : Step → Bool
  | .remove x => x == type
  | _ => false

def strips : Step → Bool
  | .becomePresent => true
  | _ => false

end Step

def after (r : Registry) (steps : List Step) : Template := steps.foldl (Step.apply r) .empty

/-- What the last successful set of the type has given it since it was last removed. -/
def latest (r : Registry) (type : Code) (steps : List Step) : Option Attribute :=
  (steps.reverse.takeWhile fun s => !s.removes type).findSome? (Step.sets? r type)

/-- Since the last successful set of the type, a copy of what is present took the place of the
template. -/
def strippedSince (r : Registry) (type : Code) (steps : List Step) : Bool :=
  (steps.reverse.takeWhile fun s => (s.sets? r type).isNone).any Step.strips

/-- At its place among the steps, a set brings in the type, which is not there before it. -/
def InsertedAt (r : Registry) (steps : List Step) (type : Code) (i : Nat) : Prop :=
  ∃ s, steps[i]? = some s ∧ (s.sets? r type).isSome ∧
    (after r (steps.take i)).contains type = false

def LastInsertedAt (r : Registry) (steps : List Step) (type : Code) (i : Nat) : Prop :=
  InsertedAt r steps type i ∧ ∀ j, InsertedAt r steps type j → j ≤ i

/-- What is left of the steps in a template, and what it is good for. -/
structure Reflects (r : Registry) (steps : List Step) (t : Template) : Prop where
  distinct : t.types.Nodup
  inserted : ∀ x ∈ t.types, ∃ i, LastInsertedAt r steps x i
  ordered : t.types.Pairwise fun x y =>
    ∃ i j, i < j ∧ LastInsertedAt r steps x i ∧ LastInsertedAt r steps y j
  values : ∀ x, t.get? x =
    (latest r x steps).filter fun a => a.isPresent || !strippedSince r x steps
  unstripped : (∀ s ∈ steps, s.strips = false) → ∀ x, t.get? x = latest r x steps
  copied : ∀ x, t.present.get? x = (t.get? x).filter (·.isPresent)
  replaced : ∀ a, t.contains a.type → ((Step.set a).apply r t).types = t.types
  failed : ∀ a e, a.normalize r = .error e → (Step.set a).apply r t = t
  kinds : ∀ a ∈ t.attributes, a.Normal r
  sendable : Wire.encodeAttributes t.attributes = .ok t.toArray

section

variable {r : Registry} {t : Template} {s : Step} {steps : List Step} {type x : Code}

theorem after_append : after r (steps ++ [s]) = s.apply r (after r steps) := by
  rw [after, List.foldl_append]
  rfl

theorem latest_append : latest r type (steps ++ [s]) =
    if s.removes type then none else (s.sets? r type).or (latest r type steps) := by
  unfold latest
  rw [List.reverse_append, List.reverse_singleton, List.singleton_append, List.takeWhile_cons]
  cases s.removes type with
  | true => rfl
  | false =>
    simp only [Bool.not_false, if_true, List.findSome?_cons]
    cases s.sets? r type <;> rfl

theorem strippedSince_append : strippedSince r type (steps ++ [s]) =
    ((s.sets? r type).isNone && (s.strips || strippedSince r type steps)) := by
  unfold strippedSince
  rw [List.reverse_append, List.reverse_singleton, List.singleton_append, List.takeWhile_cons]
  cases s.sets? r type <;> simp

theorem contains_iff : t.contains type = true ↔ type ∈ t.types := by
  rw [contains, get?, List.find?_isSome, types, List.mem_map]
  simp

theorem find?_of_fresh {as : List Attribute} (fresh : type ∉ typesOf as) :
    as.find? (·.type == type) = none := by
  refine List.find?_eq_none.mpr fun a member same => fresh ?_
  exact beq_iff_eq.mp same ▸ List.mem_map_of_mem member

theorem find?_eraseP {as : List Attribute} (distinct : (typesOf as).Nodup) :
    (as.eraseP (·.type == type)).find? (·.type == x) =
      if x = type then none else as.find? (·.type == x) := by
  induction as with
  | nil => simp
  | cons a rest ih =>
    obtain ⟨fresh, distinct⟩ := List.nodup_cons.mp distinct
    by_cases gone : a.type = type
    · subst gone
      rw [List.eraseP_cons_of_pos (by simp)]
      by_cases same : x = a.type
      · rw [if_pos same, same, find?_of_fresh fresh]
      · have other : (a.type == x) = false := beq_eq_false_iff_ne.mpr (Ne.symm same)
        rw [if_neg same, List.find?_cons, other]
    · rw [List.eraseP_cons_of_neg (by simpa using gone), List.find?_cons, List.find?_cons,
        ih distinct]
      by_cases here : a.type = x
      · have other : ¬ x = type := fun same => gone (here.trans same)
        simp [here, other]
      · simp only [beq_eq_false_iff_ne.mpr here]

theorem find?_filter_isPresent {as : List Attribute} (distinct : (typesOf as).Nodup) :
    (as.filter (·.isPresent)).find? (·.type == x) =
      (as.find? (·.type == x)).filter (·.isPresent) := by
  induction as with
  | nil => rfl
  | cons a rest ih =>
    obtain ⟨fresh, distinct⟩ := List.nodup_cons.mp distinct
    rw [List.find?_cons, List.filter_cons]
    by_cases here : a.type = x
    · subst here
      have gone : (rest.filter (·.isPresent)).find? (·.type == a.type) = none := by
        rw [ih distinct, find?_of_fresh fresh]
        rfl
      cases present : a.isPresent <;> simp [Option.filter, present, gone]
    · have other : (a.type == x) = false := beq_eq_false_iff_ne.mpr here
      cases present : a.isPresent <;> simp [other, ih distinct]

theorem apply_set_of_ok {a b : Attribute} (done : a.normalize r = .ok b) :
    (Step.set a).apply r t = t.insert b := by
  simp [Step.apply, setUnder, done]

theorem apply_set_of_error {a : Attribute} {e : Error} (failed : a.normalize r = .error e) :
    (Step.set a).apply r t = t := by
  simp [Step.apply, setUnder, failed]

theorem sets?_of_ok {a b : Attribute} (done : a.normalize r = .ok b) :
    (Step.set a).sets? r type = if a.type = type then some b else none := by
  simp [Step.sets?, done, Except.toOption]

theorem sets?_of_error {a : Attribute} {e : Error} (failed : a.normalize r = .error e) :
    (Step.set a).sets? r type = none := by
  simp [Step.sets?, failed, Except.toOption]

theorem get?_apply (distinct : t.types.Nodup) (s : Step) : (s.apply r t).get? x =
    if s.removes x then none
    else if s.strips then (t.get? x).filter (·.isPresent)
    else (s.sets? r x).or (t.get? x) := by
  cases s with
  | set a =>
    cases done : a.normalize r with
    | error e => simp [apply_set_of_error done, sets?_of_error done, Step.removes, Step.strips]
    | ok b =>
      have same := Attribute.type_of_normalize done
      rw [apply_set_of_ok done, sets?_of_ok done]
      change (insertAttribute b t.attributes).find? _ = _
      rw [find?_insertAttribute, same]
      by_cases here : a.type = x <;> simp [here, Step.removes, Step.strips, get?]
  | remove type =>
    change (t.attributes.eraseP _).find? _ = _
    rw [find?_eraseP distinct]
    by_cases here : x = type
    · simp [here, Step.removes]
    · simp [here, Ne.symm here, Step.removes, Step.sets?, Step.strips, get?]
  | present => simp [Step.apply, Step.removes, Step.sets?, Step.strips]
  | becomePresent => exact find?_filter_isPresent distinct

theorem types_apply_set {a b : Attribute} (done : a.normalize r = .ok b) :
    ((Step.set a).apply r t).types =
      if a.type ∈ t.types then t.types else t.types ++ [a.type] := by
  rw [apply_set_of_ok done, ← Attribute.type_of_normalize done]
  exact typesOf_insertAttribute b t.attributes

theorem types_apply (s : Step) : (s.apply r t).types.Sublist t.types ∨
    ∃ a b, s = .set a ∧ a.normalize r = .ok b ∧ a.type ∉ t.types ∧
      (s.apply r t).types = t.types ++ [a.type] := by
  cases s with
  | set a =>
    rcases done : a.normalize r with e | b
    · rw [apply_set_of_error done]
      exact .inl (List.Sublist.refl _)
    · rw [types_apply_set done]
      split
      · exact .inl (List.Sublist.refl _)
      · rename_i fresh
        exact .inr ⟨a, b, rfl, done, fresh, rfl⟩
  | remove type => exact .inl (List.eraseP_sublist.map _)
  | present => exact .inl (List.Sublist.refl _)
  | becomePresent => exact .inl (List.filter_sublist.map _)

theorem nodup_apply (distinct : t.types.Nodup) (s : Step) : (s.apply r t).types.Nodup := by
  rcases types_apply (r := r) s with fewer | ⟨a, b, _, _, fresh, types⟩
  · exact fewer.nodup distinct
  · rw [types]
    exact List.nodup_append.mpr ⟨distinct, by simp, fun y member z here same =>
      fresh (List.mem_singleton.mp here ▸ same ▸ member)⟩

theorem normal_apply (normal : t.Normal r) (obtained : s.Obtained r) : (s.apply r t).Normal r := by
  cases s with
  | set a =>
    cases done : a.normalize r with
    | error e =>
      rw [apply_set_of_error done]
      exact normal
    | ok b =>
      rw [apply_set_of_ok done]
      have inner := Attribute.innerDecent_of_obtained obtained
      exact normal_insert normal (Attribute.normal_of_set inner done)
  | remove type => exact normal_remove normal type
  | present => exact normal
  | becomePresent => exact normal_present normal

theorem distinct_after (r : Registry) (steps : List Step) : (after r steps).types.Nodup := by
  induction steps using List.reverseRecOn with
  | nil => exact List.nodup_nil
  | append_singleton steps s ih =>
    rw [after_append]
    exact nodup_apply ih s

theorem normal_after (obtained : ∀ s ∈ steps, s.Obtained r) : (after r steps).Normal r := by
  induction steps using List.reverseRecOn with
  | nil => exact normal_empty
  | append_singleton steps s ih =>
    rw [after_append]
    exact normal_apply (ih fun s member => obtained s (List.mem_append_left _ member))
      (obtained s (by simp))

theorem sets?_of_strips (strips : s.strips = true) : s.sets? r x = none := by
  cases s <;> first | rfl | cases strips

theorem get?_after (r : Registry) (steps : List Step) (x : Code) : (after r steps).get? x =
    (latest r x steps).filter fun a => a.isPresent || !strippedSince r x steps := by
  induction steps using List.reverseRecOn with
  | nil => rfl
  | append_singleton steps s ih =>
    rw [after_append, get?_apply (distinct_after r steps), latest_append, strippedSince_append]
    cases removed : s.removes x with
    | true => rfl
    | false =>
      cases stripped : s.strips with
      | true =>
        have silent : s.sets? r x = none := sets?_of_strips stripped
        rw [silent, ih]
        cases latest r x steps with
        | none => rfl
        | some a =>
          cases present : a.isPresent <;> cases strippedSince r x steps <;>
            simp [Option.filter, present]
      | false =>
        cases given : s.sets? r x with
        | some b => simp [Option.filter]
        | none => simp [ih]

theorem not_strippedSince (kept : ∀ s ∈ steps, s.strips = false) :
    strippedSince r x steps = false := by
  refine List.any_eq_false.mpr fun s member strips => ?_
  have inside := List.mem_reverse.mp ((List.takeWhile_sublist _).subset member)
  rw [kept s inside] at strips
  cases strips

theorem insertedAt_append {i : Nat} : InsertedAt r (steps ++ [s]) x i ↔
    InsertedAt r steps x i ∨
      i = steps.length ∧ (s.sets? r x).isSome ∧ (after r steps).contains x = false := by
  rcases Nat.lt_trichotomy i steps.length with before | rfl | beyond
  · have other : i ≠ steps.length := Nat.ne_of_lt before
    simp only [InsertedAt, List.getElem?_append_left before,
      List.take_append_of_le_length (Nat.le_of_lt before), other, false_and, or_false]
  · simp [InsertedAt]
  · have other : i ≠ steps.length := Nat.ne_of_gt beyond
    have none_there : (steps ++ [s])[i]? = none := by simp; omega
    have none_before : steps[i]? = none := by simp; omega
    simp [InsertedAt, none_there, none_before, other]

theorem lt_of_insertedAt {i : Nat} (inserted : InsertedAt r steps x i) : i < steps.length := by
  obtain ⟨s, found, _⟩ := inserted
  exact (List.getElem?_eq_some_iff.mp found).1

theorem lastInsertedAt_append {i : Nat} (there : x ∈ (after r steps).types)
    (last : LastInsertedAt r steps x i) : LastInsertedAt r (steps ++ [s]) x i := by
  refine ⟨insertedAt_append.mpr (.inl last.1), fun j inserted => ?_⟩
  rcases insertedAt_append.mp inserted with before | ⟨_, _, absent⟩
  · exact last.2 j before
  · rw [contains_iff.mpr there] at absent
    cases absent

theorem lastInsertedAt_now (set : (s.sets? r x).isSome) (absent : x ∉ (after r steps).types) :
    LastInsertedAt r (steps ++ [s]) x steps.length := by
  have absent : (after r steps).contains x = false := by
    simpa using mt contains_iff.mp absent
  refine ⟨insertedAt_append.mpr (.inr ⟨rfl, set, absent⟩), fun j inserted => ?_⟩
  rcases insertedAt_append.mp inserted with before | ⟨same, _⟩
  · exact Nat.le_of_lt (lt_of_insertedAt before)
  · exact same.le

structure Ordered (r : Registry) (steps : List Step) (types : List Code) : Prop where
  inserted : ∀ x ∈ types, ∃ i, LastInsertedAt r steps x i
  ordered : types.Pairwise fun x y =>
    ∃ i j, i < j ∧ LastInsertedAt r steps x i ∧ LastInsertedAt r steps y j

theorem Ordered.later (ordered : Ordered r steps (after r steps).types) (s : Step) :
    Ordered r (steps ++ [s]) (after r steps).types where
  inserted x there := by
    obtain ⟨i, last⟩ := ordered.inserted x there
    exact ⟨i, lastInsertedAt_append there last⟩
  ordered := by
    refine ordered.ordered.imp_of_mem fun {x y} there there' before => ?_
    obtain ⟨i, j, less, last, last'⟩ := before
    exact ⟨i, j, less, lastInsertedAt_append there last, lastInsertedAt_append there' last'⟩

theorem ordered_after (r : Registry) (steps : List Step) :
    Ordered r steps (after r steps).types := by
  induction steps using List.reverseRecOn with
  | nil => exact ⟨fun x there => absurd there List.not_mem_nil, .nil⟩
  | append_singleton steps s ih =>
    have later := ih.later s
    rw [after_append]
    rcases types_apply (r := r) (t := after r steps) s with fewer | ⟨a, b, rfl, done, fresh, types⟩
    · exact ⟨fun x there => later.inserted x (fewer.subset there), later.ordered.sublist fewer⟩
    · rw [types]
      have now : LastInsertedAt r (steps ++ [.set a]) a.type steps.length :=
        lastInsertedAt_now (by simp [sets?_of_ok done]) fresh
      constructor
      · intro x there
        rcases List.mem_append.mp there with before | new
        · exact later.inserted x before
        · rw [List.mem_singleton.mp new]
          exact ⟨_, now⟩
      · refine List.pairwise_append.mpr ⟨later.ordered, List.pairwise_singleton _ _, ?_⟩
        intro x before y new
        rw [List.mem_singleton.mp new]
        obtain ⟨i, last⟩ := ih.inserted x before
        exact ⟨i, _, lt_of_insertedAt last.1, lastInsertedAt_append before last, now⟩

theorem reflects_after (obtained : ∀ s ∈ steps, s.Obtained r) :
    Reflects r steps (after r steps) where
  distinct := distinct_after r steps
  inserted := (ordered_after r steps).inserted
  ordered := (ordered_after r steps).ordered
  values := get?_after r steps
  unstripped kept x := by
    rw [get?_after, not_strippedSince kept]
    cases latest r x steps <;> simp [Option.filter]
  copied x := find?_filter_isPresent (distinct_after r steps)
  replaced a there := by
    cases done : a.normalize r with
    | error e => rw [apply_set_of_error done]
    | ok b => rw [types_apply_set done, if_pos (contains_iff.mp there)]
  failed a e failed := apply_set_of_error failed
  kinds := (normal_after obtained).members
  sendable := Wire.encodeAttributes_eq _

end

/-- Whatever was done to a template, it has the types that were set and not removed since, in the
order in which they came in, each with what was set last, and it can be sent. A template that was
read has each type of the entries once, where it came first and as it came last, at every depth. -/
theorem template_is_what_was_set (r : Registry) :
    (∀ steps : List Step, (∀ s ∈ steps, s.Obtained r) → Reflects r steps (after r steps)) ∧
    ∀ entries t,
      (ofArrayUnder r entries = .ok t → (Wire.byStorage r).Gives r entries t) ∧
      (ofHeadsUnder r entries = .ok t → (Wire.byHeads r).Gives r entries t) :=
  ⟨fun _ obtained => reflects_after obtained, fun _ _ =>
    ⟨Wire.gives_ofArrayUnder, Wire.gives_ofHeadsUnder⟩⟩

def editing : List Step := [
  .set (.scalar 0x3 false (.string "a")),
  .set (.scalar 0x11 false (.bytes [1])),
  .set (.scalar 0x110 false (.bool true)),
  .set (.template 0x40000211 false [.scalar 0x100 false (.keyType 2)]),
  .remove 0x3,
  .present,
  .set (.scalar 0x3 false (.string "b")),
  .set (.absent 0x11 false),
  .set (.scalar 0x110 false (.date none))]

def repeating : List Wire.Entry :=
  let repeated := [
    .buffer ⟨0x100, some 8, .own, false⟩ (Bytes.ofWord 0), .empty ⟨0x102, none, .null, false⟩,
    .buffer ⟨0x100, some 8, .own, false⟩ (Bytes.ofWord 2)]
  repeated ++ [.nested ⟨0x40000211, some 72, .own, false⟩ repeated]

theorem editing_obtained : ∀ s ∈ editing, s.Obtained .bundled := by
  have held : Template.Obtained .bundled ⟨[.scalar 0x100 false (.keyType 2)]⟩ :=
    .set .empty (.scalar 0x100 false (.keyType 2)) rfl
  intro s member
  simp only [editing, List.mem_cons, List.not_mem_nil, or_false] at member
  rcases member with rfl | rfl | rfl | rfl | rfl | rfl | rfl | rfl | rfl
  case inr.inr.inr.inl => exact .template _ _ held
  case inr.inr.inr.inr.inr.inr.inr.inl => exact .absent _ _
  all_goals first | trivial | exact .scalar _ _ _

/-- The removed label is last but the date, whose first set has failed. What is read has each type
once. -/
theorem template_is_what_was_set_by_editing :
    (after .bundled editing).types = [0x11, 0x40000211, 0x3, 0x110] ∧
    Reflects .bundled editing (after .bundled editing) ∧
    ∃ t u, ofArrayUnder .bundled repeating = .ok t ∧ ofHeadsUnder .bundled repeating = .ok u ∧
      t.types = [0x100, 0x102, 0x40000211] ∧
      (Wire.byStorage .bundled).Gives .bundled repeating t ∧
      (Wire.byHeads .bundled).Gives .bundled repeating u := by
  obtain ⟨built, read⟩ := template_is_what_was_set .bundled
  have t : ∃ t, ofArrayUnder .bundled repeating = .ok t ∧ t.types = [0x100, 0x102, 0x40000211] :=
    ⟨_, rfl, rfl⟩
  have u : ∃ u, ofHeadsUnder .bundled repeating = .ok u := ⟨_, rfl⟩
  obtain ⟨t, done, types⟩ := t
  obtain ⟨u, done'⟩ := u
  exact ⟨rfl, built editing editing_obtained, t, u, done, done', types,
    (read repeating t).1 done, (read repeating u).2 done'⟩

end Template

end Cryptoki
