import Cryptoki.Proofs.Attribute.Normal
import Cryptoki.Proofs.Template.Insert
import Cryptoki.Wire.Template
import Mathlib.Data.List.Induction

/-!
What decoding comes to: entry by entry, and how the attributes are collected.
-/
namespace Cryptoki.Wire

open Attribute (typesOf)

variable {r : Registry}

theorem foldl_insert_of_distinct {start as : List Attribute}
    (distinct : (typesOf (start ++ as)).Nodup) :
    as.foldl Template.insert ⟨start⟩ = ⟨start ++ as⟩ := by
  induction as generalizing start with
  | nil => simp
  | cons a rest ih =>
    have fresh : a.type ∉ typesOf start := by
      intro taken
      rw [Attribute.typesOf_append] at distinct
      exact (List.nodup_append.mp distinct).2.2 a.type taken a.type List.mem_cons_self rfl
    rw [List.foldl_cons, Template.insert, insertAttribute_of_fresh fresh]
    rw [List.append_cons] at distinct
    rw [ih distinct, ← List.append_cons]

theorem collect_of_distinct {as : List Attribute} (distinct : (typesOf as).Nodup) :
    collect as = ⟨as⟩ := foldl_insert_of_distinct distinct

theorem length_foldl_insert_le (as : List Attribute) (start : Template) :
    (as.foldl Template.insert start).attributes.length ≤ start.attributes.length + as.length := by
  induction as generalizing start with
  | nil => exact Nat.le_refl _
  | cons a rest ih =>
    have one_more := length_insertAttribute_le a start.attributes
    have others := ih (start.insert a)
    simp only [Template.insert] at others
    simp only [List.foldl_cons, List.length_cons, Template.insert]
    omega

theorem length_collect_le (as : List Attribute) :
    (collect as).attributes.length ≤ as.length := by
  have bound := length_foldl_insert_le as .empty
  simpa [collect, Template.empty] using bound

theorem typesOf_collect (as : List Attribute) :
    typesOf (collect as).attributes = (typesOf as).eraseDups := by
  induction as using List.reverseRecOn with
  | nil => rfl
  | append_singleton as a ih =>
    have last : collect (as ++ [a]) = (collect as).insert a := by
      rw [collect, List.foldl_append]
      rfl
    rw [last, Template.insert, typesOf_insertAttribute, ih, Attribute.typesOf_append,
      List.eraseDups_append]
    change _ = (typesOf as).eraseDups ++ ([a.type].removeAll (typesOf as)).eraseDups
    generalize typesOf as = before
    by_cases taken : a.type ∈ before
    · simp [List.removeAll, List.mem_eraseDups, List.filter, taken]
    · simp [List.removeAll, List.mem_eraseDups, List.filter, taken, List.eraseDups_cons]

theorem nodup_collect (as : List Attribute) :
    (typesOf (collect as).attributes).Nodup := by
  induction as using List.reverseRecOn with
  | nil => exact List.nodup_nil
  | append_singleton as a ih =>
    rw [collect, List.foldl_append]
    exact nodup_insertAttribute ih

theorem mem_collect {a : Attribute} {as : List Attribute} (member : a ∈ (collect as).attributes) :
    a ∈ as := by
  induction as using List.reverseRecOn with
  | nil => cases member
  | append_singleton as b ih =>
    rw [collect, List.foldl_append] at member
    rcases mem_insertAttribute member with rfl | before
    · simp
    · exact List.mem_append_left [b] (ih before)

theorem toAttributes_append {xs ys : List Entry} {as bs : List Attribute}
    (first : toAttributes r xs = .ok as) (second : toAttributes r ys = .ok bs) :
    toAttributes r (xs ++ ys) = .ok (as ++ bs) := by
  induction xs generalizing as with
  | nil =>
    cases first
    exact second
  | cons e rest ih =>
    obtain ⟨a, here, first⟩ := Result.bind_eq_ok.mp first
    obtain ⟨later, there, last⟩ := Result.bind_eq_ok.mp first
    cases last
    simp [toAttributes, here, ih there]

theorem toAttribute_of_absent {e : Entry} (absent : e.head.length = none) :
    e.toAttribute r = .ok (.absent e.head.type e.head.sensitive) := by
  cases e with
  | empty h | buffer h b | nested h entries =>
    change h.length = none at absent
    rw [Entry.toAttribute, absent]
    rfl

theorem nestedCount_mul (type : Code) (n : Nat) :
    nestedCount r type (entrySize * n) = .ok n := by
  simp [nestedCount, entrySize]

theorem nestedCount_eq_ok {type : Code} {n count : Nat} (done : nestedCount r type n = .ok count) :
    n = entrySize * count := by
  unfold nestedCount at done
  split at done
  · rename_i whole
    cases done
    exact (Nat.mul_div_cancel' (Nat.dvd_of_mod_eq_zero whole)).symm
  · cases done

theorem length_of_toAttributes {xs : List Entry} {as : List Attribute}
    (done : toAttributes r xs = .ok as) : as.length = xs.length := by
  induction xs generalizing as with
  | nil =>
    cases done
    rfl
  | cons e rest ih =>
    obtain ⟨a, _, done⟩ := Result.bind_eq_ok.mp done
    obtain ⟨later, there, last⟩ := Result.bind_eq_ok.mp done
    cases last
    rw [List.length_cons, List.length_cons, ih there]

section

variable {h : Head} {n : Nat} (members : Nat → Result (List Attribute)) (bytes : Bytes)

theorem toAttribute_of_flat (length : h.length = some n) (safe : h.pointer = .null → n = 0)
    (flat : r.kind h.type ≠ .template) :
    h.toAttribute r members bytes = Attribute.decode r h.type (bytes.take n) := by
  have readable : ¬ (h.pointer = .null ∧ n ≠ 0) := fun bad => bad.2 (safe bad.1)
  simp only [Head.toAttribute, length, readable, flat, ↓reduceIte]

theorem toAttribute_of_nested (length : h.length = some (entrySize * n))
    (safe : h.pointer = .null → n = 0) (nested : r.kind h.type = .template) :
    h.toAttribute r members bytes =
      (fun as => nestedAttribute h.type (collect as)) <$> members n := by
  have readable : ¬ (h.pointer = .null ∧ entrySize * n ≠ 0) := by
    intro holds
    obtain ⟨null, some⟩ := holds
    exact some (by rw [safe null, Nat.mul_zero])
  simp only [Head.toAttribute, length, readable, nested, ↓reduceIte, nestedCount_mul,
    Result.ok_bind]
  cases members n <;> rfl

end

theorem toAttributesByHead_append {xs ys : List Entry} {as bs : List Attribute}
    (first : toAttributesByHead r xs xs.length = .ok as)
    (second : toAttributesByHead r ys ys.length = .ok bs) :
    toAttributesByHead r (xs ++ ys) (xs ++ ys).length = .ok (as ++ bs) := by
  induction xs generalizing as with
  | nil =>
    cases first
    exact second
  | cons e rest ih =>
    obtain ⟨a, here, first⟩ := Result.bind_eq_ok.mp first
    obtain ⟨later, there, last⟩ := Result.bind_eq_ok.mp first
    cases last
    simp only [List.cons_append, List.length_cons, toAttributesByHead, here, ih there]
    rfl

end Cryptoki.Wire
