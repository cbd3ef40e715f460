import Cryptoki.Module.Request
import Cryptoki.Proofs.Wire.Answering

/-!
The label of an entry, its type and its flag, and what leaves it alone: writes that name no type,
writes to what the entry holds, and the making of storage.
-/
namespace Cryptoki

namespace Wire

def Entry.label (e : Entry) : Code × Bool := (e.head.type, e.head.sensitive)

def Head.said (h : Head) : Code × Bool × Option Nat := (h.type, h.sensitive, h.length)

@[simp] theorem head_withHead (h : Head) (e : Entry) : (e.withHead h).head = h := by
  cases e <;> rfl

@[simp] theorem head_overwrite (b : Bytes) (e : Entry) : (e.overwrite b).head = e.head := by
  unfold Entry.overwrite
  split
  · cases e <;> rfl
  · rfl

@[simp] theorem head_atNested (f : List Entry → List Entry) (e : Entry) :
    (e.atNested f).head = e.head := by
  unfold Entry.atNested
  split
  · cases e <;> rfl
  · rfl

theorem label_write {w : Write} (untyped : w.type = none) (e : Entry) :
    (e.write w).label = e.label := by
  unfold Entry.write
  split <;> simp [Entry.label, untyped]

theorem length_write_unavailable (e : Entry) :
    (e.write { length := some unavailable }).head.length = none := by
  simp [Entry.write, lengthOfWord]

end Wire

def Patch.At (i : Nat) (p : Patch) : Prop :=
  ∃ path, p.path = i :: path ∧ (path = [] → p.write.type = none)

namespace Wire

theorem patch_at (before rest : List Entry) (e : Entry) {p : Patch} (at_ : p.At before.length) :
    ∃ e', patch (before ++ e :: rest) p = before ++ e' :: rest ∧ e'.label = e.label := by
  obtain ⟨path, w⟩ := p
  obtain ⟨path, rfl, untyped⟩ := at_
  cases path with
  | nil => exact ⟨_, patch_here before rest e w, label_write (untyped rfl) e⟩
  | cons i path =>
    refine ⟨e.atNested (writeAt (i :: path) w), modify_append before rest e _, ?_⟩
    simp [Entry.label]

theorem foldl_patch_at (before rest : List Entry) {ps : List Patch}
    (at_ : ∀ p ∈ ps, p.At before.length) (e : Entry) :
    ∃ e', ps.foldl patch (before ++ e :: rest) = before ++ e' :: rest ∧ e'.label = e.label := by
  induction ps generalizing e with
  | nil => exact ⟨e, rfl, rfl⟩
  | cons p ps ih =>
    obtain ⟨e', first, same⟩ := patch_at before rest e (at_ p List.mem_cons_self)
    obtain ⟨e'', others, same'⟩ := ih (fun q member => at_ q (List.mem_cons_of_mem p member)) e'
    exact ⟨e'', by rw [List.foldl_cons, first, others], same'.trans same⟩

theorem said_allocate (r : Registry) (e : Entry) : (e.allocate r).1.head.said = e.head.said := by
  cases e with
  | empty h =>
    unfold Entry.allocate
    split
    · rfl
    · rfl
    · split
      · split <;> rfl
      · rfl
  | buffer h b => rfl
  | nested h entries => rfl

theorem map_said_allocate (r : Registry) (entries : List Entry) :
    (allocate r entries).1.map (·.head.said) = entries.map (·.head.said) := by
  induction entries with
  | nil => rfl
  | cons e rest ih =>
    have here := said_allocate r e
    rw [allocate]
    rcases made : e.allocate r with ⟨e', x | changed⟩
    · rw [made] at here
      simp [here]
    · rw [made] at here
      simp [here, ih]

theorem flagged_type (h : Head) (a : Attribute) : (flagged h a).type = a.type := by
  unfold flagged
  split
  · exact a.type_withSensitive true
  · rfl

theorem flagged_isPresent (h : Head) (a : Attribute) :
    (flagged h a).isPresent = a.isPresent := by
  unfold flagged
  split
  · exact a.isPresent_withSensitive true
  · rfl

theorem flagged_decoded {r : Registry} {h : Head} {b : Bytes} {a : Attribute}
    (read : flagged h <$> Attribute.decode r h.type b = .ok a) :
    a.type = h.type ∧ a.isPresent = true := by
  obtain ⟨c, decoded, rfl⟩ := Result.map_eq_ok.mp read
  obtain ⟨v, _, rfl⟩ := Result.map_eq_ok.mp decoded
  exact ⟨flagged_type h _, flagged_isPresent h _⟩

theorem toAttribute_eq_ok {r : Registry} {e : Entry} {a : Attribute}
    (read : e.toAttribute r = .ok a) :
    a.type = e.head.type ∧ a.isPresent = e.head.length.isSome := by
  cases length : e.head.length with
  | none =>
    rw [toAttribute_of_absent length] at read
    cases read
    exact ⟨rfl, rfl⟩
  | some n =>
    cases e with
    | empty h =>
      change h.length = some n at length
      simp only [Entry.toAttribute, length] at read
      split at read
      · cases read
      · split at read
        · cases read
          exact ⟨flagged_type h _, flagged_isPresent h _⟩
        · exact flagged_decoded read
    | buffer h b =>
      change h.length = some n at length
      simp only [Entry.toAttribute, length] at read
      exact flagged_decoded read
    | nested h entries =>
      change h.length = some n at length
      simp only [Entry.toAttribute, length] at read
      obtain ⟨count, _, read⟩ := Result.bind_eq_ok.mp read
      obtain ⟨members, _, read⟩ := Result.bind_eq_ok.mp read
      cases read
      exact ⟨flagged_type h _, flagged_isPresent h _⟩

theorem mem_toAttributes {r : Registry} {entries : List Entry} {as : List Attribute}
    (read : toAttributes r entries = .ok as) {a : Attribute} (member : a ∈ as) :
    ∃ e ∈ entries, e.toAttribute r = .ok a := by
  induction entries generalizing as with
  | nil =>
    cases read
    cases member
  | cons e rest ih =>
    obtain ⟨b, here, read⟩ := Result.bind_eq_ok.mp read
    obtain ⟨later, there, last⟩ := Result.bind_eq_ok.mp read
    cases last
    rcases List.mem_cons.mp member with rfl | inside
    · exact ⟨e, List.mem_cons_self, here⟩
    · obtain ⟨f, found, reads⟩ := ih there inside
      exact ⟨f, List.mem_cons_of_mem e found, reads⟩

theorem typesOf_toAttributes {r : Registry} {entries : List Entry} {as : List Attribute}
    (read : toAttributes r entries = .ok as) :
    Attribute.typesOf as = entries.map (·.head.type) := by
  induction entries generalizing as with
  | nil =>
    cases read
    rfl
  | cons e rest ih =>
    obtain ⟨a, here, read⟩ := Result.bind_eq_ok.mp read
    obtain ⟨later, there, last⟩ := Result.bind_eq_ok.mp read
    cases last
    rw [Attribute.typesOf, List.map_cons, List.map_cons, ← ih there, (toAttribute_eq_ok here).1]

end Wire

end Cryptoki
