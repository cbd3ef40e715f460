import Cryptoki.Proofs.Wire.Cut

/-!
What readers of arrays refuse. Whatever they refuse is malformed, and one that follows pointers
refuses each length without a value.
-/
namespace Cryptoki

open Result

theorem Attribute.onlyMalformed_decode (r : Registry) (type : Code) (b : Bytes) :
    OnlyMalformed (Attribute.decode r type b) := onlyMalformed_map _ (Scalar.onlyMalformed_decode _ b)

namespace Wire

variable {r : Registry}

theorem onlyMalformed_nestedCount (type : Code) (length : Nat) :
    OnlyMalformed (nestedCount r type length) := by
  unfold nestedCount
  split
  · exact onlyMalformed_ok _
  · exact onlyMalformed_error rfl

theorem onlyMalformed_toAttribute (h : Head) {members : Nat → Result (List Attribute)}
    (inner : ∀ n, OnlyMalformed (members n)) (bytes : Bytes) :
    OnlyMalformed (h.toAttribute r members bytes) := by
  unfold Head.toAttribute
  split
  · exact onlyMalformed_ok _
  · split
    · exact onlyMalformed_error rfl
    · split
      · refine onlyMalformed_bind (onlyMalformed_nestedCount _ _) fun count => ?_
        exact onlyMalformed_bind (inner count) fun as => onlyMalformed_ok _
      · exact Attribute.onlyMalformed_decode r h.type _

theorem onlyMalformed_toFlatAttribute (h : Head) : OnlyMalformed (h.toFlatAttribute r) :=
  onlyMalformed_toAttribute h (fun _ => onlyMalformed_ok []) []

theorem onlyMalformed_mapM_toFlatAttribute (entries : List Entry) :
    OnlyMalformed (entries.mapM fun e => e.head.toFlatAttribute r) := by
  induction entries with
  | nil => exact onlyMalformed_ok []
  | cons e rest ih =>
    rw [List.mapM_cons]
    refine onlyMalformed_bind (onlyMalformed_toFlatAttribute e.head) fun a => ?_
    exact onlyMalformed_bind ih fun as => onlyMalformed_ok _

theorem onlyMalformed_toAttributesByHead_of_forall {entries : List Entry}
    (each : ∀ e ∈ entries, OnlyMalformed (e.toAttributeByHead r)) (count : Nat) :
    OnlyMalformed (toAttributesByHead r entries count) := by
  induction entries generalizing count with
  | nil => cases count <;> exact onlyMalformed_ok []
  | cons e rest ih =>
    cases count with
    | zero => exact onlyMalformed_ok []
    | succ count =>
      have others := ih (fun f member => each f (List.mem_cons_of_mem e member)) count
      rw [toAttributesByHead]
      refine onlyMalformed_bind (each e List.mem_cons_self) fun a => ?_
      exact onlyMalformed_bind others fun as => onlyMalformed_ok _

theorem onlyMalformed_toAttributeByHead (e : Entry) : OnlyMalformed (e.toAttributeByHead r) := by
  induction e using Entry.nested_induction with
  | empty h => exact onlyMalformed_toFlatAttribute h
  | buffer h b =>
    exact onlyMalformed_toAttribute h (fun n => onlyMalformed_mapM_toFlatAttribute _) b
  | nested h entries ih =>
    exact onlyMalformed_toAttribute h (onlyMalformed_toAttributesByHead_of_forall ih) _

theorem onlyMalformed_toAttributesByHead (entries : List Entry) (count : Nat) :
    OnlyMalformed (toAttributesByHead r entries count) :=
  onlyMalformed_toAttributesByHead_of_forall (fun e _ => onlyMalformed_toAttributeByHead e) count

theorem onlyMalformed_toAttributes_of_forall {entries : List Entry}
    (each : ∀ e ∈ entries, OnlyMalformed (e.toAttribute r)) :
    OnlyMalformed (toAttributes r entries) := by
  induction entries with
  | nil => exact onlyMalformed_ok []
  | cons e rest ih =>
    have others := ih fun f member => each f (List.mem_cons_of_mem e member)
    rw [toAttributes]
    refine onlyMalformed_bind (each e List.mem_cons_self) fun a => ?_
    exact onlyMalformed_bind others fun as => onlyMalformed_ok _

theorem onlyMalformed_entry (e : Entry) : OnlyMalformed (e.toAttribute r) := by
  induction e using Entry.nested_induction with
  | empty h =>
    rw [Entry.toAttribute]
    split
    · exact onlyMalformed_ok _
    · split
      · exact onlyMalformed_error rfl
      · split
        · exact onlyMalformed_ok _
        · exact onlyMalformed_map _ (Attribute.onlyMalformed_decode r h.type _)
  | buffer h b =>
    rw [Entry.toAttribute]
    split
    · exact onlyMalformed_ok _
    · exact onlyMalformed_map _ (Attribute.onlyMalformed_decode r h.type _)
  | nested h entries ih =>
    rw [Entry.toAttribute]
    split
    · exact onlyMalformed_ok _
    · refine onlyMalformed_bind (onlyMalformed_nestedCount _ _) fun count => ?_
      exact onlyMalformed_bind (onlyMalformed_toAttributes_of_forall ih) fun as =>
        onlyMalformed_ok _

theorem onlyMalformed_ofArray (entries : List Entry) : OnlyMalformed (Template.ofArray entries) :=
  onlyMalformed_map _ (onlyMalformed_toAttributes_of_forall fun e _ => onlyMalformed_entry e)

theorem onlyMalformed_allocate_of_forall {entries : List Entry}
    (each : ∀ e ∈ entries, OnlyMalformed (e.allocate r).2) :
    OnlyMalformed (allocate r entries).2 := by
  induction entries with
  | nil => exact onlyMalformed_ok false
  | cons e rest ih =>
    have here := each e List.mem_cons_self
    have others := ih fun f member => each f (List.mem_cons_of_mem e member)
    rw [allocate]
    rcases made : e.allocate r with ⟨e', result⟩
    rw [made] at here
    cases result with
    | ok b => exact onlyMalformed_map _ others
    | error x => exact onlyMalformed_error (here x rfl)

theorem onlyMalformed_allocate_entry (e : Entry) : OnlyMalformed (e.allocate r).2 := by
  induction e using Entry.nested_induction with
  | empty h =>
    rw [Entry.allocate]
    split
    · exact onlyMalformed_ok false
    · exact onlyMalformed_ok false
    · split
      · rename_i n _ _ _
        cases counted : nestedCount r h.type n with
        | ok count => exact onlyMalformed_ok true
        | error e => exact onlyMalformed_error (onlyMalformed_nestedCount _ _ e counted)
      · exact onlyMalformed_ok true
  | buffer h b => exact onlyMalformed_ok false
  | nested h entries ih =>
    rw [Entry.allocate]
    exact onlyMalformed_allocate_of_forall ih

theorem onlyMalformed_allocate (entries : List Entry) : OnlyMalformed (allocate r entries).2 :=
  onlyMalformed_allocate_of_forall fun e _ => onlyMalformed_allocate_entry e

def Head.Lacks (h : Head) : Prop := h.pointer = .null ∧ ∃ n, h.length = some n ∧ n ≠ 0

mutual

/-- A length without a value, in the entry or in what is read of the array it stands for. -/
def Entry.Lacks (r : Registry) : Entry → Prop
  | .empty h => h.Lacks
  | .buffer h b =>
    h.Lacks ∨ (r.kind h.type = .template ∧ ∃ e ∈ (ofImage b).take h.count, e.head.Lacks)
  | .nested h entries => h.Lacks ∨ (r.kind h.type = .template ∧ LacksAny r entries h.count)

def LacksAny (r : Registry) : List Entry → Nat → Prop
  | [], _ | _, 0 => False
  | e :: rest, count + 1 => e.Lacks r ∨ LacksAny r rest count

end

theorem toAttribute_of_lacks {h : Head} (lacks : h.Lacks)
    (members : Nat → Result (List Attribute)) (bytes : Bytes) :
    h.toAttribute r members bytes = .error (.valueMissing (r.name h.type)) := by
  obtain ⟨null, n, length, some⟩ := lacks
  simp [Head.toAttribute, length, null, some]

theorem toAttribute_ne_ok_of_members {h : Head} (kind : r.kind h.type = .template) {n : Nat}
    (length : h.length = some n) {members : Nat → Result (List Attribute)}
    (inner : ∀ as, members h.count ≠ .ok as) (bytes : Bytes) (a : Attribute) :
    h.toAttribute r members bytes ≠ .ok a := by
  intro done
  simp only [Head.toAttribute, length, kind, ↓reduceIte] at done
  split at done
  · cases done
  · obtain ⟨count, counted, done⟩ := Result.bind_eq_ok.mp done
    obtain ⟨as, read, _⟩ := Result.bind_eq_ok.mp done
    have exactly : h.count = count := by
      rw [Head.count, length, Option.getD_some, nestedCount_eq_ok counted]
      simp [entrySize]
    exact inner as (exactly ▸ read)

theorem mapM_toFlatAttribute_ne_ok {entries : List Entry} (lacks : ∃ e ∈ entries, e.head.Lacks)
    (as : List Attribute) : entries.mapM (fun e => e.head.toFlatAttribute r) ≠ .ok as := by
  induction entries generalizing as with
  | nil =>
    obtain ⟨e, member, _⟩ := lacks
    cases member
  | cons e rest ih =>
    intro done
    rw [List.mapM_cons] at done
    obtain ⟨a, here, done⟩ := Result.bind_eq_ok.mp done
    obtain ⟨later, there, _⟩ := Result.bind_eq_ok.mp done
    obtain ⟨f, member, lacking⟩ := lacks
    rcases List.mem_cons.mp member with rfl | member
    · rw [Head.toFlatAttribute, toAttribute_of_lacks lacking] at here
      cases here
    · exact ih ⟨f, member, lacking⟩ later there

theorem toAttributesByHead_ne_ok_of_forall {entries : List Entry}
    (each : ∀ e ∈ entries, e.Lacks r → ∀ a, e.toAttributeByHead r ≠ .ok a) {count : Nat}
    (lacks : LacksAny r entries count) (as : List Attribute) :
    toAttributesByHead r entries count ≠ .ok as := by
  induction entries generalizing count as with
  | nil =>
    cases count <;> cases lacks
  | cons e rest ih =>
    cases count with
    | zero => cases lacks
    | succ count =>
      intro done
      rw [toAttributesByHead] at done
      obtain ⟨a, here, done⟩ := Result.bind_eq_ok.mp done
      obtain ⟨later, there, _⟩ := Result.bind_eq_ok.mp done
      rcases lacks with first | others
      · exact each e List.mem_cons_self first a here
      · exact ih (fun f member => each f (List.mem_cons_of_mem e member)) others later there

theorem exists_length_of_count {h : Head} (counted : h.count ≠ 0) : ∃ n, h.length = some n := by
  cases length : h.length with
  | none => simp [Head.count, length] at counted
  | some n => exact ⟨n, rfl⟩

theorem toAttributeByHead_ne_ok (e : Entry) (lacks : e.Lacks r) (a : Attribute) :
    e.toAttributeByHead r ≠ .ok a := by
  induction e using Entry.nested_induction generalizing a with
  | empty h =>
    rw [Entry.toAttributeByHead, Head.toFlatAttribute, toAttribute_of_lacks lacks]
    intro done
    cases done
  | buffer h b =>
    rcases lacks with here | ⟨kind, inside⟩
    · rw [Entry.toAttributeByHead, toAttribute_of_lacks here]
      intro done
      cases done
    · have counted : h.count ≠ 0 := by
        intro zero
        rw [zero] at inside
        obtain ⟨e, member, _⟩ := inside
        cases member
      obtain ⟨n, length⟩ := exists_length_of_count counted
      exact toAttribute_ne_ok_of_members kind length (mapM_toFlatAttribute_ne_ok inside) b a
  | nested h entries ih =>
    rcases lacks with here | ⟨kind, inside⟩
    · rw [Entry.toAttributeByHead, toAttribute_of_lacks here]
      intro done
      cases done
    · have counted : h.count ≠ 0 := by
        intro zero
        rw [zero] at inside
        cases entries <;> cases inside
      obtain ⟨n, length⟩ := exists_length_of_count counted
      exact toAttribute_ne_ok_of_members kind length
        (toAttributesByHead_ne_ok_of_forall ih inside) _ a

theorem malformed_of_lacksAny {entries : List Entry} {count : Nat}
    (lacks : LacksAny r entries count) :
    ∃ e, toAttributesByHead r entries count = .error e ∧ e.kind = .malformed := by
  cases result : toAttributesByHead r entries count with
  | ok as =>
    have never := toAttributesByHead_ne_ok_of_forall (fun e _ => toAttributeByHead_ne_ok e) lacks
    exact absurd result (never as)
  | error e => exact ⟨e, rfl, onlyMalformed_toAttributesByHead entries count e result⟩

end Wire

end Cryptoki
