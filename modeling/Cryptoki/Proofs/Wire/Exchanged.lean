import Cryptoki.Proofs.Wire.Decoding
import Cryptoki.Proofs.Wire.Image

/-!
Arrays in exchange: made for sending or asking, given storage, and written to by a module. Their
pointers always lead to the storage of their own entry, and are null where there is none.
-/
namespace Cryptoki.Wire

variable {r : Registry}

@[elab_as_elim]
theorem Entry.nested_induction {motive : Entry → Prop} (empty : ∀ h, motive (.empty h))
    (buffer : ∀ h b, motive (.buffer h b))
    (nested : ∀ h entries, (∀ e ∈ entries, motive e) → motive (.nested h entries)) :
    ∀ e, motive e
  | .empty h => empty h
  | .buffer h b => buffer h b
  | .nested h entries =>
    nested h entries fun e _ => Entry.nested_induction empty buffer nested e

mutual

def Entry.Owned : Entry → Prop
  | .empty h => h.pointer = .null
  | .buffer h b => h.pointer = if b.isEmpty then .null else .own
  | .nested h entries =>
    (h.pointer = if entries.isEmpty then .null else .own) ∧ OwnedAll entries

def OwnedAll : List Entry → Prop
  | [] => True
  | e :: rest => e.Owned ∧ OwnedAll rest

end

/-- The bytes of the write go into a buffer, not over the entries of an array. -/
def IntoBuffer (w : Write) : List Nat → List Entry → Prop
  | [], _ => True
  | [i], entries => w.bytes = [] ∨ ∀ h inner, entries[i]? ≠ some (.nested h inner)
  | i :: path, entries => ∀ h inner, entries[i]? = some (.nested h inner) → IntoBuffer w path inner

/-- The arrays that come about between the two sides. -/
inductive Exchanged : List Entry → Prop where
  | sent (t : Template) : Exchanged t.toArray
  | asked (types : List Code) : Exchanged (query types)
  | allocated (r : Registry) {entries : List Entry} (before : Exchanged entries) :
    Exchanged (allocate r entries).1
  | marked (i : Nat) {entries : List Entry} (before : Exchanged entries) :
    Exchanged (markUnavailable i entries)
  | written {path : List Nat} {w : Write} {entries : List Entry} (before : Exchanged entries)
    (fits : IntoBuffer w path entries) : Exchanged (writeAt path w entries)

theorem ownedAll_iff {entries : List Entry} : OwnedAll entries ↔ ∀ e ∈ entries, e.Owned := by
  induction entries with
  | nil => simp [OwnedAll]
  | cons e rest ih => simp [OwnedAll, ih]

theorem pointer_of_owned {e : Entry} (owned : e.Owned) :
    e.head.pointer = .null ∨ e.head.pointer = .own := by
  cases e with
  | empty h => exact .inl owned
  | buffer h b =>
    cases b with
    | nil => exact .inl owned
    | cons x rest => exact .inr owned
  | nested h entries =>
    cases entries with
    | nil => exact .inl owned.1
    | cons e rest => exact .inr owned.1

theorem owned_withHead {e : Entry} (owned : e.Owned) {h : Head}
    (same : h.pointer = e.head.pointer) : (e.withHead h).Owned := by
  cases e with
  | empty _ => exact same.trans owned
  | buffer _ b => exact same.trans owned
  | nested _ entries => exact ⟨same.trans owned.1, owned.2⟩

theorem forall_mem_modify {α : Type} {P : α → Prop} {as : List α} (all : ∀ a ∈ as, P a) (i : Nat)
    {f : α → α} (here : ∀ a, as[i]? = some a → P (f a)) : ∀ a ∈ as.modify i f, P a := by
  intro a member
  obtain ⟨j, found⟩ := List.mem_iff_getElem?.mp member
  rw [List.getElem?_modify] at found
  by_cases same : i = j
  · subst same
    obtain ⟨b, there, rfl⟩ := Option.map_eq_some_iff.mp found
    simpa using here b there
  · obtain ⟨b, there, rfl⟩ := Option.map_eq_some_iff.mp found
    simpa [same] using all b (List.mem_of_getElem? there)

theorem ownedAll_append {xs ys : List Entry} (first : OwnedAll xs) (second : OwnedAll ys) :
    OwnedAll (xs ++ ys) := by
  rw [ownedAll_iff] at first second ⊢
  intro e member
  rcases List.mem_append.mp member with before | after
  · exact first e before
  · exact second e after

theorem ownedAll_ofAttributes_of_forall {as : List Attribute}
    (each : ∀ a ∈ as, OwnedAll (ofAttribute a)) : OwnedAll (ofAttributes as) := by
  induction as with
  | nil => trivial
  | cons a rest ih =>
    rw [ofAttributes]
    exact ownedAll_append (each a List.mem_cons_self)
      (ih fun b member => each b (List.mem_cons_of_mem a member))

theorem ownedAll_ofAttribute (a : Attribute) : OwnedAll (ofAttribute a) := by
  induction a using Attribute.nested_induction with
  | absent t s => trivial
  | scalar t s v => exact ⟨rfl, trivial⟩
  | template t s members ih => exact ⟨⟨rfl, ownedAll_ofAttributes_of_forall ih⟩, trivial⟩

theorem ownedAll_replicate_blank (n : Nat) (type : Code) (sensitive : Bool) :
    OwnedAll (List.replicate n (.blank type sensitive)) := by
  rw [ownedAll_iff]
  intro e member
  obtain ⟨_, rfl⟩ := List.mem_replicate.mp member
  rfl

theorem ownedAll_query (types : List Code) : OwnedAll (query types) := by
  rw [ownedAll_iff]
  intro e member
  obtain ⟨type, _, rfl⟩ := List.mem_map.mp member
  rfl

theorem allocate_of_forall {P : Entry → Prop} {entries : List Entry}
    (all : ∀ e ∈ entries, P e) (each : ∀ e ∈ entries, P (e.allocate r).1) :
    ∀ e ∈ (allocate r entries).1, P e := by
  induction entries with
  | nil =>
    intro e member
    cases member
  | cons first rest ih =>
    have others := ih (fun e member => all e (List.mem_cons_of_mem first member))
      fun e member => each e (List.mem_cons_of_mem first member)
    have here := each first List.mem_cons_self
    intro e member
    rw [allocate] at member
    rcases made : first.allocate r with ⟨first', result⟩
    rw [made] at member here
    cases result with
    | error x =>
      rcases List.mem_cons.mp member with rfl | later
      · exact here
      · exact all e (List.mem_cons_of_mem first later)
    | ok changed =>
      rcases List.mem_cons.mp member with rfl | later
      · exact here
      · exact others e later

theorem owned_allocate (e : Entry) (owned : e.Owned) : (e.allocate r).1.Owned := by
  induction e using Entry.nested_induction with
  | empty h =>
    unfold Entry.allocate
    split
    · exact owned
    · exact owned
    · rename_i n some_bytes length
      -- What is made is never empty, so its pointer may lead to it.
      have positive : n ≠ 0 := some_bytes
      split
      · split
        · exact owned
        · rename_i count counted
          have whole := nestedCount_eq_ok counted
          have some_members : count ≠ 0 := by
            intro zero
            rw [zero, Nat.mul_zero] at whole
            exact positive whole
          refine ⟨?_, ownedAll_replicate_blank count 0 false⟩
          simp [List.isEmpty_replicate, some_members]
      · change Pointer.own = _
        simp [List.isEmpty_replicate, positive]
  | buffer h b => exact owned
  | nested h entries ih =>
    obtain ⟨pointer, inner⟩ := owned
    rw [ownedAll_iff] at inner
    have kept : ∀ entries : List Entry, (allocate r entries).1.isEmpty = entries.isEmpty := by
      intro entries
      cases entries with
      | nil => rfl
      | cons e rest =>
        rw [allocate]
        rcases e.allocate r with ⟨e', _ | _⟩ <;> rfl
    constructor
    · rw [kept]
      exact pointer
    · exact ownedAll_iff.mpr
        (allocate_of_forall inner fun e member => ih e member (inner e member))

theorem owned_overwriteImage_nil {entries : List Entry} (owned : OwnedAll entries) :
    OwnedAll (overwriteImage entries []) := by
  rw [ownedAll_iff] at owned ⊢
  rw [overwriteImage_nil_eq_map]
  intro e member
  obtain ⟨f, there, rfl⟩ := List.mem_map.mp member
  have plain := pointer_of_owned (owned f there)
  exact owned_withHead (owned f there) (Head.ofImage_image_pointer plain _)

theorem isEmpty_overwriteImage_nil (entries : List Entry) :
    (overwriteImage entries []).isEmpty = entries.isEmpty := by
  rw [overwriteImage_nil_eq_map]
  cases entries <;> rfl

theorem isEmpty_overwrite (old new : Bytes) : (Bytes.overwrite old new).isEmpty = old.isEmpty := by
  rw [Bool.eq_iff_iff, List.isEmpty_iff_length_eq_zero, List.isEmpty_iff_length_eq_zero,
    Bytes.length_overwrite]

theorem owned_overwrite {e : Entry} (owned : e.Owned) {b : Bytes}
    (fits : b = [] ∨ ∀ h inner, e ≠ .nested h inner) : (e.overwrite b).Owned := by
  unfold Entry.overwrite
  split
  · cases e with
    | empty h => exact owned
    | buffer h old =>
      change h.pointer = if (Bytes.overwrite old b).isEmpty then .null else .own
      rw [isEmpty_overwrite]
      exact owned
    | nested h entries =>
      have nothing : b = [] := fits.resolve_right fun other => other h entries rfl
      subst nothing
      refine ⟨?_, owned_overwriteImage_nil owned.2⟩
      rw [isEmpty_overwriteImage_nil]
      exact owned.1
  · exact owned

theorem owned_write {e : Entry} (owned : e.Owned) {w : Write}
    (fits : w.bytes = [] ∨ ∀ h inner, e ≠ .nested h inner) : (e.write w).Owned := by
  have typed : (e.withHead { e.head with type := w.type.getD e.head.type }).Owned :=
    owned_withHead owned rfl
  have filled : ((e.withHead { e.head with type := w.type.getD e.head.type }).overwrite
      w.bytes).Owned := by
    refine owned_overwrite typed (fits.imp_right fun other h inner same => ?_)
    cases e with
    | empty _ | buffer _ _ => cases same
    | nested h' inner' => exact other h' inner' rfl
  unfold Entry.write
  split
  · exact owned_withHead filled rfl
  · exact filled

theorem ownedAll_writeAt {path : List Nat} {w : Write} {entries : List Entry}
    (owned : OwnedAll entries) (fits : IntoBuffer w path entries) :
    OwnedAll (writeAt path w entries) := by
  induction path generalizing entries with
  | nil => exact owned
  | cons i path ih =>
    rw [ownedAll_iff] at owned
    cases path with
    | nil =>
      refine ownedAll_iff.mpr (forall_mem_modify owned i fun e here => ?_)
      refine owned_write (owned e (List.mem_of_getElem? here)) (fits.imp_right ?_)
      intro other h inner same
      exact other h inner (same ▸ here)
    | cons j path =>
      refine ownedAll_iff.mpr (forall_mem_modify owned i fun e here => ?_)
      have ownedHere := owned e (List.mem_of_getElem? here)
      unfold Entry.atNested
      split
      · cases e with
        | empty h => exact ownedHere
        | buffer h b =>
          apply Eq.trans ownedHere
          rw [isEmpty_overwrite]
        | nested h inner =>
          have deeper := ih ownedHere.2 (fits h inner here)
          have kept : (writeAt (j :: path) w inner).isEmpty = inner.isEmpty := by
            cases path <;> cases inner <;> cases j <;> rfl
          refine ⟨?_, deeper⟩
          rw [kept]
          exact ownedHere.1
      · exact ownedHere

theorem ownedAll_markUnavailable {entries : List Entry} (owned : OwnedAll entries) (i : Nat) :
    OwnedAll (markUnavailable i entries) := by
  rw [ownedAll_iff] at owned ⊢
  refine forall_mem_modify owned i fun e here => ?_
  exact owned_withHead (owned e (List.mem_of_getElem? here)) rfl

theorem ownedAll_of_exchanged {entries : List Entry} (made : Exchanged entries) :
    OwnedAll entries := by
  induction made with
  | sent t => exact ownedAll_ofAttributes_of_forall fun a _ => ownedAll_ofAttribute a
  | asked types => exact ownedAll_query types
  | allocated r _ ih =>
    rw [ownedAll_iff] at ih ⊢
    exact allocate_of_forall ih fun e member => owned_allocate e (ih e member)
  | marked i _ ih => exact ownedAll_markUnavailable ih i
  | written _ fits ih => exact ownedAll_writeAt ih fits

end Cryptoki.Wire
