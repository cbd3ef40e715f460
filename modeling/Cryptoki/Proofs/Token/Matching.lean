import Cryptoki.Proofs.Template.Built
import Cryptoki.Proofs.Token.Undisturbed
import Mathlib.Data.List.Sort

/-!
What a search looks for: the objects that have every type of the template with its value. The token
finds each of them once, in ascending order.
-/
namespace Cryptoki

namespace Attribute

def isTemplate : Attribute → Bool
  | .template .. => true
  | _ => false

def Flat : Attribute → Prop
  | .template _ _ members => ∀ a ∈ members, a.isTemplate = false
  | _ => True

def bytes? : Attribute → Option (Code × Bytes)
  | .scalar t _ v => some (t, v.encode)
  | _ => none

/-- The type with the value that an object has to have for it. -/
def wanted? : Attribute → Option (Code × Token.Value)
  | .absent .. => none
  | .scalar t _ v => some (t, .bytes v.encode)
  | .template t _ members => some (t, .nested (members.filterMap bytes?))

end Attribute

namespace Template

def Flat (t : Template) : Prop := ∀ a ∈ t.attributes, a.Flat

def wanted (t : Template) : List (Code × Token.Value) := t.attributes.filterMap Attribute.wanted?

end Template

namespace Token

open Attribute (typesOf)

theorem entryBytes_buffer (type : Code) (sensitive : Bool) (b : Bytes) :
    Object.entryBytes
      (.buffer ⟨type, some b.length, if b.isEmpty then .null else .own, sensitive⟩ b) = b := by
  cases b with
  | nil => rfl
  | cons x rest => simp [Object.entryBytes, Wire.Entry.head, Wire.Entry.bytes,
      Wire.Entry.storageBytes, Wire.Head.lengthWord]

theorem map_entryBytes_of_flat {members : List Attribute}
    (flat : ∀ a ∈ members, a.isTemplate = false) :
    (Wire.ofAttributes members).map (fun e => (e.head.type, Object.entryBytes e)) =
      members.filterMap Attribute.bytes? := by
  induction members with
  | nil => rfl
  | cons a rest ih =>
    have others := ih fun b member => flat b (List.mem_cons_of_mem a member)
    rw [Wire.ofAttributes, List.map_append, others]
    cases a with
    | absent t s => rfl
    | scalar t s v =>
      rw [List.filterMap_cons_some (by rfl : Attribute.bytes? _ = some (t, v.encode))]
      simp only [Wire.ofAttribute, List.map_cons, List.map_nil, entryBytes_buffer]
      rfl
    | template t s members => cases flat _ List.mem_cons_self

theorem ofEntry_nested {h : Wire.Head} (nested : Registry.bundled.kind h.type = .template)
    (entries : List Wire.Entry) : Object.ofEntry (.nested h entries) =
      (h.type, .nested ((entries.take (h.lengthWord / Wire.entrySize)).map fun e =>
        (e.head.type, Object.entryBytes e))) :=
  if_pos nested

theorem map_ofEntry_ofAttribute {a : Attribute} (normal : a.Normal .bundled) (flat : a.Flat) :
    (Wire.ofAttribute a).map Object.ofEntry = a.wanted?.toList := by
  cases a with
  | absent t s => rfl
  | scalar t s v =>
    have scalar : Registry.bundled.kind t ≠ .template := normal ▸ v.kind_ne_template
    simp only [Wire.ofAttribute, List.map_cons, List.map_nil, Object.ofEntry, Wire.Entry.head,
      if_neg scalar, Attribute.wanted?, Option.toList_some, entryBytes_buffer]
  | template t s members =>
    have nested : Registry.bundled.kind t = .template := normal.1
    have all : (Wire.ofAttributes members).take
        (Wire.entrySize * (Wire.ofAttributes members).length / Wire.entrySize) =
          Wire.ofAttributes members := by
      rw [Nat.mul_div_cancel_left _ (by decide), List.take_length]
    rw [Wire.ofAttribute, List.map_singleton, ofEntry_nested nested, Wire.Head.lengthWord,
      Option.getD_some, all, map_entryBytes_of_flat flat]
    rfl

/-- What the token reads of the array of a template is what the template asks for. -/
theorem ofTemplate_toArray {template : Template} (normal : template.Normal .bundled)
    (flat : template.Flat) : Object.ofTemplate template.toArray = template.wanted := by
  have all : ∀ as : List Attribute, (∀ a ∈ as, a.Normal .bundled ∧ a.Flat) →
      (Wire.ofAttributes as).map Object.ofEntry = as.filterMap Attribute.wanted? := by
    intro as each
    induction as with
    | nil => rfl
    | cons a rest ih =>
      obtain ⟨normal, flat⟩ := each a List.mem_cons_self
      rw [Wire.ofAttributes, List.map_append, map_ofEntry_ofAttribute normal flat,
        ih fun b member => each b (List.mem_cons_of_mem a member)]
      cases found : a.wanted? <;> simp [found]
  exact all template.attributes fun a member => ⟨normal.members a member, flat a member⟩

end Token

namespace Table

variable {κ α : Type} [DecidableEq κ] {t : Table κ α}

theorem mem_entries_iff (distinct : t.keys.Nodup) {k : κ} {a : α} :
    (k, a) ∈ t.entries ↔ t.get? k = some a := by
  obtain ⟨entries⟩ := t
  change (entries.map (·.1)).Nodup at distinct
  change (k, a) ∈ entries ↔ find k entries = some a
  induction entries with
  | nil => simp [find]
  | cons e rest ih =>
    obtain ⟨fresh, distinct⟩ := List.nodup_cons.mp distinct
    rw [List.mem_cons, find, ih distinct]
    by_cases same : e.1 = k
    · subst same
      have absent : find e.1 rest ≠ some a := fun found =>
        fresh (List.mem_map_of_mem (f := (·.1)) ((ih distinct).mpr found))
      simp [absent, Prod.ext_iff, eq_comm]
    · have other : (k, a) ≠ e := fun here => same (congrArg Prod.fst here).symm
      simp [same, other]

theorem keys_insertEntry (k : κ) (a : α) (entries : List (κ × α)) :
    (insertEntry k a entries).map (·.1) =
      if k ∈ entries.map (·.1) then entries.map (·.1) else entries.map (·.1) ++ [k] := by
  induction entries with
  | nil => rfl
  | cons e rest ih =>
    by_cases same : e.1 = k
    · simp [insertEntry, same]
    · have other : k ≠ e.1 := Ne.symm same
      simp only [insertEntry, if_neg same, List.map_cons, ih, List.mem_cons, other, false_or]
      split <;> rfl

theorem nodup_insert (distinct : t.keys.Nodup) (k : κ) (a : α) : (t.insert k a).keys.Nodup := by
  have keys : (t.insert k a).keys = _ := keys_insertEntry k a t.entries
  rw [keys]
  split
  · exact distinct
  · rename_i fresh
    exact List.nodup_append.mpr ⟨distinct, List.nodup_singleton k, fun j member i here same =>
      fresh (List.mem_singleton.mp here ▸ same ▸ member)⟩

omit [DecidableEq κ] in
theorem nodup_retain (distinct : t.keys.Nodup) (keep : κ → Bool) : (t.retain keep).keys.Nodup :=
  (List.filter_sublist.map _).nodup distinct

end Table

namespace Token

def Distinct (t : Token) : Prop := t.objects.keys.Nodup

theorem nodup_matching {t : Token} (distinct : t.Distinct) (wanted : Object) :
    (t.matching wanted).Nodup := by
  refine (List.mergeSort_perm _ _).nodup_iff.mpr ?_
  exact (List.filter_sublist.map _).nodup distinct

theorem ascending_matching {t : Token} (distinct : t.Distinct) (wanted : Object) :
    (t.matching wanted).Pairwise (· < ·) := by
  have sorted : (t.matching wanted).Pairwise (· ≤ ·) := by
    refine (List.pairwise_mergeSort ?_ ?_ _).imp of_decide_eq_true
    · intro a b c
      simpa using Nat.le_trans
    · intro a b
      simpa using Nat.le_total a b
  exact (sorted.and (nodup_matching distinct wanted)).imp fun ⟨le, ne⟩ => lt_of_le_of_ne le ne

theorem mem_matching {t : Token} (distinct : t.Distinct) {wanted : Object} {h : Handle} :
    h ∈ t.matching wanted ↔ ∃ o, t.objects.get? h = some o ∧ ∀ p ∈ wanted, p ∈ o := by
  rw [matching, List.mem_mergeSort, List.mem_map]
  constructor
  · rintro ⟨⟨h, o⟩, member, rfl⟩
    obtain ⟨member, matches_all⟩ := List.mem_filter.mp member
    refine ⟨o, (Table.mem_entries_iff distinct).mp member, ?_⟩
    simpa [Object.matchesTemplate] using matches_all
  · rintro ⟨o, found, all⟩
    refine ⟨(h, o), List.mem_filter.mpr ⟨(Table.mem_entries_iff distinct).mpr found, ?_⟩, rfl⟩
    simpa [Object.matchesTemplate] using all

end Token

namespace Token

variable {t : Token} {shape : Shape} {q : Request shape}

theorem objects_openSession (slot : UInt64) (t : Token) :
    (openSession slot t).2.objects = t.objects := by
  obtain ⟨_, _, left⟩ := openSession_snd slot t
  rw [left]
  exact objects_counted t _

theorem objects_enter (t : Token) (f : Function) (h : Handle) :
    (t.enter f h).1.objects = t.objects := by
  rw [enter_eq]
  split
  · unfold dropOperation
    split <;> exact objects_counted t f
  · exact objects_counted t f

theorem distinct_addObject (distinct : t.Distinct) (o : Object) : (t.addObject o).1.Distinct :=
  Table.nodup_insert distinct _ o

theorem objects_of_operation {k : OperationKind} (subject : q.function.subject? = some (some k)) :
    (perform q t).2.objects = t.objects := by
  cases q <;> cases subject
  case init | digestInit =>
    simp only [perform, begin]
    split
    · rfl
    · split <;> rfl
  case oneShot | finish =>
    simp only [perform, conclude]
    split
    · rfl
    · rw [deliver_snd]
      split <;> rfl
  case stream =>
    simp only [perform, stream]
    split
    · rfl
    · rw [deliver_snd]
  case feed | findObjects =>
    simp only [perform, feed, nextFound]
    split <;> rfl
  case verify | verifyFinal =>
    simp only [perform, check]
    split
    · rfl
    · split <;> rfl
  case findObjectsInit | findObjectsFinal =>
    simp only [perform, search, endSearch]
    split <;> rfl

theorem distinct_derive (distinct : t.Distinct) (m : MechanismBlock) (base : Handle)
    (template : List Wire.Entry) : (derive m base template t).2.Distinct := by
  unfold derive
  split
  · split
    · split
      · exact distinct_addObject distinct _
      · exact distinct
    · split
      · split
        · exact distinct_addObject (distinct_addObject (distinct_addObject
            (distinct_addObject distinct _) _) _) _
        · exact distinct
      · exact distinct_addObject distinct _
  · exact distinct

theorem distinct_apart (apart : q.function.subject? = some none) (distinct : t.Distinct) :
    (perform q t).2.Distinct := by
  cases q <;> cases apart
  case generateKey | createObject => exact distinct_addObject distinct _
  case generateKeyPair => exact distinct_addObject (distinct_addObject distinct _) _
  case wrapKey session m wrapping key capacity =>
    simp only [perform, wrap]
    split
    · split
      · exact distinct
      · split
        · exact distinct
        · rw [deliver_snd]
          exact distinct
    · exact distinct
  case unwrapKey =>
    simp only [perform]
    split
    · exact distinct_addObject distinct _
    · exact distinct
  case deriveKey => exact distinct_derive distinct _ _ _
  case copyObject =>
    simp only [perform]
    split
    · exact distinct
    · exact distinct_addObject distinct _
  case destroyObject =>
    simp only [perform]
    split
    · exact Table.nodup_retain distinct _
    · exact distinct
  case getAttributeValue =>
    simp only [perform]
    split <;> exact distinct
  case setAttributeValue =>
    simp only [perform]
    split
    · exact distinct
    · exact Table.nodup_insert distinct _ _
  case generateRandom | seedRandom => exact distinct

theorem distinct_unbound (unbound : q.function.subject? = none) (distinct : t.Distinct) :
    (perform q t).2.Distinct := by
  cases q <;> cases unbound
  case openSession slot flags =>
    rw [Distinct, perform, objects_openSession]
    exact distinct
  case closeSession => exact distinct

theorem distinct_perform (distinct : t.Distinct) (q : Request shape) :
    (perform q t).2.Distinct := by
  cases subject : q.function.subject? with
  | none => exact distinct_unbound subject distinct
  | some kind =>
    cases kind with
    | none => exact distinct_apart subject distinct
    | some k =>
      rw [Distinct, objects_of_operation subject]
      exact distinct

theorem distinct_answer (distinct : t.Distinct) (q : Request shape) : (t.answer q).2.Distinct := by
  unfold answer
  split
  · exact distinct_perform distinct q
  · rename_i h _
    have entered : (t.enter q.function h).1.Distinct := by
      rw [Distinct, objects_enter]
      exact distinct
    rcases came : t.enter q.function h with ⟨t', _ | rv⟩
    · rw [came] at entered
      exact distinct_perform entered q
    · rw [came] at entered
      exact entered

end Token

namespace Bench

variable {b : Bench}

theorem distinct_openSession (distinct : b.host.state.Distinct) (slot flags : UInt64) :
    (b.step (.openSession slot flags)).host.state.Distinct := by
  have opened : (Session.openOn Token.module slot flags b.host).2.state.Distinct := by
    rw [Session.openOn_state]
    split
    · exact distinct
    · exact Token.distinct_answer distinct (.openSession slot flags)
  simp only [step]
  split
  · rename_i came
    rwa [came] at opened
  · rename_i came
    rwa [came] at opened

theorem distinct_step (distinct : b.host.state.Distinct) (e : Event) :
    (b.step e).host.state.Distinct := by
  cases e with
  | openSession slot flags => exact distinct_openSession distinct slot flags
  | call h c =>
    cases found : b.desks.get? h with
    | none =>
      simp only [step, found]
      exact distinct
    | some d =>
      have keeps : SessionM.Keeps d.session.handle Token.Distinct (fun _ => True)
          (Session.perform Token.module c) :=
        Session.keeps_perform (fun _ _ => trivial) c fun q _ t distinct =>
          ⟨Token.distinct_answer distinct q, fun _ _ => trivial⟩
      simp only [step, found]
      exact (keeps d.session b.host.state rfl distinct b.host.journal).2.1
  | close h =>
    cases found : b.desks.get? h with
    | none =>
      simp only [step, found]
      exact distinct
    | some d =>
      simp only [step, found]
      exact Token.distinct_answer distinct (.closeSession d.session.handle)
  | drop h =>
    cases found : b.desks.get? h with
    | none =>
      simp only [step, found]
      exact distinct
    | some d =>
      simp only [step, found, Session.drop_state]
      exact Token.distinct_answer distinct (.closeSession d.session.handle)
  | failAfter f skip rv => exact distinct
  | addObject o => exact Token.distinct_addObject distinct o

theorem distinct_run (events : List Event) : (new.run events).host.state.Distinct := by
  have steps : ∀ (events : List Event) (b : Bench), b.host.state.Distinct →
      (b.run events).host.state.Distinct := by
    intro events
    induction events with
    | nil => exact fun b distinct => distinct
    | cons e rest ih => exact fun b distinct => ih (b.step e) (distinct_step distinct e)
  exact steps events new List.nodup_nil

end Bench

end Cryptoki
