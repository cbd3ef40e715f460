import Cryptoki.Proofs.Wire.Exchanged
import Cryptoki.Proofs.Wire.Labels
import Cryptoki.Proofs.Wire.RoundTrip

/-!
What comes of entries that repeat types. In both ways of reading, and at every depth, each type is
once in the template: in the place in which it came first, and with the value that came last.
-/
namespace Cryptoki

open Attribute (typesOf)

namespace Attribute

mutual

/-- No template has two attributes of one type, and values that are no templates are of the
registered kind. -/
def Decent (r : Registry) : Attribute → Prop
  | .absent .. => True
  | .scalar t _ v => v.kind = r.kind t
  | .template _ _ members => (typesOf members).Nodup ∧ DecentAll r members

def DecentAll (r : Registry) : List Attribute → Prop
  | [] => True
  | a :: rest => a.Decent r ∧ DecentAll r rest

end

theorem decentAll_iff {r : Registry} {as : List Attribute} :
    DecentAll r as ↔ ∀ a ∈ as, a.Decent r := by
  induction as with
  | nil => simp [DecentAll]
  | cons a rest ih => simp [DecentAll, ih]

theorem decent_withSensitive {r : Registry} {a : Attribute} (decent : a.Decent r)
    (sensitive : Bool) : (a.withSensitive sensitive).Decent r := by
  cases a <;> exact decent

end Attribute

namespace Wire

variable {r : Registry}

def lastOf (type : Code) (entries : List Entry) : Option Entry :=
  entries.reverse.find? (·.head.type == type)

theorem get?_collect (as : List Attribute) (type : Code) :
    (collect as).get? type = as.reverse.find? (·.type == type) := by
  induction as using List.reverseRecOn with
  | nil => rfl
  | append_singleton as a ih =>
    have last : collect (as ++ [a]) = (collect as).insert a := by
      rw [collect, List.foldl_append]
      rfl
    have inserted : ((collect as).insert a).get? type =
        if a.type = type then some a else (collect as).get? type := find?_insertAttribute _ _ _
    rw [last, inserted, ih, List.reverse_append, List.reverse_singleton, List.singleton_append,
      List.find?_cons]
    by_cases here : a.type = type
    · simp [here]
    · simp only [if_neg here, beq_eq_false_iff_ne.mpr here]

theorem find?_of_forall₂ {R : Entry → Attribute → Prop}
    (typed : ∀ e a, R e a → a.type = e.head.type) {entries : List Entry} {as : List Attribute}
    (pairs : List.Forall₂ R entries as) {type : Code} {a : Attribute}
    (found : as.find? (·.type == type) = some a) :
    ∃ e, entries.find? (·.head.type == type) = some e ∧ R e a := by
  induction pairs with
  | nil => cases found
  | @cons e b _ _ pair _ ih =>
    rw [List.find?_cons, typed e b pair] at found
    rw [List.find?_cons]
    by_cases here : e.head.type = type
    · simp only [here, beq_self_eq_true, Option.some.injEq] at found
      subst found
      exact ⟨e, by simp [here], pair⟩
    · simp only [beq_eq_false_iff_ne.mpr here] at found ⊢
      exact ih found

theorem collected_from_last {R : Entry → Attribute → Prop}
    (typed : ∀ e a, R e a → a.type = e.head.type) {entries : List Entry} {as : List Attribute}
    (pairs : List.Forall₂ R entries as) {a : Attribute} (member : a ∈ (collect as).attributes) :
    ∃ e, lastOf a.type entries = some e ∧ R e a := by
  have found := Template.get?_of_mem (nodup_collect as) member
  rw [get?_collect] at found
  exact find?_of_forall₂ typed (List.forall₂_reverse_iff.mpr pairs) found

theorem types_of_forall₂ {R : Entry → Attribute → Prop}
    (typed : ∀ e a, R e a → a.type = e.head.type) {entries : List Entry} {as : List Attribute}
    (pairs : List.Forall₂ R entries as) : typesOf as = entries.map (·.head.type) := by
  induction pairs with
  | nil => rfl
  | cons pair _ ih =>
    rw [Attribute.typesOf, List.map_cons, List.map_cons, typed _ _ pair]
    exact congrArg _ ih

/-- A way of reading: the attribute that an entry stands for, the entries that are inside it, and
how many types of those are kept. -/
structure Reader where
  read : Entry → Result Attribute
  inside : Entry → List Entry
  kept : Entry → Nat

def byStorage (r : Registry) : Reader where
  read := Entry.toAttribute r
  inside
    | .nested _ entries => entries
    | _ => []
  kept e := e.head.lengthWord / entrySize

def byHeads (r : Registry) : Reader where
  read := Entry.toAttributeByHead r
  inside
    | .nested h entries => entries.take (h.lengthWord / entrySize)
    | .buffer h b => (ofImage b).take (h.lengthWord / entrySize)
    | .empty _ => []
  kept e := e.head.lengthWord / entrySize

end Wire

mutual

/-- The attribute is what the entry stands for. Inside it, and so on, the types are in the order in
which they came first, and each attribute is what the last entry of its type stands for. -/
def Attribute.Latest (w : Wire.Reader) : Attribute → Wire.Entry → Prop
  | .absent t s, e => w.read e = .ok (.absent t s)
  | .scalar t s v, e => w.read e = .ok (.scalar t s v)
  | .template t s members, e =>
    w.read e = .ok (.template t s members) ∧
      typesOf members = (((w.inside e).map (·.head.type)).eraseDups).take (w.kept e) ∧
      Attribute.LatestAll w members (w.inside e)

def Attribute.LatestAll (w : Wire.Reader) : List Attribute → List Wire.Entry → Prop
  | [], _ => True
  | a :: rest, entries =>
    (∃ e, Wire.lastOf a.type entries = some e ∧ a.Latest w e) ∧ Attribute.LatestAll w rest entries

end

namespace Wire

open Attribute (LatestAll DecentAll)

variable {r : Registry} {w : Reader}

theorem latestAll_iff {as : List Attribute} {entries : List Entry} :
    LatestAll w as entries ↔ ∀ a ∈ as, ∃ e, lastOf a.type entries = some e ∧ a.Latest w e := by
  induction as with
  | nil => simp [LatestAll]
  | cons a rest ih => simp [LatestAll, ih]

structure Comes (r : Registry) (w : Reader) (e : Entry) (a : Attribute) : Prop where
  type : a.type = e.head.type
  latest : a.Latest w e
  decent : a.Decent r

/-- What is collected from the entries, or the first of it. -/
structure Collected (r : Registry) (w : Reader) (entries : List Entry) (kept : Nat)
    (as : List Attribute) : Prop where
  types : typesOf as = ((entries.map (·.head.type)).eraseDups).take kept
  latest : LatestAll w as entries
  distinct : (typesOf as).Nodup
  decent : DecentAll r as

theorem collected_of_pairs {entries : List Entry} {as : List Attribute}
    (pairs : List.Forall₂ (Comes r w) entries as) (kept : Nat) :
    Collected r w entries kept ((collect as).attributes.take kept) where
  types := by
    rw [Attribute.typesOf, List.map_take]
    change (typesOf (collect as).attributes).take kept = _
    rw [typesOf_collect, types_of_forall₂ (fun _ _ comes => comes.type) pairs]
  latest := by
    refine latestAll_iff.mpr fun a member => ?_
    obtain ⟨e, last, comes⟩ :=
      collected_from_last (fun _ _ comes => comes.type) pairs (List.mem_of_mem_take member)
    exact ⟨e, last, comes.latest⟩
  distinct := ((List.take_sublist _ _).map _).nodup (nodup_collect as)
  decent := by
    refine Attribute.decentAll_iff.mpr fun a member => ?_
    obtain ⟨e, _, comes⟩ :=
      collected_from_last (fun _ _ comes => comes.type) pairs (List.mem_of_mem_take member)
    exact comes.decent

theorem collected_none (kept : Nat) : Collected r w [] kept [] := by
  simpa [collect, Template.empty] using collected_of_pairs (r := r) (w := w) .nil kept

theorem comes_template {e : Entry} {sensitive : Bool} {as : List Attribute}
    (read : w.read e = .ok (.template e.head.type sensitive as))
    (collected : Collected r w (w.inside e) (w.kept e) as) :
    Comes r w e (.template e.head.type sensitive as) where
  type := rfl
  latest := ⟨read, collected.types, collected.latest⟩
  decent := ⟨collected.distinct, collected.decent⟩

theorem flagged_scalar (h : Head) (type : Code) (sensitive : Bool) (v : Scalar) :
    ∃ s, flagged h (.scalar type sensitive v) = .scalar type s v := by
  unfold flagged
  split <;> exact ⟨_, rfl⟩

theorem comes_flagged_decode {e : Entry} {b : Bytes} {a : Attribute}
    (read : (byStorage r).read e = .ok a)
    (decoded : flagged e.head <$> Attribute.decode r e.head.type b = .ok a) :
    Comes r (byStorage r) e a := by
  obtain ⟨c, plain, rfl⟩ := Result.map_eq_ok.mp decoded
  obtain ⟨v, value, rfl⟩ := Result.map_eq_ok.mp plain
  obtain ⟨s, same⟩ := flagged_scalar e.head e.head.type (r.isSensitive e.head.type) v
  rw [same] at read ⊢
  exact ⟨rfl, read, Scalar.kind_of_decode value⟩

theorem pairs_of_toAttributes {R : Entry → Attribute → Prop} {entries : List Entry}
    {as : List Attribute} (each : ∀ e ∈ entries, ∀ a, e.toAttribute r = .ok a → R e a)
    (done : toAttributes r entries = .ok as) : List.Forall₂ R entries as := by
  induction entries generalizing as with
  | nil =>
    cases done
    exact .nil
  | cons e rest ih =>
    obtain ⟨a, here, done⟩ := Result.bind_eq_ok.mp done
    obtain ⟨later, there, last⟩ := Result.bind_eq_ok.mp done
    cases last
    exact .cons (each e List.mem_cons_self a here)
      (ih (fun f member => each f (List.mem_cons_of_mem e member)) there)

theorem comes_toAttribute (e : Entry) :
    ∀ a, e.toAttribute r = .ok a → Comes r (byStorage r) e a := by
  induction e using Entry.nested_induction with
  | empty h =>
    intro a read
    have whole : (byStorage r).read (.empty h) = .ok a := read
    cases length : h.length with
    | none =>
      simp only [Entry.toAttribute, length] at read
      cases read
      exact ⟨rfl, whole, trivial⟩
    | some n =>
      simp only [Entry.toAttribute, length] at read
      split at read
      · cases read
      · split at read
        · cases read
          rw [flagged_nestedAttribute (r := r)] at whole ⊢
          exact comes_template (e := .empty h) whole (collected_none _)
        · exact comes_flagged_decode whole read
  | buffer h b =>
    intro a read
    have whole : (byStorage r).read (.buffer h b) = .ok a := read
    cases length : h.length with
    | none =>
      simp only [Entry.toAttribute, length] at read
      cases read
      exact ⟨rfl, whole, trivial⟩
    | some n =>
      simp only [Entry.toAttribute, length] at read
      exact comes_flagged_decode whole read
  | nested h entries ih =>
    intro a read
    have whole : (byStorage r).read (.nested h entries) = .ok a := read
    cases length : h.length with
    | none =>
      simp only [Entry.toAttribute, length] at read
      cases read
      exact ⟨rfl, whole, trivial⟩
    | some n =>
      simp only [Entry.toAttribute, length] at read
      obtain ⟨count, counted, read⟩ := Result.bind_eq_ok.mp read
      obtain ⟨members, done, read⟩ := Result.bind_eq_ok.mp read
      cases read
      have kept : (byStorage r).kept (.nested h entries) = count := by
        have size := nestedCount_eq_ok counted
        simp [byStorage, Entry.head, Head.lengthWord, length, size, entrySize]
      rw [flagged_nestedAttribute (r := r)] at whole ⊢
      rw [← kept] at whole ⊢
      exact comes_template (e := .nested h entries) whole
        (collected_of_pairs (pairs_of_toAttributes ih done) _)

theorem comes_by_head {e : Entry} {members : Nat → Result (List Attribute)} {bytes : Bytes}
    (reads : (byHeads r).read e = e.head.toAttribute r members bytes)
    (inner : ∀ as, members ((byHeads r).kept e) = .ok as →
      List.Forall₂ (Comes r (byHeads r)) ((byHeads r).inside e) as)
    (fits : ((byHeads r).inside e).length ≤ (byHeads r).kept e) {a : Attribute}
    (read : (byHeads r).read e = .ok a) : Comes r (byHeads r) e a := by
  have whole := read
  rw [reads, Head.toAttribute] at read
  split at read
  · cases read
    exact ⟨rfl, whole, trivial⟩
  · rename_i n length
    split at read
    · cases read
    · split at read
      · obtain ⟨count, counted, read⟩ := Result.bind_eq_ok.mp read
        obtain ⟨as, done, read⟩ := Result.bind_eq_ok.mp read
        cases read
        have kept : (byHeads r).kept e = count := by
          have size := nestedCount_eq_ok counted
          simp [byHeads, Head.lengthWord, length, size, entrySize]
        have pairs := inner as (by rwa [kept])
        have all : (collect as).attributes.take ((byHeads r).kept e) = (collect as).attributes := by
          refine List.take_of_length_le ((length_collect_le as).trans ?_)
          rwa [← pairs.length_eq]
        have collected := collected_of_pairs pairs ((byHeads r).kept e)
        rw [all] at collected
        exact comes_template whole collected
      · obtain ⟨v, decoded, rfl⟩ := Result.map_eq_ok.mp read
        exact ⟨rfl, whole, Scalar.kind_of_decode decoded⟩

theorem comes_toFlatAttribute (h : Head) {a : Attribute} (read : h.toFlatAttribute r = .ok a) :
    Comes r (byHeads r) (.empty h) a := by
  refine comes_by_head (e := .empty h) rfl (fun as done => ?_) (Nat.zero_le _) read
  cases done
  exact .nil

theorem pairs_of_mapM {entries : List Entry} {as : List Attribute}
    (bare : ∀ e ∈ entries, e = .empty e.head)
    (done : entries.mapM (fun e => e.head.toFlatAttribute r) = .ok as) :
    List.Forall₂ (Comes r (byHeads r)) entries as := by
  induction entries generalizing as with
  | nil =>
    cases done
    exact .nil
  | cons e rest ih =>
    rw [List.mapM_cons] at done
    obtain ⟨a, here, done⟩ := Result.bind_eq_ok.mp done
    obtain ⟨later, there, last⟩ := Result.bind_eq_ok.mp done
    cases last
    have comes := comes_toFlatAttribute e.head here
    rw [← bare e List.mem_cons_self] at comes
    exact .cons comes (ih (fun f member => bare f (List.mem_cons_of_mem e member)) there)

theorem pairs_of_toAttributesByHead {R : Entry → Attribute → Prop} {entries : List Entry}
    {count : Nat} {as : List Attribute}
    (each : ∀ e ∈ entries, ∀ a, e.toAttributeByHead r = .ok a → R e a)
    (done : toAttributesByHead r entries count = .ok as) :
    List.Forall₂ R (entries.take count) as := by
  induction entries generalizing count as with
  | nil =>
    cases count <;> cases done <;> exact .nil
  | cons e rest ih =>
    cases count with
    | zero =>
      cases done
      exact .nil
    | succ count =>
      obtain ⟨a, here, done⟩ := Result.bind_eq_ok.mp done
      obtain ⟨later, there, last⟩ := Result.bind_eq_ok.mp done
      cases last
      exact .cons (each e List.mem_cons_self a here)
        (ih (fun f member => each f (List.mem_cons_of_mem e member)) there)

theorem comes_toAttributeByHead (e : Entry) :
    ∀ a, e.toAttributeByHead r = .ok a → Comes r (byHeads r) e a := by
  induction e using Entry.nested_induction with
  | empty h => exact fun a read => comes_toFlatAttribute h read
  | buffer h b =>
    intro a read
    refine comes_by_head (e := .buffer h b) rfl (fun as done => ?_) (List.length_take_le _ _) read
    refine pairs_of_mapM (fun e member => ?_) done
    obtain ⟨c, _, rfl⟩ := List.mem_map.mp (List.mem_of_mem_take member)
    rfl
  | nested h entries ih =>
    intro a read
    refine comes_by_head (e := .nested h entries) rfl (fun as done => ?_)
      (List.length_take_le _ _) read
    exact pairs_of_toAttributesByHead ih done

/-- Each type of the entries is in the template once, in the place in which it came first, with what
the last entry of the type stands for, and so on inside. -/
structure Reader.Gives (r : Registry) (w : Reader) (entries : List Entry) (t : Template) :
    Prop where
  types : t.types = (entries.map (·.head.type)).eraseDups
  latest : LatestAll w t.attributes entries
  distinct : t.types.Nodup
  decent : DecentAll r t.attributes

theorem gives_of_pairs {entries : List Entry} {as : List Attribute}
    (pairs : List.Forall₂ (Comes r w) entries as) : w.Gives r entries (collect as) := by
  have collected := collected_of_pairs pairs as.length
  rw [List.take_of_length_le (length_collect_le as)] at collected
  refine ⟨?_, collected.latest, collected.distinct, collected.decent⟩
  rw [← types_of_forall₂ (fun _ _ comes => comes.type) pairs]
  exact typesOf_collect as

theorem gives_ofArrayUnder {entries : List Entry} {t : Template}
    (read : Template.ofArrayUnder r entries = .ok t) : (byStorage r).Gives r entries t := by
  obtain ⟨as, done, rfl⟩ := Result.map_eq_ok.mp read
  exact gives_of_pairs (pairs_of_toAttributes (fun e _ => comes_toAttribute e) done)

theorem gives_ofHeadsUnder {entries : List Entry} {t : Template}
    (read : Template.ofHeadsUnder r entries = .ok t) : (byHeads r).Gives r entries t := by
  obtain ⟨as, done, rfl⟩ := Result.map_eq_ok.mp read
  have pairs := pairs_of_toAttributesByHead (fun e _ => comes_toAttributeByHead e) done
  rw [List.take_length] at pairs
  exact gives_of_pairs pairs

end Wire

end Cryptoki
