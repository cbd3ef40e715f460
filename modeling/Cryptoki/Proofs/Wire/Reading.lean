import Cryptoki.Proofs.Attribute.Bare
import Cryptoki.Proofs.Wire.Passes

/-!
What is decoded of an array that was filled, as a whole and for each type.
-/
namespace Cryptoki.Wire.Stored

variable {r : Registry}

theorem toAttributes_entries_of_forall {vs : List Stored} (flag : Stored → Bool)
    (each : ∀ v ∈ vs, Attribute.bare <$> (v.entry (flag v)).toAttribute r = v.read r) :
    List.map Attribute.bare <$> toAttributes r (vs.map fun v => v.entry (flag v)) =
      readAll r vs := by
  induction vs with
  | nil => rfl
  | cons v rest ih =>
    have others := ih fun w member => each w (List.mem_cons_of_mem v member)
    rw [readAll, ← each v List.mem_cons_self, ← others, List.map_cons, toAttributes]
    cases (v.entry (flag v)).toAttribute r with
    | error e => rfl
    | ok a => cases toAttributes r (rest.map fun v => v.entry (flag v)) <;> rfl

theorem bare_flagged_decode (h : Head) (b : Bytes) :
    Attribute.bare <$> (flagged h <$> Attribute.decode r h.type b) =
      .scalar h.type false <$> Scalar.decode (r.kind h.type) b := by
  rw [bare_map_flagged]
  unfold Attribute.decode
  cases Scalar.decode (r.kind h.type) b <;> rfl

theorem toAttribute_entry {v : Stored} (fits : v.Fits r) (sensitive : Bool) :
    Attribute.bare <$> (v.entry sensitive).toAttribute r = v.read r := by
  induction v using nested_induction generalizing sensitive with
  | withheld t => rfl
  | bytes t b =>
    have flat : r.kind t ≠ .template := fits.1
    by_cases empty : b = []
    · subst empty
      have decoded := bare_flagged_decode (r := r) ⟨t, some 0, .null, sensitive⟩ []
      simpa [entry, Entry.blank, Entry.toAttribute, flat, read] using decoded
    · have decoded := bare_flagged_decode (r := r) ⟨t, some b.length, .own, sensitive⟩ b
      simpa [entry_bytes empty, Entry.toAttribute, read] using decoded
  | members t ms ih =>
    have nested : r.kind t = .template := fits.1
    have inner := toAttributes_entries_of_forall (fun _ => false) fun v member =>
      ih v member (fitsAll_iff.mp fits.2.2 v member) false
    by_cases empty : ms = []
    · subst empty
      simp [entry, Entry.blank, Entry.toAttribute, nested, read, readAll, Attribute.bare_flagged,
        bare_nestedAttribute]
      rfl
    · rw [entry_members empty, entries_eq_map, Entry.toAttribute, read, ← inner]
      simp only [nestedCount_mul, Result.ok_bind]
      cases decoded : toAttributes r (ms.map (entry false)) with
      | error e => simp
      | ok as =>
        have whole : (collect as).attributes.take ms.length = (collect as).attributes := by
          refine List.take_of_length_le (Nat.le_trans (length_collect_le as) ?_)
          rw [length_of_toAttributes decoded, List.length_map]
        simp [Attribute.bare_flagged, bare_nestedAttribute, whole, ← bare_collect]

theorem ofArrayUnder_arrayOf {vs : List Stored} (fits : ∀ v ∈ vs, v.Fits r) (depth : Nat) :
    Template.bare <$> Template.ofArrayUnder r (arrayOf r depth vs) =
      collect <$> readAll r (vs.map (seen depth)) := by
  have each : ∀ v ∈ vs.map (seen depth),
      Attribute.bare <$> (v.entry (r.isSensitive v.type)).toAttribute r = v.read r := by
    intro v member
    obtain ⟨w, there, rfl⟩ := List.mem_map.mp member
    exact toAttribute_entry (fits_seen (fits w there) depth) _
  have decoded := toAttributes_entries_of_forall (fun v => r.isSensitive v.type) each
  rw [List.map_map] at decoded
  have same : (vs.map ((fun v => v.entry (r.isSensitive v.type)) ∘ seen depth)) =
      arrayOf r depth vs := by
    refine List.map_congr_left fun v _ => ?_
    rw [Function.comp_apply, seen_type]
  rw [← decoded, same, Template.ofArrayUnder, bare_map_collect]

theorem type_of_read {v : Stored} {a : Attribute} (done : v.read r = .ok a) : a.type = v.type := by
  cases v with
  | withheld t =>
    cases done
    rfl
  | bytes t b =>
    obtain ⟨_, _, rfl⟩ := Result.map_eq_ok.mp done
    rfl
  | members t ms =>
    obtain ⟨_, _, last⟩ := Result.bind_eq_ok.mp done
    cases last
    rfl

theorem readAll_succeeds_iff {vs : List Stored} :
    (∃ as, readAll r vs = .ok as) ↔ ∀ v ∈ vs, ∃ a, v.read r = .ok a := by
  induction vs with
  | nil => exact ⟨fun _ v member => absurd member List.not_mem_nil, fun _ => ⟨[], rfl⟩⟩
  | cons v rest ih =>
    constructor
    · intro succeeds w member
      obtain ⟨as, done⟩ := succeeds
      obtain ⟨a, here, done⟩ := Result.bind_eq_ok.mp done
      obtain ⟨later, there, _⟩ := Result.bind_eq_ok.mp done
      rcases List.mem_cons.mp member with rfl | below
      · exact ⟨a, here⟩
      · exact ih.mp ⟨later, there⟩ w below
    · intro each
      obtain ⟨a, here⟩ := each v List.mem_cons_self
      obtain ⟨later, there⟩ := ih.mpr fun w member => each w (List.mem_cons_of_mem v member)
      exact ⟨a :: later, by rw [readAll, here, Result.ok_bind, there, Result.ok_bind]; rfl⟩

theorem typesOf_readAll {vs : List Stored} {as : List Attribute} (done : readAll r vs = .ok as) :
    Attribute.typesOf as = vs.map type := by
  induction vs generalizing as with
  | nil =>
    cases done
    rfl
  | cons v rest ih =>
    obtain ⟨a, here, done⟩ := Result.bind_eq_ok.mp done
    obtain ⟨later, there, last⟩ := Result.bind_eq_ok.mp done
    cases last
    simp only [List.map_cons, type_of_read here, ih there]

theorem mem_readAll {vs : List Stored} {as : List Attribute} (done : readAll r vs = .ok as)
    {a : Attribute} (member : a ∈ as) : ∃ v ∈ vs, v.read r = .ok a := by
  induction vs generalizing as with
  | nil =>
    cases done
    cases member
  | cons v rest ih =>
    obtain ⟨b, here, done⟩ := Result.bind_eq_ok.mp done
    obtain ⟨later, there, last⟩ := Result.bind_eq_ok.mp done
    cases last
    rcases List.mem_cons.mp member with rfl | below
    · exact ⟨v, List.mem_cons_self, here⟩
    · obtain ⟨w, inside, read⟩ := ih there below
      exact ⟨w, List.mem_cons_of_mem v inside, read⟩

theorem get?_foldl_insert {value : Code → Stored} (typed : ∀ type, (value type).type = type)
    {types : List Code} {as : List Attribute} (done : readAll r (types.map value) = .ok as)
    (start : Template) (type : Code) :
    (type ∈ types → ∃ a, (value type).read r = .ok a ∧
      (as.foldl Template.insert start).get? type = some a) ∧
    (type ∉ types → (as.foldl Template.insert start).get? type = start.get? type) := by
  induction types generalizing as start with
  | nil =>
    cases done
    exact ⟨fun member => absurd member List.not_mem_nil, fun _ => rfl⟩
  | cons first rest ih =>
    obtain ⟨a, here, done⟩ := Result.bind_eq_ok.mp done
    obtain ⟨later, there, last⟩ := Result.bind_eq_ok.mp done
    cases last
    have step := ih there (start.insert a)
    have inserted : (start.insert a).get? type =
        if first = type then some a else start.get? type := by
      have same : a.type = first := (type_of_read here).trans (typed first)
      simp only [Template.get?, Template.insert, find?_insertAttribute, same]
    rw [List.foldl_cons]
    by_cases again : type ∈ rest
    · exact ⟨fun _ => step.1 again, fun absent => absurd (List.mem_cons_of_mem _ again) absent⟩
    · rw [inserted] at step
      constructor
      · intro member
        obtain rfl := (List.mem_cons.mp member).resolve_right again
        exact ⟨a, here, by rw [step.2 again, if_pos rfl]⟩
      · intro absent
        rw [step.2 again, if_neg]
        exact fun same => absent (same ▸ List.mem_cons_self)

theorem collect_readAll_eq_iff {f g : Code → Stored} (typed_f : ∀ type, (f type).type = type)
    (typed_g : ∀ type, (g type).type = type) {types : List Code} {t : Template}
    (done : collect <$> readAll r (types.map f) = .ok t) :
    collect <$> readAll r (types.map f) = collect <$> readAll r (types.map g) ↔
      ∀ type ∈ types, (f type).read r = (g type).read r := by
  constructor
  · intro same type member
    obtain ⟨as, left, rfl⟩ := Result.map_eq_ok.mp done
    obtain ⟨bs, right, equal⟩ := Result.map_eq_ok.mp (same.symm.trans done)
    obtain ⟨a, found_a, get_a⟩ := (get?_foldl_insert typed_f left .empty type).1 member
    obtain ⟨b, found_b, get_b⟩ := (get?_foldl_insert typed_g right .empty type).1 member
    change (collect as).get? type = some a at get_a
    change (collect bs).get? type = some b at get_b
    rw [equal, get_a] at get_b
    cases get_b
    exact found_a.trans found_b.symm
  · intro each
    have lists : readAll r (types.map f) = readAll r (types.map g) := by
      clear done
      induction types with
      | nil => rfl
      | cons first rest ih =>
        have others := ih fun type member => each type (List.mem_cons_of_mem first member)
        simp only [List.map_cons, readAll, each first List.mem_cons_self, others]
    rw [lists]

end Cryptoki.Wire.Stored
