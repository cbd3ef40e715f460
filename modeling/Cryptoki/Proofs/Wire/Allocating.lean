import Cryptoki.Proofs.Wire.Answering
import Cryptoki.Proofs.Wire.Store

/-!
How stores are made and how they get storage: each stands for the array that the same steps make
of entries with their storage, and what was assigned before stays. Storage is made once.
-/
namespace Cryptoki.Wire

namespace Store

variable {r : Registry} {s s' t : Store} {i : Nat}

theorem sound_new : new.Sound := by
  refine .intro ⟨rfl, rfl, fun i slot found => ?_, fun i j slot found => ?_⟩ fun t member => ?_
  · cases found
  · cases found
  · cases member

theorem array_new : new.array = [] := rfl

theorem Sound.pushEmpty (sound : s.Sound) (type : Code) (sensitive : Bool) :
    (s.pushEmpty type sensitive).Sound := by
  obtain ⟨here, inside⟩ := sound
  -- A slot that is assigned is one of those before.
  have before : ∀ (i : Nat) (slot : Slot), (s.slots ++ [.empty])[i]? = some slot →
      slot ≠ .empty → s.slots[i]? = some slot := by
    intro i slot found assigned
    rw [List.getElem?_append] at found
    split at found
    · exact found
    · have last := List.mem_singleton.mp (List.mem_of_getElem? found)
      exact absurd last assigned
  refine .intro ⟨?_, ?_, fun i slot found => ?_, fun i j slot found found' assigned => ?_⟩ inside
  · simp [Store.pushEmpty, here.slots_length]
  · simp [Store.pushEmpty, here.sensitive_length]
  · by_cases assigned : slot = .empty
    · subst assigned
      trivial
    · have old := here.in_range i slot (before i slot found assigned)
      cases slot <;> exact old
  · exact here.unshared i j slot (before i slot found assigned) (before j slot found' assigned)
      assigned

theorem array_pushEmpty (here : s.Consistent) (type : Code) (sensitive : Bool) :
    (s.pushEmpty type sensitive).array = s.array ++ [.blank type sensitive] := by
  rw [array_eq_map, array_eq_map, Store.pushEmpty,
    List.zip_append (by rw [here.slots_length, here.sensitive_length]),
    List.zip_append (by simp [here.slots_length, here.sensitive_length]), List.map_append]
  rfl

theorem pushBytes_eq (here : s.Consistent) (type : Code) (sensitive : Bool) (value : Bytes) :
    s.pushBytes type sensitive value =
      ((s.pushEmpty type sensitive).assignBuffer s.faces.length value).updateFace s.faces.length
        fun _ => ⟨type, some value.length, if value.isEmpty then .null else .own⟩ := by
  have last := modify_append s.faces []
  simp only [pushBytes, pushEmpty, assignBuffer, updateFace, last]
  rw [← here.slots_length, List.set_append_right _ _ (Nat.le_refl _), Nat.sub_self]
  rfl

theorem pushNested_eq (here : s.Consistent) (type : Code) (sensitive : Bool) (t : Store) :
    s.pushNested type sensitive t =
      ((s.pushEmpty type sensitive).assignNested s.faces.length t).updateFace s.faces.length
        fun _ => ⟨type, some (entrySize * t.faces.length),
          if t.faces.isEmpty then .null else .own⟩ := by
  have last := modify_append s.faces []
  simp only [pushNested, pushEmpty, assignNested, updateFace, last]
  rw [← here.slots_length, List.set_append_right _ _ (Nat.le_refl _), Nat.sub_self]
  rfl

theorem vacant_pushEmpty (here : s.Consistent) (type : Code) (sensitive : Bool) :
    (s.pushEmpty type sensitive).slots[s.faces.length]? = some .empty := by
  simp [pushEmpty, ← here.slots_length]

theorem Sound.pushBytes (sound : s.Sound) (type : Code) (sensitive : Bool) (value : Bytes) :
    (s.pushBytes type sensitive value).Sound := by
  rw [pushBytes_eq sound.here]
  exact ((sound.pushEmpty type sensitive).assignBuffer
    (vacant_pushEmpty sound.here type sensitive) value).updateFace _ _

theorem Sound.pushNested (sound : s.Sound) (inner : t.Sound) (type : Code) (sensitive : Bool) :
    (s.pushNested type sensitive t).Sound := by
  rw [pushNested_eq sound.here]
  exact ((sound.pushEmpty type sensitive).assignNested
    (vacant_pushEmpty sound.here type sensitive) inner).updateFace _ _

theorem array_pushBytes (sound : s.Sound) (type : Code) (sensitive : Bool) (value : Bytes) :
    (s.pushBytes type sensitive value).array = s.array ++
      [.buffer ⟨type, some value.length, if value.isEmpty then .null else .own, sensitive⟩
        value] := by
  have here := sound.here
  have pushed := sound.pushEmpty type sensitive
  have vacant := vacant_pushEmpty here type sensitive
  rw [pushBytes_eq here, array_updateFace (pushed.assignBuffer vacant value).here,
    array_assignBuffer pushed.here vacant, array_pushEmpty here, ← length_array here,
    modify_append, modify_append]
  rfl

theorem array_pushNested (sound : s.Sound) (inner : t.Sound) (type : Code) (sensitive : Bool) :
    (s.pushNested type sensitive t).array = s.array ++
      [.nested ⟨type, some (entrySize * t.array.length),
        if t.array.isEmpty then .null else .own, sensitive⟩ t.array] := by
  have here := sound.here
  have pushed := sound.pushEmpty type sensitive
  have vacant := vacant_pushEmpty here type sensitive
  have size : t.array.isEmpty = t.faces.isEmpty := by
    rw [Bool.eq_iff_iff, List.isEmpty_iff_length_eq_zero, List.isEmpty_iff_length_eq_zero,
      length_array inner.here]
  rw [pushNested_eq here, array_updateFace (pushed.assignNested vacant inner).here,
    array_assignNested pushed.here vacant, array_pushEmpty here, size, length_array inner.here,
    ← length_array here, modify_append, modify_append]
  rfl

def Gains (s s' : Store) (more : List Entry) : Prop := s'.Sound ∧ s'.array = s.array ++ more

theorem gains_pushAll_of_forall {as : List Attribute}
    (each : ∀ a ∈ as, ∀ s : Store, s.Sound → s.Gains (s.push a) (ofAttribute a)) :
    ∀ s : Store, s.Sound → s.Gains (s.pushAll as) (ofAttributes as) := by
  induction as with
  | nil =>
    intro s sound
    exact ⟨sound, (List.append_nil _).symm⟩
  | cons a rest ih =>
    intro s sound
    obtain ⟨sound', array⟩ := each a List.mem_cons_self s sound
    obtain ⟨sound'', array'⟩ :=
      ih (fun a member => each a (List.mem_cons_of_mem _ member)) (s.push a) sound'
    refine ⟨sound'', ?_⟩
    rw [pushAll, array', array, ofAttributes, List.append_assoc]

theorem gains_push (a : Attribute) : ∀ s : Store, s.Sound → s.Gains (s.push a) (ofAttribute a) := by
  induction a using Attribute.nested_induction with
  | absent type sensitive =>
    intro s sound
    exact ⟨sound, (List.append_nil _).symm⟩
  | scalar type sensitive value =>
    intro s sound
    exact ⟨sound.pushBytes type sensitive _, array_pushBytes sound type sensitive _⟩
  | template type sensitive members ih =>
    intro s sound
    obtain ⟨inner, array⟩ := gains_pushAll_of_forall ih new sound_new
    rw [array_new, List.nil_append] at array
    refine ⟨sound.pushNested inner type sensitive, ?_⟩
    rw [push, array_pushNested sound inner, array]
    rfl

theorem gains_ofTemplate (t : Template) : new.Gains (ofTemplate t) t.toArray :=
  gains_pushAll_of_forall (fun a _ => gains_push a) new sound_new

theorem gains_foldl_pushEmpty (flag : Code → Bool) (types : List Code) :
    ∀ s : Store, s.Sound → s.Gains (types.foldl (fun s t => s.pushEmpty t (flag t)) s)
      (types.map fun t => .blank t (flag t)) := by
  induction types with
  | nil =>
    intro s sound
    exact ⟨sound, (List.append_nil _).symm⟩
  | cons type rest ih =>
    intro s sound
    obtain ⟨sound', array⟩ := ih _ (sound.pushEmpty type (flag type))
    refine ⟨sound', ?_⟩
    rw [List.foldl_cons, array, array_pushEmpty sound.here, List.append_assoc]
    rfl

theorem gains_query (types : List Code) : new.Gains (query types) (Wire.query types) :=
  gains_foldl_pushEmpty _ types new sound_new

theorem gains_blank (count : Nat) :
    new.Gains (blank count) (List.replicate count (.blank 0 false)) := by
  induction count with
  | zero => exact ⟨sound_new, rfl⟩
  | succ count ih =>
    obtain ⟨sound, array⟩ := ih
    refine ⟨sound.pushEmpty 0 false, ?_⟩
    rw [blank, Nat.repeat, ← blank, array_pushEmpty sound.here, array, List.replicate_succ']
    rfl

/-- What comes after a store: it is sound, keeps what the store has assigned, and stands for the
array. -/
structure Follows (s s' : Store) (expected : List Entry) : Prop where
  sound : s'.Sound
  extended : s.Extends s'
  array : s'.array = expected

theorem Sound.follows (sound : s.Sound) : s.Follows s s.array := ⟨sound, .refl s, rfl⟩

theorem Follows.trans {s₁ s₂ s₃ : Store} {es es' : List Entry} (first : s₁.Follows s₂ es)
    (second : s₂.Follows s₃ es') : s₁.Follows s₃ es' :=
  ⟨second.sound, first.extended.trans second.extended, second.array⟩

def Yields (s : Store) (outcome : Option (Store × Result Bool))
    (expected : List Entry × Result Bool) : Prop :=
  ∃ s', outcome = some (s', expected.2) ∧ s.Follows s' expected.1

theorem modify_congr {es : List Entry} {e : Entry} (found : es[i]? = some e)
    (change change' : Entry → Entry) (same : change e = change' e) :
    es.modify i change = es.modify i change' := by
  refine List.ext_getElem? fun j => ?_
  rw [List.getElem?_modify, List.getElem?_modify]
  by_cases here : i = j
  · subst here
    simp [found, same]
  · simp [here]

theorem modify_self {es : List Entry} {e : Entry} (found : es[i]? = some e)
    {change : Entry → Entry} (same : change e = e) : es.modify i change = es :=
  (modify_congr found change id same).trans (List.modify_id _ _)

theorem yields_of_entry {e e' : Entry} (found : s.array[i]? = some e) {made : Result Bool}
    (due : e.allocate r = (e', made)) (follows : s.Follows s' (s.array.modify i fun _ => e')) :
    s.Yields (some (s', made))
      (s.array.modify i fun e => (e.allocate r).1, (e.allocate r).2) := by
  refine ⟨s', by rw [due], follows.sound, follows.extended, ?_⟩
  rw [follows.array]
  exact modify_congr found _ _ (by rw [due])

theorem yields_untouched {e : Entry} (found : s.array[i]? = some e) {made : Result Bool}
    (due : e.allocate r = (e, made)) (sound : s.Sound) :
    s.Yields (some (s, made))
      (s.array.modify i fun e => (e.allocate r).1, (e.allocate r).2) :=
  yields_of_entry found due ⟨sound, .refl s, (modify_self found rfl).symm⟩

theorem follows_assignBuffer (sound : s.Sound) (vacant : s.slots[i]? = some .empty) (new : Bytes) :
    s.Follows (s.assignBuffer i new)
      (s.array.modify i fun e => .buffer { e.head with pointer := .own } new) where
  sound := sound.assignBuffer vacant new
  extended := (assigns_assignBuffer sound.here vacant new).extended
  array := array_assignBuffer sound.here vacant new

theorem follows_assignNested (sound : s.Sound) (vacant : s.slots[i]? = some .empty)
    (new : t.Sound) : s.Follows (s.assignNested i t)
      (s.array.modify i fun e => .nested { e.head with pointer := .own } t.array) where
  sound := sound.assignNested vacant new
  extended := (assigns_assignNested sound.here vacant t).extended
  array := array_assignNested sound.here vacant t

theorem yields_furnish (sound : s.Sound) (vacant : s.slots[i]? = some .empty) {h : Head}
    (found : s.array[i]? = some (.empty h)) :
    s.Yields (some (furnish r s i h.face))
      (s.array.modify i fun e => (e.allocate r).1, (Entry.allocate r (.empty h)).2) := by
  have length : h.face.length = h.length := rfl
  have type : h.face.type = h.type := rfl
  rw [furnish, length, type]
  split
  · rename_i absent
    exact yields_untouched found (by simp [Entry.allocate, absent]) sound
  · rename_i zero
    exact yields_untouched found (by simp [Entry.allocate, zero]) sound
  · rename_i n _ length
    by_cases kind : r.kind h.type = .template
    · rw [if_pos kind]
      cases counted : nestedCount r h.type n with
      | error x =>
        exact yields_untouched found (by simp [Entry.allocate, length, kind, counted]) sound
      | ok count =>
        obtain ⟨inner, array⟩ := gains_blank count
        have follows := follows_assignNested sound vacant inner
        rw [array, array_new, List.nil_append,
          modify_congr found _ (fun _ => .nested { h with pointer := .own } _) rfl]
          at follows
        exact yields_of_entry found (by simp [Entry.allocate, length, kind, counted]) follows
    · rw [if_neg kind]
      have follows := follows_assignBuffer sound vacant (List.replicate n 0)
      rw [modify_congr found _ (fun _ => .buffer { h with pointer := .own } _) rfl]
        at follows
      exact yields_of_entry found (by simp [Entry.allocate, length, kind]) follows

def Allots (r : Registry) (inner : Store → Option (Store × Result Bool)) (e : Entry) : Prop :=
  ∀ (s : Store) (i : Nat), s.Sound → s.array[i]? = some e →
    s.Yields (s.allocateEntry r inner i)
      (s.array.modify i fun e => (e.allocate r).1, (e.allocate r).2)

theorem yields_allocateEach {inner : Store → Option (Store × Result Bool)} {rest : List Entry}
    (each : ∀ e ∈ rest, Allots r inner e) :
    ∀ (s : Store) (before : List Entry), s.Sound → s.array = before ++ rest →
      s.Yields (s.allocateEach r inner (List.range' before.length rest.length))
        (before ++ (Wire.allocate r rest).1, (Wire.allocate r rest).2) := by
  induction rest with
  | nil =>
    intro s before sound array
    rw [List.length_nil, List.range'_zero, allocateEach, Wire.allocate, ← array]
    exact ⟨s, rfl, sound.follows⟩
  | cons e rest ih =>
    intro s before sound array
    have found : s.array[before.length]? = some e := by simp [array]
    obtain ⟨s', outcome, follows⟩ := each e List.mem_cons_self s before.length sound found
    simp only [array, modify_append] at follows
    rw [List.length_cons, List.range'_succ, allocateEach, outcome, Wire.allocate]
    rcases due : e.allocate r with ⟨e', x | made⟩
    · rw [due] at follows
      exact ⟨s', rfl, follows⟩
    · -- What is left of the array is as it was, so the rest goes on from the changed store.
      rw [due, List.append_cons] at follows
      obtain ⟨s'', outcome', follows'⟩ :=
        ih (fun e member => each e (List.mem_cons_of_mem _ member)) s' (before ++ [e'])
          follows.sound follows.array
      rw [List.length_append, List.length_singleton] at outcome'
      rw [List.append_assoc] at follows'
      refine ⟨s'', ?_, follows.trans follows'⟩
      simp only [Option.bind_eq_bind, Option.bind_some, outcome']
      rfl

theorem yields_of_entries {inner : Store → Option (Store × Result Bool)} (sound : s.Sound)
    (each : ∀ e ∈ s.array, Allots r inner e) :
    s.Yields (s.allocateEach r inner (List.range s.faces.length)) (Wire.allocate r s.array) := by
  have all := yields_allocateEach each s [] sound rfl
  rw [List.range_eq_range', ← length_array sound.here]
  exact all

end Store

inductive Entry.Within : Nat → Entry → Prop where
  | empty (levels : Nat) (h : Head) : Within levels (.empty h)
  | buffer (levels : Nat) (h : Head) (b : Bytes) : Within levels (.buffer h b)
  | nested {levels : Nat} (h : Head) {entries : List Entry}
    (inside : ∀ e ∈ entries, Within levels e) : Within (levels + 1) (.nested h entries)

namespace Store

variable {r : Registry} {s t : Store} {n : Nat}

theorem depth_le_of_mem {stores : List Store} (member : t ∈ stores) :
    t.depth ≤ depthOfAll stores := by
  induction stores with
  | nil => cases member
  | cons u rest ih =>
    rw [depthOfAll]
    rcases List.mem_cons.mp member with rfl | later
    · exact Nat.le_max_left _ _
    · exact Nat.le_trans (ih later) (Nat.le_max_right _ _)

theorem depth_lt (found : s.nested[n]? = some t) : t.depth < s.depth := by
  have inside := depth_le_of_mem (List.mem_of_getElem? found)
  cases s
  exact Nat.lt_succ_of_le inside

theorem depth_pos (s : Store) : 0 < s.depth := by
  cases s
  exact Nat.succ_pos _

theorem within_of_depth (sound : s.Sound) : ∀ levels, s.depth ≤ levels + 1 →
    ∀ e ∈ s.array, e.Within levels := by
  induction sound with
  | @intro s here inside ih =>
    intro levels room e member
    obtain ⟨i, found⟩ := List.mem_iff_getElem?.mp member
    cases e with
    | empty h => exact .empty levels h
    | buffer h old => exact .buffer levels h old
    | nested h entries =>
      obtain ⟨n, t, _, there, rfl⟩ := slot_of_nested here found
      have deeper := depth_lt there
      have positive := depth_pos t
      obtain ⟨less, rfl⟩ : ∃ less, levels = less + 1 := ⟨levels - 1, by omega⟩
      exact .nested h (ih t (List.mem_of_getElem? there) less (by omega))

theorem allots_of_within {e : Entry} {levels : Nat} (within : e.Within levels) :
    Allots r (allocateWithin r levels) e := by
  induction within with
  | empty levels h =>
    intro s i sound found
    have vacant := slot_of_empty found
    rw [allocateEntry, vacant, (face_of_getElem? found).1]
    exact yields_furnish sound vacant found
  | buffer levels h old =>
    intro s i sound found
    obtain ⟨b, slot, _⟩ := slot_of_buffer sound.here found
    rw [allocateEntry, slot]
    exact yields_untouched found rfl sound
  | nested h _ ih =>
    intro s i sound found
    obtain ⟨n, t, slot, inside, rfl⟩ := slot_of_nested sound.here found
    obtain ⟨t', outcome, follows⟩ := yields_of_entries (sound.inside inside) ih
    have same : ∀ u, s.nested[n]? = some u → u = t := fun u there =>
      Option.some.inj (there.symm.trans inside)
    rw [allocateEntry, slot]
    simp only [Option.bind_eq_bind, Option.bind_some, inside, allocateWithin, outcome,
      List.set_eq_modify]
    refine yields_of_entry found rfl ⟨?_, ?_, ?_⟩
    · exact sound.modifyNested fun _ _ => follows.sound
    · exact extends_modifyNested fun u there => same u there ▸ follows.extended
    · rw [array_modifyNested sound.here slot id (fun _ => (Wire.allocate r t.array).1)
        fun _ _ => follows.array]
      exact modify_congr found _ _ rfl

theorem yields_allocate (sound : s.Sound) :
    s.Yields (s.allocate r) (Wire.allocate r s.array) :=
  yields_of_entries sound fun e member =>
    allots_of_within (within_of_depth sound s.depth (Nat.le_succ _) e member)

end Store

inductive Entry.Furnished : Entry → Prop where
  | empty {h : Head} (nothing : h.length = none ∨ h.length = some 0) : Furnished (.empty h)
  | buffer (h : Head) (b : Bytes) : Furnished (.buffer h b)
  | nested (h : Head) {entries : List Entry} (inside : ∀ e ∈ entries, Furnished e) :
    Furnished (.nested h entries)

theorem furnished_allocateAll {r : Registry} {entries : List Entry}
    (each : ∀ e ∈ entries, ∀ made, (e.allocate r).2 = .ok made → (e.allocate r).1.Furnished) :
    ∀ made, (allocate r entries).2 = .ok made →
      ∀ e ∈ (allocate r entries).1, e.Furnished := by
  induction entries with
  | nil =>
    intro made _ e member
    cases member
  | cons first rest ih =>
    have one := each first List.mem_cons_self
    have others := ih fun e member => each e (List.mem_cons_of_mem first member)
    intro made done e member
    rw [allocate] at done member
    rcases due : first.allocate r with ⟨first', x | made'⟩
    · rw [due] at done
      cases done
    · rw [due] at done member one
      obtain ⟨made'', done, _⟩ := Result.map_eq_ok.mp done
      rcases List.mem_cons.mp member with rfl | later
      · exact one made' rfl
      · exact others made'' done e later

theorem furnished_allocate {r : Registry} (e : Entry) :
    ∀ made, (e.allocate r).2 = .ok made → (e.allocate r).1.Furnished := by
  induction e using Entry.nested_induction with
  | empty h =>
    intro made done
    unfold Entry.allocate at done ⊢
    split at done
    · rename_i absent
      exact .empty (.inl absent)
    · rename_i zero
      exact .empty (.inr zero)
    · rename_i n _ _
      by_cases kind : r.kind h.type = .template
      · rw [if_pos kind] at done ⊢
        cases counted : nestedCount r h.type n with
        | error x =>
          rw [counted] at done
          cases done
        | ok count =>
          refine .nested _ fun e member => ?_
          obtain ⟨_, rfl⟩ := List.mem_replicate.mp member
          exact .empty (.inr rfl)
      · rw [if_neg kind]
        exact .buffer _ _
  | buffer h b =>
    intro made _
    exact .buffer h b
  | nested h entries ih =>
    intro made done
    exact .nested h (furnished_allocateAll ih made done)

namespace Store

variable {r : Registry} {s t : Store} {n : Nat}

theorem allocateEach_of_idle {inner : Store → Option (Store × Result Bool)} {indices : List Nat}
    (idle : ∀ i ∈ indices, s.allocateEntry r inner i = some (s, .ok false)) :
    s.allocateEach r inner indices = some (s, .ok false) := by
  induction indices with
  | nil => rw [allocateEach]
  | cons i rest ih =>
    rw [allocateEach, idle i List.mem_cons_self]
    simp only [Option.bind_eq_bind, Option.bind_some,
      ih fun i member => idle i (List.mem_cons_of_mem _ member)]
    rfl

theorem allocateWithin_of_idle (here : s.Consistent) {levels : Nat}
    (idle : ∀ i e, s.array[i]? = some e →
      s.allocateEntry r (allocateWithin r levels) i = some (s, .ok false)) :
    s.allocateWithin r (levels + 1) = some (s, .ok false) := by
  rw [allocateWithin, ← length_array here]
  exact allocateEach_of_idle fun i member =>
    idle i _ (List.getElem?_eq_getElem (List.mem_range.mp member))

theorem setNested_self (found : s.nested[n]? = some t) :
    { s with nested := s.nested.set n t } = s := by
  obtain ⟨lower, rfl⟩ := List.getElem?_eq_some_iff.mp found
  rw [List.set_getElem_self lower]
  cases s
  rfl

theorem allocateEntry_of_furnished {e : Entry} {levels : Nat} (within : e.Within levels)
    (furnished : e.Furnished) : ∀ (s : Store) (i : Nat), s.Sound → s.array[i]? = some e →
      s.allocateEntry r (allocateWithin r levels) i = some (s, .ok false) := by
  induction within with
  | empty levels h =>
    intro s i sound found
    obtain ⟨nothing⟩ := furnished
    rw [allocateEntry, slot_of_empty found, (face_of_getElem? found).1]
    have length : (h.face.length = none ∨ h.face.length = some 0) := nothing
    rcases length with absent | zero
    · simp [furnish, absent, Entry.head]
    · simp [furnish, zero, Entry.head]
  | buffer levels h old =>
    intro s i sound found
    obtain ⟨b, slot, _⟩ := slot_of_buffer sound.here found
    rw [allocateEntry, slot]
    rfl
  | nested h _ ih =>
    intro s i sound found
    obtain ⟨n, t, slot, inside, rfl⟩ := slot_of_nested sound.here found
    have inner := sound.inside inside
    have members : ∀ e ∈ t.array, e.Furnished := by
      cases furnished with
      | nested _ members => exact members
    have idle := allocateWithin_of_idle (r := r) inner.here fun j e there =>
      have member := List.mem_of_getElem? there
      ih e member (members e member) t j inner there
    rw [allocateEntry, slot]
    simp only [Option.bind_eq_bind, Option.bind_some, inside, idle, setNested_self inside]
    rfl

theorem allocate_of_furnished (sound : s.Sound) (furnished : ∀ e ∈ s.array, e.Furnished) :
    s.allocate r = some (s, .ok false) :=
  allocateWithin_of_idle sound.here fun i e found =>
    have member := List.mem_of_getElem? found
    allocateEntry_of_furnished (within_of_depth sound s.depth (Nat.le_succ _) e member)
      (furnished e member) s i sound found

end Store

end Cryptoki.Wire
