import Cryptoki.Proofs.Wire.Exchanged
import Cryptoki.Wire.Store

/-!
The bookkeeping of a store: each slot leads to storage that is there and is no other slot's, and
what is assigned stays assigned. So a store stands for an array of entries, each with storage of
its own, and a change to one entry leaves the others alone.
-/
namespace Cryptoki.Wire

def Head.face (h : Head) : Face := ⟨h.type, h.length, h.pointer⟩

def Entry.updateFace (change : Face → Face) (e : Entry) : Entry :=
  e.withHead ((change e.head.face).head e.head.sensitive)

namespace Store

variable {s s' t : Store} {i n b : Nat}

@[elab_as_elim]
theorem nested_induction {motive : Store → Prop}
    (store : ∀ s, (∀ t ∈ s.nested, motive t) → motive s) : ∀ s, motive s
  | ⟨faces, slots, sensitive, buffers, nested⟩ =>
    store ⟨faces, slots, sensitive, buffers, nested⟩ fun t _ => nested_induction store t

def InRange (s : Store) : Slot → Prop
  | .empty => True
  | .buffer b => b < s.buffers.length
  | .nested n => n < s.nested.length

/-- The lists go together, and the storage of each slot is there, for it alone. -/
structure Consistent (s : Store) : Prop where
  slots_length : s.slots.length = s.faces.length
  sensitive_length : s.sensitive.length = s.faces.length
  in_range : ∀ (i : Nat) (slot : Slot), s.slots[i]? = some slot → s.InRange slot
  unshared : ∀ (i j : Nat) (slot : Slot),
    s.slots[i]? = some slot → s.slots[j]? = some slot → slot ≠ .empty → i = j

inductive Sound : Store → Prop where
  | intro {s : Store} (here : s.Consistent) (inside : ∀ t ∈ s.nested, t.Sound) : s.Sound

structure Retains (s s' : Store) : Prop where
  faces_length : s'.faces.length = s.faces.length
  slots_length : s'.slots.length = s.slots.length
  sensitive : s'.sensitive = s.sensitive
  slot : ∀ (i : Nat) (slot : Slot), s.slots[i]? = some slot → slot ≠ .empty →
    s'.slots[i]? = some slot
  buffer : ∀ (b : Nat) (old : Bytes), s.buffers[b]? = some old →
    ∃ new, s'.buffers[b]? = some new ∧ new.length = old.length
  nested : s.nested.length ≤ s'.nested.length

inductive Extends : Store → Store → Prop where
  | intro {s s' : Store} (here : s.Retains s')
    (inside : ∀ (n : Nat) (t t' : Store),
      s.nested[n]? = some t → s'.nested[n]? = some t' → t.Extends t') :
    s.Extends s'

theorem Sound.here (sound : s.Sound) : s.Consistent := by
  obtain ⟨here, _⟩ := sound
  exact here

theorem Sound.inside (sound : s.Sound) (found : s.nested[n]? = some t) : t.Sound := by
  obtain ⟨_, inside⟩ := sound
  exact inside t (List.mem_of_getElem? found)

theorem Retains.refl (s : Store) : s.Retains s where
  faces_length := rfl
  slots_length := rfl
  sensitive := rfl
  slot _ _ found _ := found
  buffer _ old found := ⟨old, found, rfl⟩
  nested := Nat.le_refl _

theorem Retains.trans {s₁ s₂ s₃ : Store} (first : s₁.Retains s₂) (second : s₂.Retains s₃) :
    s₁.Retains s₃ where
  faces_length := second.faces_length.trans first.faces_length
  slots_length := second.slots_length.trans first.slots_length
  sensitive := second.sensitive.trans first.sensitive
  slot i slot found assigned := second.slot i slot (first.slot i slot found assigned) assigned
  buffer b old found := by
    obtain ⟨middle, found, length⟩ := first.buffer b old found
    obtain ⟨new, found, length'⟩ := second.buffer b middle found
    exact ⟨new, found, length'.trans length⟩
  nested := Nat.le_trans first.nested second.nested

theorem Extends.refl (s : Store) : s.Extends s := by
  induction s using nested_induction with
  | store s ih =>
    refine .intro (.refl s) fun n t t' found found' => ?_
    obtain rfl := Option.some.inj (found.symm.trans found')
    exact ih t (List.mem_of_getElem? found)

theorem Extends.trans {s₁ s₂ s₃ : Store} (first : s₁.Extends s₂) (second : s₂.Extends s₃) :
    s₁.Extends s₃ := by
  induction first generalizing s₃ with
  | intro here inside ih =>
    obtain ⟨here', inside'⟩ := second
    refine .intro (here.trans here') fun n t t' found found' => ?_
    have lower := (List.getElem?_eq_some_iff.mp found).1
    have there := List.getElem?_eq_getElem (Nat.lt_of_lt_of_le lower here.nested)
    exact ih n t _ found there (inside' n _ t' there found')

def entryOf (buffers : List Bytes) (arrays : List (List Entry)) (h : Head) : Slot → Entry
  | .empty => .empty h
  | .buffer b => .buffer h (buffers[b]?.getD [])
  | .nested n => .nested h (arrays[n]?.getD [])

mutual

def array : Store → List Entry
  | ⟨faces, slots, sensitive, buffers, nested⟩ =>
    let arrays := arrays nested
    (faces.zip (slots.zip sensitive)).map fun (f, slot, flag) =>
      entryOf buffers arrays (f.head flag) slot

def arrays : List Store → List (List Entry)
  | [] => []
  | t :: rest => t.array :: arrays rest

end

def entry (s : Store) (h : Head) (slot : Slot) : Entry :=
  entryOf s.buffers (s.nested.map array) h slot

theorem arrays_eq_map (stores : List Store) : arrays stores = stores.map array := by
  induction stores with
  | nil => rfl
  | cons t rest ih => rw [arrays, ih, List.map_cons]

theorem array_eq_map (s : Store) :
    s.array = (s.faces.zip (s.slots.zip s.sensitive)).map fun (f, slot, flag) =>
      s.entry (f.head flag) slot := by
  cases s
  rw [array, arrays_eq_map]
  rfl

theorem entry_buffer {old : Bytes} (found : s.buffers[b]? = some old) (h : Head) :
    s.entry h (.buffer b) = .buffer h old := by
  simp [entry, entryOf, found]

theorem entry_nested (found : s.nested[n]? = some t) (h : Head) :
    s.entry h (.nested n) = .nested h t.array := by
  simp [entry, entryOf, found]

theorem length_array (here : s.Consistent) : s.array.length = s.faces.length := by
  simp [array_eq_map, here.slots_length, here.sensitive_length]

theorem getElem?_array_eq_some {e : Entry} :
    s.array[i]? = some e ↔ ∃ f slot flag, s.faces[i]? = some f ∧ s.slots[i]? = some slot ∧
      s.sensitive[i]? = some flag ∧ s.entry (f.head flag) slot = e := by
  simp only [array_eq_map, List.getElem?_map, Option.map_eq_some_iff, Prod.exists,
    List.getElem?_zip_eq_some, and_assoc]

theorem face_of_getElem? {e : Entry} (found : s.array[i]? = some e) :
    s.faces[i]? = some e.head.face ∧ s.sensitive[i]? = some e.head.sensitive := by
  obtain ⟨f, slot, flag, face, _, sensitive, rfl⟩ := getElem?_array_eq_some.mp found
  cases slot <;> exact ⟨face, sensitive⟩

theorem slot_of_empty {h : Head} (found : s.array[i]? = some (.empty h)) :
    s.slots[i]? = some .empty := by
  obtain ⟨f, slot, flag, _, there, _, same⟩ := getElem?_array_eq_some.mp found
  cases slot with
  | empty => exact there
  | buffer b | nested n => cases same

theorem slot_of_buffer (here : s.Consistent) {h : Head} {old : Bytes}
    (found : s.array[i]? = some (.buffer h old)) :
    ∃ b, s.slots[i]? = some (.buffer b) ∧ s.buffers[b]? = some old := by
  obtain ⟨f, slot, flag, _, there, _, same⟩ := getElem?_array_eq_some.mp found
  cases slot with
  | empty | nested n => cases same
  | buffer b =>
    have inside := List.getElem?_eq_getElem (here.in_range i _ there)
    rw [entry_buffer inside] at same
    cases same
    exact ⟨b, there, inside⟩

theorem slot_of_nested (here : s.Consistent) {h : Head} {entries : List Entry}
    (found : s.array[i]? = some (.nested h entries)) :
    ∃ n t, s.slots[i]? = some (.nested n) ∧ s.nested[n]? = some t ∧ t.array = entries := by
  obtain ⟨f, slot, flag, _, there, _, same⟩ := getElem?_array_eq_some.mp found
  cases slot with
  | empty | buffer b => cases same
  | nested n =>
    have inside := List.getElem?_eq_getElem (here.in_range i _ there)
    rw [entry_nested inside] at same
    cases same
    exact ⟨n, _, there, inside, rfl⟩

structure Apart (i : Nat) (s s' : Store) : Prop where
  faces : ∀ j : Nat, j ≠ i → s'.faces[j]? = s.faces[j]?
  slots : ∀ j : Nat, j ≠ i → s'.slots[j]? = s.slots[j]?
  sensitive : s'.sensitive = s.sensitive
  storage : ∀ (j : Nat) (slot : Slot), j ≠ i → s.slots[j]? = some slot →
    ∀ h, s'.entry h slot = s.entry h slot

theorem array_of_apart (apart : Apart i s s') {change : Entry → Entry}
    (here : ∀ f slot flag, s.faces[i]? = some f → s.slots[i]? = some slot →
      ∃ f' slot', s'.faces[i]? = some f' ∧ s'.slots[i]? = some slot' ∧
        s'.entry (f'.head flag) slot' = change (s.entry (f.head flag) slot))
    (length : s'.array.length = s.array.length) : s'.array = s.array.modify i change := by
  have each : ∀ j e, s.array[j]? = some e →
      s'.array[j]? = some (if i = j then change e else e) := by
    intro j e found
    obtain ⟨f, slot, flag, face, there, sensitive, rfl⟩ := getElem?_array_eq_some.mp found
    rw [getElem?_array_eq_some]
    by_cases same : i = j
    · subst same
      obtain ⟨f', slot', face', there', changed⟩ := here f slot flag face there
      exact ⟨f', slot', flag, face', there', by rw [apart.sensitive, sensitive],
        by rw [if_pos rfl, changed]⟩
    · have other : j ≠ i := fun eq => same eq.symm
      exact ⟨f, slot, flag, by rw [apart.faces j other, face], by rw [apart.slots j other, there],
        by rw [apart.sensitive, sensitive],
        by rw [if_neg same, apart.storage j slot other there]⟩
  refine List.ext_getElem? fun j => ?_
  rw [List.getElem?_modify]
  cases found : s.array[j]? with
  | none =>
    rw [List.getElem?_eq_none_iff] at found
    rw [List.getElem?_eq_none_iff.mpr (length ▸ found)]
    rfl
  | some e =>
    rw [each j e found]
    by_cases same : i = j <;> simp [same]

theorem Retains.in_range (retains : s.Retains s') {slot : Slot} (lower : s.InRange slot) :
    s'.InRange slot := by
  cases slot with
  | empty => trivial
  | buffer b =>
    obtain ⟨new, there, _⟩ := retains.buffer b _ (List.getElem?_eq_getElem lower)
    exact (List.getElem?_eq_some_iff.mp there).1
  | nested n => exact Nat.lt_of_lt_of_le lower retains.nested

theorem Consistent.of_retains (here : s.Consistent) (retains : s.Retains s')
    (slots : s'.slots = s.slots) : s'.Consistent where
  slots_length := by rw [retains.slots_length, retains.faces_length, here.slots_length]
  sensitive_length := by rw [retains.sensitive, retains.faces_length, here.sensitive_length]
  in_range i slot found := retains.in_range (here.in_range i slot (slots ▸ found))
  unshared i j slot found found' := here.unshared i j slot (slots ▸ found) (slots ▸ found')

theorem Extends.of_same_nested (retains : s.Retains s') (same : s'.nested = s.nested) :
    s.Extends s' := by
  refine .intro retains fun n t t' found found' => ?_
  rw [same] at found'
  obtain rfl := Option.some.inj (found.symm.trans found')
  exact .refl t

theorem retains_updateFace (i : Nat) (change : Face → Face) :
    s.Retains (s.updateFace i change) :=
  { Retains.refl s with faces_length := List.length_modify _ _ _ }

theorem extends_updateFace (i : Nat) (change : Face → Face) :
    s.Extends (s.updateFace i change) :=
  .of_same_nested (retains_updateFace i change) rfl

theorem Sound.updateFace (sound : s.Sound) (i : Nat) (change : Face → Face) :
    (s.updateFace i change).Sound := by
  obtain ⟨here, inside⟩ := sound
  exact .intro (here.of_retains (retains_updateFace i change) rfl) inside

theorem array_updateFace (here : s.Consistent) (i : Nat) (change : Face → Face) :
    (s.updateFace i change).array = s.array.modify i (Entry.updateFace change) := by
  have apart : Apart i s (s.updateFace i change) := by
    refine ⟨fun j other => ?_, fun _ _ => rfl, rfl, fun _ _ _ _ _ => rfl⟩
    rw [Store.updateFace, List.getElem?_modify_ne _ _ other.symm]
  have length : (s.updateFace i change).array.length = s.array.length := by
    rw [length_array here, length_array (here.of_retains (retains_updateFace i change) rfl)]
    exact List.length_modify _ _ _
  refine array_of_apart apart (fun f slot flag face there => ?_) length
  refine ⟨change f, slot, ?_, there, ?_⟩
  · rw [Store.updateFace, List.getElem?_modify_eq, face]
    rfl
  · cases slot <;> rfl

theorem retains_modifyBuffer {change : Bytes → Bytes}
    (sized : ∀ old, (change old).length = old.length) :
    s.Retains { s with buffers := s.buffers.modify b change } := by
  refine { Retains.refl s with buffer := fun c old found => ?_ }
  by_cases same : b = c
  · subst same
    exact ⟨change old, by simp [found], sized old⟩
  · exact ⟨old, by simp [same, found], rfl⟩

theorem retains_modifyNested {change : Store → Store} :
    s.Retains { s with nested := s.nested.modify n change } :=
  { Retains.refl s with nested := Nat.le_of_eq (List.length_modify _ _ _).symm }

theorem extends_modifyNested {change : Store → Store}
    (each : ∀ t, s.nested[n]? = some t → t.Extends (change t)) :
    s.Extends { s with nested := s.nested.modify n change } := by
  refine .intro retains_modifyNested fun m t t' found found' => ?_
  by_cases same : n = m
  · subst same
    rw [List.getElem?_modify_eq, found] at found'
    obtain rfl := Option.some.inj found'
    exact each t found
  · rw [List.getElem?_modify_ne _ _ same, found] at found'
    obtain rfl := Option.some.inj found'
    exact .refl t

theorem Sound.modifyNested (sound : s.Sound) {change : Store → Store}
    (each : ∀ t, s.nested[n]? = some t → (change t).Sound) :
    Sound { s with nested := s.nested.modify n change } := by
  refine .intro (sound.here.of_retains retains_modifyNested rfl) ?_
  obtain ⟨_, inside⟩ := sound
  exact forall_mem_modify inside n each

end Store

def Entry.mapStorage (onBuffer : Bytes → Bytes) (onArray : List Entry → List Entry) :
    Entry → Entry
  | .empty h => .empty h
  | .buffer h b => .buffer h (onBuffer b)
  | .nested h entries => .nested h (onArray entries)

namespace Store

variable {s s' t : Store} {i j n b : Nat}

theorem array_modifyBuffer (here : s.Consistent) (slot : s.slots[i]? = some (.buffer b))
    {onBuffer : Bytes → Bytes} (sized : ∀ old, (onBuffer old).length = old.length)
    (onArray : List Entry → List Entry) :
    array { s with buffers := s.buffers.modify b onBuffer } =
      s.array.modify i (Entry.mapStorage onBuffer onArray) := by
  have apart : Apart i s { s with buffers := s.buffers.modify b onBuffer } := by
    refine ⟨fun _ _ => rfl, fun _ _ => rfl, rfl, fun j other_slot other there h => ?_⟩
    cases other_slot with
    | empty | nested m => rfl
    | buffer c =>
      -- The buffer is no other slot's.
      have different : b ≠ c := by
        rintro rfl
        exact other (here.unshared j i _ there slot (by simp))
      simp [entry, entryOf, different]
  refine array_of_apart apart (fun f slot' flag face there => ?_) ?_
  · obtain rfl := Option.some.inj (slot.symm.trans there)
    obtain ⟨old, found⟩ : ∃ old, s.buffers[b]? = some old :=
      ⟨_, List.getElem?_eq_getElem (here.in_range i _ slot)⟩
    refine ⟨f, .buffer b, face, slot, ?_⟩
    rw [entry_buffer found]
    exact entry_buffer (by simp [found]) _
  · rw [length_array here, length_array (here.of_retains (retains_modifyBuffer sized) rfl)]

theorem array_modifyNested (here : s.Consistent) (slot : s.slots[i]? = some (.nested n))
    (onBuffer : Bytes → Bytes) {onNested : Store → Store} (onArray : List Entry → List Entry)
    (each : ∀ t, s.nested[n]? = some t → (onNested t).array = onArray t.array) :
    array { s with nested := s.nested.modify n onNested } =
      s.array.modify i (Entry.mapStorage onBuffer onArray) := by
  have apart : Apart i s { s with nested := s.nested.modify n onNested } := by
    refine ⟨fun _ _ => rfl, fun _ _ => rfl, rfl, fun j other_slot other there h => ?_⟩
    cases other_slot with
    | empty | buffer c => rfl
    | nested m =>
      have different : n ≠ m := by
        rintro rfl
        exact other (here.unshared j i _ there slot (by simp))
      simp [entry, entryOf, different]
  refine array_of_apart apart (fun f slot' flag face there => ?_) ?_
  · obtain rfl := Option.some.inj (slot.symm.trans there)
    obtain ⟨t, found⟩ : ∃ t, s.nested[n]? = some t :=
      ⟨_, List.getElem?_eq_getElem (here.in_range i _ slot)⟩
    refine ⟨f, .nested n, face, slot, ?_⟩
    rw [entry_nested found, Entry.mapStorage, ← each t found]
    exact entry_nested (by simp [found]) _
  · rw [length_array here, length_array (here.of_retains retains_modifyNested rfl)]

/-- A vacant entry gets storage, behind a slot that none has. All other storage stays. -/
structure Assigns (i : Nat) (new : Slot) (s s' : Store) : Prop where
  vacant : s.slots[i]? = some .empty
  fresh : new ∉ s.slots
  there : s'.InRange new
  faces : s'.faces = s.faces.modify i fun f => { f with pointer := .own }
  slots : s'.slots = s.slots.set i new
  sensitive : s'.sensitive = s.sensitive
  buffers : s.buffers <+: s'.buffers
  nested : s.nested <+: s'.nested

theorem getElem?_of_longer {α : Type} {as bs : List α} (longer : as <+: bs) {a : α}
    (found : as[i]? = some a) : bs[i]? = some a := by
  obtain ⟨rest, rfl⟩ := longer
  rw [List.getElem?_append_left (List.getElem?_eq_some_iff.mp found).1, found]

theorem getElem?_set_cases {slots : List Slot} {slot new : Slot}
    (found : (slots.set i new)[j]? = some slot) :
    (j = i ∧ slot = new) ∨ (j ≠ i ∧ slots[j]? = some slot) := by
  by_cases same : i = j
  · subst same
    rw [List.getElem?_set_self'] at found
    obtain ⟨old, _, rfl⟩ := Option.map_eq_some_iff.mp found
    exact .inl ⟨rfl, rfl⟩
  · rw [List.getElem?_set_ne same] at found
    exact .inr ⟨fun eq => same eq.symm, found⟩

namespace Assigns

variable {new : Slot}

theorem retains (assigns : Assigns i new s s') : s.Retains s' where
  faces_length := by rw [assigns.faces, List.length_modify]
  slots_length := by rw [assigns.slots, List.length_set]
  sensitive := assigns.sensitive
  slot j slot found assigned := by
    have other : i ≠ j := by
      rintro rfl
      exact assigned (Option.some.inj (found.symm.trans assigns.vacant))
    rw [assigns.slots, List.getElem?_set_ne other, found]
  buffer b old found := ⟨old, getElem?_of_longer assigns.buffers found, rfl⟩
  nested := assigns.nested.length_le

theorem consistent (assigns : Assigns i new s s') (here : s.Consistent) : s'.Consistent where
  slots_length := by
    rw [assigns.retains.slots_length, assigns.retains.faces_length, here.slots_length]
  sensitive_length := by
    rw [assigns.sensitive, assigns.retains.faces_length, here.sensitive_length]
  in_range j slot found := by
    rw [assigns.slots] at found
    rcases getElem?_set_cases found with ⟨_, rfl⟩ | ⟨_, old⟩
    · exact assigns.there
    · exact assigns.retains.in_range (here.in_range j slot old)
  unshared j k slot found found' assigned := by
    rw [assigns.slots] at found found'
    rcases getElem?_set_cases found with ⟨rfl, rfl⟩ | ⟨_, old⟩
    · rcases getElem?_set_cases found' with ⟨rfl, _⟩ | ⟨_, old'⟩
      · rfl
      · exact absurd (List.mem_of_getElem? old') assigns.fresh
    · rcases getElem?_set_cases found' with ⟨_, rfl⟩ | ⟨_, old'⟩
      · exact absurd (List.mem_of_getElem? old) assigns.fresh
      · exact here.unshared j k slot old old' assigned

theorem extended (assigns : Assigns i new s s') : s.Extends s' := by
  refine .intro assigns.retains fun n t t' found found' => ?_
  obtain rfl := Option.some.inj ((getElem?_of_longer assigns.nested found).symm.trans found')
  exact .refl t

theorem entry_eq (assigns : Assigns i new s s') {slot : Slot} (lower : s.InRange slot)
    (h : Head) : s'.entry h slot = s.entry h slot := by
  cases slot with
  | empty => rfl
  | buffer b =>
    have found := List.getElem?_eq_getElem lower
    rw [entry_buffer found, entry_buffer (getElem?_of_longer assigns.buffers found)]
  | nested n =>
    have found := List.getElem?_eq_getElem lower
    rw [entry_nested found, entry_nested (getElem?_of_longer assigns.nested found)]

theorem array_eq (assigns : Assigns i new s s') (here : s.Consistent) :
    s'.array = s.array.modify i fun e => s'.entry { e.head with pointer := .own } new := by
  have apart : Apart i s s' := by
    refine ⟨fun j other => ?_, fun j other => ?_, assigns.sensitive, fun j slot _ there h => ?_⟩
    · rw [assigns.faces, List.getElem?_modify_ne _ _ other.symm]
    · rw [assigns.slots, List.getElem?_set_ne other.symm]
    · exact assigns.entry_eq (here.in_range j slot there) h
  refine array_of_apart apart (fun f slot flag face there => ?_) ?_
  · obtain rfl := Option.some.inj (assigns.vacant.symm.trans there)
    refine ⟨{ f with pointer := .own }, new, ?_, ?_, rfl⟩
    · rw [assigns.faces, List.getElem?_modify_eq, face]
      rfl
    · rw [assigns.slots, List.getElem?_set_self (List.getElem?_eq_some_iff.mp there).1]
  · rw [length_array here, length_array (assigns.consistent here), assigns.retains.faces_length]

end Assigns

theorem assigns_assignBuffer (here : s.Consistent) (vacant : s.slots[i]? = some .empty)
    (new : Bytes) : Assigns i (.buffer s.buffers.length) s (s.assignBuffer i new) where
  vacant := vacant
  fresh member := by
    obtain ⟨j, found⟩ := List.mem_iff_getElem?.mp member
    exact Nat.lt_irrefl _ (here.in_range j _ found)
  there := by simp [InRange, assignBuffer]
  faces := rfl
  slots := rfl
  sensitive := rfl
  buffers := List.prefix_append _ _
  nested := List.prefix_rfl

theorem assigns_assignNested (here : s.Consistent) (vacant : s.slots[i]? = some .empty)
    (t : Store) : Assigns i (.nested s.nested.length) s (s.assignNested i t) where
  vacant := vacant
  fresh member := by
    obtain ⟨j, found⟩ := List.mem_iff_getElem?.mp member
    exact Nat.lt_irrefl _ (here.in_range j _ found)
  there := by simp [InRange, assignNested]
  faces := rfl
  slots := rfl
  sensitive := rfl
  buffers := List.prefix_rfl
  nested := List.prefix_append _ _

theorem Sound.assignBuffer (sound : s.Sound) (vacant : s.slots[i]? = some .empty) (new : Bytes) :
    (s.assignBuffer i new).Sound := by
  obtain ⟨here, inside⟩ := sound
  exact .intro ((assigns_assignBuffer here vacant new).consistent here) inside

theorem Sound.assignNested (sound : s.Sound) (vacant : s.slots[i]? = some .empty)
    (new : t.Sound) : (s.assignNested i t).Sound := by
  obtain ⟨here, inside⟩ := sound
  refine .intro ((assigns_assignNested here vacant t).consistent here) fun u member => ?_
  rcases List.mem_append.mp member with old | last
  · exact inside u old
  · exact List.mem_singleton.mp last ▸ new

theorem array_assignBuffer (here : s.Consistent) (vacant : s.slots[i]? = some .empty)
    (new : Bytes) : (s.assignBuffer i new).array =
      s.array.modify i fun e => .buffer { e.head with pointer := .own } new := by
  rw [(assigns_assignBuffer here vacant new).array_eq here]
  simp only [entry_buffer (show (s.assignBuffer i new).buffers[s.buffers.length]? = some new by
    simp [assignBuffer])]

theorem array_assignNested (here : s.Consistent) (vacant : s.slots[i]? = some .empty)
    (t : Store) : (s.assignNested i t).array =
      s.array.modify i fun e => .nested { e.head with pointer := .own } t.array := by
  rw [(assigns_assignNested here vacant t).array_eq here]
  simp only [entry_nested (show (s.assignNested i t).nested[s.nested.length]? = some t by
    simp [assignNested])]

end Store

end Cryptoki.Wire
