import Cryptoki.Proofs.Wire.Allocating

/-!
Whatever is done to a store, its bookkeeping holds: it goes on standing for the array that the
same steps make of entries with their storage, and it gives out what is in that array and nothing
beyond it.
-/
namespace Cryptoki.Wire

theorem Entry.overwrite_eq (bytes : Bytes) (e : Entry) :
    e.overwrite bytes = if e.isReached then
      e.mapStorage (Bytes.overwrite · bytes) (overwriteImage · bytes) else e := by
  cases e <;> rfl

theorem Entry.atNested_eq (f : List Entry → List Entry) (e : Entry) :
    e.atNested f = if e.isReached then
      e.mapStorage (fun b => b.overwrite (image (f (ofImage b)))) f else e := by
  cases e <;> rfl

theorem Entry.write_eq (w : Write) (e : Entry) :
    e.write w =
      let filled := (e.updateFace fun f => { f with type := w.type.getD f.type }).overwrite w.bytes
      match w.length with
      | some n => filled.updateFace fun f => { f with length := lengthOfWord n }
      | none => filled := by
  cases e <;> rfl

namespace Store

variable {r : Registry} {s t : Store} {i n : Nat}

theorem follows_updateFace (sound : s.Sound) (i : Nat) (change : Face → Face) :
    s.Follows (s.updateFace i change) (s.array.modify i (Entry.updateFace change)) where
  sound := sound.updateFace i change
  extended := extends_updateFace i change
  array := array_updateFace sound.here i change

theorem follows_atStorage (sound : s.Sound) {onBuffer : Bytes → Bytes} {onNested : Store → Store}
    {onArray : List Entry → List Entry} (sized : ∀ old, (onBuffer old).length = old.length)
    (each : ∀ t : Store, t.Sound → t.Follows (onNested t) (onArray t.array)) :
    s.Follows (s.atStorage i onBuffer onNested) (s.array.modify i fun e =>
      if e.isReached then e.mapStorage onBuffer onArray else e) := by
  cases found : s.array[i]? with
  | none =>
    rw [List.getElem?_eq_none_iff, length_array sound.here] at found
    have nowhere : s.faces[i]? = none := List.getElem?_eq_none_iff.mpr found
    rw [atStorage, nowhere, List.modify_eq_self (by rwa [length_array sound.here])]
    exact sound.follows
  | some e =>
    obtain ⟨face, _⟩ := face_of_getElem? found
    by_cases reached : e.head.pointer = .own
    · have own : e.head.face.pointer = .own := reached
      rw [modify_congr found _ (Entry.mapStorage onBuffer onArray)
        (by simp [Entry.isReached, reached])]
      cases e with
      | empty h =>
        rw [modify_self found rfl, atStorage, face, slot_of_empty found]
        simp only [own, if_true]
        exact sound.follows
      | buffer h old =>
        obtain ⟨b, slot, _⟩ := slot_of_buffer sound.here found
        rw [atStorage, face, slot]
        simp only [own, if_true]
        have retains := retains_modifyBuffer (s := s) (b := b) sized
        obtain ⟨here, inside⟩ := sound
        exact ⟨.intro (here.of_retains retains rfl) inside, .of_same_nested retains rfl,
          array_modifyBuffer here slot sized onArray⟩
      | nested h entries =>
        obtain ⟨n, t, slot, inside, rfl⟩ := slot_of_nested sound.here found
        rw [atStorage, face, slot]
        simp only [own, if_true]
        have each' : ∀ u, s.nested[n]? = some u → u.Follows (onNested u) (onArray u.array) :=
          fun u there => each u (sound.inside there)
        exact ⟨sound.modifyNested fun u there => (each' u there).sound,
          extends_modifyNested fun u there => (each' u there).extended,
          array_modifyNested sound.here slot onBuffer onArray fun u there => (each' u there).array⟩
    · rw [modify_self found (by simp [Entry.isReached, reached]), atStorage, face]
      have other : e.head.face.pointer ≠ .own := reached
      cases slot : s.slots[i]? with
      | none => exact sound.follows
      | some _ =>
        simp only [other, if_false]
        exact sound.follows

theorem map_face_array (here : s.Consistent) : s.array.map (·.head.face) = s.faces := by
  refine List.ext_getElem? fun i => ?_
  rw [List.getElem?_map]
  cases found : s.array[i]? with
  | none =>
    rw [List.getElem?_eq_none_iff, length_array here] at found
    rw [List.getElem?_eq_none_iff.mpr found]
    rfl
  | some e =>
    rw [(face_of_getElem? found).1]
    rfl

theorem image_eq (here : s.Consistent) : s.image = Wire.image s.array := by
  rw [Store.image, ← map_face_array here, List.flatMap_map]
  rfl

theorem length_chunks_overwrite (here : s.Consistent) (bytes : Bytes) :
    ((s.image.overwrite bytes).chunks entrySize).length = s.faces.length := by
  have whole : s.image.length = entrySize * s.faces.length := by
    rw [image_eq here, ← length_array here]
    exact Bytes.flatMap_length _ (fun e => e.head.image_length) s.array
  rw [Bytes.chunks, List.length_map, List.length_range, Bytes.length_overwrite, whole]
  exact Nat.mul_div_cancel_left _ (by decide)

theorem follows_overwriteImage (sound : s.Sound) (bytes : Bytes) :
    s.Follows (s.overwriteImage bytes) (Wire.overwriteImage s.array bytes) := by
  have count := length_chunks_overwrite sound.here bytes
  have retains : s.Retains (s.overwriteImage bytes) :=
    { Retains.refl s with faces_length := (List.length_map _).trans count }
  have here' := sound.here.of_retains retains rfl
  have array : (s.overwriteImage bytes).array = Wire.overwriteImage s.array bytes := by
    refine List.ext_getElem? fun i => ?_
    rw [Wire.overwriteImage, ← image_eq sound.here, List.getElem?_zipWith]
    cases found : s.array[i]? with
    | none =>
      rw [List.getElem?_eq_none_iff, length_array sound.here, ← retains.faces_length,
        ← length_array here'] at found
      rw [List.getElem?_eq_none_iff.mpr found]
    | some e =>
      obtain ⟨f, slot, flag, face, there, sensitive, rfl⟩ := getElem?_array_eq_some.mp found
      have lower := (List.getElem?_eq_some_iff.mp face).1
      have chunk := List.getElem?_eq_getElem (count ▸ lower)
      rw [chunk, getElem?_array_eq_some]
      refine ⟨_, slot, flag, (List.getElem?_map ..).trans (by rw [chunk]; rfl), there,
        sensitive, ?_⟩
      cases slot <;> rfl
  obtain ⟨here, inside⟩ := sound
  exact ⟨.intro here' inside, .of_same_nested retains rfl, array⟩

theorem follows_overwrite (sound : s.Sound) (i : Nat) (bytes : Bytes) :
    s.Follows (s.atStorage i (Bytes.overwrite · bytes) (·.overwriteImage bytes))
      (s.array.modify i (Entry.overwrite bytes)) := by
  rw [show Entry.overwrite bytes = _ from funext (Entry.overwrite_eq bytes)]
  exact follows_atStorage sound (fun old => Bytes.length_overwrite old bytes)
    fun t inner => follows_overwriteImage inner bytes

theorem follows_writeEntry (sound : s.Sound) (i : Nat) (w : Write) :
    s.Follows (s.writeEntry i w) (s.array.modify i (Entry.write w)) := by
  have typed := follows_updateFace sound i fun f => { f with type := w.type.getD f.type }
  have filled := typed.trans (follows_overwrite typed.sound i w.bytes)
  rw [typed.array, List.modify_modify_eq] at filled
  rw [show Entry.write w = _ from funext (Entry.write_eq w), writeEntry]
  cases w.length with
  | none => exact filled
  | some n =>
    have measured := follows_updateFace filled.sound i fun f => { f with length := lengthOfWord n }
    rw [filled.array, List.modify_modify_eq] at measured
    exact filled.trans measured

theorem follows_writeAt (w : Write) : ∀ (path : List Nat) (s : Store), s.Sound →
    s.Follows (s.writeAt path w) (Wire.writeAt path w s.array) := by
  intro path
  induction path with
  | nil =>
    intro s sound
    exact sound.follows
  | cons i path ih =>
    intro s sound
    cases path with
    | nil => exact follows_writeEntry sound i w
    | cons j path =>
      change s.Follows _ (s.array.modify i (Entry.atNested (Wire.writeAt (j :: path) w)))
      rw [show Entry.atNested (Wire.writeAt (j :: path) w) = _ from funext (Entry.atNested_eq _)]
      exact follows_atStorage sound (fun old => Bytes.length_overwrite old _) ih

theorem follows_markUnavailable (sound : s.Sound) (i : Nat) :
    s.Follows (s.markUnavailable i) (Wire.markUnavailable i s.array) := by
  have same : Entry.markUnavailable = Entry.updateFace fun f => { f with length := none } := by
    funext e
    cases e <;> rfl
  rw [Wire.markUnavailable, same]
  exact follows_updateFace sound i _

theorem mapM_eq_some {α β : Type} {read : α → Option β} {as : List α} {bs : List β}
    (length : as.length = bs.length)
    (each : ∀ (i : Nat) (a : α) (b : β), as[i]? = some a → bs[i]? = some b → read a = some b) :
    as.mapM read = some bs := by
  induction as generalizing bs with
  | nil =>
    obtain rfl := List.length_eq_zero_iff.mp length.symm
    rfl
  | cons a as ih =>
    cases bs with
    | nil => cases length
    | cons b bs =>
      have first := each 0 a b rfl rfl
      have others := ih (Nat.succ.inj length) fun i a b found found' =>
        each (i + 1) a b found found'
      rw [List.mapM_cons, first, others]
      rfl

theorem slotBytes_eq (sound : s.Sound) {e : Entry} (found : s.array[i]? = some e) {slot : Slot}
    (there : s.slots[i]? = some slot) : s.slotBytes e.head.face slot = some e.bytes := by
  cases e with
  | empty h =>
    obtain rfl := Option.some.inj (there.symm.trans (slot_of_empty found))
    simp [slotBytes, Entry.bytes, Entry.storageBytes]
  | buffer h old =>
    obtain ⟨b, slot', inside⟩ := slot_of_buffer sound.here found
    obtain rfl := Option.some.inj (there.symm.trans slot')
    rw [slotBytes, inside]
    rfl
  | nested h entries =>
    obtain ⟨n, t, slot', inside, rfl⟩ := slot_of_nested sound.here found
    obtain rfl := Option.some.inj (there.symm.trans slot')
    simp only [slotBytes, inside, Option.map_eq_map, Option.map_some,
      image_eq (sound.inside inside).here]
    rfl

theorem entries_eq (sound : s.Sound) :
    s.entries = some (s.array.map fun e => (e.head.type, e.head.lengthWord, e.bytes)) := by
  refine mapM_eq_some ?_ fun i a row found found' => ?_
  · simp [length_array sound.here, sound.here.slots_length]
  · obtain ⟨f, slot⟩ := a
    obtain ⟨face, there⟩ := List.getElem?_zip_eq_some.mp found
    rw [List.getElem?_map] at found'
    obtain ⟨e, at_i, rfl⟩ := Option.map_eq_some_iff.mp found'
    obtain ⟨face', _⟩ := face_of_getElem? at_i
    obtain rfl : f = e.head.face := Option.some.inj (face.symm.trans face')
    simp only [slotBytes_eq sound at_i there]
    rfl

theorem text_eq (sound : s.Sound) : s.text = some (Wire.text s.array) := by
  have length : s.faces.zipIdx.length = (s.array.map Entry.text).length := by
    simp [length_array sound.here]
  rw [text, mapM_eq_some length fun i a row found found' => ?each]
  · rfl
  · rw [List.getElem?_zipIdx] at found
    obtain ⟨f, face, rfl⟩ := Option.map_eq_some_iff.mp found
    rw [List.getElem?_map] at found'
    obtain ⟨e, at_i, rfl⟩ := Option.map_eq_some_iff.mp found'
    obtain ⟨face', sensitive⟩ := face_of_getElem? at_i
    obtain rfl := Option.some.inj (face.symm.trans face')
    simp only [Nat.zero_add, sensitive]
    cases e <;> rfl

theorem decodeEach_eq {rest : List Entry} :
    ∀ (before : List Entry), s.array = before ++ rest →
      (∀ i e, s.array[i]? = some e →
        s.decodeEntry r e.head.face i = some (e.toAttribute r)) →
      ∀ t, s.decodeEach r t ((rest.map (·.head.face)).zipIdx before.length) =
        some ((fun as => as.foldl Template.insert t) <$> toAttributes r rest) := by
  induction rest with
  | nil =>
    intro before _ _ t
    rw [List.map_nil, List.zipIdx_nil, decodeEach, toAttributes]
    rfl
  | cons e rest ih =>
    intro before array each t
    have one := each before.length e (by simp [array])
    have others := ih (before ++ [e]) (by rw [array, List.append_cons]) each
    rw [List.map_cons, List.zipIdx_cons, decodeEach, one, toAttributes]
    cases e.toAttribute r with
    | error x => rfl
    | ok a =>
      rw [List.length_append, List.length_singleton] at others
      simp only [Option.bind_eq_bind, Option.bind_some, others, Result.ok_bind]
      cases toAttributes r rest <;> rfl

theorem decode_of_each (sound : s.Sound) (each : ∀ i e, s.array[i]? = some e →
    s.decodeEntry r e.head.face i = some (e.toAttribute r)) :
    s.decode r = some (Template.ofArrayUnder r s.array) := by
  have all := decodeEach_eq [] rfl each .empty
  rw [map_face_array sound.here] at all
  rw [decode]
  exact all

theorem decodeEntry_of_slot {e : Entry} (found : s.array[i]? = some e) {slot : Slot}
    (there : s.slots[i]? = some slot)
    (read : ∀ length, e.head.length = some length →
      ∃ x, s.decodeSlot r e.head.face length slot = some x ∧
        e.toAttribute r = flagged e.head <$> x) :
    s.decodeEntry r e.head.face i = some (e.toAttribute r) := by
  have sensitive := (face_of_getElem? found).2
  rw [decodeEntry]
  split
  · rename_i absent
    rw [toAttribute_of_absent absent, sensitive]
    rfl
  · rename_i n length
    obtain ⟨x, decoded, same⟩ := read n length
    simp only [Option.bind_eq_bind, there, Option.bind_some, decoded, same, sensitive]
    cases x <;> rfl

theorem decodeSlot_nested (inside : s.nested[n]? = some t) {read : Result Template}
    (decoded : t.decode r = some read) (f : Face) (length : Nat) :
    s.decodeSlot r f length (.nested n) = some (do
      let count ← nestedCount r f.type length
      let members ← read
      return nestedAttribute f.type ⟨members.attributes.take count⟩) := by
  rw [decodeSlot]
  cases nestedCount r f.type length with
  | error x => rfl
  | ok count =>
    dsimp only
    split
    · rename_i nowhere
      cases inside.symm.trans nowhere
    · rename_i t' found
      obtain rfl := Option.some.inj (inside.symm.trans found)
      rw [decoded]
      cases read <;> rfl

theorem decodeEntry_eq (e : Entry) : ∀ (s : Store) (i : Nat), s.Sound → s.array[i]? = some e →
    s.decodeEntry r e.head.face i = some (e.toAttribute r) := by
  induction e using Entry.nested_induction with
  | empty h =>
    intro s i sound found
    refine decodeEntry_of_slot found (slot_of_empty found) fun length known => ?_
    have known : h.length = some length := known
    rw [decodeSlot, Entry.toAttribute, known]
    change ∃ x, (if length ≠ 0 then some (.error (.valueMissing (r.name h.type)))
      else if r.kind h.type = .template then some (.ok (nestedAttribute h.type .empty))
      else some (Attribute.decode r h.type [])) = some x ∧ _
    dsimp only
    by_cases some_bytes : length ≠ 0
    · rw [if_pos some_bytes, if_pos some_bytes]
      exact ⟨_, rfl, rfl⟩
    · rw [if_neg some_bytes, if_neg some_bytes]
      by_cases kind : r.kind h.type = .template
      · rw [if_pos kind, if_pos kind]
        exact ⟨_, rfl, rfl⟩
      · rw [if_neg kind, if_neg kind]
        exact ⟨_, rfl, rfl⟩
  | buffer h old =>
    intro s i sound found
    obtain ⟨b, slot, _⟩ := slot_of_buffer sound.here found
    refine decodeEntry_of_slot found slot fun length known => ?_
    have known : h.length = some length := known
    rw [decodeSlot, slotBytes_eq sound found slot, Entry.toAttribute, known]
    refine ⟨_, rfl, ?_⟩
    simp [Entry.bytes, Entry.storageBytes, Entry.head, Head.lengthWord, Head.face, known]
  | nested h entries ih =>
    intro s i sound found
    obtain ⟨n, t, slot, inside, rfl⟩ := slot_of_nested sound.here found
    have inner := sound.inside inside
    have decoded : t.decode r = some (Template.ofArrayUnder r t.array) :=
      decode_of_each inner fun j e there => ih e (List.mem_of_getElem? there) t j inner there
    refine decodeEntry_of_slot found slot fun length known => ?_
    have known : h.length = some length := known
    refine ⟨_, decodeSlot_nested inside decoded _ length, ?_⟩
    rw [Entry.toAttribute, known]
    dsimp only [Entry.head, Head.face, Template.ofArrayUnder]
    cases nestedCount r h.type length with
    | error x => rfl
    | ok count => cases toAttributes r t.array <;> rfl

theorem decode_eq (sound : s.Sound) : s.decode r = some (Template.ofArrayUnder r s.array) :=
  decode_of_each sound fun i e found => decodeEntry_eq e s i sound found

def capacity (s : Store) : Slot → Nat
  | .empty => 0
  | .buffer b => (s.buffers[b]?.map List.length).getD 0
  | .nested n => (s.nested[n]?.map fun t => entrySize * t.faces.length).getD 0

theorem length_bytes (sound : s.Sound) {e : Entry} (found : s.array[i]? = some e) {slot : Slot}
    (there : s.slots[i]? = some slot) :
    e.bytes.length = min e.head.lengthWord (s.capacity slot) := by
  have storage : e.storageBytes.length = s.capacity slot := by
    cases e with
    | empty h =>
      obtain rfl := Option.some.inj (there.symm.trans (slot_of_empty found))
      rfl
    | buffer h old =>
      obtain ⟨b, slot', inside⟩ := slot_of_buffer sound.here found
      obtain rfl := Option.some.inj (there.symm.trans slot')
      rw [capacity, inside]
      rfl
    | nested h entries =>
      obtain ⟨n, t, slot', inside, rfl⟩ := slot_of_nested sound.here found
      obtain rfl := Option.some.inj (there.symm.trans slot')
      rw [capacity, inside, Option.map_some, Option.getD_some,
        ← length_array (sound.inside inside).here]
      exact Bytes.flatMap_length _ (fun e => e.head.image_length) t.array
  rw [Entry.bytes, List.length_take, storage]

/-- All that is asked of a store is answered, out of the array that it stands for. Of a value as
many bytes are given out as its storage has, or fewer when its length says fewer. -/
structure Legible (s : Store) : Prop where
  entries : ∃ rows, s.entries = some rows ∧ rows.length = s.faces.length ∧
    ∀ (i : Nat) (type : Code) (length : Nat) (bytes : Bytes),
      rows[i]? = some (type, length, bytes) → ∃ f slot, s.faces[i]? = some f ∧
        s.slots[i]? = some slot ∧ f.type = type ∧ f.lengthWord = length ∧
        bytes.length = min length (s.capacity slot)
  decode : ∀ r, s.decode r = some (Template.ofArrayUnder r s.array)
  text : s.text = some (Wire.text s.array)

theorem legible (sound : s.Sound) : s.Legible where
  entries := by
    refine ⟨_, entries_eq sound, by simp [length_array sound.here], ?_⟩
    intro i type length bytes found
    rw [List.getElem?_map] at found
    obtain ⟨e, inside, same⟩ := Option.map_eq_some_iff.mp found
    cases same
    obtain ⟨_, slot, _, _, there, _⟩ := getElem?_array_eq_some.mp inside
    exact ⟨_, slot, (face_of_getElem? inside).1, there, rfl, rfl, length_bytes sound inside there⟩
  decode r := decode_eq sound
  text := text_eq sound

end Store

inductive Start where
  | sent (t : Template)
  | asked (types : List Code)

def Start.store : Start → Store
  | sent t => .ofTemplate t
  | asked types => .query types

def Start.array : Start → List Entry
  | sent t => t.toArray
  | asked types => query types

inductive Event where
  | allocate (r : Registry)
  | mark (i : Nat)
  | write (path : List Nat) (w : Write)

def Event.onStore : Event → Store → Option Store
  | allocate r, s => (·.1) <$> s.allocate r
  | mark i, s => some (s.markUnavailable i)
  | write path w, s => some (s.writeAt path w)

def Event.onArray : Event → List Entry → List Entry
  | allocate r, entries => (Wire.allocate r entries).1
  | mark i, entries => markUnavailable i entries
  | write path w, entries => writeAt path w entries

namespace Store

variable {s : Store}

def run (events : List Event) (s : Store) : Option Store :=
  events.foldlM (fun s e => e.onStore s) s

theorem sound_start (start : Start) : start.store.Sound ∧ start.store.array = start.array := by
  cases start with
  | sent t => exact gains_ofTemplate t
  | asked types => exact gains_query types

theorem follows_event (sound : s.Sound) (e : Event) :
    ∃ s', e.onStore s = some s' ∧ s.Follows s' (e.onArray s.array) := by
  cases e with
  | allocate r =>
    obtain ⟨s', outcome, follows⟩ := yields_allocate (r := r) sound
    exact ⟨s', by rw [Event.onStore, outcome]; rfl, follows⟩
  | mark i => exact ⟨_, rfl, follows_markUnavailable sound i⟩
  | write path w => exact ⟨_, rfl, follows_writeAt w path s sound⟩

theorem follows_run (sound : s.Sound) (events : List Event) :
    ∃ s', s.run events = some s' ∧
      s.Follows s' (events.foldl (fun entries e => e.onArray entries) s.array) := by
  induction events generalizing s with
  | nil => exact ⟨s, rfl, sound.follows⟩
  | cons e rest ih =>
    obtain ⟨middle, outcome, follows⟩ := follows_event sound e
    obtain ⟨s', outcome', follows'⟩ := ih follows.sound
    rw [follows.array] at follows'
    refine ⟨s', ?_, follows.trans follows'⟩
    rw [run, List.foldlM_cons, outcome]
    exact outcome'

/-- After any events, and whatever comes of later ones, the lists of a store go together at every
depth, each slot has storage of its own and keeps it, and reading it goes wrong nowhere; the
store stands for the array that the events make of entries with their storage. An allocation
that succeeds leaves nothing to another one. -/
theorem bookkeeping_holds (start : Start) (before after : List Event) :
    ∃ s s', start.store.run before = some s ∧ s.run after = some s' ∧
      s.Sound ∧ s.Extends s' ∧ s.Legible ∧
      s.array = before.foldl (fun entries e => e.onArray entries) start.array ∧
      ∀ r, ∃ t made, s.allocate r = some (t, made) ∧ made = (Wire.allocate r s.array).2 ∧
        ∀ b, made = .ok b → ∀ r', t.allocate r' = some (t, .ok false) := by
  obtain ⟨sound, array⟩ := sound_start start
  obtain ⟨s, ran, follows⟩ := follows_run sound before
  obtain ⟨s', ran', follows'⟩ := follows_run follows.sound after
  refine ⟨s, s', ran, ran', follows.sound, follows'.extended, legible follows.sound, ?_,
    fun r => ?_⟩
  · rw [follows.array, array]
  · obtain ⟨t, outcome, furnished⟩ := yields_allocate (r := r) follows.sound
    refine ⟨t, _, outcome, rfl, fun b done r' => allocate_of_furnished furnished.sound ?_⟩
    rw [furnished.array]
    exact furnished_allocateAll (fun e _ => furnished_allocate e) b done

def halfway : List Event :=
  [.write [0] ⟨none, [], some 2⟩, .write [1] ⟨none, [], some 48⟩, .allocate .bundled,
    .write [1, 0] ⟨some 0x3, [], some 5⟩, .write [1, 1] ⟨some 0x40000211, [], some 23⟩,
    .allocate .bundled, .write [1, 1] ⟨none, [], some 24⟩]

/-- The failure left what was made before it, and the rest is made at once. -/
theorem bookkeeping_holds_halfway :
    ∃ s t, (Start.asked [0x3, 0x40000211]).store.run halfway = some s ∧ s.Sound ∧
      s.slots = [.buffer 0, .nested 0] ∧ s.nested.map Store.slots = [[.buffer 0, .empty]] ∧
      s.allocate .bundled = some (t, .ok true) ∧ t.allocate .bundled = some (t, .ok false) := by
  obtain ⟨s, _, ran, _, sound, _, _, _, allocation⟩ :=
    bookkeeping_holds (.asked [0x3, 0x40000211]) halfway []
  have slots : ((Start.asked [0x3, 0x40000211]).store.run halfway).map Store.slots =
      some [.buffer 0, .nested 0] := rfl
  have inside : ((Start.asked [0x3, 0x40000211]).store.run halfway).map
      (fun s => s.nested.map Store.slots) = some [[.buffer 0, .empty]] := rfl
  have answer : ((Start.asked [0x3, 0x40000211]).store.run halfway).bind
      (fun s => (s.allocate .bundled).map Prod.snd) = some (.ok true) := rfl
  obtain ⟨t, made, outcome, _, idle⟩ := allocation .bundled
  rw [ran] at slots inside answer
  rw [Option.bind_some, outcome] at answer
  obtain rfl : made = .ok true := Option.some.inj answer
  exact ⟨s, t, ran, sound, Option.some.inj slots, Option.some.inj inside, outcome,
    idle true rfl .bundled⟩

end Store

end Cryptoki.Wire
