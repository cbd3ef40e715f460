import Cryptoki.Proofs.Session.Action
import Cryptoki.Proofs.Wire.Answering

/-!
What a reading of attributes gives, when the module answers faithfully: the stored values, but for
zeros in place of what lies two templates deep.
-/
namespace Cryptoki

open Wire

namespace Wire.StoredObject

def reading (o : StoredObject) (r : Registry) (types : List Code) : Result Template :=
  collect <$> Stored.readAll r (types.map o.value)

/-- The same, with zeros for what lies deeper than `depth` templates. -/
def readingTo (depth : Nat) (o : StoredObject) (r : Registry) (types : List Code) :
    Result Template :=
  collect <$> Stored.readAll r (types.map fun type => (o.value type).seen depth)

theorem asked_eq {o : StoredObject} {types : List Code} {entries : List Entry}
    (asked : entries.map (·.head.type) = types) :
    (entries.map fun e => o.value e.head.type) = types.map o.value := by
  rw [← asked, List.map_map]
  rfl

theorem fits_values {r : Registry} {o : StoredObject} (fits : ∀ v ∈ o, v.Fits r)
    (types : List Code) : ∀ v ∈ types.map o.value, v.Fits r := by
  intro v member
  obtain ⟨type, _, rfl⟩ := List.mem_map.mp member
  exact fits_value fits type

theorem types_values (o : StoredObject) (types : List Code) :
    (types.map o.value).map Stored.type = types := by
  rw [List.map_map]
  refine (List.map_congr_left fun type _ => ?_).trans (List.map_id types)
  exact o.value_type type

end Wire.StoredObject

namespace Session

open SessionM

variable {σ : Type} {M : Module σ} {object : Handle} {o : StoredObject} {keeps : σ → Prop}
  {s s' : Session} {h h' : Host σ}

theorem readAttributes_eq_ok {entries after : List Entry} {secret : Bool}
    (run : readAttributes M object entries s h = ((.ok (after, secret), s'), h')) :
    after = (M.answer (.getAttributeValue s.handle object entries) h.state).1.written.array entries ∧
    s' = s ∧ h'.state = (M.answer (.getAttributeValue s.handle object entries) h.state).2.1 := by
  obtain ⟨_, _, _, handle, run⟩ := bind_eq_ok run
  cases handle
  obtain ⟨a, _, _, answered, run⟩ := bind_eq_ok run
  cases answered
  split at run
  · cases run
    exact ⟨rfl, rfl, rfl⟩
  · split at run
    · cases run
      exact ⟨rfl, rfl, rfl⟩
    · split at run
      · cases run
        exact ⟨rfl, rfl, rfl⟩
      · cases run

theorem readAttributes_faithful (faithful : Faithful M s.handle object o keeps)
    (kept : keeps h.state) {types : List Code} {entries after : List Entry} {secret : Bool}
    (asked : entries.map (·.head.type) = types)
    (suits : Stored.SuitsAll (types.map o.value) entries)
    (run : readAttributes M object entries s h = ((.ok (after, secret), s'), h')) :
    after = Stored.fillAll (types.map o.value) entries ∧ s' = s ∧ keeps h'.state := by
  obtain ⟨written, same, next⟩ := readAttributes_eq_ok run
  have values := StoredObject.asked_eq (o := o) asked
  refine ⟨?_, same, ?_⟩
  · rw [written, ← values]
    exact faithful.fills h.state kept entries (values ▸ suits)
  · rw [next]
    exact faithful.stays h.state kept entries

theorem query_eq (o : StoredObject) (types : List Code) :
    query types = Stored.arrayBefore .bundled 0 (types.map o.value) := by
  rw [query, Stored.arrayBefore, List.map_map]
  refine List.map_congr_left fun type _ => ?_
  rw [Function.comp_apply, StoredObject.value_type]

theorem readPasses_step (faithful : Faithful M s.handle object o keeps)
    (fits : ∀ v ∈ o, v.Fits .bundled) (types : List Code) (passes depth : Nat)
    {after : List Entry} {secret : Bool} (kept : keeps h.state)
    (run : readPasses M object (passes + 1)
      (Stored.arrayBefore .bundled depth (types.map o.value)) s h = ((.ok (after, secret), s'), h')) :
    ((types.map o.value).any (Stored.reaches depth) = false ∧
      after = Stored.arrayOf .bundled depth (types.map o.value)) ∨
    ∃ h₁ later s₂ h₂, keeps h₁.state ∧
      readPasses M object passes (Stored.arrayBefore .bundled (depth + 1) (types.map o.value))
        s h₁ = ((.ok (after, later), s₂), h₂) := by
  have each := StoredObject.fits_values fits types
  have asked : (Stored.arrayBefore .bundled depth (types.map o.value)).map (·.head.type) = types :=
    (Stored.types_arrayBefore depth _).trans (o.types_values types)
  obtain ⟨⟨entries, first⟩, s₁, h₁, reading, rest⟩ := bind_eq_ok run
  obtain ⟨filled, same, kept'⟩ := readAttributes_faithful faithful kept asked
    (Stored.suitsAll_arrayBefore each depth) reading
  simp only [filled, Stored.allocate_fillAll_arrayBefore each depth] at rest
  obtain ⟨_, _, _, room, rest⟩ := bind_eq_ok rest
  cases room
  obtain ⟨made, _, _, found, rest⟩ := bind_eq_ok rest
  cases found
  cases ends : (types.map o.value).any (Stored.reaches depth) with
  | true =>
    rw [ends, same] at rest
    obtain ⟨⟨entries', later⟩, _, _, reread, rest⟩ := bind_eq_ok rest
    cases rest
    exact .inr ⟨h₁, later, _, _, kept', reread⟩
  | false =>
    rw [ends] at rest
    cases rest
    exact .inl ⟨rfl, rfl⟩

theorem readPasses_faithful (faithful : Faithful M s.handle object o keeps)
    (fits : ∀ v ∈ o, v.Fits .bundled) (types : List Code) (passes depth : Nat)
    {after : List Entry} {secret : Bool} (kept : keeps h.state)
    (run : readPasses M object (passes + 1)
      (Stored.arrayBefore .bundled depth (types.map o.value)) s h = ((.ok (after, secret), s'), h')) :
    after = Stored.arrayOf .bundled (depth + passes) (types.map o.value) := by
  induction passes generalizing depth h s' h' secret with
  | zero =>
    rcases readPasses_step faithful fits types 0 depth kept run with
      ⟨_, found⟩ | ⟨_, _, _, _, _, none_left⟩
    · exact found
    · cases none_left
      rfl
  | succ passes ih =>
    rcases readPasses_step faithful fits types (passes + 1) depth kept run with
      ⟨ends, found⟩ | ⟨h₁, _, _, _, kept', later⟩
    · rw [found]
      exact Stored.arrayOf_of_ends ends (Nat.le_add_right depth (passes + 1))
    · have deeper := ih (depth + 1) kept' later
      rw [deeper, Nat.add_assoc, Nat.add_comm 1 passes]

theorem flagSecrets_eq_ok (types : List Code) {t after : Template}
    (run : flagSecrets M object types t s h = ((.ok after, s'), h')) : after.bare = t.bare := by
  induction types generalizing t s h with
  | nil =>
    cases run
    rfl
  | cons type rest ih =>
    obtain ⟨⟨_, secret⟩, _, _, _, run⟩ := bind_eq_ok run
    rw [ih run]
    cases secret with
    | true => exact Template.bare_markSensitive t type
    | false => rfl

theorem getAttributes_faithful (faithful : Faithful M s.handle object o keeps)
    (kept : keeps h.state) (fits : ∀ v ∈ o, v.Fits .bundled) {types : List Code} {t : Template}
    (run : getAttributes M object types s h = ((.ok t, s'), h')) :
    o.readingTo 2 .bundled types = .ok t.bare := by
  have each := StoredObject.fits_values fits types
  obtain ⟨⟨entries, secret⟩, _, _, passes, rest⟩ := bind_eq_ok run
  rw [query_eq o types] at passes
  have final : entries = Stored.arrayOf .bundled 2 (types.map o.value) :=
    (readPasses_faithful faithful fits types 2 0 kept passes).trans (by rw [Nat.zero_add])
  obtain ⟨decoded, _, _, found, rest⟩ := bind_eq_ok rest
  have read : Template.ofArrayUnder .bundled entries = .ok decoded := by
    change SessionM.ofResult (Template.ofArrayUnder .bundled entries) _ _ = _ at found
    cases result : Template.ofArrayUnder .bundled entries with
    | ok t =>
      rw [result] at found
      cases found
      rfl
    | error e =>
      rw [result] at found
      cases found
  have bare : t.bare = decoded.bare := by
    cases secret with
    | true => exact flagSecrets_eq_ok _ rest
    | false =>
      cases rest
      rfl
  have whole := Stored.ofArrayUnder_arrayOf each 2
  rw [← final, read, List.map_map] at whole
  rw [bare, StoredObject.readingTo]
  exact whole.symm

/-- A reading that succeeds gives what the object stores as far as two templates deep. It gives
just what is stored when each value asked for reads the same as far as that, and so when nothing
is stored any deeper. -/
theorem getAttributes_reads_two_deep (faithful : Faithful M s.handle object o keeps)
    (kept : keeps h.state) (fits : ∀ v ∈ o, v.Fits .bundled) {types : List Code} {t : Template}
    (run : getAttributes M object types s h = ((.ok t, s'), h')) :
    o.readingTo 2 .bundled types = .ok t.bare ∧
    (o.reading .bundled types = .ok t.bare ↔ ∀ type ∈ types,
      ((o.value type).seen 2).read .bundled = (o.value type).read .bundled) ∧
    ((∀ type ∈ types, (o.value type).reaches 2 = false) →
      o.reading .bundled types = .ok t.bare) := by
  have seen := getAttributes_faithful faithful kept fits run
  have exactly : o.reading .bundled types = .ok t.bare ↔ ∀ type ∈ types,
      ((o.value type).seen 2).read .bundled = (o.value type).read .bundled := by
    have typed : ∀ type, ((o.value type).seen 2).type = type :=
      fun type => (Stored.seen_type 2 _).trans (o.value_type type)
    rw [← Stored.collect_readAll_eq_iff typed o.value_type seen, ← seen]
    exact eq_comm
  refine ⟨seen, exactly, fun shallow => exactly.mpr fun type member => ?_⟩
  rw [Stored.seen_of_not_reaches (shallow type member)]

def wrapped : StoredObject := [.members 0x40000211 [.bytes 0x102 [1, 2, 3, 4]]]

theorem wrapped_fits : ∀ v ∈ wrapped, v.Fits .bundled := by
  intro v member
  obtain rfl := List.mem_singleton.mp member
  exact ⟨rfl, by decide, ⟨by decide, by decide⟩, trivial⟩

theorem getAttributes_reads_wrapped :
    wrapped.reading .bundled [0x40000211] =
      .ok ⟨[.template 0x40000211 false [.scalar 0x102 false (.bytes [1, 2, 3, 4])]]⟩ := by
  have run : getAttributes wrapped.module 1 [0x40000211] ⟨1, 1, fun _ => .idle⟩ ⟨(), []⟩ =
      ((.ok ⟨[.template 0x40000211 false [.scalar 0x102 false (.bytes [1, 2, 3, 4])]]⟩,
        ⟨1, 1, fun _ => .idle⟩), ⟨(), []⟩) := by rfl
  refine (getAttributes_reads_two_deep (StoredObject.module_faithful wrapped_fits 1 1) trivial
    wrapped_fits run).2.2 ?_
  intro type member
  obtain rfl := List.mem_singleton.mp member
  rfl

def wrappedTwice : StoredObject :=
  [.members 0x40000211 [.members 0x40000211 [.bytes 0x102 [1, 2, 3, 4]]]]

theorem wrappedTwice_fits : ∀ v ∈ wrappedTwice, v.Fits .bundled := by
  intro v member
  obtain rfl := List.mem_singleton.mp member
  exact ⟨rfl, by decide, ⟨rfl, by decide, ⟨by decide, by decide⟩, trivial⟩, trivial⟩

/-- Zeros are given for the four bytes, though the module answers faithfully. -/
theorem getAttributes_gives_zeros :
    Faithful wrappedTwice.module 1 1 wrappedTwice (fun _ => True) ∧
    (getAttributes wrappedTwice.module 1 [0x40000211] ⟨1, 1, fun _ => .idle⟩ ⟨(), []⟩).1.1 =
      .ok ⟨[.template 0x40000211 false [.template 0x40000211 false
        [.scalar 0x102 false (.bytes [0, 0, 0, 0])]]]⟩ ∧
    wrappedTwice.reading .bundled [0x40000211] =
      .ok ⟨[.template 0x40000211 false [.template 0x40000211 false
        [.scalar 0x102 false (.bytes [1, 2, 3, 4])]]]⟩ :=
  ⟨StoredObject.module_faithful wrappedTwice_fits 1 1, rfl, rfl⟩

end Session

end Cryptoki
