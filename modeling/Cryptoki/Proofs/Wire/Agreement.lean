import Cryptoki.Proofs.Wire.Refusal

/-!
Where the two readers agree. The one that follows the storage does not ask what pointers and
lengths say of it; the two part on arrays where that makes a difference.
-/
namespace Cryptoki

def Template.Alike (x y : Result Template) : Prop :=
  ∀ t : Template, Template.bare <$> x = .ok t ↔ Template.bare <$> y = .ok t

namespace Wire

variable {r : Registry}

mutual

/-- Each available value keeps to the storage there is: bytes where the type wants bytes, a whole
array where it wants a template, and no length for nothing. -/
def Entry.Settled (r : Registry) : Entry → Prop
  | .empty _ => True
  | .buffer h b => h.length = none ∨ (r.kind h.type ≠ .template ∧ (b = [] → h.length = some 0))
  | .nested h entries =>
    h.length = none ∨ (r.kind h.type = .template ∧
      h.length = some (entrySize * entries.length) ∧ SettledAll r entries)

def SettledAll (r : Registry) : List Entry → Prop
  | [] => True
  | e :: rest => e.Settled r ∧ SettledAll r rest

end

theorem head_cut (e : Entry) : (e.cut r).head = e.head := by
  cases e with
  | empty h => rfl
  | buffer h b | nested h entries =>
    unfold Entry.cut
    split
    · rfl
    · split <;> rfl

theorem absent_cut {e : Entry} (absent : e.head.length = none) :
    (e.cut r).toAttribute r = e.toAttribute r := by
  have kept : (e.cut r).head = e.head := head_cut e
  rw [toAttribute_of_absent absent, toAttribute_of_absent (kept ▸ absent), kept]

theorem toAttributes_cutAll_of_forall {entries : List Entry}
    (each : ∀ e ∈ entries, e.Settled r → (e.cut r).toAttribute r = e.toAttribute r)
    (settled : SettledAll r entries) :
    toAttributes r (cutAll r entries entries.length) = toAttributes r entries := by
  induction entries with
  | nil => rfl
  | cons e rest ih =>
    have first := each e List.mem_cons_self settled.1
    have others := ih (fun f member => each f (List.mem_cons_of_mem e member)) settled.2
    rw [List.length_cons, cutAll, toAttributes, toAttributes, first, others]

theorem toAttribute_cut (e : Entry) (settled : e.Settled r) :
    (e.cut r).toAttribute r = e.toAttribute r := by
  induction e using Entry.nested_induction with
  | empty h => rfl
  | buffer h b =>
    rcases settled with absent | ⟨kind, sized⟩
    · exact absent_cut absent
    · unfold Entry.cut
      cases b with
      | nil =>
        have length := sized rfl
        simp [Entry.toAttribute, length, kind]
      | cons x rest => simp [kind]
  | nested h entries ih =>
    rcases settled with absent | ⟨kind, length, inside⟩
    · exact absent_cut absent
    · unfold Entry.cut
      cases entries with
      | nil =>
        simp [Entry.toAttribute, length, kind, nestedCount, toAttributes, Template.empty]
      | cons e rest =>
        have counted : h.count = (e :: rest).length := by
          rw [Head.count, length, Option.getD_some]
          simp [entrySize]
        have members := toAttributes_cutAll_of_forall ih inside
        rw [← counted] at members
        simp only [List.isEmpty_cons, Bool.false_eq_true, kind, ↓reduceIte]
        rw [Entry.toAttribute, Entry.toAttribute, members]

theorem toAttributes_cutAll {entries : List Entry} (settled : SettledAll r entries) :
    toAttributes r (cutAll r entries entries.length) = toAttributes r entries :=
  toAttributes_cutAll_of_forall (fun e _ => toAttribute_cut e) settled

end Wire

namespace Template

open Wire

variable {r : Registry} {entries : List Entry}

/-- Following the pointers of an array gives what following its storage gives once it is cut.
The two readers agree on the array as it is just where the cut changes nothing for the second,
and so when every value keeps to its storage. A length without a value is refused. -/
theorem ofHeads_reads_the_cut (made : Exchanged entries)
    (covered : CoveredAll r entries entries.length) :
    bare <$> ofHeadsUnder r entries =
      bare <$> ofArrayUnder r (cutAll r entries entries.length) ∧
    (Alike (ofArrayUnder r entries) (ofHeadsUnder r entries) ↔
      Alike (ofArrayUnder r entries) (ofArrayUnder r (cutAll r entries entries.length))) ∧
    (SettledAll r entries → bare <$> ofArrayUnder r entries = bare <$> ofHeadsUnder r entries) ∧
    (LacksAny r entries entries.length →
      ∃ e, ofHeadsUnder r entries = .error e ∧ e.kind = .malformed) := by
  have cut : bare <$> ofHeadsUnder r entries =
      bare <$> ofArrayUnder r (cutAll r entries entries.length) := by
    have owned := ownedAll_of_exchanged made
    rw [ofHeadsUnder, ofArrayUnder, bare_map_collect, bare_map_collect]
    rw [bare_toAttributesByHead owned covered]
  refine ⟨cut, ?_, ?_, ?_⟩
  · unfold Alike
    rw [cut]
  · intro settled
    rw [cut, ofArrayUnder, ofArrayUnder, toAttributes_cutAll settled]
  · intro lacks
    obtain ⟨e, failed, malformed⟩ := malformed_of_lacksAny lacks
    refine ⟨e, ?_, malformed⟩
    rw [ofHeadsUnder, failed]
    rfl

def filled : List Entry :=
  let asked := writeAt [0] { length := some 24 } (query [0x40000211])
  let sized := writeAt [0, 0] { type := some 0x102, length := some 4 } (allocate .bundled asked).1
  writeAt [0, 0] { bytes := [1, 2, 3, 4] } (allocate .bundled sized).1

def lacking : List Entry :=
  writeAt [0] { length := some 4 } (toArray ⟨[.scalar 0x102 false (.bytes [])]⟩)

def shrunk : List Entry :=
  let asked := writeAt [0] { length := some 48 } (query [0x40000211])
  let typed := writeAt [0, 0] { type := some 0x102 } (allocate .bundled asked).1
  writeAt [0] { length := some 24 } typed

theorem exchanged_filled : Exchanged filled := by
  unfold filled
  refine .written (.allocated .bundled (.written (.allocated .bundled (.written
    (.asked [0x40000211]) (.inl rfl))) ?_)) ?_
  · intro h inner there
    cases there
    exact .inl rfl
  · intro h inner there
    cases there
    refine .inr fun h inner there => ?_
    cases there

theorem exchanged_lacking : Exchanged lacking := .written (.sent _) (.inl rfl)

theorem exchanged_shrunk : Exchanged shrunk := by
  unfold shrunk
  refine .written (.written (.allocated .bundled (.written (.asked [0x40000211]) (.inl rfl))) ?_)
    (.inl rfl)
  intro h inner there
  cases there
  exact .inl rfl

theorem covered_filled : CoveredAll .bundled filled filled.length := by
  refine ⟨⟨?_, ⟨?_, ?_⟩, trivial⟩, trivial⟩
  · intro n length
    cases length
    exact .inr (by decide)
  · intro n length
    cases length
    exact .inr (by decide)
  · intro kind
    exact absurd kind (by decide)

theorem covered_lacking : CoveredAll .bundled lacking lacking.length := by
  refine ⟨⟨?_, ?_⟩, trivial⟩
  · intro n length
    exact .inl rfl
  · intro kind
    exact absurd kind (by decide)

theorem covered_shrunk : CoveredAll .bundled shrunk shrunk.length := by
  refine ⟨⟨?_, ?_, trivial⟩, trivial⟩
  · intro n length
    cases length
    exact .inr (by decide)
  · intro n length
    exact .inl rfl

theorem ofHeads_reads_the_cut_of_filled_and_lacking :
    bare <$> ofArrayUnder .bundled filled = bare <$> ofHeadsUnder .bundled filled ∧
    ∃ e, ofHeadsUnder .bundled lacking = .error e ∧ e.kind = .malformed := by
  constructor
  · have settled : SettledAll .bundled filled := by
      refine ⟨.inr ⟨rfl, rfl, .inr ⟨by decide, ?_⟩, trivial⟩, trivial⟩
      intro nothing
      cases nothing
    exact (ofHeads_reads_the_cut exchanged_filled covered_filled).2.2.1 settled
  · have lacks : LacksAny .bundled lacking lacking.length := .inl (.inl ⟨rfl, 4, rfl, by decide⟩)
    exact (ofHeads_reads_the_cut exchanged_lacking covered_lacking).2.2.2 lacks

/-- The reader of the storage gives an empty value for a length without one, and is stopped by an
entry that the length leaves out. -/
theorem ofArray_reads_past_the_cut :
    (Exchanged lacking ∧ CoveredAll .bundled lacking lacking.length ∧
      ofArray lacking = .ok ⟨[.scalar 0x102 false (.bytes [])]⟩ ∧
      ofHeads lacking = .error (.valueMissing "CKA_ID")) ∧
    (Exchanged shrunk ∧ CoveredAll .bundled shrunk shrunk.length ∧
      ofArray shrunk = .error (.wordLength 0) ∧
      ofHeads shrunk = .ok ⟨[.template 0x40000211 false [.scalar 0x102 false (.bytes [])]]⟩) :=
  ⟨⟨exchanged_lacking, covered_lacking, rfl, rfl⟩, exchanged_shrunk, covered_shrunk, rfl, rfl⟩

end Template

end Cryptoki
