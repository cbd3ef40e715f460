import Cryptoki.Proofs.Wire.Image
import Cryptoki.Proofs.Wire.Reading
import Mathlib.Data.List.Forall2

/-!
For every object there is a module that answers faithfully for it: the module that writes to each
entry in turn what the object stores.
-/
namespace Cryptoki

def Patch.inside (i : Nat) (p : Patch) : Patch := { p with path := i :: p.path }

namespace Wire

theorem modify_append {α : Type} (before rest : List α) (a : α) (f : α → α) :
    (before ++ a :: rest).modify before.length f = before ++ f a :: rest := by
  induction before with
  | nil => rfl
  | cons b before ih => simp [ih]

theorem patch_here (before rest : List Entry) (e : Entry) (w : Write) :
    patch (before ++ e :: rest) ⟨[before.length], w⟩ = before ++ e.write w :: rest :=
  modify_append before rest e _

theorem patch_inside (before rest entries : List Entry) {h : Head} (reached : h.pointer = .own)
    {p : Patch} (somewhere : p.path ≠ []) :
    patch (before ++ .nested h entries :: rest) (p.inside before.length) =
      before ++ .nested h (patch entries p) :: rest := by
  obtain ⟨path, w⟩ := p
  cases path with
  | nil => exact absurd rfl somewhere
  | cons i path =>
    refine (modify_append before rest _ _).trans ?_
    simp [Entry.atNested, Entry.isReached, Entry.head, reached, patch, Patch.inside]

theorem foldl_patch_inside (before rest : List Entry) {h : Head} (reached : h.pointer = .own)
    (ps : List Patch) (somewhere : ∀ p ∈ ps, p.path ≠ []) (entries : List Entry) :
    (ps.map (Patch.inside before.length)).foldl patch (before ++ .nested h entries :: rest) =
      before ++ .nested h (ps.foldl patch entries) :: rest := by
  induction ps generalizing entries with
  | nil => rfl
  | cons p ps ih =>
    have others := ih fun q member => somewhere q (List.mem_cons_of_mem p member)
    rw [List.map_cons, List.foldl_cons, patch_inside _ _ _ reached (somewhere p List.mem_cons_self),
      others, List.foldl_cons]

def Entry.members : Entry → List Entry
  | .nested _ entries => entries
  | _ => []

section

variable {h : Head} {t : Code} {n : Nat} (small : n < unavailable)
include small

theorem write_empty (b : Bytes) :
    (Entry.empty h).write { type := some t, bytes := b, length := some n } =
      .empty { h with type := t, length := some n } := by
  have unreached : ∀ h' : Head, Entry.overwrite b (.empty h') = .empty h' := by
    intro h'
    unfold Entry.overwrite
    split <;> rfl
  simp [Entry.write, Entry.withHead, unreached, Entry.head, lengthOfWord_of_lt small]

theorem write_buffer (reached : h.pointer = .own) (old b : Bytes) :
    (Entry.buffer h old).write { type := some t, bytes := b, length := some n } =
      .buffer { h with type := t, length := some n } (Bytes.overwrite old b) := by
  simp [Entry.write, Entry.withHead, Entry.head, Entry.overwrite, Entry.isReached, reached,
    lengthOfWord_of_lt small]

theorem write_nested (reached : h.pointer = .own) {entries : List Entry}
    (plain : ∀ e ∈ entries, e.head.pointer = .null ∨ e.head.pointer = .own)
    (sized : ∀ e ∈ entries, e.head.HasLength) :
    (Entry.nested h entries).write { type := some t, length := some n } =
      .nested { h with type := t, length := some n } entries := by
  simp [Entry.write, Entry.withHead, Entry.head, Entry.overwrite, Entry.isReached, reached,
    overwriteImage_nil plain sized, lengthOfWord_of_lt small]

end

theorem write_withheld (h : Head) (t : Code) :
    (Entry.empty h).write { type := some t, length := some unavailable } =
      .empty { h with type := t, length := none } := by
  have unreached : ∀ h' : Head, Entry.overwrite [] (.empty h') = .empty h' := by
    intro h'
    unfold Entry.overwrite
    split <;> rfl
  simp [Entry.write, Entry.withHead, unreached, Entry.head, lengthOfWord]

namespace Stored

theorem plain_of_suits {v : Stored} {e : Entry} (suits : v.Suits e) :
    (e.head.pointer = .null ∨ e.head.pointer = .own) ∧ e.head.HasLength := by
  cases e with
  | empty h =>
    have shape : h.pointer = .null ∧ ∀ n ∈ h.length, n < unavailable := by
      cases v <;> exact suits
    exact ⟨.inl shape.1, shape.2⟩
  | buffer h old =>
    cases v with
    | bytes t b =>
      obtain ⟨own, length, small, _⟩ := suits
      refine ⟨.inr own, fun n member => ?_⟩
      cases length.symm.trans member
      exact small
    | withheld t | members t ms => cases suits
  | nested h entries =>
    cases v with
    | members t ms =>
      obtain ⟨own, length, small, _⟩ := suits
      refine ⟨.inr own, fun n member => ?_⟩
      cases length.symm.trans member
      exact small
    | withheld t | bytes t b => cases suits

theorem forall₂_of_suitsAll {vs : List Stored} {entries : List Entry}
    (suits : SuitsAll vs entries) : List.Forall₂ Suits vs entries := by
  induction vs generalizing entries with
  | nil =>
    cases entries with
    | nil => exact .nil
    | cons e rest => cases suits
  | cons v vs ih =>
    cases entries with
    | nil => cases suits
    | cons e rest => exact .cons suits.1 (ih suits.2)

theorem length_of_suitsAll {vs : List Stored} {entries : List Entry}
    (suits : SuitsAll vs entries) : vs.length = entries.length :=
  (forall₂_of_suitsAll suits).length_eq

theorem plain_of_suitsAll {vs : List Stored} {entries : List Entry}
    (suits : SuitsAll vs entries) : ∀ e ∈ entries,
      (e.head.pointer = .null ∨ e.head.pointer = .own) ∧ e.head.HasLength := by
  have pairs := forall₂_of_suitsAll suits
  clear suits
  induction pairs with
  | nil =>
    intro e member
    cases member
  | cons suits _ ih =>
    intro f member
    rcases List.mem_cons.mp member with rfl | later
    · exact plain_of_suits suits
    · exact ih f later

theorem plain_fill {r : Registry} {v : Stored} (fits : v.Fits r) {e : Entry}
    (plain : e.head.pointer = .null ∨ e.head.pointer = .own) :
    ((v.fill e).head.pointer = .null ∨ (v.fill e).head.pointer = .own) ∧
      (v.fill e).head.HasLength := by
  cases v with
  | withheld t =>
    refine ⟨by cases e <;> exact plain, fun n member => ?_⟩
    cases e <;> cases member
  | bytes t b =>
    refine ⟨by cases e <;> exact plain, fun n member => ?_⟩
    cases e <;> cases member <;> exact fits.2
  | members t ms =>
    refine ⟨by cases e <;> exact plain, fun n member => ?_⟩
    cases e <;> cases member <;> exact fits.2.1

theorem plain_fillAll {r : Registry} {vs : List Stored} (fits : ∀ v ∈ vs, v.Fits r)
    {entries : List Entry} (suits : SuitsAll vs entries) : ∀ e ∈ fillAll vs entries,
      (e.head.pointer = .null ∨ e.head.pointer = .own) ∧ e.head.HasLength := by
  have pairs := forall₂_of_suitsAll suits
  clear suits
  induction pairs with
  | nil =>
    intro e member
    cases member
  | @cons v e vs rest suits _ ih =>
    intro f member
    rcases List.mem_cons.mp member with rfl | later
    · exact plain_fill (fits v List.mem_cons_self) (plain_of_suits suits).1
    · exact ih (fun w there => fits w (List.mem_cons_of_mem v there)) f later

mutual

def patchesFor (i : Nat) : Stored → Entry → List Patch
  | .withheld t, _ => [⟨[i], { type := some t, length := some unavailable }⟩]
  | .bytes t b, _ => [⟨[i], { type := some t, bytes := b, length := some b.length }⟩]
  | .members t ms, e =>
    ⟨[i], { type := some t, length := some (entrySize * ms.length) }⟩ ::
      (patchesAll 0 ms e.members).map (Patch.inside i)

def patchesAll (i : Nat) : List Stored → List Entry → List Patch
  | v :: vs, e :: rest => v.patchesFor i e ++ patchesAll (i + 1) vs rest
  | _, _ => []

end

theorem patchesFor_somewhere (i : Nat) (v : Stored) (e : Entry) :
    ∀ p ∈ v.patchesFor i e, p.path ≠ [] := by
  intro p member
  cases v with
  | withheld t | bytes t b =>
    simp only [patchesFor, List.mem_singleton] at member
    simp [member]
  | members t ms =>
    rw [patchesFor] at member
    rcases List.mem_cons.mp member with rfl | inner
    · simp
    · obtain ⟨q, _, rfl⟩ := List.mem_map.mp inner
      simp [Patch.inside]

theorem patchesAll_somewhere (i : Nat) (vs : List Stored) (entries : List Entry) :
    ∀ p ∈ patchesAll i vs entries, p.path ≠ [] := by
  induction vs generalizing i entries with
  | nil =>
    intro p member
    simp [patchesAll] at member
  | cons v vs ih =>
    cases entries with
    | nil =>
      intro p member
      simp [patchesAll] at member
    | cons e rest =>
      intro p member
      rw [patchesAll] at member
      rcases List.mem_append.mp member with here | later
      · exact patchesFor_somewhere i v e p here
      · exact ih (i + 1) rest p later

theorem foldl_patchesAll_of_forall {vs : List Stored}
    (each : ∀ v ∈ vs, ∀ (before rest : List Entry) (e : Entry), v.Suits e →
      (v.patchesFor before.length e).foldl patch (before ++ e :: rest) =
        before ++ v.fill e :: rest)
    (before entries : List Entry) (suits : SuitsAll vs entries) :
    (patchesAll before.length vs entries).foldl patch (before ++ entries) =
      before ++ fillAll vs entries := by
  induction vs generalizing before entries with
  | nil => simp [patchesAll, fillAll]
  | cons v vs ih =>
    cases entries with
    | nil => cases suits
    | cons e rest =>
      have others := ih (fun w member => each w (List.mem_cons_of_mem v member))
        (before ++ [v.fill e]) rest suits.2
      rw [List.length_append, List.length_singleton, List.append_assoc, List.append_assoc]
        at others
      rw [patchesAll, List.foldl_append, each v List.mem_cons_self before rest e suits.1]
      exact others

theorem patchesAll_nil (i : Nat) (vs : List Stored) : patchesAll i vs [] = [] := by
  cases vs <;> rfl

theorem foldl_patchesFor {r : Registry} {v : Stored} (fits : v.Fits r) (before rest : List Entry)
    (e : Entry) (suits : v.Suits e) :
    (v.patchesFor before.length e).foldl patch (before ++ e :: rest) =
      before ++ v.fill e :: rest := by
  induction v using nested_induction generalizing before rest e with
  | withheld t =>
    rw [patchesFor, List.foldl_cons, List.foldl_nil, patch_here]
    cases e with
    | empty h => rw [write_withheld, fill, Entry.withHead, Entry.head]
    | buffer h old => cases suits
    | nested h entries => cases suits
  | bytes t b =>
    rw [patchesFor, List.foldl_cons, List.foldl_nil, patch_here]
    cases e with
    | empty h =>
      rw [write_empty fits.2]
      rfl
    | buffer h old => rw [write_buffer fits.2 suits.1, fill]
    | nested h entries => cases suits
  | members t ms ih =>
    rw [patchesFor, List.foldl_cons, patch_here]
    cases e with
    | empty h =>
      simp only [write_empty fits.2.1, Entry.members, patchesAll_nil, List.map_nil,
        List.foldl_nil]
      rfl
    | buffer h old => cases suits
    | nested h entries =>
      obtain ⟨reached, _, _, inside⟩ := suits
      have plain := plain_of_suitsAll inside
      have inner := foldl_patchesAll_of_forall (fun v member before rest e =>
        ih v member (fitsAll_iff.mp fits.2.2 v member) before rest e) [] entries inside
      rw [write_nested fits.2.1 reached (fun e member => (plain e member).1)
        fun e member => (plain e member).2, Entry.members]
      have own : ({ h with type := t, length := some (entrySize * ms.length) } : Head).pointer =
          .own := reached
      refine (foldl_patch_inside before rest own _ ?_ entries).trans ?_
      · exact patchesAll_somewhere 0 ms entries
      · rw [fill]
        exact congrArg (fun es => before ++ Entry.nested _ es :: rest) inner

theorem foldl_patchesAll {r : Registry} {vs : List Stored} (fits : ∀ v ∈ vs, v.Fits r)
    (entries : List Entry) (suits : SuitsAll vs entries) :
    (patchesAll 0 vs entries).foldl patch entries = fillAll vs entries :=
  foldl_patchesAll_of_forall
    (fun v member before rest e => foldl_patchesFor (fits v member) before rest e) [] entries suits

end Stored

namespace StoredObject

variable {r : Registry} {o : StoredObject}

theorem fits_value (fits : ∀ v ∈ o, v.Fits r) (type : Code) : (o.value type).Fits r := by
  unfold value
  cases found : o.find? (·.type == type) with
  | none => trivial
  | some v => exact fits v (List.mem_of_find?_eq_some found)

def answer (o : StoredObject) {shape : Shape} : Request shape → Answer shape
  | .getAttributeValue _ _ entries =>
    ⟨.attributes (Stored.patchesAll 0 (entries.map fun e => o.value e.head.type) entries), .ok ()⟩
  | _ => .unsupported

def module (o : StoredObject) : Module Unit := ⟨fun q _ => (o.answer q, (), [])⟩

theorem module_faithful (fits : ∀ v ∈ o, v.Fits r) (session object : Handle) :
    Faithful o.module session object o fun _ => True where
  fills _ _ entries suits := by
    refine Stored.foldl_patchesAll (r := r) (fun v member => ?_) entries suits
    obtain ⟨e, _, rfl⟩ := List.mem_map.mp member
    exact fits_value fits e.head.type
  stays _ _ _ := trivial

end StoredObject

end Wire

end Cryptoki
