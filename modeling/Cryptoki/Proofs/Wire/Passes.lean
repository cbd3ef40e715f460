import Cryptoki.Proofs.Wire.Decoding
import Cryptoki.Proofs.Wire.Seen

/-!
Readings one after the other, with storage made in between. Each reading goes one template deeper.
-/
namespace Cryptoki.Wire.Stored

variable {r : Registry}

theorem allocate_fillAll {vs : List Stored} {before after : Stored → Entry}
    {made : Stored → Bool}
    (each : ∀ v ∈ vs, (v.fill (before v)).allocate r = (after v, .ok (made v))) :
    allocate r (fillAll vs (vs.map before)) = (vs.map after, .ok (vs.any made)) := by
  induction vs with
  | nil => rfl
  | cons v rest ih =>
    have others := ih fun w member => each w (List.mem_cons_of_mem v member)
    simp only [List.map_cons, fillAll, allocate, each v List.mem_cons_self, others, List.any_cons]
    rfl

section

variable {h : Head} {n : Nat}

theorem allocate_flat (length : h.length = some n) (some_bytes : n ≠ 0)
    (flat : r.kind h.type ≠ .template) :
    (Entry.empty h).allocate r =
      (.buffer { h with pointer := .own } (List.replicate n 0), .ok true) := by
  obtain ⟨m, rfl⟩ := Nat.exists_eq_add_one_of_ne_zero some_bytes
  simp only [Entry.allocate, length, flat, ↓reduceIte]

theorem allocate_nested (length : h.length = some (entrySize * n)) (some_members : n ≠ 0)
    (nested : r.kind h.type = .template) :
    (Entry.empty h).allocate r =
      (.nested { h with pointer := .own } (List.replicate n (.blank 0 false)), .ok true) := by
  have positive : entrySize * n ≠ 0 := Nat.mul_ne_zero (by decide) some_members
  obtain ⟨m, form⟩ := Nat.exists_eq_add_one_of_ne_zero positive
  have count : nestedCount r h.type (m + 1) = .ok n := by
    rw [← form]
    exact nestedCount_mul h.type n
  simp only [Entry.allocate, length, form, nested, ↓reduceIte, count]

theorem entry_members {t : Code} {ms : List Stored} {sensitive : Bool} (some_members : ms ≠ []) :
    (Stored.members t ms).entry sensitive =
      .nested ⟨t, some (entrySize * ms.length), .own, sensitive⟩ (entries ms) := by
  simp [entry, some_members]

theorem entry_bytes {t : Code} {b : Bytes} {sensitive : Bool} (some_bytes : b ≠ []) :
    (Stored.bytes t b).entry sensitive = .buffer ⟨t, some b.length, .own, sensitive⟩ b := by
  simp [entry, some_bytes]

end

def memberEntry : Nat → Stored → Entry
  | 0, _ => .blank 0 false
  | depth + 1, v => (v.seen depth).entry false

theorem map_memberEntry_zero (ms : List Stored) :
    ms.map (memberEntry 0) = List.replicate ms.length (.blank 0 false) := by
  induction ms with
  | nil => rfl
  | cons v rest ih => rw [List.map_cons, ih, List.length_cons, List.replicate_succ, memberEntry]

theorem entry_seen_members {t : Code} {ms : List Stored} {sensitive : Bool}
    (some_members : ms ≠ []) (depth : Nat) :
    ((Stored.members t ms).seen depth).entry sensitive =
      .nested ⟨t, some (entrySize * ms.length), .own, sensitive⟩ (ms.map (memberEntry depth)) := by
  cases depth with
  | zero =>
    have blanks : List.replicate ms.length (Stored.bytes 0 []) ≠ [] := by simpa using some_members
    rw [seen, entry_members blanks, entries_eq_map, List.map_replicate, List.length_replicate,
      map_memberEntry_zero]
    rfl
  | succ depth =>
    have deeper : seenAll depth ms ≠ [] := by simpa [seenAll_eq_map] using some_members
    rw [seen, entry_members deeper, entries_eq_map, seenAll_eq_map, List.map_map, List.length_map]
    rfl

theorem allocate_fill_blank {v : Stored} (fits : v.Fits r) (type : Code) (sensitive : Bool) :
    (v.fill (.blank type sensitive)).allocate r =
      ((v.seen 0).entry sensitive, .ok (v.reaches 0)) := by
  cases v with
  | withheld t => rfl
  | bytes t b =>
    by_cases empty : b = []
    · subst empty
      rfl
    · have flat : r.kind t ≠ .template := fits.1
      have zeros : List.replicate b.length (0 : UInt8) ≠ [] := by simpa using empty
      simp only [fill, Entry.blank, Entry.withHead, Entry.head]
      rw [allocate_flat rfl (by simpa using empty) flat, seen, if_pos rfl, entry_bytes zeros]
      simp [reaches, empty]
  | members t ms =>
    by_cases empty : ms = []
    · subst empty
      rfl
    · have nested : r.kind t = .template := fits.1
      simp only [fill, Entry.blank, Entry.withHead, Entry.head]
      rw [allocate_nested rfl (by simpa using empty) nested, entry_seen_members empty,
        map_memberEntry_zero]
      simp [reaches, empty]

theorem overwrite_same_length {old new : Bytes} (same : old.length = new.length) :
    Bytes.overwrite old new = new := by
  simp [Bytes.overwrite, same]

/-- With storage for what was seen, one template more is seen. -/
theorem allocate_fill_entry {v : Stored} (fits : v.Fits r) (depth : Nat) (sensitive : Bool) :
    (v.fill ((v.seen depth).entry sensitive)).allocate r =
      ((v.seen (depth + 1)).entry sensitive, .ok (v.reaches (depth + 1))) := by
  induction v using nested_induction generalizing depth sensitive with
  | withheld t => rfl
  | bytes t b =>
    by_cases empty : b = []
    · subst empty
      simp only [seen, List.length_nil, List.replicate_zero, ite_self]
      rfl
    · rw [seen, entry_bytes (seen_bytes_ne_nil empty depth), fill,
        overwrite_same_length (length_seen_bytes depth b), Entry.allocate, seen,
        if_neg (Nat.succ_ne_zero depth), entry_bytes empty]
      rfl
  | members t ms ih =>
    have each : ∀ v ∈ ms, v.Fits r := fitsAll_iff.mp fits.2.2
    by_cases empty : ms = []
    · subst empty
      cases depth <;> rfl
    · have members_done : ∀ v ∈ ms, (v.fill (memberEntry depth v)).allocate r =
          ((v.seen depth).entry false, .ok (v.reaches depth)) := by
        intro v member
        cases depth with
        | zero => exact allocate_fill_blank (each v member) 0 false
        | succ depth => exact ih v member (each v member) depth false
      rw [entry_seen_members empty, fill, Entry.allocate, allocate_fillAll members_done,
        entry_seen_members empty, reaches, reachesAny_eq_any]
      rfl

theorem suitsAll_map {vs : List Stored} {before : Stored → Entry}
    (each : ∀ v ∈ vs, v.Suits (before v)) : SuitsAll vs (vs.map before) := by
  induction vs with
  | nil => trivial
  | cons v rest ih =>
    exact ⟨each v List.mem_cons_self, ih fun w member => each w (List.mem_cons_of_mem v member)⟩

theorem suits_blank (v : Stored) (type : Code) (sensitive : Bool) :
    v.Suits (.blank type sensitive) := by
  have short : ∀ n ∈ (some 0 : Option Nat), n < unavailable := by
    intro n member
    cases member
    decide
  cases v <;> exact ⟨rfl, short⟩

theorem suits_entry {v : Stored} (fits : v.Fits r) (depth : Nat) (sensitive : Bool) :
    v.Suits ((v.seen depth).entry sensitive) := by
  induction v using nested_induction generalizing depth sensitive with
  | withheld t => exact ⟨rfl, fun n member => nomatch member⟩
  | bytes t b =>
    by_cases empty : b = []
    · subst empty
      simp only [seen, List.length_nil, List.replicate_zero, ite_self]
      exact suits_blank _ t sensitive
    · have same := length_seen_bytes depth b
      rw [seen, entry_bytes (seen_bytes_ne_nil empty depth)]
      refine ⟨rfl, rfl, ?_, Nat.le_of_eq same.symm⟩
      rw [same]
      exact fits.2
  | members t ms ih =>
    by_cases empty : ms = []
    · subst empty
      cases depth <;> exact suits_blank _ t sensitive
    · rw [entry_seen_members empty]
      refine ⟨rfl, by rw [List.length_map], ?_, suitsAll_map fun v member => ?_⟩
      · rw [List.length_map]
        exact fits.2.1
      · cases depth with
        | zero => exact suits_blank v 0 false
        | succ depth => exact ih v member (fitsAll_iff.mp fits.2.2 v member) depth false

/-- The array for the values, as it is when storage was made for what is seen to the depth. -/
def arrayOf (r : Registry) (depth : Nat) (vs : List Stored) : List Entry :=
  vs.map fun v => (v.seen depth).entry (r.isSensitive v.type)

theorem types_arrayOf (depth : Nat) (vs : List Stored) :
    (arrayOf r depth vs).map (·.head.type) = vs.map type := by
  rw [arrayOf, List.map_map]
  refine List.map_congr_left fun v _ => ?_
  rw [Function.comp_apply, ← seen_type depth v]
  cases v.seen depth with
  | withheld t => rfl
  | bytes t b =>
    unfold entry
    split <;> rfl
  | members t ms =>
    unfold entry
    split <;> rfl

/-- The array that the next reading starts from: blank entries, or what was made so far. -/
def arrayBefore (r : Registry) : Nat → List Stored → List Entry
  | 0, vs => vs.map fun v => .blank v.type (r.isSensitive v.type)
  | depth + 1, vs => arrayOf r depth vs

theorem types_arrayBefore (depth : Nat) (vs : List Stored) :
    (arrayBefore r depth vs).map (·.head.type) = vs.map type := by
  cases depth with
  | zero =>
    rw [arrayBefore, List.map_map]
    rfl
  | succ depth => exact types_arrayOf depth vs

theorem suitsAll_arrayBefore {vs : List Stored} (fits : ∀ v ∈ vs, v.Fits r) (depth : Nat) :
    SuitsAll vs (arrayBefore r depth vs) := by
  cases depth with
  | zero => exact suitsAll_map fun v _ => suits_blank v _ _
  | succ depth => exact suitsAll_map fun v member => suits_entry (fits v member) depth _

theorem allocate_fillAll_arrayBefore {vs : List Stored} (fits : ∀ v ∈ vs, v.Fits r)
    (depth : Nat) :
    allocate r (fillAll vs (arrayBefore r depth vs)) =
      (arrayOf r depth vs, .ok (vs.any (reaches depth))) := by
  cases depth with
  | zero => exact allocate_fillAll fun v member => allocate_fill_blank (fits v member) v.type _
  | succ depth => exact allocate_fillAll fun v member => allocate_fill_entry (fits v member) depth _

theorem arrayOf_of_ends {vs : List Stored} {depth later : Nat}
    (ends : vs.any (reaches depth) = false) (order : depth ≤ later) :
    arrayOf r depth vs = arrayOf r later vs := by
  rw [List.any_eq_false] at ends
  refine List.map_congr_left fun v member => ?_
  have here : v.reaches depth = false := Bool.eq_false_iff.mpr (ends v member)
  rw [seen_of_not_reaches here, seen_of_ends_before here order]

end Cryptoki.Wire.Stored
