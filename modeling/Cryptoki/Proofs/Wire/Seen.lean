import Cryptoki.Proofs.Wire.Stored

/-!
What is seen of a stored value at a given depth, and when that is all of it.
-/
namespace Cryptoki.Wire.Stored

variable {r : Registry}

theorem seenAll_eq_map (depth : Nat) (vs : List Stored) : seenAll depth vs = vs.map (seen depth) := by
  induction vs with
  | nil => rfl
  | cons v rest ih => rw [seenAll, ih, List.map_cons]

theorem entries_eq_map (vs : List Stored) : entries vs = vs.map (entry false) := by
  induction vs with
  | nil => rfl
  | cons v rest ih => rw [entries, ih, List.map_cons]

theorem reachesAny_eq_any (depth : Nat) (vs : List Stored) :
    reachesAny depth vs = vs.any (reaches depth) := by
  induction vs with
  | nil => rfl
  | cons v rest ih => rw [reachesAny, ih, List.any_cons]

theorem fitsAll_iff {vs : List Stored} : FitsAll r vs ↔ ∀ v ∈ vs, v.Fits r := by
  induction vs with
  | nil => simp [FitsAll]
  | cons v rest ih => simp [FitsAll, ih]

theorem seen_type (depth : Nat) (v : Stored) : (v.seen depth).type = v.type := by
  cases v with
  | withheld t | bytes t b => rfl
  | members t ms => cases depth <;> rfl

theorem seen_of_not_reaches {depth : Nat} {v : Stored} (ends : v.reaches depth = false) :
    v.seen depth = v := by
  induction v using nested_induction generalizing depth with
  | withheld t => rfl
  | bytes t b =>
    by_cases zero : depth = 0
    · have empty : b = [] := by simpa [reaches, zero] using ends
      simp [seen, empty]
    · simp [seen, zero]
  | members t ms ih =>
    cases depth with
    | zero =>
      have empty : ms = [] := by simpa [reaches] using ends
      simp [seen, empty]
    | succ depth =>
      rw [reaches, reachesAny_eq_any, List.any_eq_false] at ends
      have whole : seenAll depth ms = ms := by
        rw [seenAll_eq_map]
        refine (List.map_congr_left fun v member => ?_).trans (List.map_id ms)
        exact ih v member (Bool.eq_false_iff.mpr (ends v member))
      rw [seen, whole]

theorem not_reaches_succ {depth : Nat} {v : Stored} (ends : v.reaches depth = false) :
    v.reaches (depth + 1) = false := by
  induction v using nested_induction generalizing depth with
  | withheld t => rfl
  | bytes t b => simp [reaches]
  | members t ms ih =>
    rw [reaches, reachesAny_eq_any, List.any_eq_false]
    intro v member
    cases depth with
    | zero =>
      have empty : ms = [] := by simpa [reaches] using ends
      rw [empty] at member
      cases member
    | succ depth =>
      rw [reaches, reachesAny_eq_any, List.any_eq_false] at ends
      exact Bool.eq_false_iff.mp (ih v member (Bool.eq_false_iff.mpr (ends v member)))

theorem seen_of_ends_before {depth later : Nat} {v : Stored} (ends : v.reaches depth = false)
    (order : depth ≤ later) : v.seen later = v := by
  have still : v.reaches later = false := by
    induction order with
    | refl => exact ends
    | step _ ih => exact not_reaches_succ ih
  exact seen_of_not_reaches still

theorem length_seen_bytes (depth : Nat) (b : Bytes) :
    (if depth = 0 then List.replicate b.length 0 else b).length = b.length := by
  split <;> simp

theorem seen_bytes_ne_nil {b : Bytes} (some_bytes : b ≠ []) (depth : Nat) :
    (if depth = 0 then List.replicate b.length 0 else b) ≠ [] := by
  intro nothing
  have same := length_seen_bytes depth b
  rw [nothing] at same
  exact some_bytes (List.length_eq_zero_iff.mp same.symm)

theorem kind_zero (r : Registry) : r.kind 0 = .objectClass := rfl

theorem fits_seen {v : Stored} (fits : v.Fits r) (depth : Nat) : (v.seen depth).Fits r := by
  induction v using nested_induction generalizing depth with
  | withheld t => trivial
  | bytes t b =>
    rw [seen]
    exact ⟨fits.1, by rw [length_seen_bytes]; exact fits.2⟩
  | members t ms ih =>
    cases depth with
    | zero =>
      refine ⟨fits.1, ?_, fitsAll_iff.mpr fun v member => ?_⟩
      · rw [List.length_replicate]
        exact fits.2.1
      · obtain ⟨_, rfl⟩ := List.mem_replicate.mp member
        have short : ([] : Bytes).length < unavailable := by decide
        have flat : r.kind 0 ≠ .template := by simp [kind_zero]
        exact ⟨flat, short⟩
    | succ depth =>
      rw [seen, seenAll_eq_map]
      refine ⟨fits.1, ?_, fitsAll_iff.mpr fun v member => ?_⟩
      · rw [List.length_map]
        exact fits.2.1
      · obtain ⟨w, there, rfl⟩ := List.mem_map.mp member
        exact ih w there (fitsAll_iff.mp fits.2.2 w there) depth

end Cryptoki.Wire.Stored
