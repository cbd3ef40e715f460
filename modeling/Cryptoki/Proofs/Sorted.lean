import Cryptoki.Sorted

/-!
Sorting by code is stable, and an ordered list is searched to the end: what is found in a sorted
list without repeats is what stands first in the list as it was.
-/
namespace Cryptoki

variable {α : Type} {code : α → Code} {c : Code}

theorem mem_insertByCode {a b : α} {l : List α} : b ∈ insertByCode code a l ↔ b = a ∨ b ∈ l := by
  induction l with
  | nil => simp [insertByCode]
  | cons first rest ih =>
    unfold insertByCode
    split
    · simp
    · simp only [List.mem_cons, ih]
      exact or_left_comm

theorem ordered_insertByCode (a : α) {l : List α} (ordered : l.Pairwise (code · ≤ code ·)) :
    (insertByCode code a l).Pairwise (code · ≤ code ·) := by
  induction l with
  | nil => simp [insertByCode]
  | cons first rest ih =>
    obtain ⟨least, others⟩ := List.pairwise_cons.mp ordered
    unfold insertByCode
    split
    · rename_i before
      refine List.pairwise_cons.mpr ⟨fun b member => ?_, ordered⟩
      rcases List.mem_cons.mp member with rfl | member
      · exact before
      · exact UInt64.le_trans before (least b member)
    · rename_i notBefore
      refine List.pairwise_cons.mpr ⟨fun b member => ?_, ih others⟩
      rcases mem_insertByCode.mp member with rfl | member
      · exact UInt64.le_of_lt (UInt64.not_le.mp notBefore)
      · exact least b member

theorem ordered_sortByCode (l : List α) : (sortByCode code l).Pairwise (code · ≤ code ·) := by
  induction l with
  | nil => exact .nil
  | cons a rest ih => exact ordered_insertByCode a ih

theorem find?_insertByCode (a : α) (l : List α) :
    (insertByCode code a l).find? (code · == c) = (a :: l).find? (code · == c) := by
  induction l with
  | nil => rfl
  | cons first rest ih =>
    unfold insertByCode
    split
    · rfl
    · rename_i notBefore
      have apart : code a ≠ code first := fun same => notBefore (same ▸ UInt64.le_refl _)
      simp only [List.find?_cons, ih]
      grind

theorem find?_sortByCode (l : List α) :
    (sortByCode code l).find? (code · == c) = l.find? (code · == c) := by
  induction l with
  | nil => rfl
  | cons a rest ih =>
    have inserted : sortByCode code (a :: rest) = insertByCode code a (sortByCode code rest) := rfl
    rw [inserted, find?_insertByCode]
    simp only [List.find?_cons, ih]

theorem eraseRepsBy_loop_eq (same : α → α → Bool) (a : α) (l done : List α) :
    List.eraseRepsBy.loop same a l done = done.reverse ++ List.eraseRepsBy.loop same a l [] := by
  induction l generalizing a done with
  | nil => simp [List.eraseRepsBy.loop]
  | cons b rest ih =>
    simp only [List.eraseRepsBy.loop]
    split
    · exact ih a done
    -- The loop goes on with more done, so both sides are brought to the loop with nothing done.
    · rw [ih b (a :: done), ih b [a]]
      simp

theorem dropRepeats_cons_cons (a b : α) (rest : List α) :
    dropRepeats code (a :: b :: rest) =
      if code a = code b then dropRepeats code (a :: rest)
      else a :: dropRepeats code (b :: rest) := by
  simp only [dropRepeats, List.eraseRepsBy, List.eraseRepsBy.loop]
  split
  · rename_i same
    rw [if_pos (eq_of_beq same)]
  · rename_i apart
    rw [if_neg (by simpa using apart), eraseRepsBy_loop_eq]
    rfl

theorem mem_of_mem_dropRepeats {b : α} {l : List α} (kept : b ∈ dropRepeats code l) : b ∈ l := by
  cases l with
  | nil => exact kept
  | cons a l =>
    induction l generalizing a with
    | nil => exact kept
    | cons first rest ih =>
      rw [dropRepeats_cons_cons] at kept
      split at kept
      · have := ih a kept
        grind
      · rcases List.mem_cons.mp kept with rfl | kept
        · exact List.mem_cons_self
        · exact List.mem_cons_of_mem _ (ih first kept)

theorem find?_dropRepeats (l : List α) :
    (dropRepeats code l).find? (code · == c) = l.find? (code · == c) := by
  cases l with
  | nil => rfl
  | cons a l =>
    induction l generalizing a with
    | nil => rfl
    | cons first rest ih =>
      rw [dropRepeats_cons_cons]
      split
      · rename_i same
        simp only [ih a, List.find?_cons, same]
        grind
      · rw [List.find?_cons, ih first, List.find?_cons (a := a)]

theorem strict_dropRepeats {l : List α} (ordered : l.Pairwise (code · ≤ code ·)) :
    (dropRepeats code l).Pairwise (code · < code ·) := by
  cases l with
  | nil => exact .nil
  | cons a l =>
    induction l generalizing a with
    | nil => exact List.pairwise_singleton _ a
    | cons first rest ih =>
      obtain ⟨least, others⟩ := List.pairwise_cons.mp ordered
      obtain ⟨leastBehind, _⟩ := List.pairwise_cons.mp others
      rw [dropRepeats_cons_cons]
      split
      · exact ih a (ordered.sublist (by simp))
      · rename_i apart
        have before : code a < code first :=
          UInt64.lt_of_le_of_ne (least first List.mem_cons_self) apart
        refine List.pairwise_cons.mpr ⟨fun b kept => ?_, ih first others⟩
        rcases List.mem_cons.mp (mem_of_mem_dropRepeats kept) with rfl | member
        · exact before
        · exact UInt64.lt_of_lt_of_le before (leastBehind b member)

theorem bisectWithin_eq_find? {steps : Nat} {l : List α} (enough : l.length ≤ steps)
    (ordered : l.Pairwise (code · < code ·)) :
    bisectWithin code c steps l = l.find? (code · == c) := by
  induction steps generalizing l with
  | zero =>
    have empty : l = [] := List.length_eq_zero_iff.mp (by omega)
    subst empty
    rfl
  | succ steps ih =>
    have halves := List.take_append_drop (l.length / 2) l
    have half : (l.take (l.length / 2)).length = l.length / 2 := by
      rw [List.length_take]
      omega
    unfold bisectWithin
    generalize l.take (l.length / 2) = before at *
    generalize l.drop (l.length / 2) = after at *
    subst halves
    rw [List.length_append] at half enough
    obtain ⟨left, right, across⟩ := List.pairwise_append.mp ordered
    cases after with
    | nil =>
      have empty : before = [] := List.length_eq_zero_iff.mp (by simp at half; omega)
      subst empty
      rfl
    | cons a behind =>
      obtain ⟨least, others⟩ := List.pairwise_cons.mp right
      rw [List.length_cons] at half enough
      -- What is left out cannot have the code: codes before the middle are smaller than the one
      -- in the middle, and those behind it are greater.
      have notBefore (far : ¬c < code a) : before.find? (code · == c) = none := by
        refine List.find?_eq_none.mpr fun b member own => far ?_
        exact eq_of_beq own ▸ across b member a List.mem_cons_self
      have notBehind (near : c < code a) : (a :: behind).find? (code · == c) = none := by
        refine List.find?_eq_none.mpr fun b member own => ?_
        rcases List.mem_cons.mp member with rfl | member
        · exact UInt64.lt_irrefl _ (eq_of_beq own ▸ near)
        · exact UInt64.lt_asymm near (eq_of_beq own ▸ least b member)
      rw [List.find?_append]
      by_cases here : code a = c
      · rw [notBefore (here ▸ UInt64.lt_irrefl _)]
        simp [here]
      · by_cases near : c < code a
        · simp only [here, near, ↓reduceIte, notBehind near, Option.or_none]
          exact ih (by omega) left
        · simp only [here, near, ↓reduceIte, notBefore near, Option.none_or, List.find?_cons,
            beq_false_of_ne here]
          exact ih (by omega) others

theorem bisect_eq_find? {l : List α} (ordered : l.Pairwise (code · < code ·)) :
    bisect code c l = l.find? (code · == c) :=
  bisectWithin_eq_find? (Nat.le_refl _) ordered

theorem find?_key_eq_some_iff {κ : Type} [BEq κ] [LawfulBEq κ] {l : List α} {key : α → κ}
    (unique : ∀ a ∈ l, ∀ b ∈ l, key a = key b → a = b) {k : κ} {a : α} :
    l.find? (key · == k) = some a ↔ a ∈ l ∧ key a = k := by
  constructor
  · intro found
    exact ⟨List.mem_of_find?_eq_some found, by simpa using List.find?_some found⟩
  · rintro ⟨listed, rfl⟩
    have passes : ∃ b ∈ l, (key b == key a) = true := ⟨a, listed, beq_self_eq_true _⟩
    obtain ⟨b, found⟩ := Option.isSome_iff_exists.mp (List.find?_isSome.mpr passes)
    have same := unique b (List.mem_of_find?_eq_some found) a listed
      (by simpa using List.find?_some found)
    exact same ▸ found

end Cryptoki
