import Cryptoki.Bytes
import Mathlib.Algebra.Group.Nat.Defs

/-!
Numbers and texts come back from their bytes, and bytes from the numbers and texts that they are
read as. Of a number written with leading zeros only its shortest form comes back.
-/
namespace Cryptoki.Bytes

theorem littleEndian_length (width n : Nat) : (littleEndian width n).length = width := by
  induction width generalizing n with
  | zero => rfl
  | succ width ih => simp [littleEndian, ih]

theorem littleEndianValue_littleEndian (width n : Nat) :
    littleEndianValue (littleEndian width n) = n % 256 ^ width := by
  induction width generalizing n with
  | zero => simp [littleEndian, littleEndianValue, Nat.mod_one]
  | succ width ih =>
    have digit : (UInt8.ofNat (n % 256)).toNat = n % 256 := by simp
    simp only [littleEndian, littleEndianValue, ih, digit]
    rw [Nat.pow_succ, Nat.mul_comm (256 ^ width) 256, Nat.mod_mul]

theorem ofWord_length (w : UInt64) : (ofWord w).length = 8 := littleEndian_length 8 w.toNat

theorem littleEndianValue_ofWord (w : UInt64) : littleEndianValue (ofWord w) = w.toNat := by
  rw [ofWord, littleEndianValue_littleEndian]
  exact Nat.mod_eq_of_lt w.toNat_lt

theorem toWord?_ofWord (w : UInt64) : (ofWord w).toWord? = some w := by
  simp [toWord?, ofWord_length, littleEndianValue_ofWord]

theorem littleEndian_littleEndianValue (b : Bytes) :
    littleEndian b.length (littleEndianValue b) = b := by
  induction b with
  | nil => rfl
  | cons x rest ih =>
    have low := x.toNat_lt
    have digit : (x.toNat + 256 * littleEndianValue rest) % 256 = x.toNat := by omega
    have others : (x.toNat + 256 * littleEndianValue rest) / 256 = littleEndianValue rest := by
      omega
    simp only [List.length_cons, littleEndian, littleEndianValue, digit, others, ih]
    rw [UInt8.ofNat_toNat]

theorem littleEndianValue_lt (b : Bytes) : littleEndianValue b < 256 ^ b.length := by
  induction b with
  | nil => exact Nat.one_pos
  | cons x rest ih =>
    have low := x.toNat_lt
    rw [littleEndianValue, List.length_cons, Nat.pow_succ]
    omega

theorem littleEndianValue_append (b c : Bytes) :
    littleEndianValue (b ++ c) = littleEndianValue b + 256 ^ b.length * littleEndianValue c := by
  induction b with
  | nil => simp [littleEndianValue]
  | cons x rest ih =>
    simp only [List.cons_append, littleEndianValue, ih, List.length_cons, Nat.pow_succ]
    grind

theorem ofWord_ofNat_littleEndianValue {b : Bytes} (word : b.length = 8) :
    ofWord (UInt64.ofNat (littleEndianValue b)) = b := by
  have small := littleEndianValue_lt b
  rw [word] at small
  rw [ofWord, UInt64.toNat_ofNat_of_lt' small, ← word]
  exact littleEndian_littleEndianValue b

theorem ofWord_of_toWord? {b : Bytes} {w : UInt64} (read : b.toWord? = some w) : ofWord w = b := by
  unfold toWord? at read
  split at read
  · rename_i word
    cases read
    exact ofWord_ofNat_littleEndianValue word
  · cases read

theorem bigEndianValue_reverse (b : Bytes) : bigEndianValue b.reverse = littleEndianValue b := by
  rw [bigEndianValue, List.foldl_reverse]
  induction b with
  | nil => rfl
  | cons x rest ih =>
    simp only [List.foldr_cons, ih, littleEndianValue]
    omega

theorem bigEndianValue_eq (b : Bytes) : bigEndianValue b = littleEndianValue b.reverse := by
  rw [← bigEndianValue_reverse, List.reverse_reverse]

theorem lt_of_bigEndian_width (n : Nat) : n < 256 ^ (n.log2 / 8 + 1) := by
  have bits : n < 2 ^ (n.log2 + 1) := Nat.lt_log2_self
  have widened : 2 ^ (n.log2 + 1) ≤ 2 ^ (8 * (n.log2 / 8 + 1)) :=
    Nat.pow_le_pow_right (by omega) (by omega)
  rw [Nat.pow_mul] at widened
  exact Nat.lt_of_lt_of_le bits widened

theorem bigEndianValue_bigEndian (n : Nat) : bigEndianValue (bigEndian n) = n := by
  rw [bigEndian, bigEndianValue_reverse, littleEndianValue_littleEndian]
  exact Nat.mod_eq_of_lt (lt_of_bigEndian_width n)

/-- Without leading zeros. One byte is kept, and what has no bytes stands for zero as well. -/
def trimmed : Bytes → Bytes
  | [] => [0]
  | x :: rest => if x = 0 ∧ rest ≠ [] then trimmed rest else x :: rest

/-- There are bytes, and no fewer of them stand for the number. -/
def Shortest (b : Bytes) : Prop :=
  b ≠ [] ∧ ∀ c : Bytes, c ≠ [] → c.bigEndianValue = b.bigEndianValue → b.length ≤ c.length

theorem bigEndianValue_zero_cons (rest : Bytes) :
    bigEndianValue (0 :: rest) = bigEndianValue rest := by
  simp [bigEndianValue]

theorem bigEndianValue_trimmed (b : Bytes) : bigEndianValue (trimmed b) = bigEndianValue b := by
  induction b with
  | nil => rfl
  | cons x rest ih =>
    unfold trimmed
    split
    · rename_i zero
      rw [ih, zero.1, bigEndianValue_zero_cons]
    · rfl

theorem trimmed_ne_nil (b : Bytes) : trimmed b ≠ [] := by
  induction b with
  | nil => exact List.cons_ne_nil 0 []
  | cons x rest ih =>
    unfold trimmed
    split
    · exact ih
    · exact List.cons_ne_nil x rest

theorem trimmed_suffix {b : Bytes} (nonempty : b ≠ []) : trimmed b <:+ b := by
  induction b with
  | nil => exact absurd rfl nonempty
  | cons x rest ih =>
    unfold trimmed
    split
    · rename_i zero
      exact (ih zero.2).trans (List.suffix_cons x rest)
    · exact List.suffix_refl _

theorem trimmed_cons_eq_self_iff {x : UInt8} {rest : Bytes} :
    trimmed (x :: rest) = x :: rest ↔ x = 0 → rest = [] := by
  by_cases leading : x = 0 ∧ rest ≠ []
  · have skipped : trimmed (x :: rest) = trimmed rest := by rw [trimmed, if_pos leading]
    have fewer := (trimmed_suffix leading.2).length_le
    refine ⟨fun same => ?_, fun last => absurd (last leading.1) leading.2⟩
    rw [← skipped, same, List.length_cons] at fewer
    omega
  · rw [trimmed, if_neg leading]
    simpa using leading

theorem trimmed_eq_zero_or (b : Bytes) :
    trimmed b = [0] ∨ ∃ x rest, trimmed b = x :: rest ∧ x ≠ 0 := by
  induction b with
  | nil => exact .inl rfl
  | cons x rest ih =>
    unfold trimmed
    split
    · exact ih
    · rename_i kept
      by_cases zero : x = 0
      · have last : rest = [] := by simpa [zero] using kept
        rw [zero, last]
        exact .inl rfl
      · exact .inr ⟨x, rest, rfl, zero⟩

theorem width_of_bounds {n width : Nat} (lower : 256 ^ width ≤ n)
    (upper : n < 256 ^ (width + 1)) : n.log2 / 8 = width := by
  have positive : n ≠ 0 := Nat.ne_of_gt (Nat.lt_of_lt_of_le (Nat.pow_pos (by decide)) lower)
  have base : (256 : Nat) = 2 ^ 8 := rfl
  rw [base, ← Nat.pow_mul] at lower upper
  have least := (Nat.le_log2 positive).mpr lower
  have most := (Nat.log2_lt positive).mpr upper
  omega

theorem bigEndian_bigEndianValue_cons {x : UInt8} (rest : Bytes) (counts : x ≠ 0) :
    bigEndian (bigEndianValue (x :: rest)) = x :: rest := by
  have first : 1 ≤ x.toNat :=
    Nat.one_le_iff_ne_zero.mpr fun zero => counts (UInt8.toNat_inj.mp zero)
  have value : bigEndianValue (x :: rest) =
      littleEndianValue rest.reverse + 256 ^ rest.length * x.toNat := by
    simp [bigEndianValue_eq, littleEndianValue_append, littleEndianValue]
  have lower : 256 ^ rest.length ≤ bigEndianValue (x :: rest) := by
    have scaled := Nat.mul_le_mul_left (256 ^ rest.length) first
    omega
  have upper : bigEndianValue (x :: rest) < 256 ^ (rest.length + 1) := by
    simpa [bigEndianValue_eq] using littleEndianValue_lt (x :: rest).reverse
  have digits : (x :: rest).reverse.length = rest.length + 1 := by simp
  rw [bigEndian, width_of_bounds lower upper, bigEndianValue_eq, ← digits,
    littleEndian_littleEndianValue, List.reverse_reverse]

theorem bigEndian_bigEndianValue (b : Bytes) : bigEndian (bigEndianValue b) = trimmed b := by
  rw [← bigEndianValue_trimmed]
  rcases trimmed_eq_zero_or b with zero | ⟨x, rest, digits, counts⟩
  · rw [zero]
    rfl
  · rw [digits, bigEndian_bigEndianValue_cons rest counts]

theorem shortest_iff_trimmed {b : Bytes} : Shortest b ↔ trimmed b = b := by
  constructor
  · intro shortest
    have fewest := shortest.2 (trimmed b) (trimmed_ne_nil b) (bigEndianValue_trimmed b)
    exact (trimmed_suffix shortest.1).eq_of_length_le fewest
  · intro kept
    refine ⟨kept ▸ trimmed_ne_nil b, fun c nonempty same => ?_⟩
    have fewer := (trimmed_suffix nonempty).length_le
    rwa [← bigEndian_bigEndianValue, same, bigEndian_bigEndianValue, kept] at fewer

theorem shortest_bigEndian (n : Nat) : Shortest (bigEndian n) := by
  rw [shortest_iff_trimmed, ← bigEndian_bigEndianValue, bigEndianValue_bigEndian]

@[simp] theorem length_overwrite (old new : Bytes) : (old.overwrite new).length = old.length := by
  simp only [overwrite, List.length_append, List.length_take, List.length_drop]
  omega

theorem getElem?_overwrite (old new : Bytes) (i : Nat) :
    (old.overwrite new)[i]? = old[i]?.map fun b => new[i]?.getD b := by
  rw [overwrite, List.getElem?_append, List.length_take]
  by_cases inside : i < old.length
  · by_cases reached : i < new.length
    · have first : i < min old.length new.length := by omega
      simp [first, inside, reached]
    · have beyond : ¬ i < min old.length new.length := by omega
      have place : new.length + (i - min old.length new.length) = i := by omega
      simp [beyond, inside, reached, List.getElem?_drop, place]
  · have beyond : ¬ i < min old.length new.length := by omega
    have past : old.length ≤ new.length + (i - min old.length new.length) := by omega
    simp [beyond, inside, List.getElem?_drop, past]

theorem overwriteAt_append (before target source : Bytes)
    (room : source.length ≤ target.length) :
    overwriteAt (before ++ target) before.length source =
      before ++ source ++ target.drop source.length := by
  rw [overwriteAt, overwrite, List.take_left, List.drop_left, List.take_of_length_le room,
    List.append_assoc]

theorem ofString_append (s t : String) : ofString (s ++ t) = ofString s ++ ofString t := by
  simp [ofString]

theorem toString?_ofString (s : String) : (ofString s).toString? = some s := by
  have whole : (⟨(ofString s).toArray⟩ : ByteArray) = s.toByteArray := by
    simp [ofString, String.toUTF8_eq_toByteArray]
  rw [toString?, whole, String.fromUTF8?, dif_pos s.isValidUTF8]
  rfl

/-- The bytes are characters one after the other, each in its UTF-8 form. -/
def IsUTF8 (b : Bytes) : Prop := ∃ cs : List Char, b = cs.flatMap String.utf8EncodeChar

theorem isUTF8_iff {b : Bytes} : IsUTF8 b ↔ ByteArray.IsValidUTF8 ⟨b.toArray⟩ := by
  constructor
  · rintro ⟨cs, rfl⟩
    refine ⟨cs, ?_⟩
    ext1
    simp [List.utf8Encode]
  · rintro ⟨cs, same⟩
    refine ⟨cs, ?_⟩
    have bytes := congrArg (fun a : ByteArray => a.data.toList) same
    simpa [List.utf8Encode] using bytes

theorem toString?_succeeds_iff {b : Bytes} : (∃ s, b.toString? = some s) ↔ IsUTF8 b := by
  rw [isUTF8_iff, toString?, String.fromUTF8?]
  split <;> simp_all

theorem ofString_of_toString? {b : Bytes} {s : String} (read : b.toString? = some s) :
    ofString s = b := by
  unfold toString? String.fromUTF8? at read
  split at read
  · rename_i valid
    cases read
    have kept : (String.fromUTF8 ⟨b.toArray⟩ valid).toUTF8 = ⟨b.toArray⟩ := rfl
    rw [ofString, kept]
  · cases read

theorem chunks_append {width : Nat} (first rest : Bytes) (positive : 0 < width)
    (exact_width : first.length = width) :
    chunks width (first ++ rest) = first :: chunks width rest := by
  have count : (first ++ rest).length / width = rest.length / width + 1 := by
    rw [List.length_append, exact_width, Nat.add_comm, Nat.add_div_right _ positive]
  simp only [chunks, count, List.range_succ_eq_map, List.map_cons, List.map_map]
  congr 1
  · simp [← exact_width]
  · refine List.map_congr_left fun i _ => ?_
    simp only [Function.comp_apply]
    rw [Nat.succ_mul, Nat.add_comm, ← List.drop_drop, ← exact_width, List.drop_left]

theorem chunks_cons {width : Nat} {b : Bytes} (positive : 0 < width) (enough : width ≤ b.length) :
    chunks width b = b.take width :: chunks width (b.drop width) := by
  have first : (b.take width).length = width := by simp [enough]
  rw [← chunks_append _ _ positive first, List.take_append_drop]

theorem length_of_mem_chunks {width : Nat} {b c : Bytes} (positive : 0 < width)
    (member : c ∈ chunks width b) : c.length = width := by
  obtain ⟨i, inside, rfl⟩ := List.mem_map.mp member
  have enough : (i + 1) * width ≤ b.length :=
    (Nat.le_div_iff_mul_le positive).mp (List.mem_range.mp inside)
  rw [Nat.succ_mul] at enough
  rw [List.length_take, List.length_drop]
  omega

theorem flatten_chunks {width : Nat} {b : Bytes} (positive : 0 < width)
    (whole : b.length % width = 0) : (chunks width b).flatten = b := by
  obtain ⟨count, length⟩ := Nat.dvd_of_mod_eq_zero whole
  induction count generalizing b with
  | zero =>
    have none_there : b = [] := List.length_eq_zero_iff.mp (by simpa using length)
    simp [chunks, none_there]
  | succ count ih =>
    rw [Nat.mul_succ] at length
    have others : (b.drop width).length = width * count := by
      rw [List.length_drop]
      omega
    rw [chunks_cons positive (by omega), List.flatten_cons, ih (by simp [others]) others,
      List.take_append_drop]

theorem chunks_flatMap {α : Type} {width : Nat} (piece : α → Bytes) (positive : 0 < width)
    (exact_width : ∀ a, (piece a).length = width) (as : List α) :
    chunks width (as.flatMap piece) = as.map piece := by
  induction as with
  | nil => simp [chunks]
  | cons a rest ih =>
    rw [List.flatMap_cons, chunks_append _ _ positive (exact_width a), ih, List.map_cons]

theorem flatMap_length {α : Type} {width : Nat} (piece : α → Bytes)
    (exact_width : ∀ a, (piece a).length = width) (as : List α) :
    (as.flatMap piece).length = width * as.length := by
  induction as with
  | nil => simp
  | cons a rest ih =>
    rw [List.flatMap_cons, List.length_append, exact_width, ih, List.length_cons, Nat.mul_succ,
      Nat.add_comm]

end Cryptoki.Bytes
