import Cryptoki.Proofs.Bytes
import Cryptoki.Wire.Exchange

/-!
Heads come back from their bytes in the array, and what is not overwritten stays.
-/
namespace Cryptoki.Wire

/-- The length is none or one that a word can tell from none. -/
def Head.HasLength (h : Head) : Prop := ∀ n ∈ h.length, n < unavailable

theorem lengthOfWord_of_lt {n : Nat} (small : n < unavailable) : lengthOfWord n = some n :=
  if_neg (Nat.ne_of_lt small)

namespace Head

variable {h : Head}

theorem image_length (h : Head) : h.image.length = entrySize := by
  simp [image, Bytes.ofWord_length, Bytes.littleEndian_length, entrySize]

theorem lengthWord_lt (sized : h.HasLength) : h.lengthWord < 256 ^ 8 := by
  cases length : h.length with
  | none => simp [lengthWord, length, unavailable]
  | some n =>
    have small : n < unavailable := sized n length
    simp only [lengthWord, length, Option.getD_some]
    exact Nat.lt_trans small (by decide)

theorem lengthOfWord_lengthWord (sized : h.HasLength) : lengthOfWord h.lengthWord = h.length := by
  cases length : h.length with
  | none => simp [lengthWord, length, lengthOfWord]
  | some n =>
    simp only [lengthWord, length, Option.getD_some]
    exact lengthOfWord_of_lt (sized n length)

theorem image_words (h : Head) :
    h.image.take 8 = Bytes.ofWord h.type ∧
    (h.image.drop 8).take 8 = Bytes.littleEndian 8 h.pointer.address ∧
    (h.image.drop 16).take 8 = Bytes.littleEndian 8 h.lengthWord := by
  have word := Bytes.ofWord_length h.type
  have middle : (Bytes.littleEndian 8 h.pointer.address).length = 8 :=
    Bytes.littleEndian_length 8 _
  have last : (Bytes.littleEndian 8 h.lengthWord).length = 8 := Bytes.littleEndian_length 8 _
  have both : (Bytes.ofWord h.type ++ Bytes.littleEndian 8 h.pointer.address).length = 16 := by
    rw [List.length_append, word, middle]
  refine ⟨?_, ?_, ?_⟩
  · rw [image, List.append_assoc, List.take_left' word]
  · rw [image, List.append_assoc, List.drop_left' word, List.take_left' middle]
  · rw [image, List.drop_left' both, List.take_of_length_le (Nat.le_of_eq last)]

theorem ofImage_image_pointer (plain : h.pointer = .null ∨ h.pointer = .own)
    (sensitive : Bool) : (ofImage sensitive h.image).pointer = h.pointer := by
  have address : Pointer.ofAddress (h.pointer.address % 256 ^ 8) = h.pointer := by
    rcases plain with null | own
    · rw [null]
      rfl
    · rw [own]
      rfl
  rw [ofImage, h.image_words.2.1, Bytes.littleEndianValue_littleEndian]
  exact address

theorem ofImage_image (plain : h.pointer = .null ∨ h.pointer = .own) (sized : h.HasLength)
    (sensitive : Bool) : ofImage sensitive h.image = { h with sensitive := sensitive } := by
  have pointer := ofImage_image_pointer plain sensitive
  obtain ⟨first, _, third⟩ := h.image_words
  have type : (ofImage sensitive h.image).type = h.type := by
    simp [ofImage, first, Bytes.littleEndianValue_ofWord]
  have length : (ofImage sensitive h.image).length = h.length := by
    rw [ofImage, third, Bytes.littleEndianValue_littleEndian,
      Nat.mod_eq_of_lt (lengthWord_lt sized), lengthOfWord_lengthWord sized]
  cases made : ofImage sensitive h.image with
  | mk t l p f =>
    have flag : (ofImage sensitive h.image).sensitive = sensitive := rfl
    rw [made] at type length pointer flag
    simp only at type length pointer flag
    rw [type, length, pointer, flag]

end Head

theorem withHead_head (e : Entry) : e.withHead e.head = e := by
  cases e <;> rfl

theorem overwriteImage_nil_eq_map (entries : List Entry) :
    overwriteImage entries [] =
      entries.map fun e => e.withHead (Head.ofImage e.head.sensitive e.head.image) := by
  have untouched : Bytes.overwrite (image entries) [] = image entries := by
    simp [Bytes.overwrite]
  have pieces : Bytes.chunks entrySize (image entries) = entries.map fun e => e.head.image :=
    Bytes.chunks_flatMap _ (by decide) (fun e => e.head.image_length) entries
  rw [overwriteImage, untouched, pieces, List.zipWith_map_right, List.zipWith_self]

theorem overwriteImage_nil {entries : List Entry}
    (plain : ∀ e ∈ entries, e.head.pointer = .null ∨ e.head.pointer = .own)
    (sized : ∀ e ∈ entries, e.head.HasLength) : overwriteImage entries [] = entries := by
  rw [overwriteImage_nil_eq_map]
  refine (List.map_congr_left fun e member => ?_).trans (List.map_id entries)
  rw [Head.ofImage_image (plain e member) (sized e member)]
  exact withHead_head e

end Cryptoki.Wire
