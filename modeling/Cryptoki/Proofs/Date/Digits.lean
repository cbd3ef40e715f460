import Cryptoki.Proofs.Bytes
import Cryptoki.Proofs.Date

/-!
Eight digits stand for a date in every respect: they are its decimal text, they are read within
the words there are, they come and go through the fields, and they are ordered as dates are.
-/
namespace Cryptoki

theorem Text.padded_one {n : Nat} (small : n < 10) : padded 1 n = String.ofList [n.digitChar] := by
  simp [padded, Nat.toDigits_of_lt_base small]

theorem Text.padded_succ {width : Nat} (positive : 0 < width) (n : Nat) :
    padded (width + 1) n = padded width (n / 10) ++ String.ofList [(n % 10).digitChar] := by
  rw [padded, padded, ← String.ofList_append]
  congr 1
  rw [Nat.toDigits_eq_if (by decide : 1 < 10)]
  by_cases small : n < 10
  · have none_before : n / 10 = 0 := Nat.div_eq_of_lt small
    obtain ⟨less, rfl⟩ : ∃ less, width = less + 1 := ⟨width - 1, by omega⟩
    rw [if_pos small, none_before, Nat.toDigits_zero, Nat.mod_eq_of_lt small]
    simp [List.replicate_succ']
  · simp [if_neg small]

theorem Bytes.ofString_digitChar {k : Nat} (small : k < 10) :
    ofString (String.ofList [k.digitChar]) = [Date.digit k] := by
  interval_cases k <;> rfl

namespace Date

theorem toBytes_eq_padded (d : Date) :
    d.toBytes = Bytes.ofString (Text.padded 4 d.year.toNat ++ Text.padded 2 d.month.toNat ++
      Text.padded 2 d.day.toNat) := by
  have yearTop : d.year.toNat ≤ 9999 := UInt16.le_iff_toNat_le.mp d.in_range.1
  have monthTop : d.month.toNat ≤ 12 := UInt8.le_iff_toNat_le.mp d.in_range.2.2.1
  have dayTop : d.day.toNat ≤ 31 := UInt8.le_iff_toNat_le.mp d.in_range.2.2.2.2
  have two : ∀ n < 100, Bytes.ofString (Text.padded 2 n) = [digit (n / 10), digit (n % 10)] := by
    intro n small
    rw [Text.padded_succ (by decide), Text.padded_one (by omega), Bytes.ofString_append,
      Bytes.ofString_digitChar (by omega), Bytes.ofString_digitChar (by omega)]
    rfl
  have four : ∀ n < 10000, Bytes.ofString (Text.padded 4 n) =
      [digit (n / 1000 % 10), digit (n / 100 % 10), digit (n / 10 % 10), digit (n % 10)] := by
    intro n small
    rw [Text.padded_succ (by decide), Text.padded_succ (by decide), Bytes.ofString_append,
      Bytes.ofString_append, two _ (by omega), Bytes.ofString_digitChar (by omega),
      Bytes.ofString_digitChar (by omega)]
    simp only [Nat.div_div_eq_div_mul, Nat.reduceMul]
    rw [Nat.mod_eq_of_lt (show n / 1000 < 10 by omega)]
    rfl
  rw [Bytes.ofString_append, Bytes.ofString_append, four _ (by omega), two _ (by omega),
    two _ (by omega)]
  rfl

/-- On the way to the number of a row of digits, eight bits hold each digit, and sixteen each
product and each sum. -/
def Fits (digits : Bytes) : Prop :=
  ∀ before c after, digits = before ++ c :: after →
    48 ≤ c ∧ (number before).toNat * 10 < 2 ^ 16 ∧
      (number before).toNat * 10 + (c.toNat - 48) < 2 ^ 16

theorem fits_of_digits {b : Bytes} (digits : Digits b) (short : b.length ≤ 4) : Fits b := by
  rintro before c after rfl
  have fewer : Digits before := digits.sublist (List.sublist_append_left before _)
  have length : before.length ≤ 3 := by
    rw [List.length_append, List.length_cons] at short
    omega
  have bounds := digits.toNat (List.mem_append_right before List.mem_cons_self)
  have small : decimal before < 10 ^ 3 :=
    Nat.lt_of_lt_of_le (decimal_lt fewer) (Nat.pow_le_pow_right (by decide) length)
  rw [number_toNat fewer (by omega)]
  exact ⟨(digits c (List.mem_append_right before List.mem_cons_self)).1, by omega, by omega⟩

theorem number_lt_of_two {b : Bytes} (digits : Digits b) (two : b.length = 2) :
    (number b).toNat < 2 ^ 8 := by
  have small := decimal_lt digits
  rw [two] at small
  rw [number_toNat digits (by omega)]
  omega

/-- Nothing overflows while eight digits are read. -/
structure WithinWords (b : Bytes) : Prop where
  year : Fits (b.take 4)
  month : Fits ((b.drop 4).take 2)
  day : Fits ((b.drop 6).take 2)
  month_lt : (number ((b.drop 4).take 2)).toNat < 2 ^ 8
  day_lt : (number ((b.drop 6).take 2)).toNat < 2 ^ 8

theorem withinWords_of_digits {b : Bytes} (length : b.length = 8) (digits : Digits b) :
    WithinWords b where
  year := fits_of_digits (digits.take 4) (by simp [length])
  month := fits_of_digits ((digits.drop 4).take 2) (by simp [length])
  day := fits_of_digits ((digits.drop 6).take 2) (by simp [length])
  month_lt := number_lt_of_two ((digits.drop 4).take 2) (by simp [length])
  day_lt := number_lt_of_two ((digits.drop 6).take 2) (by simp [length])

theorem ofFields_eq {f : DateFields} (year : f.year.length = 4) (month : f.month.length = 2)
    (day : f.day.length = 2) : ofFields f = ofBytes (f.year ++ f.month ++ f.day) := by
  have first : Bytes.overwriteAt (List.replicate 8 0) 0 f.year = f.year ++ [0, 0, 0, 0] := by
    simpa [year] using Bytes.overwriteAt_append [] (List.replicate 8 0) f.year (by simp [year])
  have second : Bytes.overwriteAt (f.year ++ [0, 0, 0, 0]) 4 f.month =
      (f.year ++ f.month) ++ [0, 0] := by
    simpa [year, month] using Bytes.overwriteAt_append f.year [0, 0, 0, 0] f.month (by simp [month])
  have third : Bytes.overwriteAt ((f.year ++ f.month) ++ [0, 0]) 6 f.day =
      f.year ++ f.month ++ f.day := by
    simpa [year, month, day] using
      Bytes.overwriteAt_append (f.year ++ f.month) [0, 0] f.day (by simp [day])
  simp only [ofFields, first, second, third]

theorem ofFields_toFields (d : Date) : ofFields d.toFields = .ok d := by
  have length : d.toBytes.length = 8 := rfl
  rw [ofFields_eq rfl rfl rfl, toFields, List.append_assoc, parts_append length]
  exact ofBytes_toBytes d

theorem compare_append {a b c d : Bytes} (length : a.length = b.length) :
    Ord.compare (a ++ c) (b ++ d) = (Ord.compare a b).then (Ord.compare c d) := by
  induction a generalizing b with
  | nil =>
    obtain rfl := List.length_eq_zero_iff.mp length.symm
    rfl
  | cons x a ih =>
    cases b with
    | nil => cases length
    | cons y b =>
      rw [List.cons_append, List.cons_append, List.compare_cons_cons, List.compare_cons_cons,
        ih (Nat.succ.inj length), Ordering.then_assoc]

theorem compare_byte (a b : UInt8) : Ord.compare a b = Ord.compare a.toNat b.toNat := by
  simp only [Ord.compare, compareOfLessAndEq, UInt8.lt_iff_toNat_lt, UInt8.toNat_inj]

theorem compare_word (a b : UInt16) : Ord.compare a b = Ord.compare a.toNat b.toNat := by
  simp only [Ord.compare, compareOfLessAndEq, UInt16.lt_iff_toNat_lt, UInt16.toNat_inj]

theorem compare_digits {a b : Bytes} (length : a.length = b.length) (digits : Digits a)
    (digits' : Digits b) : Ord.compare a b = Ord.compare (decimal a) (decimal b) := by
  induction a using List.reverseRecOn generalizing b with
  | nil =>
    obtain rfl := List.length_eq_zero_iff.mp length.symm
    rfl
  | append_singleton before c ih =>
    cases b using List.reverseRecOn with
    | nil => simp at length
    | append_singleton before' c' =>
      have last := digits.toNat (List.mem_append_right before List.mem_cons_self)
      have last' := digits'.toNat (List.mem_append_right before' List.mem_cons_self)
      have one_less : before.length = before'.length := by simpa using length
      have first := ih one_less (digits.sublist (List.sublist_append_left before [c]))
        (digits'.sublist (List.sublist_append_left before' [c']))
      rw [compare_append one_less, first, decimal_append_singleton, decimal_append_singleton]
      rcases Nat.lt_trichotomy (decimal before) (decimal before') with less | same | more
      · rw [Nat.compare_eq_lt.mpr less, Nat.compare_eq_lt.mpr (by omega)]
        rfl
      · rw [same, Nat.compare_eq_eq.mpr rfl, List.compare_cons_cons, compare_byte,
          List.compare_nil_nil, Nat.compare_eq_ite_lt, Nat.compare_eq_ite_lt]
        grind
      · rw [Nat.compare_eq_gt.mpr more, Nat.compare_eq_gt.mpr (by omega)]
        rfl

theorem compare_eq (d e : Date) : d.compare e = Ord.compare d.toBytes e.toBytes := by
  have digits := d.toBytes_digits
  have digits' := e.toBytes_digits
  obtain ⟨year, month, day⟩ := d.parts_of_toBytes
  obtain ⟨year', month', day'⟩ := e.parts_of_toBytes
  have sameYear : (d.toBytes.take 4).length = (e.toBytes.take 4).length := rfl
  have sameMonth : ((d.toBytes.drop 4).take 2).length = ((e.toBytes.drop 4).take 2).length := rfl
  have sameDay : ((d.toBytes.drop 6).take 2).length = ((e.toBytes.drop 6).take 2).length := rfl
  have years := compare_digits sameYear (digits.take 4) (digits'.take 4)
  have months := compare_digits sameMonth ((digits.drop 4).take 2) ((digits'.drop 4).take 2)
  have days := compare_digits sameDay ((digits.drop 6).take 2) ((digits'.drop 6).take 2)
  rw [year, year', ← compare_word] at years
  rw [month, month', ← compare_byte] at months
  rw [day, day', ← compare_byte] at days
  rw [compare, ← years, ← months, ← days, ← compare_append sameMonth, ← compare_append sameYear,
    parts_append rfl, parts_append rfl]

/-- Exactly the dates are read from bytes and from fields, each from its decimal digits alone and
with nothing lost on the way, and their order is the order of those digits. -/
theorem dates_are_their_digits :
    (∀ b, ((∃ d, ofBytes b = .ok d) ↔ Written b) ∧ ∀ d, ofBytes b = .ok d → d.toBytes = b) ∧
    (∀ d : Date, d.toBytes = Bytes.ofString (Text.padded 4 d.year.toNat ++
        Text.padded 2 d.month.toNat ++ Text.padded 2 d.day.toNat) ∧
      ofBytes d.toBytes = .ok d ∧ ofFields d.toFields = .ok d) ∧
    (∀ f : DateFields, f.year.length = 4 → f.month.length = 2 → f.day.length = 2 →
      ofFields f = ofBytes (f.year ++ f.month ++ f.day)) ∧
    (∀ b, b.length = 8 → Digits b → WithinWords b) ∧
    ∀ d e : Date, d.compare e = Ord.compare d.toBytes e.toBytes := by
  refine ⟨fun b => ⟨ofBytes_succeeds_iff, fun d => toBytes_of_ofBytes⟩,
    fun d => ⟨d.toBytes_eq_padded, d.ofBytes_toBytes, d.ofFields_toFields⟩,
    fun f => ofFields_eq, fun b => withinWords_of_digits, compare_eq⟩

/-- Nines throughout are read within the words, and refused for the month. Fields that hold no
digits are refused as their bytes are. -/
theorem nines_within_words :
    (WithinWords (Bytes.ofString "99999999") ∧
      ¬ ∃ d, ofBytes (Bytes.ofString "99999999") = .ok d) ∧
    ofFields ⟨Bytes.ofString "20 4", Bytes.ofString "12", Bytes.ofString "31"⟩ =
      ofBytes (Bytes.ofString "20 41231") := by
  obtain ⟨read, -, fields, words, -⟩ := dates_are_their_digits
  refine ⟨⟨words _ rfl (all_isDigit_iff.mp rfl), fun found => ?_⟩, fields _ rfl rfl rfl⟩
  have month := ((read _).1.mp found).month.2
  exact absurd month (by decide)

end Date

end Cryptoki
