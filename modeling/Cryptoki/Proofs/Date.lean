import Cryptoki.Date
import Mathlib.Data.List.Induction
import Mathlib.Tactic.IntervalCases

/-!
A date comes back from its eight digits, and eight digits from the date that they are read as.
-/
namespace Cryptoki.Date

def Digits (b : Bytes) : Prop := ∀ c ∈ b, 48 ≤ c ∧ c ≤ 57

theorem all_isDigit_iff {b : Bytes} : b.all isDigit = true ↔ Digits b := by
  simp [Digits, isDigit]

theorem Digits.toNat {b : Bytes} (digits : Digits b) {c : UInt8} (member : c ∈ b) :
    48 ≤ c.toNat ∧ c.toNat ≤ 57 := by
  obtain ⟨least, most⟩ := digits c member
  exact ⟨UInt8.le_iff_toNat_le.mp least, UInt8.le_iff_toNat_le.mp most⟩

theorem Digits.sublist {a b : Bytes} (digits : Digits b) (fewer : a.Sublist b) : Digits a :=
  fun c member => digits c (fewer.subset member)

theorem Digits.take {b : Bytes} (digits : Digits b) (n : Nat) : Digits (b.take n) :=
  digits.sublist (List.take_sublist n b)

theorem Digits.drop {b : Bytes} (digits : Digits b) (n : Nat) : Digits (b.drop n) :=
  digits.sublist (List.drop_sublist n b)

def decimal (digits : Bytes) : Nat := digits.foldl (fun n c => 10 * n + (c.toNat - 48)) 0

theorem decimal_append_singleton (digits : Bytes) (c : UInt8) :
    decimal (digits ++ [c]) = 10 * decimal digits + (c.toNat - 48) := by
  simp [decimal]

theorem decimal_lt {b : Bytes} (digits : Digits b) : decimal b < 10 ^ b.length := by
  induction b using List.reverseRecOn with
  | nil => exact Nat.one_pos
  | append_singleton before c ih =>
    have first := ih (digits.sublist (List.sublist_append_left before [c]))
    have last := digits.toNat (List.mem_append_right before List.mem_cons_self)
    rw [decimal_append_singleton, List.length_append, List.length_singleton, Nat.pow_succ]
    omega

theorem decimal_inj {a b : Bytes} (length : a.length = b.length) (digits : Digits a)
    (digits' : Digits b) (same : decimal a = decimal b) : a = b := by
  induction a using List.reverseRecOn generalizing b with
  | nil => exact (List.length_eq_zero_iff.mp length.symm).symm
  | append_singleton before c ih =>
    cases b using List.reverseRecOn with
    | nil => simp at length
    | append_singleton before' c' =>
      have last := digits.toNat (List.mem_append_right before List.mem_cons_self)
      have last' := digits'.toNat (List.mem_append_right before' List.mem_cons_self)
      rw [decimal_append_singleton, decimal_append_singleton] at same
      have lastSame : c = c' := UInt8.toNat_inj.mp (by omega)
      have beforeSame : before = before' :=
        ih (by simpa using length) (digits.sublist (List.sublist_append_left before [c]))
          (digits'.sublist (List.sublist_append_left before' [c'])) (by omega)
      rw [beforeSame, lastSame]

theorem digit_value_toNat {c : UInt8} (least : 48 ≤ c) :
    (c - 48).toUInt16.toNat = c.toNat - 48 := by
  rw [UInt8.toNat_toUInt16, UInt8.toNat_sub_of_le c 48 least]
  rfl

theorem foldl_number {b : Bytes} {start : UInt16} (digits : Digits b)
    (room : (start.toNat + 1) * 10 ^ b.length ≤ 10 ^ 4) :
    (b.foldl (fun acc c => acc * 10 + (c - 48).toUInt16) start).toNat =
      b.foldl (fun n c => 10 * n + (c.toNat - 48)) start.toNat := by
  induction b generalizing start with
  | nil => rfl
  | cons c rest ih =>
    have bounds := digits.toNat List.mem_cons_self
    have others : 1 ≤ 10 ^ rest.length := Nat.one_le_pow _ _ (by decide)
    rw [List.length_cons, Nat.pow_succ] at room
    have small : 10 * (start.toNat + 1) ≤ 10 ^ 4 := by
      calc 10 * (start.toNat + 1) = (start.toNat + 1) * (1 * 10) := by omega
        _ ≤ (start.toNat + 1) * (10 ^ rest.length * 10) :=
          Nat.mul_le_mul_left _ (Nat.mul_le_mul_right 10 others)
        _ ≤ 10 ^ 4 := room
    have next : (start * 10 + (c - 48).toUInt16).toNat = 10 * start.toNat + (c.toNat - 48) := by
      rw [UInt16.toNat_add, UInt16.toNat_mul, digit_value_toNat (digits c List.mem_cons_self).1,
        show (10 : UInt16).toNat = 10 from rfl]
      omega
    rw [List.foldl_cons, List.foldl_cons, ← next]
    refine ih (digits.sublist (List.sublist_cons_self c rest)) ?_
    calc ((start * 10 + (c - 48).toUInt16).toNat + 1) * 10 ^ rest.length
        ≤ ((start.toNat + 1) * 10) * 10 ^ rest.length := Nat.mul_le_mul_right _ (by omega)
      _ = (start.toNat + 1) * (10 ^ rest.length * 10) := by
        rw [Nat.mul_assoc, Nat.mul_comm 10]
      _ ≤ 10 ^ 4 := room

theorem number_toNat {b : Bytes} (digits : Digits b) (short : b.length ≤ 4) :
    (number b).toNat = decimal b := by
  refine foldl_number digits ?_
  simpa using Nat.pow_le_pow_right (by decide : 0 < 10) short

theorem number_toUInt8_toNat {b : Bytes} (digits : Digits b) (two : b.length = 2) :
    (number b).toUInt8.toNat = decimal b := by
  have small := decimal_lt digits
  rw [two] at small
  rw [UInt16.toNat_toUInt8, number_toNat digits (by omega)]
  exact Nat.mod_eq_of_lt (by omega)

theorem parts_of_digits {b : Bytes} (length : b.length = 8) (digits : Digits b) :
    (number (b.take 4)).toNat = decimal (b.take 4) ∧
    (number ((b.drop 4).take 2)).toUInt8.toNat = decimal ((b.drop 4).take 2) ∧
    (number ((b.drop 6).take 2)).toUInt8.toNat = decimal ((b.drop 6).take 2) :=
  ⟨number_toNat (digits.take 4) (by simp [length]),
    number_toUInt8_toNat ((digits.drop 4).take 2) (by simp [length]),
    number_toUInt8_toNat ((digits.drop 6).take 2) (by simp [length])⟩

theorem toNat_digit {k : Nat} (small : k < 10) : (digit k).toNat = 48 + k := by
  interval_cases k <;> rfl

theorem isDigit_digit {k : Nat} (small : k < 10) : isDigit (digit k) = true := by
  interval_cases k <;> rfl

theorem toBytes_digits (d : Date) : Digits d.toBytes := by
  have monthTop : d.month.toNat ≤ 12 := UInt8.le_iff_toNat_le.mp d.in_range.2.2.1
  have dayTop : d.day.toNat ≤ 31 := UInt8.le_iff_toNat_le.mp d.in_range.2.2.2.2
  rw [← all_isDigit_iff]
  simp only [toBytes, List.all_cons, List.all_nil, Bool.and_true]
  simp only [isDigit_digit (Nat.mod_lt _ (by decide : 0 < 10)),
    isDigit_digit (show d.month.toNat / 10 < 10 by omega),
    isDigit_digit (show d.day.toNat / 10 < 10 by omega), Bool.and_self]

theorem parts_of_toBytes (d : Date) :
    decimal (d.toBytes.take 4) = d.year.toNat ∧
    decimal ((d.toBytes.drop 4).take 2) = d.month.toNat ∧
    decimal ((d.toBytes.drop 6).take 2) = d.day.toNat := by
  have yearTop : d.year.toNat ≤ 9999 := UInt16.le_iff_toNat_le.mp d.in_range.1
  have monthTop : d.month.toNat ≤ 12 := UInt8.le_iff_toNat_le.mp d.in_range.2.2.1
  have dayTop : d.day.toNat ≤ 31 := UInt8.le_iff_toNat_le.mp d.in_range.2.2.2.2
  simp only [toBytes, decimal, List.drop_succ_cons, List.drop_zero, List.take_succ_cons,
    List.take_zero, List.foldl_cons, List.foldl_nil]
  simp (disch := omega) only [toNat_digit]
  omega

theorem ofBytes_toBytes (d : Date) : ofBytes d.toBytes = .ok d := by
  have digits := d.toBytes_digits
  obtain ⟨year, month, day⟩ := parts_of_digits rfl digits
  obtain ⟨year', month', day'⟩ := d.parts_of_toBytes
  have years : number (d.toBytes.take 4) = d.year := UInt16.toNat_inj.mp (year.trans year')
  have months : (number ((d.toBytes.drop 4).take 2)).toUInt8 = d.month :=
    UInt8.toNat_inj.mp (month.trans month')
  have days : (number ((d.toBytes.drop 6).take 2)).toUInt8 = d.day :=
    UInt8.toNat_inj.mp (day.trans day')
  rw [ofBytes, if_pos ⟨rfl, all_isDigit_iff.mpr digits⟩]
  simp only [years, months, days]
  rw [dif_pos d.in_range]

/-- Eight digits, with a month and a day in their ranges. -/
structure Written (b : Bytes) : Prop where
  length : b.length = 8
  digits : Digits b
  month : 1 ≤ decimal ((b.drop 4).take 2) ∧ decimal ((b.drop 4).take 2) ≤ 12
  day : 1 ≤ decimal ((b.drop 6).take 2) ∧ decimal ((b.drop 6).take 2) ≤ 31

theorem inRange_iff_written {b : Bytes} (length : b.length = 8) (digits : Digits b) :
    InRange (number (b.take 4)) (number ((b.drop 4).take 2)).toUInt8
      (number ((b.drop 6).take 2)).toUInt8 ↔ Written b := by
  obtain ⟨year, month, day⟩ := parts_of_digits length digits
  have top : decimal (b.take 4) < 10 ^ 4 := by simpa [length] using decimal_lt (digits.take 4)
  simp only [InRange, UInt16.le_iff_toNat_le, UInt8.le_iff_toNat_le, year, month, day]
  constructor
  · intro holds
    obtain ⟨_, monthLeast, monthMost, dayLeast, dayMost⟩ := holds
    exact ⟨length, digits, ⟨monthLeast, monthMost⟩, ⟨dayLeast, dayMost⟩⟩
  · intro written
    exact ⟨Nat.le_of_lt_succ top, written.month.1, written.month.2, written.day.1, written.day.2⟩

theorem ofBytes_succeeds_iff {b : Bytes} : (∃ d, ofBytes b = .ok d) ↔ Written b := by
  by_cases shape : b.length = 8 ∧ b.all isDigit = true
  · have holds := inRange_iff_written shape.1 (all_isDigit_iff.mp shape.2)
    rw [ofBytes, if_pos shape, ← holds]
    dsimp only
    split <;> simp_all
  · rw [ofBytes, if_neg shape]
    refine ⟨fun read => ?_, fun written => ?_⟩
    · obtain ⟨d, read⟩ := read
      cases read
    · exact absurd ⟨written.length, all_isDigit_iff.mpr written.digits⟩ shape

theorem ofBytes_eq_ok {b : Bytes} {d : Date} (read : ofBytes b = .ok d) :
    b.length = 8 ∧ Digits b ∧ number (b.take 4) = d.year ∧
      (number ((b.drop 4).take 2)).toUInt8 = d.month ∧
      (number ((b.drop 6).take 2)).toUInt8 = d.day := by
  unfold ofBytes at read
  split at read
  · rename_i shape
    dsimp only at read
    split at read
    · cases read
      exact ⟨shape.1, all_isDigit_iff.mp shape.2, rfl, rfl, rfl⟩
    · cases read
  · cases read

theorem parts_append {b : Bytes} (length : b.length = 8) :
    b.take 4 ++ ((b.drop 4).take 2 ++ (b.drop 6).take 2) = b := by
  have last : (b.drop 6).take 2 = (b.drop 4).drop 2 := by
    rw [List.drop_drop, List.take_of_length_le (by simp [length])]
  rw [last, List.take_append_drop, List.take_append_drop]

theorem toBytes_of_ofBytes {b : Bytes} {d : Date} (read : ofBytes b = .ok d) : d.toBytes = b := by
  obtain ⟨length, digits, year, month, day⟩ := ofBytes_eq_ok read
  obtain ⟨first, second, third⟩ := parts_of_digits length digits
  obtain ⟨first', second', third'⟩ := d.parts_of_toBytes
  have length' : d.toBytes.length = 8 := rfl
  have digits' := d.toBytes_digits
  have years : d.toBytes.take 4 = b.take 4 :=
    decimal_inj (by simp [length, length']) (digits'.take 4) (digits.take 4)
      (by rw [first', ← first, year])
  have months : (d.toBytes.drop 4).take 2 = (b.drop 4).take 2 :=
    decimal_inj (by simp [length, length']) ((digits'.drop 4).take 2) ((digits.drop 4).take 2)
      (by rw [second', ← second, month])
  have days : (d.toBytes.drop 6).take 2 = (b.drop 6).take 2 :=
    decimal_inj (by simp [length, length']) ((digits'.drop 6).take 2) ((digits.drop 6).take 2)
      (by rw [third', ← third, day])
  rw [← parts_append length, ← parts_append length', years, months, days]

end Cryptoki.Date
