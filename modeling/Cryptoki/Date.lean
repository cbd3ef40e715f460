import Cryptoki.Error

/-!
Calendar dates in their eight-digit form: four digits of year, two of month, two of day.
-/
namespace Cryptoki

def Date.InRange (year : UInt16) (month day : UInt8) : Prop :=
  year ≤ 9999 ∧ 1 ≤ month ∧ month ≤ 12 ∧ 1 ≤ day ∧ day ≤ 31

instance (y : UInt16) (m d : UInt8) : Decidable (Date.InRange y m d) := by
  unfold Date.InRange; infer_instance

/-- The field order is the order of dates. -/
structure Date where
  year : UInt16
  month : UInt8
  day : UInt8
  in_range : Date.InRange year month day
  deriving DecidableEq, Repr

def Date.make (year : UInt16) (month day : UInt8) : Result Date :=
  if h : InRange year month day then .ok ⟨year, month, day, h⟩
  else .error (.invalidDate year.toNat month.toNat day.toNat)

def Date.digit (n : Nat) : UInt8 := UInt8.ofNat (48 + n)

def Date.isDigit (b : UInt8) : Bool := 48 ≤ b && b ≤ 57

def Date.toBytes (d : Date) : Bytes :=
  let y := d.year.toNat
  let m := d.month.toNat
  let n := d.day.toNat
  [digit (y / 1000 % 10), digit (y / 100 % 10), digit (y / 10 % 10), digit (y % 10),
    digit (m / 10), digit (m % 10), digit (n / 10), digit (n % 10)]

def Date.number (digits : Bytes) : UInt16 :=
  digits.foldl (fun acc c => acc * 10 + (c - 48).toUInt16) 0

def Date.ofBytes (value : Bytes) : Result Date :=
  if value.length = 8 ∧ value.all isDigit then
    let year := number (value.take 4)
    let month := (number ((value.drop 4).take 2)).toUInt8
    let day := (number ((value.drop 6).take 2)).toUInt8
    if h : InRange year month day then .ok ⟨year, month, day, h⟩
    else .error (.dateOutOfRange year.toNat month.toNat day.toNat)
  else .error (.malformedDate value)

structure DateFields where
  year : Bytes
  month : Bytes
  day : Bytes
  deriving DecidableEq, Repr

def Date.toFields (d : Date) : DateFields :=
  ⟨d.toBytes.take 4, (d.toBytes.drop 4).take 2, (d.toBytes.drop 6).take 2⟩

def Date.ofFields (f : DateFields) : Result Date :=
  let blank : Bytes := List.replicate 8 0
  ofBytes (((blank.overwriteAt 0 f.year).overwriteAt 4 f.month).overwriteAt 6 f.day)

def Date.compare (a b : Date) : Ordering :=
  (Ord.compare a.year b.year).then <| (Ord.compare a.month b.month).then <| Ord.compare a.day b.day

def Date.text (d : Date) : String :=
  Text.padded 4 d.year.toNat ++ "-" ++ Text.padded 2 d.month.toNat ++ "-" ++
    Text.padded 2 d.day.toNat

end Cryptoki
