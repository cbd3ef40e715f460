/-!
Numbers as text: hexadecimal with its mark, decimals of a least width, and durations in the
largest unit that they fill.
-/
namespace Cryptoki.Text

def hexNumber (n : Nat) : String := "0x" ++ String.ofList (Nat.toDigits 16 n)

def hexCode (c : UInt64) : String := hexNumber c.toNat

def padded (width n : Nat) : String :=
  let digits := Nat.toDigits 10 n
  String.ofList (List.replicate (width - digits.length) '0' ++ digits)

/-- The first `places` digits after the point of a fraction in units of `10 ^ places`, without
trailing zeros and without the point when none are left. -/
def fraction (places n : Nat) : String :=
  let digits := ((padded places n).toList.reverse.dropWhile (· == '0')).reverse
  if digits.isEmpty then "" else String.ofList ('.' :: digits)

end Cryptoki.Text

namespace Cryptoki

structure Duration where
  seconds : Nat
  nanoseconds : Nat
  deriving DecidableEq, Repr

def Duration.ofMicroseconds (n : Nat) : Duration := ⟨n / 1000000, n % 1000000 * 1000⟩

def Duration.normalize (d : Duration) : Duration :=
  ⟨d.seconds + d.nanoseconds / 1000000000, d.nanoseconds % 1000000000⟩

def Duration.text (d : Duration) : String :=
  let t := d.normalize
  if 0 < t.seconds then
    toString t.seconds ++ Text.fraction 9 t.nanoseconds ++ "s"
  else if 1000000 ≤ t.nanoseconds then
    toString (t.nanoseconds / 1000000) ++ Text.fraction 6 (t.nanoseconds % 1000000) ++ "ms"
  else if 1000 ≤ t.nanoseconds then
    toString (t.nanoseconds / 1000) ++ Text.fraction 3 (t.nanoseconds % 1000) ++ "µs"
  else toString t.nanoseconds ++ "ns"

end Cryptoki
