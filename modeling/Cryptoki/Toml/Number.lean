import Cryptoki.Toml.Lexeme

/-!
Numbers of a TOML text. Integers have 64 bits; of floats only the form is read.
-/
namespace Cryptoki.Toml

def sign : Input → Bool × Input
  | '+' :: rest => (false, rest)
  | '-' :: rest => (true, rest)
  | cs => (false, cs)

def decimalDigits : Reader (List Char)
  | '0' :: rest => some (['0'], rest)
  | cs => digits Char.isDigit cs

def signedLimit : Nat := 0x8000000000000000

def radixInteger (base : Nat) (isDigit : Char → Bool) : Reader Int := fun cs => do
  let (ds, rest) ← digits isDigit cs
  let n := numberOf base ds
  if n < signedLimit then return ((n : Int), rest) else none

def integer : Reader Int
  | '0' :: 'x' :: rest => radixInteger 16 isHexDigit rest
  | '0' :: 'o' :: rest => radixInteger 8 isOctalDigit rest
  | '0' :: 'b' :: rest => radixInteger 2 isBinaryDigit rest
  | cs => do
    let (negative, rest) := sign cs
    let (ds, rest) ← decimalDigits rest
    let n := numberOf 10 ds
    if negative then if n ≤ signedLimit then return (-(n : Int), rest) else none
    else if n < signedLimit then return ((n : Int), rest) else none

/-- Whether the nearest number of double precision to `n * 10 ^ exponent` would be infinite: from
the middle between the largest finite number and the next power of two on. -/
def exceedsDouble (n : Nat) (exponent : Int) : Bool :=
  let bound := 0x3fffffffffffff <<< 970
  let magnitude := (Nat.toDigits 10 n).length + exponent
  if n = 0 ∨ magnitude < 300 then false
  else if 320 < magnitude then true
  else if 0 ≤ exponent then bound ≤ n * Nat.pow 10 exponent.toNat
  else bound * Nat.pow 10 (-exponent).toNat ≤ n

def exponentPart : Reader Int
  | c :: rest =>
    if c = 'e' ∨ c = 'E' then do
      let (negative, rest) := sign rest
      let (ds, rest) ← digits Char.isDigit rest
      let n := numberOf 10 ds
      return (if negative then -(n : Int) else n, rest)
    else none
  | [] => none

def decimalFloat (cs : Input) : Option Input := do
  let (negative, rest) := sign cs
  let (whole, rest) ← decimalDigits rest
  let (fraction, exponent, rest) ←
    match rest with
    | '.' :: rest => do
      let (fraction, rest) ← digits Char.isDigit rest
      match rest with
      | 'e' :: _ | 'E' :: _ => do
        let (e, rest) ← exponentPart rest
        pure (fraction, e, rest)
      | _ => pure (fraction, 0, rest)
    | _ => do
      let (e, rest) ← exponentPart rest
      pure ([], e, rest)
  let n := numberOf 10 (whole ++ fraction)
  if !negative ∧ exceedsDouble n (exponent - (fraction.length : Int)) then none else return rest

def specialFloat (cs : Input) : Option Input :=
  let rest := (sign cs).2
  (after? "inf".toList rest).or (after? "nan".toList rest)

def float (cs : Input) : Option Input := (decimalFloat cs).or (specialFloat cs)

end Cryptoki.Toml
