/-!
Byte strings: fixed-width little-endian numbers, minimal big-endian numbers, UTF-8 and
hexadecimal text.
-/
namespace Cryptoki

abbrev Bytes := List UInt8

def Bytes.littleEndian : Nat → Nat → Bytes
  | 0, _ => []
  | width + 1, n => UInt8.ofNat (n % 256) :: littleEndian width (n / 256)

def Bytes.littleEndianValue : Bytes → Nat
  | [] => 0
  | b :: rest => b.toNat + 256 * littleEndianValue rest

def Bytes.ofWord (w : UInt64) : Bytes := littleEndian 8 w.toNat

def Bytes.toWord? (b : Bytes) : Option UInt64 :=
  if b.length = 8 then some (UInt64.ofNat (littleEndianValue b)) else none

def Bytes.bigEndian (n : Nat) : Bytes := (littleEndian (n.log2 / 8 + 1) n).reverse

def Bytes.bigEndianValue (b : Bytes) : Nat := b.foldl (fun n x => n * 256 + x.toNat) 0

def Bytes.ofString (s : String) : Bytes := s.toUTF8.data.toList

def Bytes.toString? (b : Bytes) : Option String := String.fromUTF8? ⟨b.toArray⟩

/-- Writes `source` over the start of `target`. The length of `target` does not change. -/
def Bytes.overwrite (target source : Bytes) : Bytes :=
  source.take target.length ++ target.drop source.length

def Bytes.overwriteAt (target : Bytes) (start : Nat) (source : Bytes) : Bytes :=
  target.take start ++ Bytes.overwrite (target.drop start) source

def Bytes.chunks (width : Nat) (b : Bytes) : List Bytes :=
  (List.range (b.length / width)).map fun i => (b.drop (i * width)).take width

def Bytes.hexDigit (n : Nat) : Char := Nat.digitChar n

def Bytes.hex (b : Bytes) : String :=
  String.ofList (b.flatMap fun x => [hexDigit (x.toNat / 16), hexDigit (x.toNat % 16)])

def Bytes.hexDigitValue? (c : Char) : Option Nat :=
  if '0' ≤ c ∧ c ≤ '9' then some (c.toNat - '0'.toNat)
  else if 'a' ≤ c ∧ c ≤ 'f' then some (c.toNat - 'a'.toNat + 10)
  else if 'A' ≤ c ∧ c ≤ 'F' then some (c.toNat - 'A'.toNat + 10)
  else none

def Bytes.ofHexDigits? : List Char → Option Bytes
  | [] => some []
  | hi :: lo :: rest => do
      let h ← hexDigitValue? hi
      let l ← hexDigitValue? lo
      return UInt8.ofNat (16 * h + l) :: (← ofHexDigits? rest)
  | [_] => none

def Bytes.ofHex? (s : String) : Option Bytes := ofHexDigits? s.toList

end Cryptoki
