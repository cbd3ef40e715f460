/-!
Codes and their names. A code is one machine word; each family of codes has its own table.
-/
namespace Cryptoki

abbrev Code := UInt64

abbrev Handle := Nat

structure NamedCode where
  code : Code
  name : String
  deriving DecidableEq, Repr

def nameOf? (table : List NamedCode) (code : Code) : Option String :=
  (table.find? (·.code == code)).map (·.name)

def vendorBit : Code := 0x80000000

end Cryptoki
