import Cryptoki.Module.Request

/-!
Arguments by position. A loaded module takes lengths beside pointers, and stores what it has to
tell into cells.
-/
namespace Cryptoki

inductive Argument where
  | null
  | word (n : Nat)
  | bytes (b : Bytes)
  | room (size : Option Nat)
  | mechanism (m : MechanismBlock)
  | attributes (entries : Option (List Wire.Entry))
  | handleRoom (size : Nat)
  | cell (n : Nat)
  deriving Repr

def Argument.ofTemplate (entries : List Wire.Entry) : Argument :=
  .attributes (if entries.isEmpty then none else some entries)

namespace Request

def dataArguments (b : Bytes) : List Argument := [.bytes b, .word b.length]

def outputArguments (capacity : Option Nat) : List Argument :=
  [.room capacity, .cell (capacity.getD 0)]

def templateArguments (entries : List Wire.Entry) : List Argument :=
  [.ofTemplate entries, .word entries.length]

def handleCell : List Argument := [.cell 0]

def arguments : Request s → List Argument
  | openSession slot flags => [.word slot.toNat, .word flags.toNat, .null, .null] ++ handleCell
  | closeSession h => [.word h]
  | init _ h m key => [.word h, .mechanism m, .word key]
  | digestInit h m => [.word h, .mechanism m]
  | oneShot _ h data capacity | stream _ h data capacity =>
    [.word h] ++ dataArguments data ++ outputArguments capacity
  | feed _ h data => [.word h] ++ dataArguments data
  | finish _ h capacity => [.word h] ++ outputArguments capacity
  | verify h data signature => [.word h] ++ dataArguments data ++ dataArguments signature
  | verifyFinal h signature => [.word h] ++ dataArguments signature
  | generateKey h m t => [.word h, .mechanism m] ++ templateArguments t ++ handleCell
  | generateKeyPair h m t u =>
    [.word h, .mechanism m] ++ templateArguments t ++ templateArguments u ++ handleCell ++
      handleCell
  | wrapKey h m wrapping key capacity =>
    [.word h, .mechanism m, .word wrapping, .word key] ++ outputArguments capacity
  | unwrapKey h m unwrapping wrapped t =>
    [.word h, .mechanism m, .word unwrapping] ++ dataArguments wrapped ++ templateArguments t ++
      handleCell
  | deriveKey h m base t =>
    [.word h, .mechanism m, .word base] ++ templateArguments t ++ handleCell
  | createObject h t => [.word h] ++ templateArguments t ++ handleCell
  | copyObject h object t => [.word h, .word object] ++ templateArguments t ++ handleCell
  | destroyObject h object => [.word h, .word object]
  | getAttributeValue h object entries =>
    [.word h, .word object, .attributes (some entries), .word entries.length]
  | setAttributeValue h object t => [.word h, .word object] ++ templateArguments t
  | findObjectsInit h t => [.word h] ++ templateArguments t
  | findObjects h capacity => [.word h, .handleRoom capacity, .word capacity] ++ handleCell
  | findObjectsFinal h => [.word h]
  | generateRandom h size => [.word h, .room (some size), .word size]
  | seedRandom h seed => [.word h] ++ dataArguments seed

/-- What the cells say after a call that stored `cells`, or left them as they were. -/
def valueOfCells : Request s → List Nat → s.Value
  | openSession .., cells | generateKey .., cells | unwrapKey .., cells | deriveKey .., cells
  | createObject .., cells | copyObject .., cells | findObjects .., cells => cells.headD 0
  | generateKeyPair .., cells => (cells.headD 0, (cells.drop 1).headD 0)
  | oneShot _ _ _ capacity, cells | stream _ _ _ capacity, cells | finish _ _ capacity, cells
  | wrapKey _ _ _ _ capacity, cells => cells.headD (capacity.getD 0)
  | closeSession .., _ | init .., _ | digestInit .., _ | feed .., _ | verify .., _
  | verifyFinal .., _ | destroyObject .., _ | getAttributeValue .., _
  | setAttributeValue .., _ | findObjectsInit .., _ | findObjectsFinal .., _
  | generateRandom .., _ | seedRandom .., _ => ()

end Request

end Cryptoki
