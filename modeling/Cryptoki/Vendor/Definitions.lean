import Cryptoki.Journal
import Cryptoki.Sorted
import Cryptoki.Vendor.Config

/-!
Vendor definitions in force. In each family a name stands for one code and a code for one name:
of several configured names with one code the first in the order of the names is kept.
-/
namespace Cryptoki.Vendor

abbrev NameTable := List (String × Code)

def NameTable.code? (t : NameTable) (name : String) : Option Code :=
  (t.find? (·.1 == name)).map (·.2)

def NameTable.name? (t : NameTable) (code : Code) : Option String :=
  (t.find? (·.2 == code)).map (·.1)

def NameTable.insert? (t : NameTable) (name : String) (code : Code) : Option NameTable :=
  if t.any fun e => e.1 == name || e.2 == code then none else some (t ++ [(name, code)])

def duplicateNote (name : String) (code : Code) : Note :=
  ⟨.warn, "duplicate vendor definition " ++ name ++ " = " ++ Text.hexCode code ++ " ignored"⟩

def NameTable.fill : NameTable → List (String × Code) → NameTable × Journal
  | t, [] => (t, [])
  | t, (name, code) :: rest =>
    match t.insert? name code with
    | some t' => fill t' rest
    | none =>
      let (filled, notes) := fill t rest
      (filled, duplicateNote name code :: notes)

structure Definitions where
  mechanisms : NameTable
  attributes : NameTable
  objectClasses : NameTable
  keyTypes : NameTable
  attributeKinds : List (Code × Kind)
  deriving DecidableEq, Repr

def Definitions.table (d : Definitions) : Family → NameTable
  | .mechanisms => d.mechanisms
  | .attributes => d.attributes
  | .objectClasses => d.objectClasses
  | .keyTypes => d.keyTypes

def Definitions.code? (d : Definitions) (f : Family) (name : String) : Option Code :=
  NameTable.code? (d.table f) name

def Definitions.name? (d : Definitions) (f : Family) (code : Code) : Option String :=
  NameTable.name? (d.table f) code

def Definitions.attributeKind? (d : Definitions) (code : Code) : Option Kind :=
  (bisect Prod.fst code d.attributeKinds).map (·.2)

/-- The kinds of all configured attributes. Of several names with one code the first gives it its
kind. -/
def Config.attributeKinds (c : Config) : List (Code × Kind) :=
  dropRepeats Prod.fst <| sortByCode Prod.fst <|
    c.attributes.entries.map fun e => (e.2.code, e.2.kind)

def Definitions.ofConfigNoted (c : Config) : Definitions × Journal :=
  let m := NameTable.fill [] (c.codes .mechanisms)
  let a := NameTable.fill [] (c.codes .attributes)
  let o := NameTable.fill [] (c.codes .objectClasses)
  let k := NameTable.fill [] (c.codes .keyTypes)
  (⟨m.1, a.1, o.1, k.1, c.attributeKinds⟩, m.2 ++ a.2 ++ o.2 ++ k.2)

def Definitions.ofConfig (c : Config) : Definitions := (ofConfigNoted c).1

def Definitions.bundled : Definitions := ofConfig .bundled

def unresolved : Code := vendorBit

def Definitions.find (d : Definitions) (f : Family) (name : String) : Result Code :=
  match d.code? f name with
  | some c => .ok c
  | none => .error (.unknownVendorName f.title name)

def Definitions.resolve (d : Definitions) (f : Family) (name : String) : Code × Journal :=
  match d.code? f name with
  | some c => (c, [])
  | none => (unresolved, [⟨.warn, "unknown vendor " ++ f.title ++ " " ++ name ++
      ", resolving to " ++ Text.hexCode unresolved⟩])

end Cryptoki.Vendor
