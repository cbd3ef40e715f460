import Cryptoki.Toml.Document
import Cryptoki.Vendor.Definitions
import Cryptoki.Vendor.Tree

/-!
Vendor definitions from TOML. There is a table for each family of codes; a vendor attribute has
a code and a kind. Keys with other names are of no concern here.
-/
namespace Cryptoki.Vendor

def codeOfValue? : Toml.Value → Option Code
  | .integer n => if 0 ≤ n then some (UInt64.ofNat n.toNat) else none
  | _ => none

/-- A kind is named by a string, or by the one key of a table with nothing under it. -/
def kindOfValue? : Toml.Value → Option Kind
  | .string s => Kind.ofKeyword? s
  | .table [(k, .table [])] | .table [(k, .array [])] => Kind.ofKeyword? k
  | _ => none

def attributeOfValue? : Toml.Value → Option AttributeDefinition
  | .table entries => do
    let code ← codeOfValue? (← Toml.lookup "code" entries)
    let kind ← kindOfValue? (← Toml.lookup "kind" entries)
    return ⟨code, kind⟩
  | .array (code :: kind :: _) => do return ⟨← codeOfValue? code, ← kindOfValue? kind⟩
  | _ => none

def family? (item? : Toml.Value → Option α) (name : String)
    (document : List (String × Toml.Value)) : Option (NameMap α) :=
  match Toml.lookup name document with
  | none => some .empty
  | some (.table entries) => do
    return .ofList (← entries.mapM fun e => do return (e.1, ← item? e.2))
  | some _ => none

def Config.ofDocument? (document : List (String × Toml.Value)) : Option Config := do
  return {
    mechanisms := ← family? codeOfValue? "mechanisms" document
    attributes := ← family? attributeOfValue? "attributes" document
    objectClasses := ← family? codeOfValue? "object_classes" document
    keyTypes := ← family? codeOfValue? "key_types" document }

def Config.ofText (text : String) : Result Config :=
  match (Toml.parse text).bind ofDocument? with
  | none => .error .malformedDefinitions
  | some config => do
    config.validate
    return config

def Config.ofFile : FileContent → Result Config
  | .missing => .error (.other "No such file or directory (os error 2)")
  | .directory => .error (.other "Is a directory (os error 21)")
  | .notDirectory => .error (.other "Not a directory (os error 20)")
  | .nameTooLong => .error (.other "File name too long (os error 36)")
  | .bytes b =>
    match b.toString? with
    | some text => ofText text
    | none => .error (.other "stream did not contain valid UTF-8")

/-- The definitions of a file. Without a file, or when it fails to load, the bundled ones. -/
def Config.load : Option FileContent → Config
  | none => .bundled
  | some file =>
    match ofFile file with
    | .ok config => config
    | .error _ => .bundled

end Cryptoki.Vendor
