import Cryptoki.Attribute.Kind
import Cryptoki.Code.Enumerated
import Cryptoki.Date
import Cryptoki.Mechanism.Name
import Cryptoki.Text.Quoted

/-!
Values of all kinds but the template: their bytes, their text, and the values that bytes of a
given kind stand for.
-/
namespace Cryptoki

inductive Scalar where
  | bool (b : Bool)
  | ulong (n : UInt64)
  | bytes (b : Bytes)
  | bigInt (n : Nat)
  | string (s : String)
  | date (d : Option Date)
  | mechanism (c : Code)
  | mechanismArray (cs : List Code)
  | objectClass (c : Code)
  | keyType (c : Code)
  | certificateType (c : Code)
  | hardwareFeature (c : Code)
  | raw (b : Bytes)
  deriving DecidableEq, Repr

def Scalar.kind : Scalar → Kind
  | .bool _ => .bool
  | .ulong _ => .ulong
  | .bytes _ => .bytes
  | .bigInt _ => .bigInt
  | .string _ => .string
  | .date _ => .date
  | .mechanism _ => .mechanism
  | .mechanismArray _ => .mechanismArray
  | .objectClass _ => .objectClass
  | .keyType _ => .keyType
  | .certificateType _ => .certificateType
  | .hardwareFeature _ => .hardwareFeature
  | .raw _ => .raw

def Scalar.encode : Scalar → Bytes
  | .bool b => [if b then 1 else 0]
  | .ulong n | .mechanism n | .objectClass n | .keyType n | .certificateType n
  | .hardwareFeature n => Bytes.ofWord n
  | .bytes b | .raw b => b
  | .bigInt n => Bytes.bigEndian n
  | .string s => Bytes.ofString s
  | .date none => []
  | .date (some d) => d.toBytes
  | .mechanismArray cs => cs.flatMap Bytes.ofWord

def wordOf (b : Bytes) : Result UInt64 :=
  match b.toWord? with
  | some w => .ok w
  | none => .error (.wordLength b.length)

def Scalar.decode (kind : Kind) (b : Bytes) : Result Scalar :=
  match kind with
  | .bool =>
    match b with
    | [x] => .ok (.bool (x != 0))
    | _ => .error (.boolLength b.length)
  | .ulong => .ulong <$> wordOf b
  | .mechanism => .mechanism <$> wordOf b
  | .objectClass => .objectClass <$> wordOf b
  | .keyType => .keyType <$> wordOf b
  | .certificateType => .certificateType <$> wordOf b
  | .hardwareFeature => .hardwareFeature <$> wordOf b
  | .bytes => .ok (.bytes b)
  | .raw => .ok (.raw b)
  | .bigInt => .ok (.bigInt b.bigEndianValue)
  | .string =>
    match b.toString? with
    | some s => .ok (.string s)
    | none => .error .notUtf8
  | .date =>
    match b with
    | [] => .ok (.date none)
    | _ => (fun d => .date (some d)) <$> Date.ofBytes b
  | .mechanismArray =>
    if b.length % 8 = 0 then
      .ok (.mechanismArray ((b.chunks 8).map fun c => UInt64.ofNat (Bytes.littleEndianValue c)))
    else .error (.mechanismArrayLength b.length)
  | .template => .error .templateFromBytes

def codeText (name : Option String) (code : Code) : String :=
  name.getD ("unknown (" ++ Text.hexCode code ++ ")")

def vendorName? (family : Vendor.Family) (code : Code) : Option String :=
  Vendor.Definitions.bundled.name? family code

def Scalar.text : Scalar → String
  | .bool b => if b then "true" else "false"
  | .ulong n => toString n.toNat
  | .bytes b | .raw b => b.hex
  | .bigInt n => Text.hexNumber n
  | .string s => Text.quote s
  | .date none => "<empty date>"
  | .date (some d) => d.text
  | .mechanism c => mechanismName c
  | .mechanismArray cs => Text.bracketed (cs.map mechanismName)
  | .objectClass c =>
    codeText ((Enumerated.objectClass? c).or (vendorName? .objectClasses c)) c
  | .keyType c => codeText ((Enumerated.keyType? c).or (vendorName? .keyTypes c)) c
  | .certificateType c => codeText (Enumerated.certificateType? c) c
  | .hardwareFeature c => codeText (Enumerated.hardwareFeature? c) c

def Bytes.numbers (b : Bytes) : String := Text.bracketed (b.map fun x => toString x.toNat)

def Date.inspect (d : Date) : String :=
  Text.record "Date" [("year", toString d.year.toNat), ("month", toString d.month.toNat),
    ("day", toString d.day.toNat)]

def Scalar.payloadInspect : Scalar → String
  | .bool b => if b then "true" else "false"
  | .ulong n | .mechanism n | .objectClass n | .keyType n | .certificateType n
  | .hardwareFeature n => toString n.toNat
  | .bytes b | .raw b => b.numbers
  | .bigInt n => toString n
  | .string s => Text.quote s
  | .date d => Text.optional Date.inspect d
  | .mechanismArray cs => Text.bracketed (cs.map fun c => toString c.toNat)

def Scalar.inspect (v : Scalar) : String := Text.applied v.kind.title v.payloadInspect

/-- The value in the form that bytes of `kind` decode to. Big integers and bytes stand for each
other when the bytes are a shortest form, and any value can be raw bytes. -/
def Scalar.conform (v : Scalar) (kind : Kind) : Option Scalar :=
  if v.kind = kind then some v
  else
    match v, kind with
    | .bytes b, .bigInt =>
      match b with
      | [] => none
      | [x] => some (.bigInt (Bytes.bigEndianValue [x]))
      | 0 :: _ => none
      | _ => some (.bigInt b.bigEndianValue)
    | .bigInt n, .bytes => some (.bytes (Bytes.bigEndian n))
    | v, .raw => some (.raw v.encode)
    | _, _ => none

end Cryptoki
