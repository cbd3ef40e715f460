/-!
The kinds of value an attribute can carry.
-/
namespace Cryptoki

inductive Kind where
  | bool
  | ulong
  | bytes
  | bigInt
  | string
  | date
  | mechanism
  | mechanismArray
  | template
  | objectClass
  | keyType
  | certificateType
  | hardwareFeature
  | raw
  deriving DecidableEq, Repr

def Kind.all : List Kind :=
  [.bool, .ulong, .bytes, .bigInt, .string, .date, .mechanism, .mechanismArray, .template,
    .objectClass, .keyType, .certificateType, .hardwareFeature, .raw]

def Kind.title : Kind → String
  | .bool => "Bool"
  | .ulong => "Ulong"
  | .bytes => "Bytes"
  | .bigInt => "BigInt"
  | .string => "String"
  | .date => "Date"
  | .mechanism => "Mechanism"
  | .mechanismArray => "MechanismArray"
  | .template => "Template"
  | .objectClass => "ObjectClass"
  | .keyType => "KeyType"
  | .certificateType => "CertificateType"
  | .hardwareFeature => "HwFeatureType"
  | .raw => "Opaque"

def Kind.keyword : Kind → String
  | .bool => "bool"
  | .ulong => "ulong"
  | .bytes => "bytes"
  | .bigInt => "big_int"
  | .string => "string"
  | .date => "date"
  | .mechanism => "mechanism"
  | .mechanismArray => "mechanism_array"
  | .template => "template"
  | .objectClass => "object_class"
  | .keyType => "key_type"
  | .certificateType => "certificate_type"
  | .hardwareFeature => "hw_feature_type"
  | .raw => "opaque"

def Kind.ofKeyword? (s : String) : Option Kind := Kind.all.find? (·.keyword == s)

end Cryptoki
