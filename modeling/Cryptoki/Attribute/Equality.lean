import Cryptoki.Attribute.Basic

/-!
Equality of attributes, values and templates, and the bytes from which they are hashed. All
absent attributes are equal. Sensitive values are compared by their bytes, all of them, so that
the time taken tells nothing about where two values part.
-/
namespace Cryptoki

def Bytes.constantTimeEq (a b : Bytes) : Bool :=
  a.length == b.length && (List.zipWith (· ^^^ ·) a b).foldl (· ||| ·) 0 == 0

def Scalar.sameBytes (a b : Scalar) : Bool :=
  a.kind == b.kind && Bytes.constantTimeEq a.encode b.encode

mutual

def Attribute.same : Attribute → Attribute → Bool
  | .absent .., .absent .. => true
  | .scalar t s v, .scalar t' s' v' =>
    t == t' && s == s' && if s then v.sameBytes v' else v == v'
  | .template t s members, .template t' s' members' =>
    t == t' && s == s' && Attribute.sameAll members members'
  | _, _ => false

def Attribute.sameAll : List Attribute → List Attribute → Bool
  | [], [] => true
  | a :: rest, b :: rest' => a.same b && Attribute.sameAll rest rest'
  | _, _ => false

end

instance : BEq Attribute := ⟨Attribute.same⟩

def Template.same (a b : Template) : Bool := Attribute.sameAll a.attributes b.attributes

instance : BEq Template := ⟨Template.same⟩

def Value.same : Value → Value → Bool
  | .scalar v, .scalar w => v == w
  | .template t, .template u => t == u
  | _, _ => false

instance : BEq Value := ⟨Value.same⟩

def Kind.index (k : Kind) : UInt8 := UInt8.ofNat (Kind.all.idxOf k)

def lengthBytes (n : Nat) : Bytes := Bytes.littleEndian 8 n

def Scalar.hashInput (v : Scalar) : Bytes :=
  v.kind.index :: lengthBytes v.encode.length ++ v.encode

mutual

def Attribute.hashInput : Attribute → Bytes
  | .absent .. => [0]
  | .scalar t s v => 1 :: Bytes.ofWord t ++ [if s then 1 else 0] ++ v.hashInput
  | .template t s members =>
    1 :: Bytes.ofWord t ++ [if s then 1 else 0] ++
      (Kind.index .template :: lengthBytes members.length ++ Attribute.hashInputAll members)

def Attribute.hashInputAll : List Attribute → Bytes
  | [] => []
  | a :: rest => a.hashInput ++ Attribute.hashInputAll rest

end

def Template.hashInput (t : Template) : Bytes :=
  lengthBytes t.attributes.length ++ Attribute.hashInputAll t.attributes

instance : Hashable Attribute := ⟨fun a => hash a.hashInput⟩

instance : Hashable Template := ⟨fun t => hash t.hashInput⟩

end Cryptoki
