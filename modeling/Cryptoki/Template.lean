import Cryptoki.Attribute.Basic

/-!
Templates: ordered sets of attributes. Values are kept in the form of the kind registered for
their type, so that a value that can not be given that form is refused on the way in.
-/
namespace Cryptoki

def insertAttribute (a : Attribute) : List Attribute → List Attribute
  | [] => [a]
  | b :: rest => if b.type == a.type then a :: rest else b :: insertAttribute a rest

namespace Template

def empty : Template := ⟨[]⟩

instance : Inhabited Template := ⟨.empty⟩

def insert (t : Template) (a : Attribute) : Template := ⟨insertAttribute a t.attributes⟩

def setUnder (r : Registry) (t : Template) (a : Attribute) : Result Template :=
  t.insert <$> a.normalize r

def set (t : Template) (a : Attribute) : Result Template := t.setUnder .bundled a

/-- Sets one after the other: a later attribute replaces an earlier one of its type. -/
def ofListUnder (r : Registry) (attributes : List Attribute) : Result Template :=
  attributes.foldlM (setUnder r) .empty

def ofList (attributes : List Attribute) : Result Template := ofListUnder .bundled attributes

def get? (t : Template) (type : Code) : Option Attribute :=
  t.attributes.find? (·.type == type)

def contains (t : Template) (type : Code) : Bool := (t.get? type).isSome

def remove (t : Template) (type : Code) : Template :=
  ⟨t.attributes.eraseP (·.type == type)⟩

def length (t : Template) : Nat := t.attributes.length

def isEmpty (t : Template) : Bool := t.attributes.isEmpty

def types (t : Template) : List Code := t.attributes.map (·.type)

def present (t : Template) : Template := ⟨t.attributes.filter (·.isPresent)⟩

def markSensitive (t : Template) (type : Code) : Template :=
  match t.get? type with
  | some a => t.insert (a.withSensitive true)
  | none => t

end Template

end Cryptoki
