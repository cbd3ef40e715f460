import Cryptoki.Module.Request
import Cryptoki.Token.Object

/-!
How the token in memory fills an array of attributes.
-/
namespace Cryptoki.Token

def withheld (path : List Nat) (rv : Code) : List Patch × Code :=
  ([⟨path, { length := some Wire.unavailable }⟩], rv)

def fillBytes (path : List Nat) (type : Option Code) (h : Wire.Head) (b : Bytes) :
    List Patch × Code :=
  if h.pointer = .null then ([⟨path, { type, length := some b.length }⟩], Return.ok)
  else if h.lengthWord < b.length then
    ([⟨path, { type, length := some Wire.unavailable }⟩], Return.bufferTooSmall)
  else ([⟨path, { type, bytes := b, length := some b.length }⟩], Return.ok)

def fillMembers (path : List Nat) :
    Nat → List Wire.Head → List (Code × Bytes) → List Patch × Code
  | j, h :: heads, (type, b) :: members =>
    let (patches, rv) := fillBytes (path ++ [j]) (some type) h b
    let (rest, rv') := fillMembers path (j + 1) heads members
    (patches ++ rest, if rv' = Return.ok then rv else rv')
  | _, _, _ => ([], Return.ok)

def fillNested (path : List Nat) (e : Wire.Entry) (members : List (Code × Bytes)) :
    List Patch × Code :=
  let length := Wire.entrySize * members.length
  if e.head.pointer = .null then ([⟨path, { length := some length }⟩], Return.ok)
  else if e.head.lengthWord < length then withheld path Return.bufferTooSmall
  else
    let (patches, rv) := fillMembers path 0 e.heads members
    (patches ++ [⟨path, { length := some length }⟩], rv)

def fillEntry (o : Object) (i : Nat) (e : Wire.Entry) : List Patch × Code :=
  match o.value? e.head.type with
  | none => withheld [i] Return.attributeTypeInvalid
  | some (.secret _) => withheld [i] Return.attributeSensitive
  | some (.bytes b) => fillBytes [i] none e.head b
  | some (.nested members) => fillNested [i] e members

/-- A secret wins over the other failures, and a later failure over an earlier one. -/
def worse (rv r : Code) : Code :=
  if r ≠ Return.ok ∧ rv ≠ Return.attributeSensitive then r else rv

def fillAll (o : Object) : Nat → Code → List Wire.Entry → List Patch × Code
  | _, rv, [] => ([], rv)
  | i, rv, e :: rest =>
    let (patches, r) := fillEntry o i e
    let (more, rv) := fillAll o (i + 1) (worse rv r) rest
    (patches ++ more, rv)

def readAttributes (o : Object) (entries : List Wire.Entry) : Answer .done :=
  let (patches, rv) := fillAll o 0 Return.ok entries
  ⟨.attributes patches, if rv = Return.ok then .ok () else .error (.returned rv)⟩

end Cryptoki.Token
