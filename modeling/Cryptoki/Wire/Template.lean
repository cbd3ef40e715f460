import Cryptoki.Template
import Cryptoki.Wire.Exchange

/-!
Templates to arrays and back. `ofArray` follows the storage of the array, `ofHeads` only what
its pointers and lengths say.
-/
namespace Cryptoki

namespace Wire

mutual

/-- An absent attribute has no entry. A value without bytes or members has a null pointer. -/
def ofAttribute : Attribute → List Entry
  | .absent .. => []
  | .scalar t s v =>
    let b := v.encode
    [.buffer ⟨t, some b.length, if b.isEmpty then .null else .own, s⟩ b]
  | .template t s members =>
    let entries := ofAttributes members
    [.nested ⟨t, some (entrySize * entries.length), if entries.isEmpty then .null else .own, s⟩
      entries]

def ofAttributes : List Attribute → List Entry
  | [] => []
  | a :: rest => ofAttribute a ++ ofAttributes rest

end

def collect (attributes : List Attribute) : Template := attributes.foldl Template.insert .empty

def nestedAttribute (type : Code) (t : Template) : Attribute := .make type (.template t)

def flagged (h : Head) (a : Attribute) : Attribute :=
  if h.sensitive then a.withSensitive true else a

mutual

/-- Of a nested array as many attributes are kept as its length says. -/
def Entry.toAttribute (r : Registry) : Entry → Result Attribute
  | .empty h =>
    match h.length with
    | none => .ok (.absent h.type h.sensitive)
    | some n =>
      if n ≠ 0 then .error (.valueMissing (r.name h.type))
      else if r.kind h.type = .template then .ok (flagged h (nestedAttribute h.type .empty))
      else flagged h <$> Attribute.decode r h.type []
  | .buffer h b =>
    match h.length with
    | none => .ok (.absent h.type h.sensitive)
    | some n => flagged h <$> Attribute.decode r h.type (b.take n)
  | .nested h entries =>
    match h.length with
    | none => .ok (.absent h.type h.sensitive)
    | some n => do
      let count ← nestedCount r h.type n
      let members ← toAttributes r entries
      return flagged h (nestedAttribute h.type ⟨(collect members).attributes.take count⟩)

def toAttributes (r : Registry) : List Entry → Result (List Attribute)
  | [] => .ok []
  | e :: rest => do
      let a ← e.toAttribute r
      return a :: (← toAttributes r rest)

end

/-- An entry by its head, `members` and `bytes` standing for what its pointer leads to. -/
def Head.toAttribute (r : Registry) (h : Head) (members : Nat → Result (List Attribute))
    (bytes : Bytes) : Result Attribute :=
  match h.length with
  | none => .ok (.absent h.type false)
  | some n =>
    if h.pointer = .null ∧ n ≠ 0 then .error (.valueMissing (r.name h.type))
    else if r.kind h.type = .template then do
      let count ← nestedCount r h.type n
      return nestedAttribute h.type (collect (← members count))
    else Attribute.decode r h.type (bytes.take n)

def Head.toFlatAttribute (r : Registry) (h : Head) : Result Attribute :=
  h.toAttribute r (fun _ => .ok []) []

mutual

def Entry.toAttributeByHead (r : Registry) : Entry → Result Attribute
  | .empty h => h.toFlatAttribute r
  | .buffer h b =>
    h.toAttribute r (fun n => ((ofImage b).take n).mapM fun e => e.head.toFlatAttribute r) b
  | .nested h entries => h.toAttribute r (toAttributesByHead r entries) (image entries)

def toAttributesByHead (r : Registry) : List Entry → Nat → Result (List Attribute)
  | [], _ | _, 0 => .ok []
  | e :: rest, count + 1 => do
      let a ← e.toAttributeByHead r
      return a :: (← toAttributesByHead r rest count)

end

end Wire

namespace Template

def toArray (t : Template) : List Wire.Entry := Wire.ofAttributes t.attributes

/-- Reads an array of one's own, with `r` as the registry in force. -/
def ofArrayUnder (r : Registry) (entries : List Wire.Entry) : Result Template :=
  Wire.collect <$> Wire.toAttributes r entries

def ofArray (entries : List Wire.Entry) : Result Template := ofArrayUnder .bundled entries

/-- Reads an array of someone else, whose pointers lead to as much as the lengths say. -/
def ofHeadsUnder (r : Registry) (entries : List Wire.Entry) : Result Template :=
  Wire.collect <$> Wire.toAttributesByHead r entries entries.length

def ofHeads (entries : List Wire.Entry) : Result Template := ofHeadsUnder .bundled entries

end Template

end Cryptoki
