import Cryptoki.Wire.Exchange

/-!
Objects of the token in memory: a list of types with their values, which are bytes, flat members
of a template, or a secret that is never handed out.
-/
namespace Cryptoki.Token

inductive Value where
  | bytes (b : Bytes)
  | nested (members : List (Code × Bytes))
  | secret (b : Bytes)
  deriving DecidableEq, Repr

abbrev Object := List (Code × Value)

def keyValue : Code := 0x11

def sensitiveFlag : Code := 0x103

namespace Object

def value? (o : Object) (type : Code) : Option Value := (o.find? (·.1 == type)).map (·.2)

def entryBytes (e : Wire.Entry) : Bytes :=
  if e.head.pointer = .null then [] else e.bytes

def ofEntry (e : Wire.Entry) : Code × Value :=
  if Registry.bundled.kind e.head.type = .template then
    match e with
    | .nested h entries =>
      (h.type, .nested ((entries.take (h.lengthWord / Wire.entrySize)).map fun m =>
        (m.head.type, entryBytes m)))
    | e => (e.head.type, .nested [])
  else (e.head.type, .bytes (entryBytes e))

def ofTemplate (entries : List Wire.Entry) : Object := entries.map ofEntry

def mergeEntry (type : Code) (v : Value) : Object → Object
  | [] => [(type, v)]
  | e :: rest => if e.1 = type then (type, v) :: rest else e :: mergeEntry type v rest

def merge (o update : Object) : Object := update.foldl (fun o e => mergeEntry e.1 e.2 o) o

def isSensitive (o : Object) : Bool := o.any (· == (sensitiveFlag, .bytes [1]))

def hideSecrets (o : Object) : Object :=
  if isSensitive o then
    o.map fun e =>
      match e.2 with
      | .bytes b => if e.1 = keyValue then (e.1, .secret b) else e
      | _ => e
  else o

def matchesTemplate (o : Object) (template : Object) : Bool := template.all (o.contains ·)

end Object

end Cryptoki.Token
