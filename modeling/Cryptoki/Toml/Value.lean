import Cryptoki.Toml.Key
import Cryptoki.Toml.Moment
import Cryptoki.Toml.Number

/-!
TOML values: scalars, arrays and inline tables.
-/
namespace Cryptoki.Toml

/-- Of floats and dates nothing is kept but that they are there. -/
inductive Value where
  | string (s : String)
  | integer (n : Int)
  | float
  | boolean (b : Bool)
  | date
  | array (items : List Value)
  | table (entries : List (String × Value))
  deriving Repr

def lookup (name : String) (entries : List (String × α)) : Option α :=
  (entries.find? (·.1 == name)).map (·.2)

/-- Where a table comes from. Only tables made for dotted keys take further dotted keys. -/
inductive Origin where
  | header
  | implied
  | dotted
  deriving DecidableEq, Repr

inductive Node where
  | value (v : Value)
  | table (origin : Origin) (entries : List (String × Node))
  | tables (items : List (List (String × Node)))

abbrev Nodes := List (String × Node)

def replace (name : String) (n : Node) (entries : Nodes) : Nodes :=
  entries.map fun e => if e.1 == name then (name, n) else e

/-- Adds a definition to a table. A dotted key makes the tables on its way, or goes through those
that earlier dotted keys made. -/
def defineIn (v : Node) (last : String) : List String → Nodes → Option Nodes
  | [], entries =>
    match lookup last entries with
    | none => some (entries ++ [(last, v)])
    | some _ => none
  | k :: path, entries =>
    match lookup k entries with
    | none => do return entries ++ [(k, .table .dotted (← defineIn v last path []))]
    | some (.table .dotted inner) => do
      return replace k (.table .dotted (← defineIn v last path inner)) entries
    | some _ => none

mutual

def Node.toValue : Node → Value
  | .value v => v
  | .table _ entries => .table (toEntries entries)
  | .tables items => .array (toTables items)

def toEntries : List (String × Node) → List (String × Value)
  | [] => []
  | (k, n) :: rest => (k, n.toValue) :: toEntries rest

def toTables : List (List (String × Node)) → List Value
  | [] => []
  | entries :: rest => .table (toEntries entries) :: toTables rest

end

def arrayItems (value : Reader Value) : Nat → Reader (List Value)
  | 0, _ => none
  | fuel + 1, cs => do
    match ← filler false cs with
    | ']' :: rest => return ([], rest)
    | cs => do
      let (v, rest) ← value cs
      match ← filler false rest with
      | ']' :: rest => return ([v], rest)
      | ',' :: rest => do
        let (vs, rest) ← arrayItems value fuel rest
        return (v :: vs, rest)
      | _ => none

def inlineEntries (value : Reader Value) : Nat → Nodes → Reader Nodes
  | 0, _, _ => none
  | fuel + 1, entries, cs => do
    let ((path, last), rest) ← key cs
    let rest ← after? ['='] rest
    let (v, rest) ← value (blanks rest)
    let entries ← defineIn (.value v) last path entries
    match blanks rest with
    | '\x7d' :: rest => return (entries, rest)
    | ',' :: rest => inlineEntries value fuel entries rest
    | _ => none

def inlineTable (value : Reader Value) : Reader Value := fun cs =>
  match blanks cs with
  | '\x7d' :: rest => some (.table [], rest)
  | _ => do
    let (entries, rest) ← inlineEntries value (cs.length + 1) [] cs
    return (.table (toEntries entries), rest)

/-- Dates before floats before integers: each may start like the next. -/
def numeric : Reader Value := fun cs =>
  match dateTime cs with
  | some rest => some (.date, rest)
  | none =>
    match float cs with
    | some rest => some (.float, rest)
    | none => (integer cs).map fun (n, rest) => (.integer n, rest)

def keyword : Reader Value := fun cs =>
  match after? "true".toList cs with
  | some rest => some (.boolean true, rest)
  | none => (after? "false".toList cs).map fun rest => (.boolean false, rest)

def value (depth : Nat) : Reader Value
  | [] => none
  | c :: rest =>
    if c = '[' then
      match depth with
      | 0 => none
      | d + 1 => do
        let (items, rest) ← arrayItems (value d) (rest.length + 1) rest
        return (.array items, rest)
    else if c = '\x7b' then
      match depth with
      | 0 => none
      | d + 1 => inlineTable (value d) rest
    else if c = '"' ∨ c = '\x27' then
      (anyString (c :: rest)).map fun (s, rest) => (.string (String.ofList s), rest)
    else if c = 't' ∨ c = 'f' then keyword (c :: rest)
    else numeric (c :: rest)

end Cryptoki.Toml
