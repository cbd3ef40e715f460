import Cryptoki.Toml.Value

/-!
TOML documents: definitions line by line, in the table that the last header names. A header may
name a table once, and may not name one that a definition has made.
-/
namespace Cryptoki.Toml

/-- Goes down a path of names and acts on the table there. Missing tables are made on the way,
and the last table of an array of tables stands for the array. -/
def descend (dotted : Bool) (act : Origin → Nodes → Option (α × Nodes)) :
    List String → Origin → Nodes → Option (α × Nodes)
  | [], origin, entries => act origin entries
  | k :: path, _, entries =>
    match lookup k entries with
    | none => do
      let origin := if dotted then Origin.dotted else .implied
      let (a, inner) ← descend dotted act path origin []
      return (a, entries ++ [(k, .table origin inner)])
    | some (.value _) => none
    | some (.tables items) => do
      let last ← items.getLast?
      let (a, inner) ← descend dotted act path .header last
      return (a, replace k (.tables (items.dropLast ++ [inner])) entries)
    | some (.table origin inner) =>
      if dotted ∧ origin = .header then none
      else do
        let (a, inner) ← descend dotted act path origin inner
        return (a, replace k (.table origin inner) entries)

structure Draft where
  root : Nodes
  current : Nodes
  header : Option (List String × String)
  isItem : Bool

def Draft.start : Draft := ⟨[], [], none, false⟩

/-- A dotted key may go through tables that headers imply, but must end in one that dotted keys
made; a plain key must not. -/
def Draft.define (d : Draft) (path : List String) (last : String) (v : Value) : Option Draft := do
  let (_, current) ← descend true (fun origin entries =>
    if decide (origin = .dotted) == path.isEmpty then none
    else match lookup last entries with
      | none => some ((), entries ++ [(last, .value v)])
      | some _ => none) path .header d.current
  return { d with current }

def Draft.close (d : Draft) : Option Nodes :=
  match d.header with
  | none => some d.current
  | some (path, last) => do
    let (_, root) ← descend false (fun _ entries =>
      match lookup last entries with
      | none =>
        some ((), entries ++ [(last,
          if d.isItem then .tables [d.current] else .table .header d.current)])
      | some (.tables items) =>
        if d.isItem then some ((), replace last (.tables (items ++ [d.current])) entries)
        else none
      | some _ => none) path .implied d.root
    return root

def Draft.openTable (d : Draft) (path : List String) (last : String) : Option Draft := do
  let root ← d.close
  let (current, root) ← descend false (fun _ entries =>
    match lookup last entries with
    | none => some ([], entries)
    | some (.table .implied inner) => some (inner, entries.filter fun e => e.1 != last)
    | some _ => none) path .implied root
  return ⟨root, current, some (path, last), false⟩

def Draft.openItem (d : Draft) (path : List String) (last : String) : Option Draft := do
  let root ← d.close
  let (_, root) ← descend false (fun _ entries =>
    match lookup last entries with
    | none => some ((), entries ++ [(last, .tables [])])
    | some (.tables _) => some ((), entries)
    | some _ => none) path .implied root
  return ⟨root, [], some (path, last), true⟩

def definition (d : Draft) (cs : Input) : Option (Draft × Input) := do
  let ((path, last), rest) ← key cs
  let rest ← after? ['='] rest
  let (v, rest) ← value (depthLimit - 1) (blanks rest)
  let rest ← lineEnd? rest
  return (← d.define path last v, rest)

def headerLine (d : Draft) (cs : Input) : Option (Draft × Input) :=
  match after? ['[', '['] cs with
  | some inner => do
    let ((path, last), rest) ← key inner
    let rest ← lineEnd? (← after? [']', ']'] rest)
    return (← d.openItem path last, rest)
  | none => do
    let ((path, last), rest) ← key (← after? ['['] cs)
    let rest ← lineEnd? (← after? [']'] rest)
    return (← d.openTable path last, rest)

def line (d : Draft) (cs : Input) : Option (Draft × Input) :=
  match cs with
  | '[' :: _ => headerLine d cs
  | '#' :: _ | '\n' :: _ | '\r' :: _ => do return (d, ← lineEnd? cs)
  | _ => definition d cs

def lines : Nat → Draft → Input → Option Draft
  | 0, _, _ => none
  | fuel + 1, d, cs =>
    match blanks cs with
    | [] => some d
    | cs => do
      let (d, rest) ← line d cs
      lines fuel d rest

def parse (text : String) : Option (List (String × Value)) := do
  let cs := match text.toList with
    | '\ufeff' :: rest => rest
    | cs => cs
  let d ← lines (cs.length + 1) .start cs
  return toEntries (← d.close)

end Cryptoki.Toml
