/-!
The smallest parts of a TOML text: blanks, comments, ends of lines and digits. A reader takes
what it reads off the front of the text and hands on the rest, or finds nothing it can read.
Which fault was found is not kept.
-/
namespace Cryptoki.Toml

abbrev Input := List Char

abbrev Reader (α : Type) := Input → Option (α × Input)

def isBlank (c : Char) : Bool := c = ' ' || c = '\t'

def isPlain (c : Char) : Bool := c = '\t' || (' ' ≤ c && c ≠ '\x7f')

def isNameChar (c : Char) : Bool := c.isAlphanum || c = '_' || c = '-'

def blanks (cs : Input) : Input := cs.dropWhile isBlank

def after? : Input → Input → Option Input
  | [], cs => some cs
  | m :: mark, c :: cs => if m = c then after? mark cs else none
  | _ :: _, [] => none

def newline? : Input → Option Input
  | '\n' :: rest => some rest
  | '\r' :: '\n' :: rest => some rest
  | _ => none

def lineEnd? (cs : Input) : Option Input :=
  let rest := match blanks cs with
    | '#' :: text => text.dropWhile isPlain
    | rest => rest
  match rest with
  | [] => some []
  | _ => newline? rest

def filler (comment : Bool) : Input → Option Input
  | [] => if comment then none else some []
  | '\n' :: rest => filler false rest
  | '\r' :: '\n' :: rest => filler false rest
  | c :: rest =>
    if comment then if isPlain c then filler true rest else none
    else if isBlank c then filler false rest
    else if c = '#' then filler true rest
    else some (c :: rest)

def digitValue (c : Char) : Nat :=
  if c.isDigit then c.toNat - '0'.toNat
  else if 'a' ≤ c then c.toNat - 'a'.toNat + 10
  else c.toNat - 'A'.toNat + 10

def isHexDigit (c : Char) : Bool := c.isDigit || ('a' ≤ c && c ≤ 'f') || ('A' ≤ c && c ≤ 'F')

def isOctalDigit (c : Char) : Bool := '0' ≤ c && c ≤ '7'

def isBinaryDigit (c : Char) : Bool := c = '0' || c = '1'

def numberOf (base : Nat) (digits : List Char) : Nat :=
  digits.foldl (fun n c => n * base + digitValue c) 0

def moreDigits (isDigit : Char → Bool) : Reader (List Char)
  | [] => some ([], [])
  | '_' :: d :: rest =>
    if isDigit d then do
      let (ds, rest) ← moreDigits isDigit rest
      return (d :: ds, rest)
    else none
  | c :: rest =>
    if isDigit c then do
      let (ds, rest) ← moreDigits isDigit rest
      return (c :: ds, rest)
    else if c = '_' then none
    else some ([], c :: rest)

def digits (isDigit : Char → Bool) : Reader (List Char)
  | [] => none
  | c :: rest =>
    if isDigit c then do
      let (ds, rest) ← moreDigits isDigit rest
      return (c :: ds, rest)
    else none

def fixedDigits (count low high : Nat) : Reader Nat := fun cs =>
  let ds := cs.take count
  let n := numberOf 10 ds
  if ds.length = count ∧ ds.all Char.isDigit ∧ low ≤ n ∧ n ≤ high then some (n, cs.drop count)
  else none

end Cryptoki.Toml
