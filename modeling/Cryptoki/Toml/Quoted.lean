import Cryptoki.Toml.Lexeme

/-!
Strings of a TOML text: basic ones with escapes, literal ones without, both on one line or on
many.
-/
namespace Cryptoki.Toml

def hexEscape (count : Nat) : Reader Char := fun cs =>
  let ds := cs.take count
  let n := numberOf 16 ds
  if ds.length = count ∧ ds.all isHexDigit ∧ n.isValidChar then
    some (Char.ofNat n, cs.drop count)
  else none

def escaped : Reader Char
  | 'b' :: rest => some ('\x08', rest)
  | 't' :: rest => some ('\t', rest)
  | 'n' :: rest => some ('\n', rest)
  | 'f' :: rest => some ('\x0c', rest)
  | 'r' :: rest => some ('\r', rest)
  | '"' :: rest => some ('"', rest)
  | '\\' :: rest => some ('\\', rest)
  | 'u' :: rest => hexEscape 4 rest
  | 'U' :: rest => hexEscape 8 rest
  | _ => none

def push (c : Char) (r : Option (List Char × Input)) : Option (List Char × Input) :=
  r.map fun (cs, rest) => (c :: cs, rest)

def basicBody : Nat → Reader (List Char)
  | 0, _ => none
  | _ + 1, [] => none
  | fuel + 1, c :: rest =>
    if c = '"' then some ([], rest)
    else if c = '\\' then do
      let (e, rest) ← escaped rest
      push e (basicBody fuel rest)
    else if isPlain c then push c (basicBody fuel rest)
    else none

def literalBody : Reader (List Char)
  | [] => none
  | c :: rest =>
    if c = '\x27' then some ([], rest)
    else if isPlain c then push c (literalBody rest)
    else none

def lineStart : Input → Input
  | [] => []
  | '\n' :: rest => lineStart rest
  | '\r' :: '\n' :: rest => lineStart rest
  | c :: rest => if isBlank c then lineStart rest else c :: rest

/-- The end of a line after a backslash, with all blanks and ends of lines that follow. -/
def foldedLine? (cs : Input) : Option Input := (newline? (blanks cs)).map lineStart

/-- The body of a string of many lines between three marks. Up to two marks may stand before
another character or before the closing three. -/
def multilineBody (mark : Char) (escapes : Bool) : Nat → Reader (List Char)
  | 0, _ => none
  | _ + 1, [] => none
  | fuel + 1, c :: rest =>
    if c = mark then
      let run := (c :: rest).takeWhile (· = mark)
      let beyond := (c :: rest).drop run.length
      if run.length ≤ 2 then
        (multilineBody mark escapes fuel beyond).map fun (cs, r) => (run ++ cs, r)
      else some (run.take (min run.length 5 - 3), (c :: rest).drop (min run.length 5))
    else if c = '\\' ∧ escapes then
      match foldedLine? rest with
      | some rest => multilineBody mark escapes fuel rest
      | none => do
        let (e, rest) ← escaped rest
        push e (multilineBody mark escapes fuel rest)
    else
      match newline? (c :: rest) with
      | some rest => push '\n' (multilineBody mark escapes fuel rest)
      | none => if isPlain c then push c (multilineBody mark escapes fuel rest) else none

def multiline (mark : Char) (escapes : Bool) : Reader (List Char) := fun cs =>
  let body := (newline? cs).getD cs
  multilineBody mark escapes (body.length + 1) body

def lineString : Reader (List Char)
  | '"' :: rest => basicBody (rest.length + 1) rest
  | '\x27' :: rest => literalBody rest
  | _ => none

def anyString : Reader (List Char)
  | '"' :: '"' :: '"' :: rest => multiline '"' true rest
  | '\x27' :: '\x27' :: '\x27' :: rest => multiline '\x27' false rest
  | cs => lineString cs

end Cryptoki.Toml
