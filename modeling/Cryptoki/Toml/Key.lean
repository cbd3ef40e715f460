import Cryptoki.Toml.Quoted

/-!
Keys of a TOML text: bare or quoted names, with points between them.
-/
namespace Cryptoki.Toml

def name : Reader String := fun cs =>
  match cs with
  | '"' :: _ | '\x27' :: _ => (lineString cs).map fun (s, rest) => (String.ofList s, rest)
  | _ =>
    match cs.takeWhile isNameChar with
    | [] => none
    | n => some (String.ofList n, cs.dropWhile isNameChar)

def moreNames : Nat → Reader (List String)
  | 0, _ => none
  | fuel + 1, cs =>
    match cs with
    | '.' :: rest => do
      let (n, rest) ← name (blanks rest)
      let (ns, rest) ← moreNames fuel (blanks rest)
      return (n :: ns, rest)
    | _ => some ([], cs)

def depthLimit : Nat := 80

def key : Reader (List String × String) := fun cs => do
  let (n, rest) ← name (blanks cs)
  let (ns, rest) ← moreNames (cs.length + 1) (blanks rest)
  let all := n :: ns
  if all.length < depthLimit then return ((all.dropLast, all.getLastD n), rest) else none

end Cryptoki.Toml
