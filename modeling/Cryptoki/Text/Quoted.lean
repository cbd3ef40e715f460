import Cryptoki.Text.Printed

/-!
Quoted text: a string between double quotes, with escapes for what would not show.
-/
namespace Cryptoki.Text

def escape (c : Char) : List Char :=
  if c = '\x00' then ['\\', '0']
  else if c = '\t' then ['\\', 't']
  else if c = '\n' then ['\\', 'n']
  else if c = '\r' then ['\\', 'r']
  else if c = '"' then ['\\', '"']
  else if c = '\\' then ['\\', '\\']
  else if isPrinted c then [c]
  else ['\\', 'u', '\x7b'] ++ Nat.toDigits 16 c.toNat ++ ['\x7d']

def quote (s : String) : String := String.ofList ('"' :: s.toList.flatMap escape ++ ['"'])

def bracketed (items : List String) : String := "[" ++ ", ".intercalate items ++ "]"

def record (name : String) (fields : List (String × String)) : String :=
  name ++ " \x7b " ++ ", ".intercalate (fields.map fun f => f.1 ++ ": " ++ f.2) ++ " \x7d"

def applied (name argument : String) : String := name ++ "(" ++ argument ++ ")"

def optional (show_ : α → String) : Option α → String
  | none => "None"
  | some a => applied "Some" (show_ a)

end Cryptoki.Text
