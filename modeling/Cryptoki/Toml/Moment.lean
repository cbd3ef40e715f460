import Cryptoki.Toml.Lexeme

/-!
Dates and times of a TOML text, of which only the form is read.
-/
namespace Cryptoki.Toml

def daysInMonth (year month : Nat) : Nat :=
  if month = 2 then if year % 4 = 0 ∧ (year % 100 ≠ 0 ∨ year % 400 = 0) then 29 else 28
  else if month = 4 ∨ month = 6 ∨ month = 9 ∨ month = 11 then 30
  else 31

def calendarDate (cs : Input) : Option Input := do
  let (year, rest) ← fixedDigits 4 0 9999 cs
  let rest ← after? ['-'] rest
  let (month, rest) ← fixedDigits 2 1 12 rest
  let rest ← after? ['-'] rest
  let (_, rest) ← fixedDigits 2 1 (daysInMonth year month) rest
  return rest

def clockTime (cs : Input) : Option Input := do
  let (_, rest) ← fixedDigits 2 0 23 cs
  let rest ← after? [':'] rest
  let (_, rest) ← fixedDigits 2 0 59 rest
  let rest ← after? [':'] rest
  let (_, rest) ← fixedDigits 2 0 60 rest
  match rest with
  | '.' :: d :: rest => if d.isDigit then return rest.dropWhile Char.isDigit else none
  | '.' :: [] => none
  | _ => return rest

def zoneOffset (cs : Input) : Option Input :=
  match cs with
  | 'Z' :: rest | 'z' :: rest => some rest
  | '+' :: rest | '-' :: rest => do
    let (_, rest) ← fixedDigits 2 0 23 rest
    let rest ← after? [':'] rest
    let (_, rest) ← fixedDigits 2 0 59 rest
    return rest
  | _ => some cs

def dateTime (cs : Input) : Option Input :=
  match calendarDate cs with
  | none => clockTime cs
  | some rest =>
    match rest with
    | 'T' :: time | 't' :: time | ' ' :: time =>
      match clockTime time with
      | some rest => zoneOffset rest
      | none => some rest
    | _ => some rest

end Cryptoki.Toml
