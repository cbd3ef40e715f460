import Cryptoki.Code.Basic

/-!
Lists in the order of the codes of their entries: how they are sorted, and how they are searched.
-/
namespace Cryptoki

variable {α : Type} (code : α → Code)

def insertByCode (a : α) : List α → List α
  | [] => [a]
  | b :: rest => if code a ≤ code b then a :: b :: rest else b :: insertByCode a rest

def sortByCode (entries : List α) : List α := entries.foldr (insertByCode code) []

def dropRepeats : List α → List α := List.eraseRepsBy fun a b => code a == code b

def bisectWithin (c : Code) : Nat → List α → Option α
  | 0, _ => none
  | steps + 1, entries =>
    match entries.drop (entries.length / 2) with
    | [] => none
    | a :: behind =>
      if code a = c then some a
      else if c < code a then bisectWithin c steps (entries.take (entries.length / 2))
      else bisectWithin c steps behind

/-- The entry of a code in an ordered list. Each look leaves fewer entries, so that as many looks
as there are entries are enough. -/
def bisect (c : Code) (entries : List α) : Option α := bisectWithin code c entries.length entries

end Cryptoki
