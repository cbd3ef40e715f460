import Cryptoki.Template

/-!
Drafts: attributes written down before they are built. Building checks dates and the contents of
templates, and settles whether the attribute is sensitive.
-/
namespace Cryptoki

inductive Draft where
  | absent (type : Code) (mark : Option Bool)
  | scalar (type : Code) (mark : Option Bool) (value : Scalar)
  | date (type : Code) (mark : Option Bool) (year : UInt16) (month day : UInt8)
  | template (type : Code) (mark : Option Bool) (members : List Draft)

def Attribute.marked (mark : Option Bool) (a : Attribute) : Attribute :=
  match mark with
  | some s => a.withSensitive s
  | none => a

mutual

def Draft.build : Draft → Result Attribute
  | .absent t m => .ok ((Attribute.absent t false).marked m)
  | .scalar t m v => .ok ((Attribute.make t (.scalar v)).marked m)
  | .date t m year month day => do
      let d ← Date.make year month day
      return (Attribute.make t (.scalar (.date (some d)))).marked m
  | .template t m members => do
      let inner ← Template.ofList (← Draft.buildAll members)
      return (Attribute.make t (.template inner)).marked m

def Draft.buildAll : List Draft → Result (List Attribute)
  | [] => .ok []
  | d :: rest => do
      let a ← d.build
      return a :: (← Draft.buildAll rest)

end

def Template.ofDrafts (drafts : List Draft) : Result Template := do
  Template.ofList (← Draft.buildAll drafts)

end Cryptoki
