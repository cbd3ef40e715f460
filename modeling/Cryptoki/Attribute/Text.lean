import Cryptoki.Attribute.Basic

/-!
Texts of attributes, values and templates: a short one for readers, and one that also shows the
kinds. Neither shows a sensitive value.
-/
namespace Cryptoki

def sensitivePlaceholder : String := "<sensitive>"

def absentPlaceholder : String := "<not present>"

def Template.braced (items : List String) : String :=
  "\x7b " ++ ", ".intercalate items ++ " \x7d"

mutual

def Attribute.text : Attribute → String
  | .absent t _ => Attribute.typeName t ++ ": " ++ absentPlaceholder
  | .scalar t s v =>
    Attribute.typeName t ++ ": " ++ if s then sensitivePlaceholder else v.text
  | .template t s members =>
    Attribute.typeName t ++ ": " ++
      if s then sensitivePlaceholder else Template.braced (Attribute.texts members)

def Attribute.texts : List Attribute → List String
  | [] => []
  | a :: rest => a.text :: Attribute.texts rest

end

def Template.text (t : Template) : String := Template.braced (Attribute.texts t.attributes)

def Value.text : Value → String
  | .scalar v => v.text
  | .template t => t.text

def Attribute.inspectParts (type : Code) (sensitive : Bool) (shown : String) : String :=
  Text.record "Attribute" [("type", Text.quote (Attribute.typeName type)), ("value", shown),
    ("sensitive", if sensitive then "true" else "false")]

def Template.inspectList (items : List String) : String :=
  Text.record "Template" [("attrs", Text.bracketed items)]

mutual

def Attribute.inspect : Attribute → String
  | .absent t s => Attribute.inspectParts t s (Text.quote absentPlaceholder)
  | .scalar t s v =>
    Attribute.inspectParts t s (if s then Text.quote sensitivePlaceholder else v.inspect)
  | .template t s members =>
    Attribute.inspectParts t s
      (if s then Text.quote sensitivePlaceholder
        else Text.applied Kind.template.title
          (Template.inspectList (Attribute.inspectAll members)))

def Attribute.inspectAll : List Attribute → List String
  | [] => []
  | a :: rest => a.inspect :: Attribute.inspectAll rest

end

def Template.inspect (t : Template) : String :=
  Template.inspectList (Attribute.inspectAll t.attributes)

def Value.inspect : Value → String
  | .scalar v => v.inspect
  | .template t => Text.applied Kind.template.title t.inspect

end Cryptoki
