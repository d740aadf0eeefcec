import Stylesheet.Render.Part

/-!
# Media and at-rules

Media queries, and the rules that stand outside of rule sets: character set, imports, namespaces and
document conditions. The body of a document condition is not part of the tree, so an empty one is
printed and a note taken.
-/

namespace Stylesheet.Render

/-- The value of a feature of the medium: a text is written as it is. -/
def featureValue (value : Value) (valueText : Print String) : Print String :=
  match value.text? with
  | some _ => pure value.display
  | none => valueText

/-- A condition on a feature of the medium. -/
def mediaFeature (property value : Value) (valueText : Print String) : Print String := do
  let v ← featureValue value valueText
  let p ← Print.identifier property
  return "(" ++ p ++ ":" ++ v ++ ")"

/-- A media query. -/
def mediaQuery (expression : Print String) (modifier conjuncts : Value) (conjunctParts : Parts) :
    Print String := do
  let before := if modifier.isVacant then "" else modifier.display ++ " "
  let e ← expression
  if conjuncts.isVacant then
    return before ++ e
  else
    let cs ← conjunctParts.separated " and "
    return before ++ e ++ " and " ++ cs

/-- The character set of a stylesheet. -/
def charset (name : Value) : Print String := do
  let n ← Print.quoted name
  return "@charset " ++ n ++ ";"

/-- The name of a medium in an import. -/
def mediumName (p : Part) : Print String :=
  match p.value.name? with
  | some name => Print.identifier name
  | none => throw (.missingField p.value .name)

/-- The media of an import; those of an import for all media are left out. -/
def importMedia (media : Value) (mediaParts : Parts) : Print String :=
  if media.isVacant then pure ""
  else do
    let names ← mediaParts.each mediumName
    return " " ++ ", ".intercalate names

/-- An import. -/
def importRule (target : Print String) (media : Value) (mediaParts : Parts) : Print String := do
  let m ← importMedia media mediaParts
  let indent ← Print.indentation
  let t ← target
  return indent ++ "@import " ++ t ++ m ++ ";"

/-- A namespace, with the name it goes by if it has one. -/
def namespaceRule (target : Print String) (shorthand : Value) (shorthandText : Print String) :
    Print String := do
  let indent ← Print.indentation
  if shorthand.isAbsent then
    let t ← target
    return indent ++ "@namespace " ++ t
  else
    let a ← shorthandText
    let t ← target
    return indent ++ "@namespace " ++ a ++ " " ++ t

/-- The note taken for every document condition. -/
def emptyBodyNote : String :=
  "@document rule printed with an empty body; nested rules are not serialized."

/-- A document condition with an empty body. -/
def documentQuery (functions : Parts) : Print String := do
  Print.note emptyBodyNote
  let fs ← functions.separated ", "
  let indent ← Print.indentation
  return indent ++ "@document " ++ fs ++ " \x7b\x7d"

end Stylesheet.Render
