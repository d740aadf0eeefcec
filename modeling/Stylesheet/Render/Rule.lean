import Stylesheet.Render.Term
import Stylesheet.Text.Blank

/-!
# Rule sets and declarations

A declaration that a rule set owns is a line of its own: indented one level further than its rule
set and ended by a semicolon. Any other declaration is written without either, and a font
description adds both to its declarations itself.
-/

namespace Stylesheet.Render

/-- The start of a declaration's line: its indentation, if it is a line of its own. -/
def lineStart (owned : Bool) : Print String := if owned then Print.indentation else pure ""

/-- The value of a declaration, without blanks at its ends. -/
def declarationValue (expressions : Parts) : Print String := do
  let operands ← expressions.each operand
  return Text.trim (String.join operands)

/-- A declaration. -/
def declaration (property : Value) (expressions : Parts) (important : Value) (owned : Bool) :
    Print String := do
  let (indent, value) ← Print.indented do
    let indent ← lineStart owned
    let value ← declarationValue expressions
    pure (indent, value)
  let p ← Print.identifier property
  return indent ++ p ++ ": " ++ value ++ (if important.isVacant then "" else " !important") ++
    (if owned then ";" else "")

/-- The text of a rule set from those of its selectors and declarations: one line in a compact
layout, else one line for each declaration between the first and the last. -/
def block (selectors : String) (declarations : List String) : Print String := do
  let compact ← Print.isCompact
  if compact then
    return selectors ++ " \x7b" ++ String.join declarations ++ " \x7d"
  else
    let indent ← Print.indentation
    let lineBreak ← Print.lineBreak
    return indent ++ selectors ++ " \x7b" ++ lineBreak ++ lineBreak.intercalate declarations ++
      lineBreak ++ indent ++ "\x7d"

/-- A rule set. Without selectors it is empty. -/
def ruleSet (selectors : Value) (selectorParts declarations : Parts) : Print String :=
  if selectors.isVacant then pure ""
  else do
    let ss ← selectorParts.separated ", "
    let ds ← declarations.texts
    block ss ds

/-- A font description. -/
def fontFace (declarations : Parts) : Print String := do
  let ds ← Print.indented do
    let inner ← Print.indentation
    declarations.each fun p => do
      let t ← p.text
      pure (inner ++ t ++ ";")
  let lineBreak ← Print.lineBreak
  let indent ← Print.indentation
  return "@font-face \x7b" ++ lineBreak ++ lineBreak.intercalate ds ++ lineBreak ++ indent ++ "\x7d"

end Stylesheet.Render
