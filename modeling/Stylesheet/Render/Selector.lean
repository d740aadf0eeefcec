import Stylesheet.Render.Part

/-!
# Selectors

A chain of compounds is written compound by compound: the symbol of the combinator, the element name
(`*` if there is none) and the qualifiers. Combinators and attribute tests are looked up by their
text; one that is not in the vocabulary is a fault.
-/

namespace Stylesheet.Render

/-- The symbol of a combinator in `selector`. Without a combinator there is none. -/
def combinator (selector c : Value) : Print String :=
  if c.isAbsent then pure ""
  else if c.isKey then
    match c.text?.bind Combinator.ofText? with
    | some c => pure c.symbol
    | none => throw (.unknownCombinator c selector)
  else throw (.notAKey c)

/-- The name of an element, or `*` for any. -/
def elementName (name : Value) : Print String :=
  if name.isAbsent ∨ name.text? = some "*" then pure "*" else Print.identifier name

/-- A compound. -/
def simple (selector name combinator : Value) (qualifiers : Parts) : Print String := do
  let c ← Render.combinator selector combinator
  let n ← elementName name
  let qs ← qualifiers.joined
  return c ++ n ++ qs

/-- A condition on the identifier of an element. -/
def idSelector (name : Value) : Print String := do
  let n ← Print.identifier name
  return "#" ++ n

/-- A condition on the classes of an element. -/
def classSelector (name : Value) : Print String := do
  let n ← Print.identifier name
  return "." ++ n

/-- A condition on the state of an element. -/
def pseudoClass (name argument : Value) : Print String := do
  let n ← Print.identifier name
  if argument.isAbsent then
    return ":" ++ n
  else
    let a ← Print.identifier argument
    return ":" ++ n ++ "(" ++ a ++ ")"

/-- A part of an element. -/
def pseudoElement (name legacy : Value) : Print String := do
  let n ← Print.identifier name
  return (if legacy.isVacant then "::" else ":") ++ n

/-- The value that an attribute is compared with; one that is left out is empty. -/
def comparand (value : Value) : Print String :=
  if value.isVacant then pure ""
  else
    match value.text? with
    | some s => pure (Escape.Quoted.escape s)
    | none => throw (.stringNotText value)

/-- A condition on an attribute, where `condition` is the whole of it. -/
def attributeSelector (condition name test value : Value) : Print String := do
  let n ← Print.identifier name
  if test.text? = some AttributeTest.set.text then
    return "[" ++ n ++ "]"
  else if test.isKey then
    match (test.text?.bind AttributeTest.ofText?).bind AttributeTest.symbol? with
    | some symbol =>
      let v ← comparand value
      return AttributeTest.comparison symbol n v
    | none => throw (.unknownTest test condition)
  else throw (.notAKey test)

/-- A selector narrowed by a condition. -/
def conditional (base condition : Print String) : Print String := do
  let b ← base
  let c ← condition
  return b ++ c

end Stylesheet.Render
