import Stylesheet.Render.Basic

/-!
# Parts

What a construct sees of the values inside it. A part is a value with the action that prints it, so
that a construct decides when, how often and at which level its parts are printed. A part also knows
the conditional group that it belongs to, if it is a rule set.
-/

namespace Stylesheet

/-- A conditional group: what identifies it, and the action that prints its heading. -/
structure Group where
  identity : Value
  heading : Print String

/-- A value inside a construct. -/
structure Part where
  value : Value
  /-- The action that prints the value. -/
  text : Print String
  /-- The group that the value belongs to. -/
  group : Except Fault Group

/-- The items of a value in the place of a sequence. -/
abbrev Parts := Except Fault (List Part)

namespace Parts

/-- Prints the items one after another with `f`. -/
def each (ps : Parts) (f : Part → Print String) : Print (List String) := do
  let ps ← ps
  ps.mapM f

@[simp] theorem each_ok (ps : List Part) (f : Part → Print String) :
    each (.ok ps) f = ps.mapM f := rfl

@[simp] theorem each_error (e : Fault) (f : Part → Print String) :
    each (.error e) f = throw e := rfl

/-- Prints the items one after another. -/
def texts (ps : Parts) : Print (List String) := ps.each Part.text

/-- The items with a separator between them. -/
def separated (ps : Parts) (separator : String) : Print String := do
  let ts ← ps.texts
  return separator.intercalate ts

/-- The items without anything between them. -/
def joined (ps : Parts) : Print String := do
  let ts ← ps.texts
  return String.join ts

end Parts

end Stylesheet
