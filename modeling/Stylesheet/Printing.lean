import Stylesheet.Render.Tree
import Stylesheet.SelectorModel
import Stylesheet.Store.Blueprint

/-!
# Printing from a fresh start

Each of these builds the values it is given and works on them alone: what is printed is printed with
a new printer, at the outermost level and without notes.
-/

namespace Stylesheet

/-- A printed text with the notes taken on the way. -/
structure Printed where
  text : String
  notes : List String
deriving DecidableEq

/-- Runs an action with a new printer. -/
def Print.fresh (act : Print String) (layout : Layout) : Except Fault Printed :=
  match act.exec layout {} with
  | (.ok text, s) => .ok ⟨text, s.notes⟩
  | (.error e, _) => .error e

namespace Blueprint

/-- Prints a value. The layout is settled before the value is built. -/
def print (b : Blueprint) (request : Layout.Request) : Except Fault Printed := do
  let layout ← Layout.ofRequest request
  let v ← b.value
  v.render.fresh layout

/-- Prints a document. The document is built before the layout is settled. -/
def printDocument (b : Blueprint) (request : Layout.Request) : Except Fault Printed := do
  let v ← b.value
  let layout ← Layout.ofRequest request
  v.printDocument.fresh layout

/-- Prints a document in the two layouts that have a name, `pretty` first. -/
def printBoth (b : Blueprint) : Except Fault (String × String) := do
  let v ← b.value
  let pretty ← v.printDocument.fresh .pretty
  let minified ← v.printDocument.fresh .minified
  return (pretty.text, minified.text)

/-- A text written as an identifier. -/
def escapeIdentifier (b : Blueprint) : Except Fault String := do
  let v ← b.value
  match v.text? with
  | some s => return Escape.Identifier.escape s
  | none => throw (.identifierNotText v)

/-- A text written as it stands between double quotes. -/
def escapeString (b : Blueprint) : Except Fault String := do
  let v ← b.value
  match v.text? with
  | some s => return Escape.Quoted.escape s
  | none => throw (.stringNotText v)

/-- The layout that a value names. -/
def profile (b : Blueprint) : Except Fault Layout := do
  let v ← b.value
  Layout.ofProfile v

/-- How a value describes a selector to match. -/
def selectorModel (b : Blueprint) : Except Fault SelectorModel := do
  let v ← b.value
  v.selectorModel

/-- Whether two values, built one after the other, are the same. -/
def same (a b : Blueprint) : Except Fault Bool := (compare [] a b {}).1

end Blueprint

end Stylesheet
