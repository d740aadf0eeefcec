import Stylesheet.Render.Part
import Stylesheet.Value.Equality

/-!
# Documents

A document is printed fragment by fragment: character sets, imports and font descriptions, then the
rule sets, where each run of consecutive rule sets of the same group shares one conditional block
(`groups`). Empty fragments take no line.
-/

namespace Stylesheet.Render

/-- Ends the block of a group, if there is one. -/
def closeGroup (identity : Value) : Print (List String) :=
  if identity.isAbsent then pure []
  else do
    Print.shift (-1)
    let indent ← Print.indentation
    return [indent ++ "\x7d"]

/-- Starts the block of a group, if it needs one. -/
def openGroup (g : Group) : Print (List String) :=
  if g.identity.isAbsent then pure []
  else do
    let heading ← g.heading
    let indent ← Print.indentation
    Print.shift 1
    return [indent ++ "@media " ++ heading ++ " \x7b"]

/-- The fragments of rule sets inside the group `current`, up to the end of the last block. -/
def groups (current : Value) : List Part → Print (List String)
  | [] => closeGroup current
  | p :: ps => do
    let g ← p.group
    if g.identity.same current then
      let t ← p.text
      let rest ← groups current ps
      return t :: rest
    else
      let closing ← closeGroup current
      let opening ← openGroup g
      let t ← p.text
      let rest ← groups g.identity ps
      return closing ++ opening ++ t :: rest

/-- The fragments of the rule sets of a document. -/
def ruleSets (ps : Parts) : Print (List String) :=
  Print.keepingLevel do
    let ps ← ps
    groups .absent ps

/-- Whether all parts of a document are sequences; the first one that is not is a fault. -/
def checkSequences (parts : List Parts) : Print Unit :=
  parts.forM fun ps => do
    let _ ← ps
    pure ()

/-- The fragments of a document. -/
def fragments (charsets imports fontFaces rules : Parts) : Print (List String) := do
  checkSequences [charsets, imports, fontFaces, rules]
  let cs ← charsets.texts
  let is ← imports.texts
  let fs ← fontFaces.texts
  let rs ← ruleSets rules
  return cs ++ is ++ fs ++ rs

/-- Fragments on lines of their own; an empty one takes no line. -/
def lines (ts : List String) : Print String := do
  let lineBreak ← Print.lineBreak
  return lineBreak.intercalate (ts.filter fun t => t ≠ "")

/-- A document. Whatever was printed before is forgotten. -/
def document (charsets imports fontFaces rules : Parts) : Print String := do
  Print.reset
  let ts ← fragments charsets imports fontFaces rules
  lines ts

end Stylesheet.Render
