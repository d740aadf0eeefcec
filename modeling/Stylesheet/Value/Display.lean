import Stylesheet.Value.Basic

/-!
# The text of values

`Value.display` is the text of a value in running text, `Value.literal` its text in messages and
inside sequences. They differ for texts, which a literal quotes, and for keywords, which a literal
shows with their text. Where an object lies inside itself, three points stand for its contents.
-/

namespace Stylesheet.Value

/-- A pair of parentheses around items; a single item is followed by a comma. -/
def tupleText : List String → String
  | [s] => "(" ++ s ++ ",)"
  | ss => "(" ++ ", ".intercalate ss ++ ")"

/-- A kind with its named fields. -/
def nodeText (n : Node String) : String :=
  n.kind.name ++ "(" ++ ", ".intercalate (n.entries.map fun e => e.1.label ++ "=" ++ e.2) ++ ")"

/-- What a literal shows of a value: its contents, inside the objects with the keys `around`, or its
outline only. -/
inductive Detail where
  | contents (around : List Nat)
  | outline

/-- The literal of a value, from the literals of its parts. -/
def literalOf : Fold (Detail → String) where
  atom a _ := a.literal
  foreign label _ := label
  list items
    | .contents around => "[" ++ ", ".intercalate (items.map (· (.contents around))) ++ "]"
    | .outline => "[...]"
  tuple items
    | .contents around => tupleText (items.map (· (.contents around)))
    | .outline => "(...)"
  node n
    | .contents around => nodeText (n.map (· (.contents around)))
    | .outline => "..."
  object
    | some key, shown, .contents around =>
      shown (if around.contains key then .outline else .contents (key :: around))
    | _, shown, detail => shown detail

/-- The text of a value in a message or in a sequence. -/
def literal (v : Value) : String := v.fold literalOf (.contents [])

/-- The text of a value in running text. -/
def display : Value → String
  | atom a => a.display
  | v => v.literal

/-- The text of a value as the amount of a dimension. -/
def numeral : Value → String
  | atom a => a.numeral
  | v => v.display

end Stylesheet.Value
