import Stylesheet.Value.Display

/-!
# Faults

Why a value could not be built, changed or printed. A fault names its cause and, where one value is
to blame, that value; its wording is a function of the cause (`Fault.message`).
-/

namespace Stylesheet

/-- A cause of failure. -/
inductive Fault where
  /-- A value for which there is no way of printing. -/
  | unsupported (value : Value)
  /-- A simple selector whose combinator is not one of the vocabulary. -/
  | unknownCombinator (combinator selector : Value)
  /-- An attribute condition whose test is not one of the vocabulary. -/
  | unknownTest (test condition : Value)
  /-- A layout asked for by a name that no profile has. -/
  | unknownProfile (name : Value)
  /-- An identifier that is not a text. -/
  | identifierNotText (value : Value)
  /-- A string that is not a text. -/
  | stringNotText (value : Value)
  /-- A value in the place of a sequence. -/
  | notASequence (value : Value)
  /-- A value that cannot be looked up in a table. -/
  | notAKey (value : Value)
  /-- A value that lacks a field. -/
  | missingField (value : Value) (field : Field)
  /-- A field that a kind of node does not have. -/
  | unknownArgument (kind : Kind) (field : Field)
  /-- A field that a kind of node cannot do without. -/
  | missingArgument (kind : Kind) (field : Field)
  /-- An option that a layout does not have. -/
  | unknownOption (name : String)
  /-- A unit of indentation that cannot be taken several times. -/
  | notAUnit (value : Value)
  /-- A line break that is not a text. -/
  | lineBreakNotText (value : Value)
  /-- A change to a node that stays as it was built. -/
  | frozen (kind : Kind) (field : Field)
  /-- A change to a field of something that is no object. -/
  | notAnObject (field : Field)
  /-- A reading of a field that an object does not have. -/
  | noSuchField (field : Field)
  /-- An addition to a field that holds no list. -/
  | notAList (field : Field)
  /-- A name that nothing has been given. -/
  | unknownName (name : String)

namespace Fault

/-- The value that printing failed at. -/
def culprit? : Fault → Option Value
  | unsupported v => some v
  | unknownCombinator _ selector => some selector
  | unknownTest _ condition => some condition
  | _ => none

/-- The cause of a failure in words, without the value that it happened at. -/
def cause : Fault → String
  | unsupported _ => "Unsupported node kind"
  | unknownCombinator c _ => "No matching combinator: " ++ c.literal
  | unknownTest t _ => "No matching match kind: " ++ t.literal
  | unknownProfile name =>
    "Unknown print profile " ++ name.literal ++ "; expected one of ['minified', 'pretty']"
  | identifierNotText v => "An identifier has to be a text, not " ++ v.literal
  | stringNotText v => "A string has to be a text, not " ++ v.literal
  | notASequence v => "Not a sequence: " ++ v.literal
  | notAKey v => "Not a key: " ++ v.literal
  | missingField v f => "No field " ++ f.label ++ " in " ++ v.literal
  | unknownArgument k f => "Unknown field " ++ f.label ++ " of " ++ k.name
  | missingArgument k f => "Missing field " ++ f.label ++ " of " ++ k.name
  | unknownOption name => "Unknown option " ++ name
  | notAUnit v => "Not a unit of indentation: " ++ v.literal
  | lineBreakNotText v => "A line break has to be a text, not " ++ v.literal
  | frozen k f => "Cannot change field " ++ f.label ++ " of " ++ k.name
  | notAnObject f => "Cannot change field " ++ f.label
  | noSuchField f => "No field " ++ f.label
  | notAList f => "Cannot add to field " ++ f.label
  | unknownName name => "Unknown name " ++ name

/-- The wording of a fault: its cause, and the kind of the value that printing failed at. -/
def message (e : Fault) : String :=
  match e.culprit? with
  | some v => if v.isAbsent then e.cause else e.cause ++ " (" ++ v.typeName ++ " node)"
  | none => e.cause

end Fault

end Stylesheet
