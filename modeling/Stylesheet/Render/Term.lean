import Stylesheet.Render.Part

/-!
# Terms

The values of declarations. Names, strings and addresses are escaped; colours behind `#`, numbers
given as texts, dimensions, units, operators and literal parameters are written as they are.
-/

namespace Stylesheet.Render

/-- A colour behind `#`. -/
def hash (value : Value) : Print String := pure ("#" ++ value.display)

/-- An address. -/
def uri (value : Value) : Print String := do
  let s ← Print.quoted value
  return "url(" ++ s ++ ")"

/-- A number with its sign and dimension. Only a minus sign is written. -/
def number (value dimension sign : Value) : Print String :=
  let minus := if sign.text? = some Sign.minus.text then "-" else ""
  pure (minus ++ value.numeral ++ dimension.orEmpty)

/-- A number of dots per unit. -/
def resolution (amount unit : Value) : Print String := pure (amount.numeral ++ unit.display)

/-- A colour by its channels. -/
def rgb (red green blue : Print String) : Print String := do
  let r ← red
  let g ← green
  let b ← blue
  return "rgb(" ++ ", ".intercalate [r, g, b] ++ ")"

/-- A parameter of a call: a text stands for itself, a term follows its operator if it has one. -/
def param (p : Part) : Print String :=
  match p.value.text? with
  | some s => pure s
  | none =>
    match p.value.operator? with
    | none => throw (.missingField p.value .operator)
    | some operator =>
      if operator.isVacant then p.text
      else do
        let t ← p.text
        return operator.display ++ " " ++ t

/-- A call. -/
def call (name : Value) (params : Parts) : Print String := do
  let ps ← params.each param
  let name ← Print.identifier name
  return name ++ "(" ++ String.join ps ++ ")"

/-- What stands between a term and the one before it. A slash is set off by blanks on both sides,
any other operator by one behind it. -/
def separator (operator : Value) : String :=
  (if operator.text? = some "/" then " /" else operator.orEmpty) ++ " "

/-- A term of a declaration's value, with what separates it from the one before. -/
def operand (p : Part) : Print String :=
  match p.value.operator? with
  | none => throw (.missingField p.value .operator)
  | some operator => do
    let t ← p.text
    return separator operator ++ t

end Stylesheet.Render
