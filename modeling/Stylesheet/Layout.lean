import Stylesheet.Fault

/-!
# Layouts

A layout is what may differ between two printings of the same stylesheet: the unit of indentation,
the line break, and whether a rule set is written on one line. Two layouts have names: `pretty`, the
default, and `minified`.

The options of a layout may hold any value, and a value that does not fit is no fault until it is
needed: a unit of indentation where a line is indented, a line break where lines are joined. With
texts for both (`Layout.ofTexts`) there is no such fault (`indentation_ofTexts`,
`joint_ofTexts`).
-/

namespace Stylesheet

/-- How a stylesheet is laid out. -/
structure Layout where
  /-- What stands at the start of a line for each level. -/
  indentUnit : Value
  /-- What stands between two lines. -/
  lineBreak : Value
  /-- Whether rule sets are written without line breaks and indentation. -/
  compact : Value

namespace Layout

/-- The layout with a given unit of indentation and line break. -/
def ofTexts (indentUnit lineBreak : String) (compact : Bool) : Layout :=
  ⟨.text indentUnit, .text lineBreak, .atom (.bool compact)⟩

/-- An indented layout with one declaration a line. -/
def pretty : Layout := ofTexts "  " "\n" false

/-- A layout without line breaks. -/
def minified : Layout := ofTexts " " "" true

/-- The layouts that have a name. -/
def profiles : List (String × Layout) := [("pretty", pretty), ("minified", minified)]

/-- The layout with a given name. -/
def ofProfile (name : Value) : Except Fault Layout :=
  if name.isKey then
    match name.text?.bind (List.lookup · profiles) with
    | some layout => .ok layout
    | none => .error (.unknownProfile name)
  else .error (.notAKey name)

/-- How a layout is asked for: not at all, by the name of a profile, or option by option. -/
inductive Request where
  | standard
  | profile (name : String)
  | custom (options : List (String × Value))

/-- Sets an option. -/
def withOption (layout : Layout) : String × Value → Except Fault Layout
  | ("indent_unit", v) => .ok { layout with indentUnit := v }
  | ("line_break", v) => .ok { layout with lineBreak := v }
  | ("compact_rule_sets", v) => .ok { layout with compact := v }
  | (name, _) => .error (.unknownOption name)

/-- The layout that is asked for. Options that are not given are as in `pretty`. -/
def ofRequest : Request → Except Fault Layout
  | .standard => .ok pretty
  | .profile name => ofProfile (.text name)
  | .custom options => options.foldlM withOption pretty

/-- Whether rule sets are written on one line. -/
def isCompact (layout : Layout) : Bool := !layout.compact.isVacant

/-- The indentation of a line: the unit, once for each level. Below the outermost level a text is
not repeated at all, while a number goes on counting. -/
def indentation (layout : Layout) (level : Int) : Except Fault String :=
  match layout.indentUnit.times? level with
  | some v => .ok v.display
  | none => .error (.notAUnit layout.indentUnit)

/-- The text that joins two lines. -/
def joint (layout : Layout) : Except Fault String :=
  match layout.lineBreak.text? with
  | some s => .ok s
  | none => .error (.lineBreakNotText layout.lineBreak)

variable (indentUnit lineBreak : String) (compact : Bool)

@[simp] theorem isCompact_ofTexts : (ofTexts indentUnit lineBreak compact).isCompact = compact := by
  cases compact <;> rfl

@[simp] theorem indentation_ofTexts (level : Int) :
    (ofTexts indentUnit lineBreak compact).indentation level =
      .ok (String.join (List.replicate level.toNat indentUnit)) := rfl

@[simp] theorem joint_ofTexts : (ofTexts indentUnit lineBreak compact).joint = .ok lineBreak := rfl

/-- Text does not indent lines at the outermost level and below it. -/
theorem indentation_ofTexts_of_nonpos {level : Int} (h : level ≤ 0) :
    (ofTexts indentUnit lineBreak compact).indentation level = .ok "" := by
  simp [Int.toNat_of_nonpos h, String.join]

end Layout

end Stylesheet
