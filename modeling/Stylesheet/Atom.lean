import Stylesheet.Keyword
import Stylesheet.Number.Numeral
import Stylesheet.Text.Quoted

/-!
# Atoms

The values without parts: nothing, truth values, numbers, texts and keywords. Two atoms are the same
(`Atom.same`) if both stand for the same number, a truth value counting as 0 or 1, or both for the
same text, a keyword counting as its text. Numbers are compared exactly. Every atom is the same as
itself except a nan (`Atom.same_self`).

Inside sequences and nodes atoms are compared less strictly (`Atom.alike`): there an atom that is
found twice needs no comparison, so that every atom is like itself (`Atom.alike_self`). Only for a
nan does this make a difference (`Atom.alike_eq_same`).
-/

namespace Stylesheet

open Stylesheet.Number

/-- A value without parts. -/
inductive Atom where
  | absent
  | bool (b : Bool)
  | int (n : Int)
  | float (x : Double)
  | text (s : String)
  | keyword (k : Keyword)
deriving DecidableEq

/-- A number, or one of the two infinities. -/
inductive Quantity where
  | finite (r : Rat)
  | infinite (negative : Bool)
deriving DecidableEq

namespace Atom

/-- The text that an atom stands for. -/
def text? : Atom → Option String
  | text s => some s
  | keyword k => some k.text
  | absent => none
  | bool _ => none
  | int _ => none
  | float _ => none

/-- The characters of the text that an atom stands for, as texts of their own. -/
def chars? (a : Atom) : Option (List Atom) :=
  a.text?.map fun s => s.toList.map fun c => text (String.singleton c)

/-- The number that an atom stands for. -/
def quantity? : Atom → Option Quantity
  | bool b => some (.finite (if b then 1 else 0))
  | int n => some (.finite n)
  | float (.finite negative x) => some (.finite (if negative then -x.toRat else x.toRat))
  | float (.infinite negative) => some (.infinite negative)
  | float (.nan _) => none
  | absent => none
  | text _ => none
  | keyword _ => none

/-- Whether two optional things are both there and equal. -/
def agree {α : Type} [DecidableEq α] : Option α → Option α → Bool
  | some x, some y => decide (x = y)
  | _, _ => false

/-- Whether two atoms stand for the same thing. -/
def same (a b : Atom) : Bool :=
  (a == absent && b == absent) || agree a.quantity? b.quantity? || agree a.text? b.text?

/-- Whether two atoms are one and the same, or stand for the same thing. -/
def alike (a b : Atom) : Bool := a == b || a.same b

/-- Whether an atom counts as left out: nothing, falsehood, zero, the empty text. -/
def isVacant : Atom → Bool
  | absent => true
  | bool b => !b
  | int n => n == 0
  | float x => x.isZero
  | text s => s == ""
  | keyword _ => false

/-- The text of an atom in running text. -/
def display : Atom → String
  | absent => "None"
  | bool b => if b then "True" else "False"
  | int n => Numeral.ofInt n
  | float x => Numeral.ofDouble x
  | text s => s
  | keyword k => k.qualifiedName

/-- The text of an atom in a message or in a sequence: texts are quoted, and a keyword is shown with
its text. -/
def literal : Atom → String
  | text s => Text.quoted s
  | keyword k => "<" ++ k.qualifiedName ++ ": " ++ Text.quoted k.text ++ ">"
  | absent => display absent
  | bool b => display (bool b)
  | int n => display (int n)
  | float x => display (float x)

/-- The text of an atom as the amount of a dimension: whole doubles are written as integers. -/
def numeral : Atom → String
  | float x => Numeral.quantity x
  | absent => display absent
  | bool b => display (bool b)
  | int n => display (int n)
  | text s => display (text s)
  | keyword k => display (keyword k)

/-- The name of an atom's type in messages. -/
def typeName : Atom → String
  | absent => "NoneType"
  | bool _ => "bool"
  | int _ => "int"
  | float _ => "float"
  | text _ => "str"
  | keyword k => k.vocabulary

theorem agree_comm {α : Type} [DecidableEq α] (x y : Option α) : agree x y = agree y x := by
  cases x <;> cases y <;> simp [agree, eq_comm]

/-- Being the same is symmetric. -/
theorem same_comm (a b : Atom) : same a b = same b a := by
  simp [same, agree_comm a.quantity?, agree_comm a.text?, Bool.and_comm]

/-- Every atom but a nan is the same as itself. -/
theorem same_self {a : Atom} (h : ∀ payload, a ≠ float (.nan payload)) : same a a = true := by
  rcases a with _ | _ | _ | x | _ | _
  case float => cases x <;> simp_all [same, quantity?, agree]
  all_goals simp [same, quantity?, text?, agree]

/-- No nan is the same as any atom. -/
theorem same_nan (payload : Nat) (a : Atom) : same (float (.nan payload)) a = false := by
  cases a <;> simp [same, quantity?, text?, agree]

/-- Every atom is like itself. -/
@[simp] theorem alike_self (a : Atom) : alike a a = true := by
  simp [alike]

/-- Being alike is symmetric. -/
theorem alike_comm (a b : Atom) : alike a b = alike b a := by
  simp [alike, same_comm a b, BEq.comm (a := a)]

/-- An atom other than a nan is like those that it is the same as, and no others. -/
theorem alike_eq_same {a : Atom} (h : ∀ payload, a ≠ float (.nan payload)) (b : Atom) :
    alike a b = same a b := by
  by_cases hab : a = b
  · subst hab
    simp [same_self h]
  · simp [alike, hab]

end Atom

end Stylesheet
