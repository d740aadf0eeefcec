/-!
# Keywords

The closed vocabularies of a stylesheet tree: how a compound selector is joined to the one before
it, how an attribute condition compares, the sign of a number, and the classes of the selector
model. Every keyword has a name within its vocabulary and a text; wherever a keyword is looked up,
its text does as well (`Combinator.ofText?`, `AttributeTest.ofText?`).
-/

namespace Stylesheet

/-- How a compound selector is joined to the one before it. -/
inductive Combinator where
  | descendant
  | child
  | adjacentSibling
  | generalSibling
deriving DecidableEq

namespace Combinator

/-- The combinators, in the order of the vocabulary. -/
def all : List Combinator := [descendant, child, adjacentSibling, generalSibling]

/-- The name of a combinator in the vocabulary. -/
def name : Combinator → String
  | descendant => "DESCENDANT"
  | child => "CHILD"
  | adjacentSibling => "ADJACENT_SIBLING"
  | generalSibling => "GENERAL_SIBLING"

/-- The text that a combinator stands for. -/
def text : Combinator → String
  | descendant => "descendant"
  | child => "child"
  | adjacentSibling => "adjacent_sibling"
  | generalSibling => "general_sibling"

/-- What stands between the two compounds, blanks included. -/
def symbol : Combinator → String
  | descendant => " "
  | child => " > "
  | adjacentSibling => " + "
  | generalSibling => " ~ "

/-- The combinator with a given text. -/
def ofText? (s : String) : Option Combinator := all.find? fun c => c.text == s

/-- Texts and symbols, in the order in which symbols are looked up. -/
def symbols : List (String × String) :=
  [descendant, adjacentSibling, child, generalSibling].map fun c => (c.text, c.symbol)

theorem mem_all (c : Combinator) : c ∈ all := by cases c <;> decide

theorem ofText?_text (c : Combinator) : ofText? c.text = some c := by cases c <;> decide

end Combinator

/-- How an attribute condition compares the value of the attribute. -/
inductive AttributeTest where
  | set
  | equals
  | includes
  | dashMatch
  | prefixMatch
  | suffixMatch
  | substringMatch
deriving DecidableEq

namespace AttributeTest

/-- The tests, in the order of the vocabulary. -/
def all : List AttributeTest :=
  [set, equals, includes, dashMatch, prefixMatch, suffixMatch, substringMatch]

/-- The name of a test in the vocabulary. -/
def name : AttributeTest → String
  | set => "SET"
  | equals => "EQUALS"
  | includes => "INCLUDES"
  | dashMatch => "DASHMATCH"
  | prefixMatch => "PREFIXMATCH"
  | suffixMatch => "SUFFIXMATCH"
  | substringMatch => "SUBSTRINGMATCH"

/-- The text that a test stands for. -/
def text : AttributeTest → String
  | set => "set"
  | equals => "equals"
  | includes => "includes"
  | dashMatch => "dashmatch"
  | prefixMatch => "prefixmatch"
  | suffixMatch => "suffixmatch"
  | substringMatch => "substringmatch"

/-- What stands between the attribute and the quoted value; the test for presence has no value. -/
def symbol? : AttributeTest → Option String
  | set => none
  | equals => some "="
  | includes => some " ~= "
  | dashMatch => some " |= "
  | prefixMatch => some " ^= "
  | suffixMatch => some " $= "
  | substringMatch => some " *= "

/-- The test with a given text. -/
def ofText? (s : String) : Option AttributeTest := all.find? fun t => t.text == s

/-- A condition that compares the attribute `name` with `value`. -/
def comparison (symbol name value : String) : String :=
  "[" ++ name ++ symbol ++ "\"" ++ value ++ "\"]"

/-- Texts and forms of the tests that compare, with a pair of braces in the place of the attribute
and of the value. -/
def forms : List (String × String) :=
  all.filterMap fun t => t.symbol?.map fun s => (t.text, comparison s "\x7b\x7d" "\x7b\x7d")

theorem mem_all (t : AttributeTest) : t ∈ all := by cases t <;> decide

theorem ofText?_text (t : AttributeTest) : ofText? t.text = some t := by cases t <;> decide

end AttributeTest

/-- The sign written before a number. -/
inductive Sign where
  | minus
  | plus
deriving DecidableEq

namespace Sign

/-- The signs, in the order of the vocabulary. -/
def all : List Sign := [minus, plus]

/-- The name of a sign in the vocabulary. -/
def name : Sign → String
  | minus => "MINUS"
  | plus => "PLUS"

/-- The text that a sign stands for. -/
def text : Sign → String
  | minus => "minus"
  | plus => "plus"

end Sign

/-- The classes of the selector model: any node, an element by its name, a selector narrowed by a
condition. -/
inductive SelectorClass where
  | anyNode
  | elementNode
  | conditional
deriving DecidableEq

namespace SelectorClass

/-- The classes, in the order of the vocabulary. -/
def all : List SelectorClass := [anyNode, elementNode, conditional]

/-- The name of a class in the vocabulary. -/
def name : SelectorClass → String
  | anyNode => "ANY_NODE"
  | elementNode => "ELEMENT_NODE"
  | conditional => "CONDITIONAL"

/-- The text that a class stands for. -/
def text : SelectorClass → String
  | anyNode => "SAC_ANY_NODE_SELECTOR"
  | elementNode => "SAC_ELEMENT_NODE_SELECTOR"
  | conditional => "SAC_CONDITIONAL_SELECTOR"

end SelectorClass

/-- A member of one of the vocabularies. -/
inductive Keyword where
  | combinator (c : Combinator)
  | test (t : AttributeTest)
  | sign (s : Sign)
  | selectorClass (c : SelectorClass)
deriving DecidableEq

namespace Keyword

/-- The name of a keyword within its vocabulary. -/
def name : Keyword → String
  | combinator c => c.name
  | test t => t.name
  | sign s => s.name
  | selectorClass c => c.name

/-- The text that a keyword stands for. -/
def text : Keyword → String
  | combinator c => c.text
  | test t => t.text
  | sign s => s.text
  | selectorClass c => c.text

/-- The name of a keyword's vocabulary. -/
def vocabulary : Keyword → String
  | combinator _ => "Combinator"
  | test _ => "MatchWay"
  | sign _ => "UnaryOperator"
  | selectorClass _ => "SelectorType"

/-- The name of a keyword, with that of its vocabulary. -/
def qualifiedName (k : Keyword) : String := k.vocabulary ++ "." ++ k.name

/-- All keywords, vocabulary by vocabulary. -/
def all : List Keyword :=
  Combinator.all.map combinator ++ AttributeTest.all.map test ++ Sign.all.map sign ++
    SelectorClass.all.map selectorClass

/-- The keywords of a vocabulary, in its order. -/
def ofVocabulary (vocabulary : String) : List Keyword :=
  all.filter fun k => k.vocabulary == vocabulary

/-- The keyword with a given qualified name. -/
def ofQualifiedName? (s : String) : Option Keyword := all.find? fun k => k.qualifiedName == s

theorem mem_all (k : Keyword) : k ∈ all := by
  rcases k with x | x | x | x <;> cases x <;> decide

end Keyword

end Stylesheet
