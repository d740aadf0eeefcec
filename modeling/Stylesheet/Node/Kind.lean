import Stylesheet.Atom

/-!
# Kinds of nodes and their fields

Every node of a stylesheet tree has a kind and, by its kind, a list of named fields with their
defaults (`Kind.schema`). Nodes of four kinds can be changed after they are built; all others are
frozen (`Kind.isFrozen`).
-/

namespace Stylesheet

/-- The kinds of nodes. -/
inductive Kind where
  | document
  | ruleSet
  | declaration
  | fontFace
  | mediaType
  | mediaFeature
  | mediaQuery
  | mediaQueryList
  | charset
  | importRule
  | namespaceRule
  | documentQuery
  | ident
  | hash
  | uri
  | string
  | number
  | resolution
  | rgb
  | function
  | idSelector
  | classSelector
  | pseudoClass
  | pseudoElement
  | attributeSelector
  | simpleSelector
  | typeSelector
  | universalSelector
  | selector
  | nodeSelector
  | elementSelector
  | conditionalSelector
deriving DecidableEq

/-- The fields of nodes. Any other name can be given to an object that is not frozen. -/
inductive Field where
  | charsets
  | imports
  | fontFaces
  | ruleSets
  | selectors
  | declarations
  | parent
  | property
  | expressions
  | important
  | owner
  | name
  | value
  | expression
  | conjuncts
  | modifier
  | queries
  | target
  | media
  | shorthand
  | functions
  | operator
  | dimension
  | sign
  | amount
  | unit
  | red
  | green
  | blue
  | params
  | argument
  | legacy
  | test
  | combinator
  | qualifiers
  | simples
  | localName
  | base
  | condition
  | other (name : String)
deriving DecidableEq

namespace Field

/-- The fields that nodes have by their kind. -/
def all : List Field :=
  [charsets, imports, fontFaces, ruleSets, selectors, declarations, parent, property, expressions,
   important, owner, name, value, expression, conjuncts, modifier, queries, target, media,
   shorthand, functions, operator, dimension, sign, amount, unit, red, green, blue, params,
   argument, legacy, test, combinator, qualifiers, simples, localName, base, condition]

/-- The name of a field. -/
def label : Field → String
  | charsets => "charsets"
  | imports => "import_rules"
  | fontFaces => "fontface_rules"
  | ruleSets => "rule_sets"
  | selectors => "selectors"
  | declarations => "declarations"
  | parent => "parent_rule"
  | property => "property"
  | expressions => "expressions"
  | important => "important"
  | owner => "rule_set"
  | name => "name"
  | value => "value"
  | expression => "media_expr"
  | conjuncts => "and_exprs"
  | modifier => "only_or_not"
  | queries => "media_queries"
  | target => "uri"
  | media => "media_list"
  | shorthand => "prefix"
  | functions => "url_functions"
  | operator => "operator"
  | dimension => "type"
  | sign => "unary_operator"
  | amount => "number"
  | unit => "unit"
  | red => "red"
  | green => "green"
  | blue => "blue"
  | params => "params"
  | argument => "extra"
  | legacy => "css2"
  | test => "match_way"
  | combinator => "combinator"
  | qualifiers => "additional_selectors"
  | simples => "simple_selectors"
  | localName => "local_name"
  | base => "simple_selector"
  | condition => "condition"
  | other s => s

/-- The fields that printing looks for in whatever object it finds in a place, so that an object of
any kind can stand there once it has been given them. -/
def sought : List Field := [operator, name, parent, charsets, imports, fontFaces, ruleSets]

/-- The field with a given name. -/
def ofLabel (name : String) : Field := (all.find? fun f => f.label == name).getD (other name)

end Field

/-- What a field holds if it is not given. -/
inductive Default where
  | required
  | atom (a : Atom)
  | emptyList
deriving DecidableEq

namespace Kind

/-- The kinds, in the order of their declaration. -/
def all : List Kind :=
  [document, ruleSet, declaration, fontFace, mediaType, mediaFeature, mediaQuery, mediaQueryList,
   charset, importRule, namespaceRule, documentQuery, ident, hash, uri, string, number,
   resolution, rgb, function, idSelector, classSelector, pseudoClass, pseudoElement,
   attributeSelector, simpleSelector, typeSelector, universalSelector, selector, nodeSelector,
   elementSelector, conditionalSelector]

/-- The name of a kind. -/
def name : Kind → String
  | document => "Document"
  | ruleSet => "RuleSet"
  | declaration => "Declaration"
  | fontFace => "FontfaceRule"
  | mediaType => "MediaType"
  | mediaFeature => "MediaFeature"
  | mediaQuery => "MediaQuery"
  | mediaQueryList => "MediaQueryList"
  | charset => "Charset"
  | importRule => "ImportRule"
  | namespaceRule => "NamespaceRule"
  | documentQuery => "DocumentQuery"
  | ident => "Ident"
  | hash => "Hash"
  | uri => "URI"
  | string => "String"
  | number => "Number"
  | resolution => "Resolution"
  | rgb => "Rgb"
  | function => "Function"
  | idSelector => "IdSelector"
  | classSelector => "ClassSelector"
  | pseudoClass => "PseudoClass"
  | pseudoElement => "PseudoElement"
  | attributeSelector => "AttributeSelector"
  | simpleSelector => "SimpleSelector"
  | typeSelector => "TypeSelector"
  | universalSelector => "UniversalSelector"
  | selector => "Selector"
  | nodeSelector => "NodeSelector"
  | elementSelector => "ElementSelector"
  | conditionalSelector => "ConditionalSelector"

/-- The kind with a given name. -/
def ofName? (name : String) : Option Kind := all.find? fun k => k.name == name

/-- Whether the fields of a built node stay as they are. -/
def isFrozen : Kind → Bool
  | document | ruleSet | declaration | fontFace => false
  | _ => true

/-- The fields of a kind, each with its default, in the order of the kind's declaration. -/
def schema : Kind → List (Field × Default)
  | document =>
    [(.charsets, .emptyList), (.imports, .emptyList), (.fontFaces, .emptyList),
     (.ruleSets, .emptyList)]
  | ruleSet => [(.selectors, .emptyList), (.declarations, .emptyList), (.parent, .atom .absent)]
  | declaration =>
    [(.property, .required), (.expressions, .emptyList), (.important, .atom (.bool false)),
     (.owner, .atom .absent)]
  | fontFace => [(.declarations, .emptyList)]
  | mediaType | charset | idSelector | classSelector => [(.name, .required)]
  | mediaFeature => [(.property, .required), (.value, .required)]
  | mediaQuery => [(.expression, .required), (.conjuncts, .emptyList), (.modifier, .atom .absent)]
  | mediaQueryList => [(.queries, .emptyList)]
  | importRule => [(.target, .required), (.media, .emptyList)]
  | namespaceRule => [(.target, .required), (.shorthand, .atom .absent)]
  | documentQuery => [(.functions, .emptyList)]
  | ident | hash | uri | string => [(.value, .required), (.operator, .atom .absent)]
  | number =>
    [(.value, .required), (.dimension, .atom .absent), (.sign, .atom .absent),
     (.operator, .atom .absent)]
  | resolution => [(.amount, .required), (.unit, .required), (.operator, .atom .absent)]
  | rgb =>
    [(.red, .required), (.green, .required), (.blue, .required), (.operator, .atom .absent)]
  | function => [(.name, .required), (.params, .emptyList), (.operator, .atom .absent)]
  | pseudoClass => [(.name, .required), (.argument, .atom .absent)]
  | pseudoElement => [(.name, .required), (.legacy, .atom (.bool false))]
  | attributeSelector => [(.name, .required), (.test, .required), (.value, .atom .absent)]
  | simpleSelector | typeSelector =>
    [(.name, .atom .absent), (.combinator, .atom .absent), (.qualifiers, .emptyList)]
  | universalSelector =>
    [(.name, .atom (.text "*")), (.combinator, .atom .absent), (.qualifiers, .emptyList)]
  | selector => [(.simples, .emptyList)]
  | nodeSelector => []
  | elementSelector => [(.localName, .required)]
  | conditionalSelector => [(.base, .required), (.condition, .required)]

/-- The fields of a kind that make up its contents: all but the owner. -/
def contents (k : Kind) : List Field := (k.schema.map Prod.fst).filter (· ≠ .owner)

/-- The field that is read under a name. In the selector model a name and a selector go by two names
each. -/
def fieldRead : Kind → Field → Field
  | elementSelector, .name => .localName
  | conditionalSelector, .other "selector" => .base
  | _, f => f

theorem mem_all (k : Kind) : k ∈ all := by cases k <;> decide

theorem ofName?_name (k : Kind) : ofName? k.name = some k := by cases k <;> decide +kernel

end Kind

end Stylesheet
