import Stylesheet.Node.Kind

/-!
# Nodes

`Node α` is a node of a stylesheet tree whose fields hold an `α` each: a tree's node holds values,
a node under construction may hold anything else. `Node.kind` and `Node.entries` give the kind and
the named fields, `Node.assemble` builds a node of a kind from its fields; the two fit together
(`kind_assemble`, `entries_assemble`). A declaration also records whether a rule set owns it.
-/

namespace Stylesheet

/-- The forms of a simple selector, which differ in name only. -/
inductive SimpleForm where
  | unmarked
  | typed
  | universal
deriving DecidableEq

/-- The kind of a simple selector of a given form. -/
def SimpleForm.kind : SimpleForm → Kind
  | unmarked => .simpleSelector
  | typed => .typeSelector
  | universal => .universalSelector

/-- A node with fields in `α`. -/
inductive Node (α : Type) where
  /-- A whole stylesheet. -/
  | document (charsets imports fontFaces ruleSets : α)
  /-- Selectors with their declarations, inside the conditional group `parent`. -/
  | ruleSet (selectors declarations parent : α)
  /-- A property with its value, and whether a rule set owns it. -/
  | declaration (property expressions important : α) (owned : Bool)
  /-- The description of a font. -/
  | fontFace (declarations : α)
  /-- A medium by its name. -/
  | mediaType (name : α)
  /-- A condition on a feature of the medium. -/
  | mediaFeature (property value : α)
  /-- A medium or condition, with a word before it and further conditions after it. -/
  | mediaQuery (expression conjuncts modifier : α)
  /-- Media queries of which one has to hold. -/
  | mediaQueryList (queries : α)
  /-- The character set of a stylesheet. -/
  | charset (name : α)
  /-- Another stylesheet, for some media. -/
  | importRule (target media : α)
  /-- A namespace and the name it goes by. -/
  | namespaceRule (target shorthand : α)
  /-- A condition on the address of the styled document. -/
  | documentQuery (functions : α)
  /-- A name as a value. -/
  | ident (value operator : α)
  /-- A colour or another value behind `#`. -/
  | hash (value operator : α)
  /-- An address. -/
  | uri (value operator : α)
  /-- A quoted text. -/
  | string (value operator : α)
  /-- A number with its dimension and sign. -/
  | number (value dimension sign operator : α)
  /-- A number of dots per unit. -/
  | resolution (amount unit operator : α)
  /-- A colour by its three channels. -/
  | rgb (red green blue operator : α)
  /-- A call, whose parameters are terms or texts to be written as they are. -/
  | function (name params operator : α)
  /-- A condition on the identifier of an element. -/
  | idSelector (name : α)
  /-- A condition on the classes of an element. -/
  | classSelector (name : α)
  /-- A condition on the state of an element. -/
  | pseudoClass (name argument : α)
  /-- A part of an element, with one colon in the legacy spelling. -/
  | pseudoElement (name legacy : α)
  /-- A condition on an attribute of an element. -/
  | attributeSelector (name test value : α)
  /-- A compound: an element name with qualifiers, joined to the compound before it. -/
  | simple (form : SimpleForm) (name combinator qualifiers : α)
  /-- A chain of compounds. -/
  | selector (simples : α)
  /-- The model of a selector for any node. -/
  | nodeSelector
  /-- The model of a selector for an element by its name. -/
  | elementSelector (localName : α)
  /-- The model of a selector narrowed by a condition. -/
  | conditionalSelector (base condition : α)

namespace Node

variable {α β : Type}

/-- The kind of a node. -/
def kind : Node α → Kind
  | document _ _ _ _ => .document
  | ruleSet _ _ _ => .ruleSet
  | declaration _ _ _ _ => .declaration
  | fontFace _ => .fontFace
  | mediaType _ => .mediaType
  | mediaFeature _ _ => .mediaFeature
  | mediaQuery _ _ _ => .mediaQuery
  | mediaQueryList _ => .mediaQueryList
  | charset _ => .charset
  | importRule _ _ => .importRule
  | namespaceRule _ _ => .namespaceRule
  | documentQuery _ => .documentQuery
  | ident _ _ => .ident
  | hash _ _ => .hash
  | uri _ _ => .uri
  | string _ _ => .string
  | number _ _ _ _ => .number
  | resolution _ _ _ => .resolution
  | rgb _ _ _ _ => .rgb
  | function _ _ _ => .function
  | idSelector _ => .idSelector
  | classSelector _ => .classSelector
  | pseudoClass _ _ => .pseudoClass
  | pseudoElement _ _ => .pseudoElement
  | attributeSelector _ _ _ => .attributeSelector
  | simple form _ _ _ => form.kind
  | selector _ => .selector
  | nodeSelector => .nodeSelector
  | elementSelector _ => .elementSelector
  | conditionalSelector _ _ => .conditionalSelector

/-- The named fields of a node, in the order of its kind's declaration. -/
def entries : Node α → List (Field × α)
  | document charsets imports fontFaces ruleSets =>
    [(.charsets, charsets), (.imports, imports), (.fontFaces, fontFaces), (.ruleSets, ruleSets)]
  | ruleSet selectors declarations parent =>
    [(.selectors, selectors), (.declarations, declarations), (.parent, parent)]
  | declaration property expressions important _ =>
    [(.property, property), (.expressions, expressions), (.important, important)]
  | fontFace declarations => [(.declarations, declarations)]
  | mediaType name => [(.name, name)]
  | mediaFeature property value => [(.property, property), (.value, value)]
  | mediaQuery expression conjuncts modifier =>
    [(.expression, expression), (.conjuncts, conjuncts), (.modifier, modifier)]
  | mediaQueryList queries => [(.queries, queries)]
  | charset name => [(.name, name)]
  | importRule target media => [(.target, target), (.media, media)]
  | namespaceRule target shorthand => [(.target, target), (.shorthand, shorthand)]
  | documentQuery functions => [(.functions, functions)]
  | ident value operator => [(.value, value), (.operator, operator)]
  | hash value operator => [(.value, value), (.operator, operator)]
  | uri value operator => [(.value, value), (.operator, operator)]
  | string value operator => [(.value, value), (.operator, operator)]
  | number value dimension sign operator =>
    [(.value, value), (.dimension, dimension), (.sign, sign), (.operator, operator)]
  | resolution amount unit operator => [(.amount, amount), (.unit, unit), (.operator, operator)]
  | rgb red green blue operator =>
    [(.red, red), (.green, green), (.blue, blue), (.operator, operator)]
  | function name params operator => [(.name, name), (.params, params), (.operator, operator)]
  | idSelector name => [(.name, name)]
  | classSelector name => [(.name, name)]
  | pseudoClass name argument => [(.name, name), (.argument, argument)]
  | pseudoElement name legacy => [(.name, name), (.legacy, legacy)]
  | attributeSelector name test value => [(.name, name), (.test, test), (.value, value)]
  | simple _ name combinator qualifiers =>
    [(.name, name), (.combinator, combinator), (.qualifiers, qualifiers)]
  | selector simples => [(.simples, simples)]
  | nodeSelector => []
  | elementSelector localName => [(.localName, localName)]
  | conditionalSelector base condition => [(.base, base), (.condition, condition)]

/-- The fields of a node, without their names. -/
def fields (n : Node α) : List α := n.entries.map Prod.snd

/-- The node of a kind whose fields are looked up with `get`. -/
def assemble (kind : Kind) (get : Field → α) (owned : Bool) : Node α :=
  match kind with
  | .document => document (get .charsets) (get .imports) (get .fontFaces) (get .ruleSets)
  | .ruleSet => ruleSet (get .selectors) (get .declarations) (get .parent)
  | .declaration => declaration (get .property) (get .expressions) (get .important) owned
  | .fontFace => fontFace (get .declarations)
  | .mediaType => mediaType (get .name)
  | .mediaFeature => mediaFeature (get .property) (get .value)
  | .mediaQuery => mediaQuery (get .expression) (get .conjuncts) (get .modifier)
  | .mediaQueryList => mediaQueryList (get .queries)
  | .charset => charset (get .name)
  | .importRule => importRule (get .target) (get .media)
  | .namespaceRule => namespaceRule (get .target) (get .shorthand)
  | .documentQuery => documentQuery (get .functions)
  | .ident => ident (get .value) (get .operator)
  | .hash => hash (get .value) (get .operator)
  | .uri => uri (get .value) (get .operator)
  | .string => string (get .value) (get .operator)
  | .number => number (get .value) (get .dimension) (get .sign) (get .operator)
  | .resolution => resolution (get .amount) (get .unit) (get .operator)
  | .rgb => rgb (get .red) (get .green) (get .blue) (get .operator)
  | .function => function (get .name) (get .params) (get .operator)
  | .idSelector => idSelector (get .name)
  | .classSelector => classSelector (get .name)
  | .pseudoClass => pseudoClass (get .name) (get .argument)
  | .pseudoElement => pseudoElement (get .name) (get .legacy)
  | .attributeSelector => attributeSelector (get .name) (get .test) (get .value)
  | .simpleSelector => simple .unmarked (get .name) (get .combinator) (get .qualifiers)
  | .typeSelector => simple .typed (get .name) (get .combinator) (get .qualifiers)
  | .universalSelector => simple .universal (get .name) (get .combinator) (get .qualifiers)
  | .selector => selector (get .simples)
  | .nodeSelector => nodeSelector
  | .elementSelector => elementSelector (get .localName)
  | .conditionalSelector => conditionalSelector (get .base) (get .condition)

/-- Applies a function to every field. -/
def map (f : α → β) : Node α → Node β
  | document charsets imports fontFaces ruleSets =>
    document (f charsets) (f imports) (f fontFaces) (f ruleSets)
  | ruleSet selectors declarations parent => ruleSet (f selectors) (f declarations) (f parent)
  | declaration property expressions important owned =>
    declaration (f property) (f expressions) (f important) owned
  | fontFace declarations => fontFace (f declarations)
  | mediaType name => mediaType (f name)
  | mediaFeature property value => mediaFeature (f property) (f value)
  | mediaQuery expression conjuncts modifier =>
    mediaQuery (f expression) (f conjuncts) (f modifier)
  | mediaQueryList queries => mediaQueryList (f queries)
  | charset name => charset (f name)
  | importRule target media => importRule (f target) (f media)
  | namespaceRule target shorthand => namespaceRule (f target) (f shorthand)
  | documentQuery functions => documentQuery (f functions)
  | ident value operator => ident (f value) (f operator)
  | hash value operator => hash (f value) (f operator)
  | uri value operator => uri (f value) (f operator)
  | string value operator => string (f value) (f operator)
  | number value dimension sign operator => number (f value) (f dimension) (f sign) (f operator)
  | resolution amount unit operator => resolution (f amount) (f unit) (f operator)
  | rgb red green blue operator => rgb (f red) (f green) (f blue) (f operator)
  | function name params operator => function (f name) (f params) (f operator)
  | idSelector name => idSelector (f name)
  | classSelector name => classSelector (f name)
  | pseudoClass name argument => pseudoClass (f name) (f argument)
  | pseudoElement name legacy => pseudoElement (f name) (f legacy)
  | attributeSelector name test value => attributeSelector (f name) (f test) (f value)
  | simple form name combinator qualifiers => simple form (f name) (f combinator) (f qualifiers)
  | selector simples => selector (f simples)
  | nodeSelector => nodeSelector
  | elementSelector localName => elementSelector (f localName)
  | conditionalSelector base condition => conditionalSelector (f base) (f condition)

/-- What a field of a node holds, under any of its names. -/
def field? (n : Node α) (f : Field) : Option α := n.entries.lookup (n.kind.fieldRead f)

@[simp] theorem kind_map (f : α → β) (n : Node α) : (n.map f).kind = n.kind := by
  cases n <;> rfl

theorem entries_map (f : α → β) (n : Node α) :
    (n.map f).entries = n.entries.map fun e => (e.1, f e.2) := by
  cases n <;> rfl

@[simp] theorem fields_map (f : α → β) (n : Node α) : (n.map f).fields = n.fields.map f := by
  simp [fields, entries_map]

@[simp] theorem kind_assemble (k : Kind) (get : Field → α) (owned : Bool) :
    (assemble k get owned).kind = k := by
  cases k <;> rfl

theorem entries_assemble (k : Kind) (get : Field → α) (owned : Bool) :
    (assemble k get owned).entries = k.contents.map fun f => (f, get f) := by
  cases k <;> rfl

end Node

end Stylesheet
