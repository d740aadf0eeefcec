import Stylesheet.Render.Document
import Stylesheet.Render.Media
import Stylesheet.Render.Rule
import Stylesheet.Render.Selector

/-!
# Printing trees

`Value.render` prints a value: a node as its kind demands, with its parts printed by the same
function; anything else is a fault. `Value.part` is a value as the construct around it sees it, and
the items of a sequence are seen item by item (`parts_eq_map`). A whole document is printed with
`Value.printDocument`, which takes any value with the fields of a document for one.
-/

namespace Stylesheet

/-- Prints a value that is no node: there is no way to do so. -/
def unsupported (v : Value) : Print String := throw (.unsupported v)

/-- The heading of a group: a node is printed, any other value is written as it is. -/
def Value.heading (identity : Value) (text : Print String) : Print String :=
  match identity.contents with
  | .node _ => text
  | _ => pure identity.display

/-- An atom as a part: it cannot be printed and belongs to no group. -/
def Atom.part (a : Atom) : Part :=
  ⟨.atom a, unsupported (.atom a), .error (.missingField (.atom a) .parent)⟩

mutual

/-- Prints a value. -/
def Value.render : Value → Print String
  | .node n => n.render
  | .object _ _ v => v.render
  | .atom a => unsupported (.atom a)
  | .foreign label => unsupported (.foreign label)
  | .list vs => unsupported (.list vs)
  | .tuple vs => unsupported (.tuple vs)

/-- Prints a node. -/
def Node.render : Node Value → Print String
  | .document charsets imports fontFaces ruleSets =>
    Render.document charsets.parts imports.parts fontFaces.parts ruleSets.parts
  | .ruleSet selectors declarations _ =>
    Render.ruleSet selectors selectors.parts declarations.parts
  | .declaration property expressions important owned =>
    Render.declaration property expressions.parts important owned
  | .fontFace declarations => Render.fontFace declarations.parts
  | .mediaType name => Print.identifier name
  | .mediaFeature property value => Render.mediaFeature property value value.render
  | .mediaQuery expression conjuncts modifier =>
    Render.mediaQuery expression.render modifier conjuncts conjuncts.parts
  | .mediaQueryList queries => queries.parts.separated ", "
  | .charset name => Render.charset name
  | .importRule target media => Render.importRule target.render media media.parts
  | .namespaceRule target shorthand => Render.namespaceRule target.render shorthand shorthand.render
  | .documentQuery functions => Render.documentQuery functions.parts
  | .ident value _ => Print.identifier value
  | .hash value _ => Render.hash value
  | .uri value _ => Render.uri value
  | .string value _ => Print.quoted value
  | .number value dimension sign _ => Render.number value dimension sign
  | .resolution amount unit _ => Render.resolution amount unit
  | .rgb red green blue _ => Render.rgb red.render green.render blue.render
  | .function name params _ => Render.call name params.parts
  | .idSelector name => Render.idSelector name
  | .classSelector name => Render.classSelector name
  | .pseudoClass name argument => Render.pseudoClass name argument
  | .pseudoElement name legacy => Render.pseudoElement name legacy
  | .attributeSelector name test value =>
    Render.attributeSelector (.node (.attributeSelector name test value)) name test value
  | .simple form name combinator qualifiers =>
    Render.simple (.node (.simple form name combinator qualifiers)) name combinator
      qualifiers.parts
  | .selector simples => simples.parts.joined
  | .nodeSelector => pure "*"
  | .elementSelector localName => Print.identifier localName
  | .conditionalSelector base condition => Render.conditional base.render condition.render

/-- The conditional group that a value belongs to: that of a rule set, or one that it has been
given. -/
def Value.group : Value → Except Fault Group
  | .node n => n.group
  | .object _ added v =>
    match v.group with
    | .ok g => .ok g
    | .error e => Value.addedGroup e added
  | .atom a => .error (.missingField (.atom a) .parent)
  | .foreign label => .error (.missingField (.foreign label) .parent)
  | .list vs => .error (.missingField (.list vs) .parent)
  | .tuple vs => .error (.missingField (.tuple vs) .parent)

/-- The conditional group that a node belongs to. -/
def Node.group : Node Value → Except Fault Group
  | .ruleSet _ _ parent => .ok ⟨parent, parent.heading parent.render⟩
  | n => .error (.missingField (.node n) .parent)

/-- The conditional group among the fields that an object has been given; without one there is the
fault `e`. -/
def Value.addedGroup (e : Fault) : List (Field × Value) → Except Fault Group
  | [] => .error e
  | (f, parent) :: added =>
    if f = .parent then .ok ⟨parent, parent.heading parent.render⟩ else Value.addedGroup e added

/-- The items of a value as parts. -/
def Value.parts : Value → Parts
  | .list vs => .ok (Value.partsOf vs)
  | .tuple vs => .ok (Value.partsOf vs)
  | .object _ _ v => v.parts
  | .atom a =>
    match a.chars? with
    | some cs => .ok (cs.map Atom.part)
    | none => .error (.notASequence (.atom a))
  | .foreign label => .error (.notASequence (.foreign label))
  | .node n => .error (.notASequence (.node n))

/-- The values of a list as parts. -/
def Value.partsOf : List Value → List Part
  | [] => []
  | v :: vs => ⟨v, v.render, v.group⟩ :: Value.partsOf vs

end

/-- A value as a part of the construct around it. -/
def Value.part (v : Value) : Part := ⟨v, v.render, v.group⟩

theorem Value.partsOf_eq_map (vs : List Value) : Value.partsOf vs = vs.map Value.part := by
  induction vs with
  | nil => rfl
  | cons v vs ih => simp [Value.partsOf, Value.part, ih]

/-- The parts of a value are its items, each as a part. -/
theorem Value.parts_eq_map (v : Value) :
    v.parts = match v.items? with
      | some vs => .ok (vs.map Value.part)
      | none => .error (.notASequence v.contents) := by
  fun_induction Value.items? v with
  | case3 a =>
    cases h : a.chars? with
    | none => simp [Value.parts, Value.contents, h]
    | some cs =>
      simp only [Value.parts, h, Option.map_some, List.map_map]
      rfl
  | case6 key added v ih => rw [Value.parts, ih, Value.contents]
  | _ => simp [Value.parts, Value.contents, Value.partsOf_eq_map]

/-- The items of a list are printed one after another. -/
@[simp] theorem Value.texts_parts_list (vs : List Value) :
    (Value.list vs).parts.texts = vs.mapM Value.render := by
  rw [Value.parts_eq_map]
  show (vs.map Value.part).mapM Part.text = vs.mapM Value.render
  rw [List.mapM_map]
  rfl

/-- The items of a tuple are printed one after another. -/
@[simp] theorem Value.texts_parts_tuple (vs : List Value) :
    (Value.tuple vs).parts.texts = vs.mapM Value.render := by
  rw [Value.parts_eq_map]
  show (vs.map Value.part).mapM Part.text = vs.mapM Value.render
  rw [List.mapM_map]
  rfl

/-- The items of a field of a value as parts. -/
def Value.partsAt (v : Value) (f : Field) : Parts :=
  match v.field? f with
  | some w => w.parts
  | none => .error (.missingField v f)

/-- Prints a value in the place of a document: anything with the fields of a document is one. -/
def Value.printDocument (v : Value) : Print String :=
  Render.document (v.partsAt .charsets) (v.partsAt .imports) (v.partsAt .fontFaces)
    (v.partsAt .ruleSets)

/-- A document is printed the same way in its own place and anywhere else. -/
@[simp] theorem Value.printDocument_document (charsets imports fontFaces ruleSets : Value) :
    (Value.node (.document charsets imports fontFaces ruleSets)).printDocument =
      (Node.document charsets imports fontFaces ruleSets).render := by
  rw [Node.render]
  rfl

/-- What has no character sets is no document. -/
theorem Value.printDocument_of_field?_eq_none {v : Value} (h : v.field? .charsets = none) :
    v.printDocument = Print.reset *> throw (.missingField v .charsets) := by
  simp only [Value.printDocument, Value.partsAt, h]
  rfl

end Stylesheet
