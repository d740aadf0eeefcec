import Stylesheet.Proofs.Everywhere

/-!
# Typed trees

A node is typed (`Typing.Types`) if each of its fields holds what the field is meant for: a text, a
truth value, a list of nodes of certain kinds and so on. Documents are meant for no field. A tree is
typed if all of its nodes are. The texts that are not escaped anywhere are subject to conditions of
their own, which are what a `Typing` consists of; so are the texts that stand for combinators and
for attribute tests.

In a typed tree the nodes right below a node (`Node.below`) are all that printing the node can lead
to, and an induction over the tree goes from those to the node (`Value.Everywhere.induction`).
-/

namespace Stylesheet

/-- What the texts in certain places of a tree have to be like. -/
structure Typing where
  /-- A text that is written as it is. -/
  verbatim : String → Prop
  /-- A text in the place of a combinator. -/
  combinator : String → Prop
  /-- A text in the place of an attribute test. -/
  test : String → Prop

/-- The kinds of terms. -/
def Kind.terms : List Kind := [ident, hash, uri, string, number, resolution, rgb, function]

/-- The kinds of conditions on a medium. -/
def Kind.mediaExpressions : List Kind := [mediaType, mediaFeature]

/-- The kinds of qualifiers of a compound. -/
def Kind.qualifiers : List Kind :=
  [idSelector, classSelector, pseudoClass, pseudoElement, attributeSelector]

/-- The kinds of compounds. -/
def Kind.compounds : List Kind := [simpleSelector, typeSelector, universalSelector]

/-- The kinds of selectors in the selector model. -/
def Kind.models : List Kind := [nodeSelector, elementSelector, conditionalSelector]

namespace Value

/-- A value that stands for a text with a given property. -/
def IsText (p : String → Prop) (v : Value) : Prop := ∃ s, v.text? = some s ∧ p s

/-- Only atoms stand for a text. -/
theorem exists_atom_of_text? {v : Value} {s : String} (h : v.text? = some s) :
    ∃ a : Atom, v = .atom a ∧ a.text? = some s := by
  cases v with
  | atom a => exact ⟨a, rfl, h⟩
  | _ => cases h

/-- Any text. -/
abbrev IsSomeText : Value → Prop := IsText fun _ => True

/-- A text that is written as it is, be it by itself or as a word. -/
def IsVerbatim (T : Typing) (v : Value) : Prop := v.IsText T.verbatim ∧ T.verbatim v.display

/-- A number, or a text in the place of one. -/
def IsAmount (T : Typing) (v : Value) : Prop :=
  (∃ b, v = .atom (.bool b)) ∨ (∃ n, v = .atom (.int n)) ∨ (∃ x, v = .atom (.float x)) ∨
    v.IsVerbatim T

/-- A truth value. -/
def IsTruth (v : Value) : Prop := ∃ b, v = .atom (.bool b)

/-- The sign of a number. -/
def IsSign (v : Value) : Prop := ∃ s, v = .atom (.keyword (.sign s))

/-- Nothing, or something with a given property. -/
def IsOptional (p : Value → Prop) (v : Value) : Prop := v = .absent ∨ p v

/-- A list of values with a given property. -/
def IsListOf (p : Value → Prop) (v : Value) : Prop := ∃ vs, v = .list vs ∧ ∀ w ∈ vs, p w

/-- A node of one of some kinds. -/
def IsOf (kinds : List Kind) (v : Value) : Prop := ∃ n, v = .node n ∧ n.kind ∈ kinds

/-- A declaration that a rule set owns. -/
def IsOwnedDeclaration (v : Value) : Prop := ∃ p es i, v = .node (.declaration p es i true)

end Value

section

open Value

/-- Whether the fields of a node hold what they are meant for. -/
def Typing.Types (T : Typing) : Node Value → Prop
  | .document _ _ _ _ => False
  | .ruleSet selectors declarations parent =>
    selectors.IsListOf (IsOf [.selector]) ∧ declarations.IsListOf IsOwnedDeclaration ∧
      parent.IsOptional fun v => v.IsVerbatim T ∨ v.IsOf [.mediaQueryList]
  | .declaration property expressions important _ =>
    property.IsSomeText ∧ expressions.IsListOf (IsOf Kind.terms) ∧ important.IsTruth
  | .fontFace declarations => declarations.IsListOf (IsOf [.declaration])
  | .mediaType name => name.IsSomeText
  | .mediaFeature property value =>
    property.IsSomeText ∧ (value.IsVerbatim T ∨ value.IsOf Kind.terms)
  | .mediaQuery expression conjuncts modifier =>
    expression.IsOf Kind.mediaExpressions ∧ conjuncts.IsListOf (IsOf Kind.mediaExpressions) ∧
      modifier.IsOptional (IsVerbatim T)
  | .mediaQueryList queries => queries.IsListOf (IsOf [.mediaQuery])
  | .charset name => name.IsSomeText
  | .importRule target media => target.IsOf [.uri] ∧ media.IsListOf (IsOf [.mediaType])
  | .namespaceRule target shorthand => target.IsOf [.uri] ∧ shorthand.IsOptional (IsOf [.ident])
  | .documentQuery functions => functions.IsListOf (IsOf Kind.terms)
  | .ident value operator => value.IsSomeText ∧ operator.IsOptional (IsVerbatim T)
  | .hash value operator => value.IsVerbatim T ∧ operator.IsOptional (IsVerbatim T)
  | .uri value operator => value.IsSomeText ∧ operator.IsOptional (IsVerbatim T)
  | .string value operator => value.IsSomeText ∧ operator.IsOptional (IsVerbatim T)
  | .number value dimension sign operator =>
    value.IsAmount T ∧ dimension.IsOptional (IsVerbatim T) ∧ sign.IsOptional IsSign ∧
      operator.IsOptional (IsVerbatim T)
  | .resolution amount unit operator =>
    amount.IsAmount T ∧ unit.IsVerbatim T ∧ operator.IsOptional (IsVerbatim T)
  | .rgb red green blue operator =>
    red.IsOf Kind.terms ∧ green.IsOf Kind.terms ∧ blue.IsOf Kind.terms ∧
      operator.IsOptional (IsVerbatim T)
  | .function name params operator =>
    name.IsSomeText ∧ (params.IsListOf fun v => v.IsVerbatim T ∨ v.IsOf Kind.terms) ∧
      operator.IsOptional (IsVerbatim T)
  | .idSelector name => name.IsSomeText
  | .classSelector name => name.IsSomeText
  | .pseudoClass name argument => name.IsSomeText ∧ argument.IsOptional IsSomeText
  | .pseudoElement name legacy => name.IsSomeText ∧ legacy.IsTruth
  | .attributeSelector name test value =>
    name.IsSomeText ∧ test.IsText T.test ∧ value.IsOptional IsSomeText
  | .simple _ name combinator qualifiers =>
    name.IsOptional IsSomeText ∧ combinator.IsOptional (IsText T.combinator) ∧
      qualifiers.IsListOf (IsOf Kind.qualifiers)
  | .selector simples => simples.IsListOf (IsOf Kind.compounds)
  | .nodeSelector => True
  | .elementSelector localName => localName.IsSomeText
  | .conditionalSelector base _ => base.IsOf Kind.models

end

/-- A tree whose nodes are all typed. -/
def Value.IsTyped (T : Typing) : Value → Prop := Value.Everywhere T.Types

variable {T : Typing}

theorem Typing.Types.kind_ne_document {n : Node Value} (h : T.Types n) : n.kind ≠ .document := by
  cases n with
  | document => exact h.elim
  | simple form => cases form <;> nofun
  | _ => nofun

theorem Value.IsTyped.documentFree {v : Value} (h : v.IsTyped T) : v.DocumentFree :=
  h.mono fun _ hn => hn.kind_ne_document

/-- A document whose parts are typed. -/
structure TypedDocument (T : Typing) where
  charsets : List Value
  imports : List Value
  fontFaces : List Value
  ruleSets : List Value
  charsets_typed : ∀ v ∈ charsets, v.IsOf [.charset] ∧ v.IsTyped T
  imports_typed : ∀ v ∈ imports, v.IsOf [.importRule] ∧ v.IsTyped T
  fontFaces_typed : ∀ v ∈ fontFaces, v.IsOf [.fontFace] ∧ v.IsTyped T
  ruleSets_typed : ∀ v ∈ ruleSets, v.IsOf [.ruleSet] ∧ v.IsTyped T

/-- A typed document as a value. -/
def TypedDocument.value (d : TypedDocument T) : Value :=
  .node (.document (.list d.charsets) (.list d.imports) (.list d.fontFaces) (.list d.ruleSets))

/-! ## From the nodes below a node to the node -/

/-- The items of a list, and any other value by itself. -/
def Value.items : Value → List Value
  | .list vs => vs
  | v => [v]

/-- The values right below a node. -/
def Node.below (n : Node Value) : List Value := n.fields.flatMap Value.items

/-- What follows for a node from the same for all nodes right below it holds all over the tree. -/
theorem Value.Everywhere.induction {p motive : Node Value → Prop}
    (step : ∀ n, p n → (∀ m, .node m ∈ n.below → motive m) → motive n) {v : Value}
    (h : v.Everywhere p) : ∀ n, .node n ∈ v.items → motive n := by
  induction h with
  | @node m hm _ ih =>
    intro n hn
    cases List.mem_singleton.1 hn
    refine step m hm fun k hk => ?_
    obtain ⟨w, hw, hk⟩ := List.mem_flatMap.1 hk
    exact ih w hw k hk
  | list _ ih => exact fun n hn => ih _ hn n List.mem_cons_self
  | _ =>
    intro n hn
    cases List.mem_singleton.1 hn

section

variable {kinds : List Kind} {n : Node Value} {w : Value}

/-- A field that holds a node holds a node right below. -/
theorem Value.IsOf.mem_below (hw : w ∈ n.fields) (h : w.IsOf kinds) : w ∈ n.below := by
  obtain ⟨m, rfl, -⟩ := h
  exact List.mem_flatMap.2 ⟨_, hw, List.mem_cons_self⟩

/-- The items of a field that holds a list are right below. -/
theorem Node.mem_below_of_list {vs : List Value} (hw : .list vs ∈ n.fields) (hv : w ∈ vs) :
    w ∈ n.below := List.mem_flatMap.2 ⟨_, hw, hv⟩

theorem Value.IsTyped.types (h : (Value.node n).IsTyped T) : T.Types n := by
  cases h with
  | node hn _ => exact hn

/-- What is right below a typed node is typed. -/
theorem Value.IsTyped.of_mem_below (h : (Value.node n).IsTyped T) (hw : w ∈ n.below) :
    w.IsTyped T := by
  obtain ⟨v, hv, hw⟩ := List.mem_flatMap.1 hw
  cases h with
  | node _ h =>
    cases v with
    | list vs =>
      cases h _ hv with
      | list h => exact h w hw
    | _ =>
      cases List.mem_singleton.1 hw
      exact h _ hv

theorem Value.IsTyped.of_mem_list {vs : List Value} (h : (Value.node n).IsTyped T)
    (hvs : .list vs ∈ n.fields) (hw : w ∈ vs) : w.IsTyped T :=
  h.of_mem_below (Node.mem_below_of_list hvs hw)

/-- Every node is assembled from its fields. -/
theorem Node.exists_eq_assemble (n : Node Value) :
    ∃ owned, n = assemble n.kind (fun f => (n.entries.lookup f).getD .absent) owned := by
  cases n with
  | declaration _ _ _ owned => exact ⟨owned, rfl⟩
  | simple form => exact ⟨false, by cases form <;> rfl⟩
  | _ => exact ⟨false, rfl⟩

/-- A node of a kind is assembled in the way of that kind. -/
theorem Value.IsOf.exists_eq_assemble {kind : Kind} (h : w.IsOf [kind]) :
    ∃ get owned, w = .node (Node.assemble kind get owned) := by
  obtain ⟨n, rfl, hn⟩ := h
  obtain ⟨owned, hget⟩ := n.exists_eq_assemble
  rw [List.mem_singleton.1 hn] at hget
  exact ⟨_, owned, congrArg Value.node hget⟩

theorem Value.IsOf.exists_ruleSet (h : w.IsOf [.ruleSet]) :
    ∃ selectors declarations parent, w = .node (.ruleSet selectors declarations parent) := by
  obtain ⟨get, owned, hw⟩ := h.exists_eq_assemble
  exact ⟨_, _, _, hw⟩

/-- Every term has an operator, which may be left out. -/
theorem Typing.Types.exists_operator (h : T.Types n) (hn : n.kind ∈ Kind.terms) :
    ∃ o, (Value.node n).operator? = some o ∧ o.IsOptional (Value.IsVerbatim T) := by
  cases n with
  | ident | hash | uri | string => exact ⟨_, rfl, h.2⟩
  | number | rgb => exact ⟨_, rfl, h.2.2.2⟩
  | resolution | function => exact ⟨_, rfl, h.2.2⟩
  | simple form => cases form <;> simp [Node.kind, SimpleForm.kind, Kind.terms] at hn
  | _ => simp [Node.kind, Kind.terms] at hn

end

end Stylesheet
