import Stylesheet.Escape.Quoted
import Stylesheet.Proofs.Chains

/-!
# Selectors with qualifiers

A compound is an element name, or none for any element, with qualifiers: conditions on the
identifier, the classes, the state and the attributes of the element, or a part of it. A selector is
a chain of compounds. `Qualifier.IsNode`, `Compound.IsNode` and `Chain.IsCompoundSelector` say which
values stand for them.

A qualifier is written as a mark, its name and what follows the name (`Qualifier.text`). The text of
a compound is put together from these, and a selector is printed as the chain of such texts
(`Chain.IsCompoundSelector.render`).
-/

namespace Stylesheet

open Stylesheet.Escape.Identifier

/-- A text for a name, which is not empty. -/
structure Label where
  text : String
  ne_empty : text ≠ ""
deriving DecidableEq

/-- The characters of a label. -/
def Label.chars (name : Label) : List Char := name.text.toList

theorem Label.chars_ne_nil (name : Label) : name.chars ≠ [] := by
  simpa [chars] using name.ne_empty

theorem Label.chars_injective {a b : Label} (h : a.chars = b.chars) : a = b := by
  cases a
  cases b
  cases String.toList_injective h
  rfl

/-- A qualifier of a compound. -/
inductive Qualifier where
  /-- A condition on the identifier of an element. -/
  | idName (name : Label)
  /-- A condition on the classes of an element. -/
  | className (name : Label)
  /-- A condition on the state of an element. -/
  | pseudoClass (name : Label) (argument : Option String)
  /-- A part of an element, with one colon in the legacy spelling. -/
  | pseudoElement (name : Label) (legacy : Bool)
  /-- A condition on an attribute of an element. -/
  | attributeTest (name : Label) (test : AttributeTest) (value : Option String)
deriving DecidableEq

/-- An element name, or none for any element, with qualifiers. -/
structure Compound where
  form : SimpleForm
  name : Option Label
  qualifiers : List Qualifier
deriving DecidableEq

/-! ## Texts -/

namespace Qualifier

/-- What starts a qualifier. -/
def mark : Qualifier → List Char
  | idName _ => ['#']
  | className _ => ['.']
  | pseudoClass _ _ => [':']
  | pseudoElement _ legacy => if legacy then [':'] else [':', ':']
  | attributeTest _ _ _ => ['[']

/-- The name in a qualifier. -/
def name : Qualifier → Label
  | idName name => name
  | className name => name
  | pseudoClass name _ => name
  | pseudoElement name _ => name
  | attributeTest name _ _ => name

/-- An argument in parentheses. -/
def argumentText : Option String → List Char
  | none => []
  | some s => '(' :: (encode s.toList ++ [')'])

/-- The test of an attribute up to the value that it is compared with. -/
def lead (test : AttributeTest) : List Char :=
  match test.symbol? with
  | none => [']']
  | some symbol => symbol.toList ++ ['"']

/-- The value that an attribute is compared with. The test for presence has none, and otherwise one
that is left out is empty. -/
def comparand (test : AttributeTest) (value : Option String) : Option String :=
  if test = .set then none else some (value.getD "")

/-- A value with what closes the test. -/
def comparandText : Option String → List Char
  | none => []
  | some s => Escape.Quoted.encode s.toList ++ ['"', ']']

/-- What follows the name in a qualifier. -/
def tail : Qualifier → List Char
  | idName _ => []
  | className _ => []
  | pseudoClass _ argument => argumentText argument
  | pseudoElement _ _ => []
  | attributeTest _ test value => lead test ++ comparandText (comparand test value)

/-- The text of a qualifier. -/
def text (q : Qualifier) : List Char := q.mark ++ (encode q.name.chars ++ q.tail)

end Qualifier

/-- The text of an element name; without one, or for `*`, any element is meant. -/
def Compound.elementText : Option Label → List Char
  | none => ['*']
  | some name => if name.text = "*" then ['*'] else encode name.chars

/-- The text of a compound. -/
def Compound.text (c : Compound) : List Char :=
  elementText c.name ++ c.qualifiers.flatMap Qualifier.text

/-! ## Nodes -/

/-- Whether a value is a text, or nothing if there is none. -/
def Value.Spells : Option String → Value → Prop
  | none, v => v = .absent
  | some s, v => v.text? = some s

/-- Whether a value is the node for a qualifier. -/
def Qualifier.IsNode : Qualifier → Value → Prop
  | idName name, v => ∃ n, v.contents = .node (.idSelector n) ∧ n.text? = some name.text
  | className name, v => ∃ n, v.contents = .node (.classSelector n) ∧ n.text? = some name.text
  | pseudoClass name argument, v => ∃ n a, v.contents = .node (.pseudoClass n a) ∧
      n.text? = some name.text ∧ a.Spells argument
  | pseudoElement name legacy, v => ∃ n,
      v.contents = .node (.pseudoElement n (.atom (.bool legacy))) ∧ n.text? = some name.text
  | attributeTest name test value, v => ∃ n w,
      v.contents = .node (.attributeSelector n (.atom (.keyword (.test test))) w) ∧
        n.text? = some name.text ∧ w.Spells value

/-- Whether a value is the node for a compound behind a combinator or at the start. -/
def Compound.IsNode (c : Option Combinator × Compound) (v : Value) : Prop :=
  ∃ name qualifiers qs,
    v.contents = .node (.simple c.2.form name (Combinator.value c.1) qualifiers) ∧
      name.Spells (c.2.name.map Label.text) ∧ qualifiers.items? = some qs ∧
      List.Forall₂ Qualifier.IsNode c.2.qualifiers qs

/-- Whether a value is the selector for a chain of compounds. -/
def Chain.IsCompoundSelector : Chain Compound → Value → Prop := IsSelectorOf Compound.IsNode

/-- A text as a value, or nothing. -/
def Value.ofText : Option String → Value
  | none => .absent
  | some s => .text s

/-- The node of a qualifier. -/
def Qualifier.node : Qualifier → Value
  | idName name => .node (.idSelector (.text name.text))
  | className name => .node (.classSelector (.text name.text))
  | pseudoClass name argument =>
    .node (.pseudoClass (.text name.text) (.ofText argument))
  | pseudoElement name legacy =>
    .node (.pseudoElement (.text name.text) (.atom (.bool legacy)))
  | attributeTest name test value =>
    .node (.attributeSelector (.text name.text) (.atom (.keyword (.test test))) (.ofText value))

/-- The node of a compound behind a combinator or at the start. -/
def Compound.node (c : Option Combinator × Compound) : Value :=
  .node (.simple c.2.form (.ofText (c.2.name.map Label.text)) (Combinator.value c.1)
    (.list (c.2.qualifiers.map Qualifier.node)))

/-- The selector of a chain of compounds. -/
def Chain.compoundSelector (chain : Chain Compound) : Value :=
  .node (.selector (.list ((chain.compounds none).map Compound.node)))

theorem Value.spells_ofText (s : Option String) : (Value.ofText s).Spells s := by
  cases s <;> rfl

theorem Qualifier.isNode_node (q : Qualifier) : q.IsNode q.node := by
  cases q with
  | idName name => exact ⟨_, rfl, rfl⟩
  | className name => exact ⟨_, rfl, rfl⟩
  | pseudoClass name argument => exact ⟨_, _, rfl, rfl, Value.spells_ofText argument⟩
  | pseudoElement name legacy => exact ⟨_, rfl, rfl⟩
  | attributeTest name test value => exact ⟨_, _, rfl, rfl, Value.spells_ofText value⟩

theorem Compound.isNode_node (c : Option Combinator × Compound) : IsNode c (node c) := by
  refine ⟨_, _, _, rfl, Value.spells_ofText _, rfl, ?_⟩
  rw [List.forall₂_map_right_iff]
  exact List.forall₂_same.2 fun q _ => q.isNode_node

theorem Chain.isCompoundSelector_compoundSelector (chain : Chain Compound) :
    chain.IsCompoundSelector chain.compoundSelector := by
  refine ⟨_, _, rfl, rfl, ?_⟩
  rw [List.forall₂_map_right_iff]
  exact List.forall₂_same.2 fun c _ => Compound.isNode_node c

/-! ## Printing -/

/-- A value that is left out is compared with like the empty text. -/
theorem comparand_of_spells {value : Option String} {v : Value} (h : v.Spells value) :
    Render.comparand v = pure (Escape.Quoted.escape (value.getD "")) := by
  cases value with
  | none =>
    cases h
    rfl
  | some s =>
    have hs : v.text? = some s := h
    unfold Render.comparand
    split
    case isTrue hvacant =>
      -- A text that counts as left out is empty.
      cases v with
      | atom a =>
        cases a with
        | text t =>
          cases hs
          have hempty : s = "" := by simpa [Value.isVacant, Atom.isVacant] using hvacant
          subst hempty
          rfl
        | keyword k => cases hvacant
        | _ => cases hs
      | _ => cases hs
    case isFalse =>
      rw [hs]
      rfl

theorem pure_eq_pure_ofList {t : String} {cs : List Char} (h : t.toList = cs) :
    (pure t : Print String) = pure (String.ofList cs) := by
  rw [← h, String.ofList_toList]

/-- The node for a qualifier is printed as the text of the qualifier. -/
theorem Qualifier.IsNode.render {q : Qualifier} {v : Value} (h : q.IsNode v) :
    v.render = pure (String.ofList q.text) := by
  rw [← Value.render_contents]
  cases q with
  | idName name =>
    obtain ⟨n, hv, hn⟩ := h
    rw [hv, Value.render, Node.render, Render.idSelector, Print.identifier_of_text? hn, pure_bind]
    exact pure_eq_pure_ofList (by simp [text, mark, Qualifier.name, tail, Label.chars])
  | className name =>
    obtain ⟨n, hv, hn⟩ := h
    rw [hv, Value.render, Node.render, Render.classSelector, Print.identifier_of_text? hn,
      pure_bind]
    exact pure_eq_pure_ofList (by simp [text, mark, Qualifier.name, tail, Label.chars])
  | pseudoClass name argument =>
    obtain ⟨n, a, hv, hn, ha⟩ := h
    rw [hv, Value.render, Node.render, Render.pseudoClass, Print.identifier_of_text? hn, pure_bind]
    cases argument with
    | none =>
      cases ha
      exact pure_eq_pure_ofList
        (by simp [text, mark, Qualifier.name, tail, argumentText, Label.chars])
    | some s =>
      rw [Value.isAbsent_of_text? ha, if_neg Bool.false_ne_true, Print.identifier_of_text? ha,
        pure_bind]
      exact pure_eq_pure_ofList
        (by simp [text, mark, Qualifier.name, tail, argumentText, Label.chars])
  | pseudoElement name legacy =>
    obtain ⟨n, hv, hn⟩ := h
    rw [hv, Value.render, Node.render, Render.pseudoElement, Print.identifier_of_text? hn,
      pure_bind]
    cases legacy <;>
      exact pure_eq_pure_ofList (by simp [text, mark, Qualifier.name, tail, Label.chars,
        Value.isVacant, Atom.isVacant])
  | attributeTest name test value =>
    obtain ⟨n, w, hv, hn, hw⟩ := h
    rw [hv, Value.render, Node.render, Render.attributeSelector, Print.identifier_of_text? hn,
      pure_bind, comparand_of_spells hw]
    cases test <;>
      exact pure_eq_pure_ofList (by simp [text, mark, Qualifier.name, tail, lead, comparand,
        comparandText, Label.chars, AttributeTest.symbol?, AttributeTest.comparison])

theorem join_map_ofList {α : Type} (f : α → List Char) (as : List α) :
    String.join (as.map fun a => String.ofList (f a)) = String.ofList (as.flatMap f) := by
  induction as with
  | nil => rfl
  | cons a as ih => rw [List.map_cons, String.join_cons, ih, List.flatMap_cons, String.ofList_append]

/-- The node for a compound is printed as the combinator and the text of the compound. -/
theorem Compound.IsNode.render {c : Option Combinator × Compound} {v : Value} (h : IsNode c v) :
    v.render = pure (Combinator.sign c.1 ++ String.ofList c.2.text) := by
  obtain ⟨name, qualifiers, qs, hv, hname, hitems, hqs⟩ := h
  have helement : Render.elementName name = pure (String.ofList (elementText c.2.name)) := by
    cases hc : c.2.name with
    | none =>
      rw [hc] at hname
      cases hname
      rfl
    | some label =>
      rw [hc] at hname
      have htext : name.text? = some label.text := hname
      rw [Render.elementName, Value.isAbsent_of_text? htext, htext,
        Print.identifier_of_text? htext, elementText]
      by_cases hstar : label.text = "*"
      · simp [hstar]
      · simp [hstar, escape, Label.chars]
  have hjoined : qualifiers.parts.joined =
      pure (String.join (c.2.qualifiers.map fun q => String.ofList q.text)) := by
    rw [Parts.joined, Value.texts_of_items? hitems,
      mapM_render_eq_pure (hqs.imp fun _ _ hq => hq.render), pure_bind]
  rw [render_of_simple hv helement hjoined, join_map_ofList, String.append_assoc,
    ← String.ofList_append, text]

/-- The selector for a chain of compounds is printed as the chain of their texts. -/
theorem Chain.IsCompoundSelector.render {chain : Chain Compound} {v : Value}
    (h : chain.IsCompoundSelector v) :
    v.render = pure (String.ofList (chain.written Compound.text)) :=
  IsSelectorOf.render (fun _ _ hc => hc.render) h

end Stylesheet
