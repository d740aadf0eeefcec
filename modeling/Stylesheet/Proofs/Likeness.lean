import Stylesheet.Proofs.Normal
import Stylesheet.Proofs.Offences

/-!
# Equal trees

Trees that are the same and whose declarations are owned in the same places are printed the same: in
every state and every layout there is the same text, or a fault with the same cause at like values,
and the same state is left (`render_of_same`). For this, every field has to hold what it is
declared for (`Node.Fits`), keywords only in the place of a keyword or of a name, and no truth value
in the place of a number: such values have other texts than those that they are the same as.

What is proved of one tree at a time is that its plainest form prints like it
(`Print.Mirrors`, `mirrored_of_fits`): one lemma for each construct, and an induction over the tree.
Trees that are the same have one plainest form.

The one thing in which two faults can differ is the type that the message names, where printing
failed at an atom (`render_of_same_condition`).
-/

namespace Stylesheet

/-! ## Trees whose fields hold what they are declared for -/

namespace Value

/-- A text as such, and not as a keyword. -/
def IsPlainText (v : Value) : Prop := ∃ s, v = .text s

/-- A number, or a text in the place of one. -/
def IsQuantity (v : Value) : Prop :=
  (∃ n, v = .atom (.int n)) ∨ (∃ x, v = .atom (.float x)) ∨ v.IsPlainText

/-- A member of a vocabulary, or a text in the place of one. -/
def IsMember {α : Type} (keyword : α → Keyword) (v : Value) : Prop :=
  (∃ x, v = .atom (.keyword (keyword x))) ∨ v.IsPlainText

end Value

section

open Value

/-- Whether the fields of a node hold what they are declared for. -/
def Node.Fits : Node Value → Prop
  | .document charsets imports fontFaces ruleSets =>
    charsets.IsListOf (IsOf [.charset]) ∧ imports.IsListOf (IsOf [.importRule]) ∧
      fontFaces.IsListOf (IsOf [.fontFace]) ∧ ruleSets.IsListOf (IsOf [.ruleSet])
  | .ruleSet selectors declarations parent =>
    selectors.IsListOf (IsOf [.selector]) ∧ declarations.IsListOf (IsOf [.declaration]) ∧
      parent.IsOptional fun v => v.IsPlainText ∨ v.IsOf [.mediaQueryList]
  | .declaration property expressions important _ =>
    property.IsSomeText ∧ expressions.IsListOf (IsOf Kind.terms) ∧ important.IsTruth
  | .fontFace declarations => declarations.IsListOf (IsOf [.declaration])
  | .mediaType name => name.IsSomeText
  | .mediaFeature property value =>
    property.IsSomeText ∧ (value.IsPlainText ∨ value.IsOf Kind.terms)
  | .mediaQuery expression conjuncts modifier =>
    expression.IsOf Kind.mediaExpressions ∧ conjuncts.IsListOf (IsOf Kind.mediaExpressions) ∧
      modifier.IsOptional IsPlainText
  | .mediaQueryList queries => queries.IsListOf (IsOf [.mediaQuery])
  | .charset name => name.IsSomeText
  | .importRule target media => target.IsOf [.uri] ∧ media.IsListOf (IsOf [.mediaType])
  | .namespaceRule target shorthand => target.IsOf [.uri] ∧ shorthand.IsOptional (IsOf [.ident])
  | .documentQuery functions => functions.IsListOf (IsOf Kind.terms)
  | .ident value operator => value.IsSomeText ∧ operator.IsOptional IsPlainText
  | .hash value operator => value.IsPlainText ∧ operator.IsOptional IsPlainText
  | .uri value operator => value.IsSomeText ∧ operator.IsOptional IsPlainText
  | .string value operator => value.IsSomeText ∧ operator.IsOptional IsPlainText
  | .number value dimension sign operator =>
    value.IsQuantity ∧ dimension.IsOptional IsPlainText ∧
      sign.IsOptional (IsMember Keyword.sign) ∧ operator.IsOptional IsPlainText
  | .resolution amount unit operator =>
    amount.IsQuantity ∧ unit.IsPlainText ∧ operator.IsOptional IsPlainText
  | .rgb red green blue operator =>
    red.IsOf Kind.terms ∧ green.IsOf Kind.terms ∧ blue.IsOf Kind.terms ∧
      operator.IsOptional IsPlainText
  | .function name params operator =>
    name.IsSomeText ∧ (params.IsListOf fun v => v.IsPlainText ∨ v.IsOf Kind.terms) ∧
      operator.IsOptional IsPlainText
  | .idSelector name => name.IsSomeText
  | .classSelector name => name.IsSomeText
  | .pseudoClass name argument => name.IsSomeText ∧ argument.IsOptional IsSomeText
  | .pseudoElement name legacy => name.IsSomeText ∧ legacy.IsTruth
  | .attributeSelector name test value =>
    name.IsSomeText ∧ test.IsMember Keyword.test ∧ value.IsOptional IsSomeText
  | .simple _ name combinator qualifiers =>
    name.IsOptional IsSomeText ∧ combinator.IsOptional (IsMember Keyword.combinator) ∧
      qualifiers.IsListOf (IsOf Kind.qualifiers)
  | .selector simples => simples.IsListOf (IsOf Kind.compounds)
  | .nodeSelector => True
  | .elementSelector localName => localName.IsSomeText
  | .conditionalSelector base _ => base.IsOf Kind.models

end

/-! ## Actions that mirror each other -/

/-- A fault of printing: it has happened at a value, which is no object with contents of its own. -/
def Fault.IsPrintFault (e : Fault) : Prop :=
  ∃ v, e.culprit? = some v ∧ ∀ key added w, v ≠ .object key added w

/-- A fault at the plainest form of what printing failed at. -/
def Fault.plainest : Fault → Fault
  | .unsupported v => .unsupported v.normal
  | .unknownCombinator c selector => .unknownCombinator c selector.normal
  | .unknownTest t condition => .unknownTest t condition.normal
  | e => e

namespace Print

variable {α β γ : Type} {layout : Layout}

/-- The second action does what the first one does, and fails with the plainest form of its fault.
Every fault has a value that printing failed at. -/
def Mirrors (layout : Layout) (act act' : Print α) : Prop :=
  ∀ s : PrintState, match act.exec layout s with
    | (.ok a, t) => act'.exec layout s = (.ok a, t)
    | (.error e, t) => e.IsPrintFault ∧ act'.exec layout s = (.error e.plainest, t)

theorem Mirrors.pure (a : α) : Mirrors layout (pure a) (pure a) := fun _ => rfl

theorem Mirrors.throw {e : Fault} (h : e.IsPrintFault) :
    Mirrors layout (throw e : Print α) (throw e.plainest) := fun _ => ⟨h, rfl⟩

/-- A fault at a node. -/
theorem mirrors_fault {e : Fault} {n : Node Value} (h : e.culprit? = some (.node n)) :
    Mirrors layout (throw e : Print α) (throw e.plainest) :=
  Mirrors.throw ⟨.node n, h, fun _ _ _ hobject => by cases hobject⟩

/-- An action that succeeds mirrors itself. -/
theorem Yields.mirrors {act : Print α} {p : α → Prop} (h : Yields layout act p) :
    Mirrors layout act act := by
  intro s
  obtain ⟨a, ha, -⟩ := h s
  revert ha
  rcases act.exec layout s with ⟨_ | _, t⟩ <;> rintro ⟨⟩
  rfl

theorem Mirrors.bind {act act' : Print α} {f g : α → Print β} (h : Mirrors layout act act')
    (hf : ∀ a, Mirrors layout (f a) (g a)) : Mirrors layout (act >>= f) (act' >>= g) := by
  intro s
  have hs := h s
  rw [exec_bind, exec_bind]
  revert hs
  rcases act.exec layout s with ⟨e | a, t⟩
  · rintro ⟨he, hs⟩
    rw [hs]
    exact ⟨he, rfl⟩
  · intro hs
    have hs : act'.exec layout s = (.ok a, t) := hs
    rw [hs]
    exact hf a t

theorem Mirrors.mapM {as : List α} {k : α → γ} {f : α → Print β} {g : γ → Print β}
    (h : ∀ a ∈ as, Mirrors layout (f a) (g (k a))) :
    Mirrors layout (as.mapM f) ((as.map k).mapM g) := by
  induction as with
  | nil => exact Mirrors.pure []
  | cons a as ih =>
    obtain ⟨ha, has⟩ := List.forall_mem_cons.1 h
    rw [List.map_cons, List.mapM_cons, List.mapM_cons]
    exact Mirrors.bind ha fun _ => Mirrors.bind (ih has) fun _ => Mirrors.pure _

/-- Actions that run others from changed states, and change the states that these leave. -/
theorem Mirrors.around {act act' outer outer' : Print α} (h : Mirrors layout act act')
    (enter : PrintState → PrintState) (leave : PrintState → PrintState → PrintState)
    (ho : ∀ s, outer.exec layout s = ((act.exec layout (enter s)).1,
      leave s (act.exec layout (enter s)).2))
    (ho' : ∀ s, outer'.exec layout s = ((act'.exec layout (enter s)).1,
      leave s (act'.exec layout (enter s)).2)) :
    Mirrors layout outer outer' := by
  intro s
  have hs := h (enter s)
  rw [ho, ho']
  revert hs
  rcases act.exec layout (enter s) with ⟨e | a, t⟩
  · rintro ⟨he, hs⟩
    rw [hs]
    exact ⟨he, rfl⟩
  · intro hs
    have hs : act'.exec layout (enter s) = (.ok a, t) := hs
    rw [hs]

theorem Mirrors.indented {act act' : Print α} (h : Mirrors layout act act') :
    Mirrors layout (indented act) (indented act') :=
  h.around (fun s => { s with level := s.level + 1 }) (fun _ t => { t with level := t.level - 1 })
    (exec_indented act layout) (exec_indented act' layout)

theorem Mirrors.keepingLevel {act act' : Print α} (h : Mirrors layout act act') :
    Mirrors layout (keepingLevel act) (keepingLevel act') :=
  h.around id (fun s t => { t with level := s.level }) (exec_keepingLevel act layout)
    (exec_keepingLevel act' layout)

end Print

/-- Printing the plainest form of a value mirrors printing the value. -/
def Value.Mirrored (layout : Layout) (v : Value) : Prop :=
  Print.Mirrors layout v.render v.normal.render

open Print Value

section

variable {layout : Layout} {v : Value} {vs : List Value}

/-! ## Names, amounts and lists -/

theorem Value.IsPlainText.normal_eq (h : v.IsPlainText) : v.normal = v := by
  obtain ⟨s, rfl⟩ := h
  rfl

theorem Value.IsOptional.normal_eq (h : v.IsOptional IsPlainText) : v.normal = v := by
  rcases h with rfl | h
  · rfl
  · exact h.normal_eq

theorem Value.IsQuantity.numeral_normal (h : v.IsQuantity) : v.normal.numeral = v.numeral := by
  rcases h with ⟨n, rfl⟩ | ⟨x, rfl⟩ | h
  · rfl
  · cases hx : x.toInt? <;>
      simp [Atom.normal, hx, Value.numeral, Atom.numeral, Numeral.quantity, Atom.display]
  · rw [h.normal_eq]

theorem mirrors_identifier (h : v.IsSomeText) :
    Mirrors layout (Print.identifier v) (Print.identifier v.normal) := by
  obtain ⟨s, hs, -⟩ := h
  rw [Print.identifier, Print.identifier, text?_normal, hs]
  exact Mirrors.pure _

theorem mirrors_quoted (h : v.IsSomeText) :
    Mirrors layout (Print.quoted v) (Print.quoted v.normal) := by
  obtain ⟨s, hs, -⟩ := h
  rw [Print.quoted, Print.quoted, text?_normal, hs]
  exact Mirrors.pure _

theorem mirrors_each {f : Part → Print String}
    (h : ∀ v ∈ vs, Mirrors layout (f v.part) (f v.normal.part)) :
    Mirrors layout ((list vs).parts.each f) ((list vs).normal.parts.each f) := by
  rw [normal_list, each_parts_list, each_parts_list]
  exact Mirrors.mapM h

theorem mirrors_texts (h : ∀ v ∈ vs, v.Mirrored layout) :
    Mirrors layout (list vs).parts.texts (list vs).normal.parts.texts := mirrors_each h

theorem mirrors_separated (h : ∀ v ∈ vs, v.Mirrored layout) (separator : String) :
    Mirrors layout ((list vs).parts.separated separator)
      ((list vs).normal.parts.separated separator) :=
  Mirrors.bind (mirrors_texts h) fun _ => Mirrors.pure _

theorem mirrors_joined (h : ∀ v ∈ vs, v.Mirrored layout) :
    Mirrors layout (list vs).parts.joined (list vs).normal.parts.joined :=
  Mirrors.bind (mirrors_texts h) fun _ => Mirrors.pure _

/-! ## Terms -/

/-- The sign is looked at as a text. -/
theorem mirrors_number {value dimension sign : Value} (hv : value.IsQuantity)
    (hd : dimension.IsOptional IsPlainText) :
    Mirrors layout (Render.number value dimension sign)
      (Render.number value.normal dimension.normal sign.normal) := by
  rw [Render.number, Render.number, hv.numeral_normal, hd.normal_eq, text?_normal]
  exact Mirrors.pure _

theorem mirrors_resolution {amount unit : Value} (ha : amount.IsQuantity) (hu : unit.IsPlainText) :
    Mirrors layout (Render.resolution amount unit)
      (Render.resolution amount.normal unit.normal) := by
  rw [Render.resolution, Render.resolution, ha.numeral_normal, hu.normal_eq]
  exact Mirrors.pure _

/-- A term that is mirrored, with an operator that is in its plainest form. -/
structure Value.IsMirroredTerm (layout : Layout) (v : Value) : Prop where
  text? : v.text? = none
  mirrored : v.Mirrored layout
  operator : ∃ o, v.operator? = some o ∧ v.normal.operator? = some o

theorem mirrors_param (h : v.IsPlainText ∨ v.IsMirroredTerm layout) :
    Mirrors layout (Render.param v.part) (Render.param v.normal.part) := by
  rcases h with ⟨s, rfl⟩ | ⟨hnone, ht, o, ho, ho'⟩
  · exact Mirrors.pure s
  · rw [Render.param, show v.part.value.text? = none from hnone,
      show v.part.value.operator? = some o from ho, Render.param,
      show v.normal.part.value.text? = none from v.text?_normal.trans hnone,
      show v.normal.part.value.operator? = some o from ho']
    show Mirrors layout (if o.isVacant then _ else _) (if o.isVacant then _ else _)
    split
    · exact ht
    · exact Mirrors.bind ht fun _ => Mirrors.pure _

theorem mirrors_operand (h : v.IsMirroredTerm layout) :
    Mirrors layout (Render.operand v.part) (Render.operand v.normal.part) := by
  obtain ⟨-, ht, o, ho, ho'⟩ := h
  rw [Render.operand, show v.part.value.operator? = some o from ho, Render.operand,
    show v.normal.part.value.operator? = some o from ho']
  exact Mirrors.bind ht fun _ => Mirrors.pure _

theorem mirrors_call {name : Value} (hn : name.IsSomeText)
    (h : ∀ v ∈ vs, v.IsPlainText ∨ v.IsMirroredTerm layout) :
    Mirrors layout (Render.call name (list vs).parts)
      (Render.call name.normal (list vs).normal.parts) :=
  Mirrors.bind (mirrors_each fun v hv => mirrors_param (h v hv)) fun _ =>
    Mirrors.bind (mirrors_identifier hn) fun _ => Mirrors.pure _

/-! ## Selectors -/

theorem mirrors_combinator {c : Value} (n : Node Value)
    (h : c.IsOptional (IsMember Keyword.combinator)) :
    Mirrors layout (Render.combinator (.node n) c)
      (Render.combinator (.node (n.map normal)) c.normal) := by
  have hfound (selector c : Value) {s : String} {k : Combinator} (hc : c.text? = some s)
      (hs : Combinator.ofText? s = some k) (ha : c.isAbsent = false) (hkey : c.isKey = true) :
      Render.combinator selector c = pure k.symbol := by
    simp [Render.combinator, hc, hs, ha, hkey]
  have hunknown (selector : Value) (s : String) (hs : Combinator.ofText? s = none) :
      Render.combinator selector (.text s) = throw (.unknownCombinator (.text s) selector) := by
    have hkey : (Value.text s).isKey = true := rfl
    simp [Render.combinator, text?, Atom.text?, isAbsent, hkey, hs]
  rcases h with rfl | ⟨k, rfl⟩ | ⟨s, rfl⟩
  · exact Mirrors.pure ""
  · have hk : Combinator.ofText? k.text = some k := k.ofText?_text
    rw [hfound _ _ rfl hk rfl rfl, hfound _ _ rfl hk rfl rfl]
    exact Mirrors.pure _
  · cases hs : Combinator.ofText? s with
    | some k =>
      rw [hfound _ _ rfl hs rfl rfl, hfound _ _ rfl hs rfl rfl]
      exact Mirrors.pure _
    | none =>
      rw [hunknown _ s hs, IsPlainText.normal_eq ⟨s, rfl⟩, hunknown _ s hs, ← normal_node]
      exact mirrors_fault (e := .unknownCombinator (.text s) (.node n)) rfl

theorem mirrors_elementName (h : v.IsOptional IsSomeText) :
    Mirrors layout (Render.elementName v) (Render.elementName v.normal) := by
  rw [Render.elementName, Render.elementName, isAbsent_normal, text?_normal]
  split
  case isTrue => exact Mirrors.pure "*"
  case isFalse hne =>
    rcases h with rfl | h
    · exact absurd (.inl rfl) hne
    · exact mirrors_identifier h

/-- A name behind a mark. -/
theorem mirrors_marked (mark : String) (h : v.IsSomeText) :
    Mirrors layout (do
      let n ← Print.identifier v
      return mark ++ n) (do
      let n ← Print.identifier v.normal
      return mark ++ n) :=
  Mirrors.bind (mirrors_identifier h) fun _ => Mirrors.pure _

theorem mirrors_pseudoClass {name argument : Value} (hn : name.IsSomeText)
    (ha : argument.IsOptional IsSomeText) :
    Mirrors layout (Render.pseudoClass name argument)
      (Render.pseudoClass name.normal argument.normal) := by
  refine Mirrors.bind (mirrors_identifier hn) fun n => ?_
  rw [isAbsent_normal]
  split
  case isTrue => exact Mirrors.pure _
  case isFalse hne =>
    rcases ha with rfl | ha
    · exact absurd rfl hne
    · exact Mirrors.bind (mirrors_identifier ha) fun _ => Mirrors.pure _

theorem mirrors_pseudoElement {name legacy : Value} (hn : name.IsSomeText) :
    Mirrors layout (Render.pseudoElement name legacy)
      (Render.pseudoElement name.normal legacy.normal) := by
  rw [Render.pseudoElement, Render.pseudoElement, isVacant_normal]
  exact mirrors_marked _ hn

theorem mirrors_comparand (h : v.IsOptional IsSomeText) :
    Mirrors layout (Render.comparand v) (Render.comparand v.normal) := by
  rw [Render.comparand, Render.comparand, isVacant_normal, text?_normal]
  split
  case isTrue => exact Mirrors.pure ""
  case isFalse hne =>
    rcases h with rfl | ⟨s, hs, -⟩
    · exact absurd rfl hne
    · rw [hs]
      exact Mirrors.pure _

/-- A test that is looked up by its text is found, or is a text as such. -/
theorem Value.IsMember.test (h : v.IsMember Keyword.test) :
    ∃ s, v.text? = some s ∧ v.isKey = true ∧ v.normal.isKey = true ∧
      (s ≠ AttributeTest.set.text → (AttributeTest.ofText? s).bind AttributeTest.symbol? = none →
        v.normal = v) := by
  rcases h with ⟨k, rfl⟩ | ⟨s, rfl⟩
  · refine ⟨k.text, rfl, rfl, rfl, fun hset hnone => ?_⟩
    rw [AttributeTest.ofText?_text] at hnone
    cases k <;> first | exact absurd rfl hset | cases hnone
  · exact ⟨s, rfl, rfl, rfl, fun _ _ => rfl⟩

theorem mirrors_attributeSelector {name test value : Value} (n : Node Value)
    (hn : name.IsSomeText) (ht : test.IsMember Keyword.test) (hv : value.IsOptional IsSomeText) :
    Mirrors layout (Render.attributeSelector (.node n) name test value)
      (Render.attributeSelector (.node (n.map normal)) name.normal test.normal value.normal) := by
  obtain ⟨s, hs, hkey, hkey', hsame⟩ := ht.test
  rw [Render.attributeSelector, Render.attributeSelector, text?_normal, hs, hkey, hkey']
  refine Mirrors.bind (mirrors_identifier hn) fun _ => ?_
  split
  case isTrue => exact Mirrors.pure _
  case isFalse hne =>
    rw [Option.some.injEq] at hne
    simp only [if_true, Option.bind_some]
    cases hsymbol : (AttributeTest.ofText? s).bind AttributeTest.symbol? with
    | some symbol => exact Mirrors.bind (mirrors_comparand hv) fun _ => Mirrors.pure _
    | none =>
      rw [hsame hne hsymbol]
      rw [← normal_node]
      exact mirrors_fault (e := .unknownTest test (.node n)) rfl

theorem mirrors_simple {name c : Value} (n : Node Value) (hn : name.IsOptional IsSomeText)
    (hc : c.IsOptional (IsMember Keyword.combinator)) (h : ∀ v ∈ vs, v.Mirrored layout) :
    Mirrors layout (Render.simple (.node n) name c (list vs).parts)
      (Render.simple (.node (n.map normal)) name.normal c.normal (list vs).normal.parts) := by
  refine Mirrors.bind (mirrors_combinator n hc) fun _ => ?_
  refine Mirrors.bind (mirrors_elementName hn) fun _ => ?_
  exact Mirrors.bind (mirrors_joined h) fun _ => Mirrors.pure _

/-! ## Media queries and at-rules -/

theorem mirrors_mediaFeature {property value : Value} (hp : property.IsSomeText)
    (hv : value.IsPlainText ∨ value.text? = none ∧ value.Mirrored layout) :
    Mirrors layout (Render.mediaFeature property value value.render)
      (Render.mediaFeature property.normal value.normal value.normal.render) := by
  have hvalue : Mirrors layout (Render.featureValue value value.render)
      (Render.featureValue value.normal value.normal.render) := by
    rcases hv with ⟨s, rfl⟩ | ⟨hnone, hv⟩
    · exact Mirrors.pure s
    · rw [Render.featureValue, Render.featureValue, text?_normal, hnone]
      exact hv
  exact Mirrors.bind hvalue fun _ => Mirrors.bind (mirrors_identifier hp) fun _ => Mirrors.pure _

theorem mirrors_mediaQuery {expression modifier : Value} (he : expression.Mirrored layout)
    (hm : modifier.IsOptional IsPlainText) (h : ∀ v ∈ vs, v.Mirrored layout) :
    Mirrors layout (Render.mediaQuery expression.render modifier (list vs) (list vs).parts)
      (Render.mediaQuery expression.normal.render modifier.normal (list vs).normal
        (list vs).normal.parts) := by
  rw [Render.mediaQuery, Render.mediaQuery, hm.normal_eq, isVacant_normal]
  refine Mirrors.bind he fun _ => ?_
  split
  · exact Mirrors.pure _
  · exact Mirrors.bind (mirrors_separated h _) fun _ => Mirrors.pure _

theorem mirrors_mediumName (h : v.IsOf [.mediaType]) (hv : v.Everywhere Node.Fits) :
    Mirrors layout (Render.mediumName v.part) (Render.mediumName v.normal.part) := by
  obtain ⟨get, owned, hget⟩ := h.exists_eq_assemble
  obtain ⟨name, rfl⟩ : ∃ name, v = .node (.mediaType name) := ⟨_, hget⟩
  cases hv with
  | node hname _ =>
    rw [normal_node]
    exact mirrors_identifier hname

end

section

variable {u b : String} {compact : Value} {v : Value} {vs : List Value}

theorem mirrors_importRule {target : Value} (ht : target.Mirrored ⟨.text u, .text b, compact⟩)
    (h : ∀ v ∈ vs, v.IsOf [.mediaType] ∧ v.Everywhere Node.Fits) :
    Mirrors ⟨.text u, .text b, compact⟩
      (Render.importRule target.render (list vs) (list vs).parts)
      (Render.importRule target.normal.render (list vs).normal (list vs).normal.parts) := by
  have hmedia : Mirrors ⟨.text u, .text b, compact⟩
      (Render.importMedia (list vs) (list vs).parts)
      (Render.importMedia (list vs).normal (list vs).normal.parts) := by
    rw [Render.importMedia, Render.importMedia, isVacant_normal]
    split
    · exact Mirrors.pure ""
    · have hnames : Mirrors ⟨.text u, .text b, compact⟩
          ((list vs).parts.each Render.mediumName)
          ((list vs).normal.parts.each Render.mediumName) :=
        mirrors_each fun v hv => mirrors_mediumName (h v hv).1 (h v hv).2
      exact Mirrors.bind hnames fun _ => Mirrors.pure _
  refine Mirrors.bind hmedia fun _ => Mirrors.bind yields_indentation_text.mirrors fun _ => ?_
  exact Mirrors.bind ht fun _ => Mirrors.pure _

theorem mirrors_namespaceRule {target shorthand : Value}
    (ht : target.Mirrored ⟨.text u, .text b, compact⟩)
    (hs : shorthand.Mirrored ⟨.text u, .text b, compact⟩) :
    Mirrors ⟨.text u, .text b, compact⟩
      (Render.namespaceRule target.render shorthand shorthand.render)
      (Render.namespaceRule target.normal.render shorthand.normal shorthand.normal.render) := by
  rw [Render.namespaceRule, Render.namespaceRule, isAbsent_normal]
  refine Mirrors.bind yields_indentation_text.mirrors fun _ => ?_
  split
  · exact Mirrors.bind ht fun _ => Mirrors.pure _
  · exact Mirrors.bind hs fun _ => Mirrors.bind ht fun _ => Mirrors.pure _

theorem mirrors_documentQuery (h : ∀ v ∈ vs, v.Mirrored ⟨.text u, .text b, compact⟩) :
    Mirrors ⟨.text u, .text b, compact⟩ (Render.documentQuery (list vs).parts)
      (Render.documentQuery (list vs).normal.parts) := by
  have hnote (message : String) :
      Yields ⟨.text u, .text b, compact⟩ (Print.note message) fun _ => True :=
    fun _ => ⟨(), rfl, trivial⟩
  refine Mirrors.bind (hnote _).mirrors fun _ => Mirrors.bind (mirrors_separated h _) fun _ => ?_
  exact Mirrors.bind yields_indentation_text.mirrors fun _ => Mirrors.pure _

/-! ## Rule sets and documents -/

theorem mirrors_declaration {property important : Value} {owned : Bool}
    (hp : property.IsSomeText) (h : ∀ v ∈ vs, v.IsMirroredTerm ⟨.text u, .text b, compact⟩) :
    Mirrors ⟨.text u, .text b, compact⟩
      (Render.declaration property (list vs).parts important owned)
      (Render.declaration property.normal (list vs).normal.parts important.normal owned) := by
  have hstart : Mirrors ⟨.text u, .text b, compact⟩ (Render.lineStart owned)
      (Render.lineStart owned) := by
    cases owned with
    | true => exact yields_indentation_text.mirrors
    | false => exact Mirrors.pure ""
  have hvalue : Mirrors ⟨.text u, .text b, compact⟩ (Render.declarationValue (list vs).parts)
      (Render.declarationValue (list vs).normal.parts) :=
    Mirrors.bind (mirrors_each fun v hv => mirrors_operand (h v hv)) fun _ => Mirrors.pure _
  rw [Render.declaration, Render.declaration, isVacant_normal]
  refine Mirrors.bind (Mirrors.indented ?_) fun _ => ?_
  · exact Mirrors.bind hstart fun _ => Mirrors.bind hvalue fun _ => Mirrors.pure _
  · exact Mirrors.bind (mirrors_identifier hp) fun _ => Mirrors.pure _

theorem mirrors_ruleSet {ds : List Value} (hss : ∀ v ∈ vs, v.Mirrored ⟨.text u, .text b, compact⟩)
    (hds : ∀ v ∈ ds, v.Mirrored ⟨.text u, .text b, compact⟩) :
    Mirrors ⟨.text u, .text b, compact⟩
      (Render.ruleSet (list vs) (list vs).parts (list ds).parts)
      (Render.ruleSet (list vs).normal (list vs).normal.parts (list ds).normal.parts) := by
  rw [Render.ruleSet, Render.ruleSet, isVacant_normal]
  split
  · exact Mirrors.pure ""
  · refine Mirrors.bind (mirrors_separated hss _) fun _ => ?_
    exact Mirrors.bind (mirrors_texts hds) fun _ => (yields_block_text _ _).mirrors

theorem mirrors_fontFace (h : ∀ v ∈ vs, v.Mirrored ⟨.text u, .text b, compact⟩) :
    Mirrors ⟨.text u, .text b, compact⟩ (Render.fontFace (list vs).parts)
      (Render.fontFace (list vs).normal.parts) := by
  have hlines (inner : String) : Mirrors ⟨.text u, .text b, compact⟩
      ((list vs).parts.each fun p => do
        let t ← p.text
        pure (inner ++ t ++ ";"))
      ((list vs).normal.parts.each fun p => do
        let t ← p.text
        pure (inner ++ t ++ ";")) :=
    mirrors_each fun v hv => Mirrors.bind (h v hv) fun _ => Mirrors.pure _
  refine Mirrors.bind (Mirrors.indented ?_) fun _ => ?_
  · exact Mirrors.bind yields_indentation_text.mirrors hlines
  · refine Mirrors.bind yields_lineBreak_text.mirrors fun _ => ?_
    exact Mirrors.bind yields_indentation_text.mirrors fun _ => Mirrors.pure _

/-- A rule set whose text and whose heading are mirrored. -/
structure Value.IsMirroredRule (layout : Layout) (r : Value) : Prop where
  mirrored : r.Mirrored layout
  group : ∃ parent, r.part.group = .ok ⟨parent, parent.heading parent.render⟩ ∧
    r.normal.part.group = .ok ⟨parent.normal, parent.normal.heading parent.normal.render⟩ ∧
    Mirrors layout (parent.heading parent.render) (parent.normal.heading parent.normal.render)

theorem mirrors_closeGroup (identity : Value) :
    Mirrors ⟨.text u, .text b, compact⟩ (Render.closeGroup identity)
      (Render.closeGroup identity.normal) := by
  have hclose : Render.closeGroup identity.normal = Render.closeGroup identity := by
    rw [Render.closeGroup, Render.closeGroup, isAbsent_normal]
  rw [hclose]
  exact (yields_closeGroup identity).mirrors

theorem mirrors_openGroup {parent : Value}
    (h : Mirrors ⟨.text u, .text b, compact⟩ (parent.heading parent.render)
      (parent.normal.heading parent.normal.render)) :
    Mirrors ⟨.text u, .text b, compact⟩
      (Render.openGroup ⟨parent, parent.heading parent.render⟩)
      (Render.openGroup ⟨parent.normal, parent.normal.heading parent.normal.render⟩) := by
  rw [Render.openGroup, Render.openGroup]
  simp only [isAbsent_normal]
  split
  · exact Mirrors.pure []
  · refine Mirrors.bind h fun _ => Mirrors.bind yields_indentation_text.mirrors fun _ => ?_
    exact Mirrors.bind (yields_shift 1).mirrors fun _ => Mirrors.pure _

/-- The loop over the rule sets: groups are the same if their plainest forms are, so that blocks end
and start at the same rule sets. -/
theorem mirrors_groups {rs : List Value}
    (h : ∀ r ∈ rs, r.IsMirroredRule ⟨.text u, .text b, compact⟩) (current : Value) :
    Mirrors ⟨.text u, .text b, compact⟩ (Render.groups current (rs.map part))
      (Render.groups current.normal ((rs.map normal).map part)) := by
  induction rs generalizing current with
  | nil => exact mirrors_closeGroup current
  | cons r rs ih =>
    obtain ⟨⟨ht, parent, hgroup, hgroup', hheading⟩, hrs⟩ := List.forall_mem_cons.1 h
    have hrest (g : Value) (f : String → List String → List String) :
        Mirrors ⟨.text u, .text b, compact⟩ (do
          let t ← r.part.text
          let rest ← Render.groups g (rs.map part)
          return f t rest) (do
          let t ← r.normal.part.text
          let rest ← Render.groups g.normal ((rs.map normal).map part)
          return f t rest) :=
      Mirrors.bind ht fun _ => Mirrors.bind (ih hrs g) fun _ => Mirrors.pure _
    rw [List.map_cons, List.map_cons, List.map_cons, Render.groups, Render.groups, hgroup, hgroup']
    show Mirrors _ (if parent.same current then _ else _)
      (if parent.normal.same current.normal then _ else _)
    rw [same_normal]
    split
    case isTrue => exact hrest current fun t rest => t :: rest
    case isFalse =>
      refine Mirrors.bind (mirrors_closeGroup current) fun closing => ?_
      exact Mirrors.bind (mirrors_openGroup hheading) fun opening =>
        hrest parent fun t rest => closing ++ opening ++ t :: rest

theorem mirrors_document {cs is fs rs : List Value}
    (hcs : ∀ v ∈ cs, v.Mirrored ⟨.text u, .text b, compact⟩)
    (his : ∀ v ∈ is, v.Mirrored ⟨.text u, .text b, compact⟩)
    (hfs : ∀ v ∈ fs, v.Mirrored ⟨.text u, .text b, compact⟩)
    (hrs : ∀ r ∈ rs, r.IsMirroredRule ⟨.text u, .text b, compact⟩) :
    Mirrors ⟨.text u, .text b, compact⟩
      (Render.document (list cs).parts (list is).parts (list fs).parts (list rs).parts)
      (Render.document (list cs).normal.parts (list is).normal.parts (list fs).normal.parts
        (list rs).normal.parts) := by
  have hreset : Yields ⟨.text u, .text b, compact⟩ Print.reset fun _ => True :=
    fun _ => ⟨(), rfl, trivial⟩
  have hparts (vs : List Value) : (list vs).parts = .ok (vs.map part) := parts_eq_map _
  have hcheck (vss : List (List Value)) :
      Render.checkSequences (vss.map fun vs => (list vs).parts) = pure () := by
    induction vss with
    | nil => rfl
    | cons vs vss ih =>
      rw [List.map_cons, hparts]
      exact ih
  have hrules : Mirrors ⟨.text u, .text b, compact⟩ (Render.ruleSets (list rs).parts)
      (Render.ruleSets (list rs).normal.parts) := by
    rw [Render.ruleSets, Render.ruleSets, normal_list, hparts, hparts]
    exact Mirrors.keepingLevel (mirrors_groups hrs .absent)
  have hchecked : Mirrors ⟨.text u, .text b, compact⟩
      (Render.checkSequences [(list cs).parts, (list is).parts, (list fs).parts, (list rs).parts])
      (Render.checkSequences [(list cs).normal.parts, (list is).normal.parts,
        (list fs).normal.parts, (list rs).normal.parts]) := by
    simp only [normal_list]
    have h := hcheck [cs, is, fs, rs]
    have h' := hcheck [cs.map normal, is.map normal, fs.map normal, rs.map normal]
    simp only [List.map_cons, List.map_nil] at h h'
    rw [h, h']
    exact Mirrors.pure ()
  rw [Render.document, Render.document]
  refine Mirrors.bind hreset.mirrors fun _ => Mirrors.bind ?_ fun _ => ?_
  · refine Mirrors.bind hchecked fun _ => Mirrors.bind (mirrors_texts hcs) fun _ => ?_
    refine Mirrors.bind (mirrors_texts his) fun _ => Mirrors.bind (mirrors_texts hfs) fun _ => ?_
    exact Mirrors.bind hrules fun _ => Mirrors.pure _
  · exact Mirrors.bind yields_lineBreak_text.mirrors fun _ => Mirrors.pure _

/-! ## All over a tree -/

theorem Node.sizeOf_lt_of_mem_list {n : Node Value} (hvs : .list vs ∈ n.fields) (hv : v ∈ vs) :
    sizeOf v < sizeOf n := by
  have hlist := sizeOf_lt_of_mem_fields hvs
  have hitem := List.sizeOf_lt_of_mem hv
  rw [list.sizeOf_spec] at hlist
  omega

/-- Every term has an operator that is a text as such. -/
theorem Value.Mirrored.isMirroredTerm {layout : Layout} (h : v.Mirrored layout)
    (hv : v.Everywhere Node.Fits) (hof : v.IsOf Kind.terms) : v.IsMirroredTerm layout := by
  obtain ⟨n, rfl, hn⟩ := hof
  have hoperator : ∃ o, (node n).operator? = some o ∧ (node n).normal.operator? = some o.normal ∧
      o.IsOptional IsPlainText := by
    rw [normal_node]
    cases hv with
    | node hfits _ =>
      cases n with
      | ident | hash | uri | string => exact ⟨_, rfl, rfl, hfits.2⟩
      | number | rgb => exact ⟨_, rfl, rfl, hfits.2.2.2⟩
      | resolution | function => exact ⟨_, rfl, rfl, hfits.2.2⟩
      | simple form => cases form <;> simp [Node.kind, SimpleForm.kind, Kind.terms] at hn
      | _ => simp [Node.kind, Kind.terms] at hn
  obtain ⟨o, ho, ho', hplain⟩ := hoperator
  rw [hplain.normal_eq] at ho'
  exact ⟨rfl, h, o, ho, ho'⟩

/-- A node around values that fit, and that are mirrored if they are smaller than the node. -/
structure Node.Surrounds (layout : Layout) (n : Node Value) : Prop where
  fits : ∀ v ∈ n.fields, v.Everywhere Node.Fits
  mirrored : ∀ w : Value, sizeOf w < sizeOf n → w.Everywhere Node.Fits → w.Mirrored layout

namespace Node.Surrounds

variable {n : Node Value} (h : n.Surrounds ⟨.text u, .text b, compact⟩)

include h

theorem field (hv : v ∈ n.fields) : v.Mirrored ⟨.text u, .text b, compact⟩ :=
  h.mirrored v (sizeOf_lt_of_mem_fields hv) (h.fits v hv)

theorem fits_item (hvs : .list vs ∈ n.fields) (hv : v ∈ vs) : v.Everywhere Node.Fits := by
  cases h.fits _ hvs with
  | list hfits => exact hfits v hv

theorem items (hvs : .list vs ∈ n.fields) :
    ∀ v ∈ vs, v.Mirrored ⟨.text u, .text b, compact⟩ := fun v hv =>
  h.mirrored v (Node.sizeOf_lt_of_mem_list hvs hv) (h.fits_item hvs hv)

theorem fieldTerm (hv : v ∈ n.fields) (hof : v.IsOf Kind.terms) :
    v.IsMirroredTerm ⟨.text u, .text b, compact⟩ := (h.field hv).isMirroredTerm (h.fits v hv) hof

theorem itemTerm (hvs : .list vs ∈ n.fields) (hv : v ∈ vs) (hof : v.IsOf Kind.terms) :
    v.IsMirroredTerm ⟨.text u, .text b, compact⟩ :=
  (h.items hvs v hv).isMirroredTerm (h.fits_item hvs hv) hof

/-- The heading of a group is a text as such, or printed. -/
theorem rule (hvs : .list vs ∈ n.fields) (hv : v ∈ vs) (hof : v.IsOf [.ruleSet]) :
    v.IsMirroredRule ⟨.text u, .text b, compact⟩ := by
  refine ⟨h.items hvs v hv, ?_⟩
  have hsize := Node.sizeOf_lt_of_mem_list hvs hv
  have heverywhere := h.fits_item hvs hv
  obtain ⟨selectors, declarations, parent, rfl⟩ := hof.exists_ruleSet
  have hfield : parent ∈ (Node.ruleSet selectors declarations parent).fields := by
    simp [Node.fields, Node.entries]
  cases heverywhere with
  | node hfits hfields =>
    rw [normal_node]
    refine ⟨parent, rfl, rfl, ?_⟩
    rcases hfits.2.2 with rfl | ⟨s, rfl⟩ | ⟨m, rfl, -⟩
    · exact Mirrors.pure _
    · exact Mirrors.pure _
    · have hsmaller := sizeOf_lt_of_mem_fields hfield
      rw [node.sizeOf_spec] at hsize
      have hmirrored := h.mirrored (.node m) (by omega) (hfields _ hfield)
      rw [Mirrored, normal_node] at hmirrored
      rwa [normal_node]

/-- The step of the induction, construct by construct. -/
theorem mirrors_render (hn : n.Fits) :
    Mirrors ⟨.text u, .text b, compact⟩ n.render (n.map normal).render := by
  cases n with
  | document charsets imports fontFaces ruleSets =>
    obtain ⟨⟨cs, rfl, -⟩, ⟨is, rfl, -⟩, ⟨fs, rfl, -⟩, ⟨rs, rfl, hrs⟩⟩ := hn
    exact mirrors_document (h.items (by simp [Node.fields, Node.entries]))
      (h.items (by simp [Node.fields, Node.entries]))
      (h.items (by simp [Node.fields, Node.entries]))
      (fun r hr => h.rule (by simp [Node.fields, Node.entries]) hr (hrs r hr))
  | ruleSet selectors declarations parent =>
    obtain ⟨⟨ss, rfl, -⟩, ⟨ds, rfl, -⟩, -⟩ := hn
    exact mirrors_ruleSet (h.items (by simp [Node.fields, Node.entries]))
      (h.items (by simp [Node.fields, Node.entries]))
  | declaration property expressions important owned =>
    obtain ⟨hp, ⟨es, rfl, hes⟩, -⟩ := hn
    exact mirrors_declaration hp fun v hv =>
      h.itemTerm (by simp [Node.fields, Node.entries]) hv (hes v hv)
  | fontFace declarations =>
    obtain ⟨ds, rfl, -⟩ := hn
    exact mirrors_fontFace (h.items (by simp [Node.fields, Node.entries]))
  | mediaType name => exact mirrors_identifier hn
  | mediaFeature property value =>
    refine mirrors_mediaFeature hn.1 (hn.2.imp_right fun hof => ?_)
    have hterm := h.fieldTerm (by simp [Node.fields, Node.entries]) hof
    exact ⟨hterm.text?, hterm.mirrored⟩
  | mediaQuery expression conjuncts modifier =>
    obtain ⟨-, ⟨cs, rfl, -⟩, hm⟩ := hn
    exact mirrors_mediaQuery (h.field (by simp [Node.fields, Node.entries])) hm
      (h.items (by simp [Node.fields, Node.entries]))
  | mediaQueryList queries =>
    obtain ⟨qs, rfl, -⟩ := hn
    exact mirrors_separated (h.items (by simp [Node.fields, Node.entries])) ", "
  | charset name => exact Mirrors.bind (mirrors_quoted hn) fun _ => Mirrors.pure _
  | importRule target media =>
    obtain ⟨-, ms, rfl, hms⟩ := hn
    exact mirrors_importRule (h.field (by simp [Node.fields, Node.entries])) fun v hv =>
      ⟨hms v hv, h.fits_item (by simp [Node.fields, Node.entries]) hv⟩
  | namespaceRule target shorthand =>
    exact mirrors_namespaceRule (h.field (by simp [Node.fields, Node.entries]))
      (h.field (by simp [Node.fields, Node.entries]))
  | documentQuery functions =>
    obtain ⟨fs, rfl, -⟩ := hn
    exact mirrors_documentQuery (h.items (by simp [Node.fields, Node.entries]))
  | ident value operator => exact mirrors_identifier hn.1
  | hash value operator =>
    obtain ⟨⟨s, rfl⟩, -⟩ := hn
    exact Mirrors.pure _
  | uri value operator => exact Mirrors.bind (mirrors_quoted hn.1) fun _ => Mirrors.pure _
  | string value operator => exact mirrors_quoted hn.1
  | number value dimension sign operator => exact mirrors_number hn.1 hn.2.1
  | resolution amount unit operator => exact mirrors_resolution hn.1 hn.2.1
  | rgb red green blue operator =>
    refine Mirrors.bind (h.field (by simp [Node.fields, Node.entries])) fun _ => ?_
    refine Mirrors.bind (h.field (by simp [Node.fields, Node.entries])) fun _ => ?_
    exact Mirrors.bind (h.field (by simp [Node.fields, Node.entries])) fun _ => Mirrors.pure _
  | function name params operator =>
    obtain ⟨hname, ⟨ps, rfl, hps⟩, -⟩ := hn
    exact mirrors_call hname fun v hv => (hps v hv).imp_right
      (h.itemTerm (by simp [Node.fields, Node.entries]) hv)
  | idSelector name => exact mirrors_marked "#" hn
  | classSelector name => exact mirrors_marked "." hn
  | pseudoClass name argument => exact mirrors_pseudoClass hn.1 hn.2
  | pseudoElement name legacy => exact mirrors_pseudoElement hn.1
  | attributeSelector name test value => exact mirrors_attributeSelector _ hn.1 hn.2.1 hn.2.2
  | simple form name combinator qualifiers =>
    obtain ⟨hname, hc, qs, rfl, -⟩ := hn
    exact mirrors_simple _ hname hc (h.items (by simp [Node.fields, Node.entries]))
  | selector simples =>
    obtain ⟨ss, rfl, -⟩ := hn
    exact mirrors_joined (h.items (by simp [Node.fields, Node.entries]))
  | nodeSelector => exact Mirrors.pure "*"
  | elementSelector localName => exact mirrors_identifier hn
  | conditionalSelector base condition =>
    refine Mirrors.bind (h.field (by simp [Node.fields, Node.entries])) fun _ => ?_
    exact Mirrors.bind (h.field (by simp [Node.fields, Node.entries])) fun _ => Mirrors.pure _

end Node.Surrounds

theorem mirrored_of_unsupported (hv : v.render = unsupported v)
    (hnormal : v.normal.render = unsupported v.normal)
    (hobject : ∀ key added w, v ≠ .object key added w) :
    v.Mirrored ⟨.text u, .text b, compact⟩ := by
  rw [Mirrored, hv, hnormal]
  exact Mirrors.throw (e := .unsupported v) ⟨v, rfl, hobject⟩

/-- The plainest form of a tree prints like the tree, by induction over the tree. -/
theorem mirrored_of_fits (v : Value) (h : v.Everywhere Node.Fits) :
    v.Mirrored ⟨.text u, .text b, compact⟩ := by
  match v with
  | .atom a => exact mirrored_of_unsupported rfl rfl nofun
  | .foreign label => exact mirrored_of_unsupported rfl rfl nofun
  | .list vs => exact mirrored_of_unsupported rfl (by rw [normal_list]; rfl) nofun
  | .tuple vs => exact mirrored_of_unsupported rfl (by rw [normal_tuple]; rfl) nofun
  | .node n =>
    cases h with
    | node hn hfields =>
      have hsurrounds : n.Surrounds ⟨.text u, .text b, compact⟩ :=
        ⟨hfields, fun w hw hfits => mirrored_of_fits w hfits⟩
      rw [Mirrored, normal_node]
      exact hsurrounds.mirrors_render hn
  | .object key added w =>
    cases h with
    | object _ h =>
      rw [Mirrored, normal_object]
      exact mirrored_of_fits w h
termination_by sizeOf v

end

/-! ## Trees that are the same -/

/-- A tree of nodes whose fields, and no others, hold what they are declared for. -/
structure Value.IsFitting (v : Value) : Prop where
  bare : v.isBare = true
  fits : v.Everywhere Node.Fits

theorem Fault.cause_plainest (e : Fault) : e.plainest.cause = e.cause := by cases e <;> rfl

theorem Fault.culprit?_plainest (e : Fault) : e.plainest.culprit? = e.culprit?.map normal := by
  cases e <;> rfl

/-- Of the values with one plainest form only atoms can have different types. -/
theorem typeName_of_normal_eq {x y : Value} (hx : ∀ key added w, x ≠ .object key added w)
    (hy : ∀ key added w, y ≠ .object key added w) (h : x.normal = y.normal) :
    x.typeName = y.typeName ∨
      ∃ a a', x = .atom a ∧ y = .atom a' ∧ a.typeName ≠ a'.typeName := by
  cases x with
  | atom a =>
    cases y with
    | atom a' =>
      by_cases htype : a.typeName = a'.typeName
      · exact .inl htype
      · exact .inr ⟨a, a', rfl, rfl, htype⟩
    | _ => simp at h
  | node m =>
    cases y with
    | node n =>
      rw [normal_node, normal_node, node.injEq] at h
      have hkind := congrArg Node.kind h
      rw [Node.kind_map, Node.kind_map] at hkind
      exact .inl (congrArg Kind.name hkind)
    | _ => simp at h
  | object key added w => exact absurd rfl (hx key added w)
  | foreign | list | tuple =>
    cases y with
    | object key added w => exact absurd rfl (hy key added w)
    | foreign | list | tuple => first | exact .inl rfl | simp at h
    | _ => simp at h

/-- What two faults with one plainest form have in common. -/
theorem Fault.IsPrintFault.agree {e e' : Fault} (he : e.IsPrintFault) (he' : e'.IsPrintFault)
    (h : e.plainest = e'.plainest) :
    ∃ x y, e.culprit? = some x ∧ e'.culprit? = some y ∧ x.alike y = true ∧ e.cause = e'.cause ∧
      (e.message = e'.message ∨
        ∃ a a', x = .atom a ∧ y = .atom a' ∧ a.typeName ≠ a'.typeName) := by
  obtain ⟨x, hx, hxobject⟩ := he
  obtain ⟨y, hy, hyobject⟩ := he'
  have hcause : e.cause = e'.cause := by rw [← e.cause_plainest, h, e'.cause_plainest]
  have hnormal : x.normal = y.normal := by
    have hculprit : e.plainest.culprit? = e'.plainest.culprit? := by rw [h]
    rw [culprit?_plainest, culprit?_plainest, hx, hy] at hculprit
    exact Option.some.inj hculprit
  have habsent : x.isAbsent = y.isAbsent := by rw [← isAbsent_normal x, hnormal, isAbsent_normal]
  refine ⟨x, y, hx, hy, alike_of_normal_eq hnormal, hcause, ?_⟩
  refine (typeName_of_normal_eq hxobject hyobject hnormal).imp_left fun htype => ?_
  rw [message, message, hx, hy, hcause]
  simp only [habsent, htype]

/-- Two actions that the same action mirrors leave the same state, with the same result or with
faults that have one plainest form. -/
theorem Print.Mirrors.agree {α : Type} {layout : Layout} {act₁ act₂ act : Print α}
    (h₁ : Mirrors layout act₁ act) (h₂ : Mirrors layout act₂ act) (s : PrintState) :
    (act₁.exec layout s).2 = (act₂.exec layout s).2 ∧
      ((∃ a, (act₁.exec layout s).1 = .ok a ∧ (act₂.exec layout s).1 = .ok a) ∨
        ∃ e e', (act₁.exec layout s).1 = .error e ∧ (act₂.exec layout s).1 = .error e' ∧
          e.IsPrintFault ∧ e'.IsPrintFault ∧ e.plainest = e'.plainest) := by
  have hs₁ := h₁ s
  have hs₂ := h₂ s
  revert hs₁ hs₂
  rcases act₁.exec layout s with ⟨e | a, t⟩ <;> rcases act₂.exec layout s with ⟨e' | a', t'⟩
  · rintro ⟨he, hs⟩ ⟨he', hs'⟩
    rw [hs, Prod.mk.injEq, Except.error.injEq] at hs'
    exact ⟨hs'.2, .inr ⟨e, e', rfl, rfl, he, he', hs'.1⟩⟩
  · rintro ⟨he, hs⟩ hs'
    cases hs.symm.trans hs'
  · rintro hs ⟨he', hs'⟩
    cases hs'.symm.trans hs
  · intro hs hs'
    cases hs.symm.trans hs'
    exact ⟨rfl, .inl ⟨a, rfl, rfl⟩⟩

/-- Trees that are the same and whose declarations are owned in the same places are printed the
same: the same state is left, and there is the same text or a fault with the same cause at like
values. The messages are the same, but that an atom that printing failed at is named by its type. -/
theorem render_of_same {v w : Value} (hv : v.IsFitting) (hw : w.IsFitting)
    (h : v.same w = true) (ho : v.ownership = w.ownership) (u b : String) (compact : Value)
    (s : PrintState) :
    let r := v.render.exec ⟨.text u, .text b, compact⟩ s
    let r' := w.render.exec ⟨.text u, .text b, compact⟩ s
    r.2 = r'.2 ∧
      ((∃ text, r.1 = .ok text ∧ r'.1 = .ok text) ∨
        ∃ e e' x y, r.1 = .error e ∧ r'.1 = .error e' ∧ e.culprit? = some x ∧
          e'.culprit? = some y ∧ x.alike y = true ∧ e.cause = e'.cause ∧
          (e.message = e'.message ∨
            ∃ a a', x = .atom a ∧ y = .atom a' ∧ a.typeName ≠ a'.typeName)) := by
  intro r r'
  have hnormal : v.normal = w.normal :=
    normal_eq_of_alike hv.bare hw.bare (alike_of_same h) ho
  have hmirrored : Mirrors ⟨.text u, .text b, compact⟩ v.render v.normal.render :=
    mirrored_of_fits v hv.fits
  have hmirrored' : Mirrors ⟨.text u, .text b, compact⟩ w.render v.normal.render :=
    hnormal ▸ mirrored_of_fits w hw.fits
  obtain ⟨hstate, houtcome⟩ := hmirrored.agree hmirrored' s
  refine ⟨hstate, houtcome.imp_right ?_⟩
  rintro ⟨e, e', hr, hr', he, he', hplainest⟩
  obtain ⟨x, y, hagree⟩ := he.agree he' hplainest
  exact ⟨e, e', x, y, hr, hr', hagree⟩

/-- The number one as a double. -/
def Number.Double.one : Double := .finite false ⟨4503599627370496, -52, by decide⟩

/-- A negative number given by an integer and a keyword, and by a double and a text. -/
theorem render_of_same_numbers :
    let number (value sign : Atom) : Value :=
      .node (.number (.atom value) (.text "px") (.atom sign) .absent)
    let declaration (value sign : Atom) : Value :=
      .node (.declaration (.text "x") (.list [number value sign]) (.atom (.bool false)) true)
    let v := declaration (.int 1) (.keyword (.sign .minus))
    let w := declaration (.float .one) (.text "minus")
    v.IsFitting ∧ w.IsFitting ∧ v.same w = true ∧ v.ownership = w.ownership ∧
      (w.render.exec .pretty {}).1 = .ok "  x: -1px;" ∧
      (v.render.exec .pretty {}).2 = (w.render.exec .pretty {}).2 := by
  intro number declaration v w
  have hfits (value sign : Atom) (hvalue : (Value.atom value).IsQuantity)
      (hsign : (Value.atom sign).IsMember Keyword.sign) : (declaration value sign).IsFitting := by
    have hnumber : (number value sign).Everywhere Node.Fits := by
      refine .node ⟨hvalue, .inr ⟨_, rfl⟩, .inr hsign, .inl rfl⟩ ?_
      exact List.forall_mem_cons.2 ⟨.atom _, List.forall_mem_cons.2 ⟨.atom _,
        List.forall_mem_cons.2 ⟨.atom _, List.forall_mem_singleton.2 (.atom _)⟩⟩⟩
    have hterms : ∀ v ∈ [number value sign], v.IsOf Kind.terms :=
      List.forall_mem_singleton.2 ⟨_, rfl, (by decide : Kind.number ∈ Kind.terms)⟩
    refine ⟨rfl, .node ⟨⟨_, rfl, trivial⟩, ⟨_, rfl, hterms⟩, false, rfl⟩ ?_⟩
    exact List.forall_mem_cons.2 ⟨.atom _, List.forall_mem_cons.2
      ⟨.list (List.forall_mem_singleton.2 hnumber), List.forall_mem_singleton.2 (.atom _)⟩⟩
  have hv : v.IsFitting := hfits _ _ (.inl ⟨1, rfl⟩) (.inl ⟨.minus, rfl⟩)
  have hw : w.IsFitting := hfits _ _ (.inr (.inl ⟨.one, rfl⟩)) (.inr ⟨"minus", rfl⟩)
  have hsame : v.same w = true := by decide +kernel
  have htext : (v.render.exec .pretty {}).1 = .ok "  x: -1px;" := rfl
  obtain ⟨hstate, ⟨text, hok, hok'⟩ | ⟨e, _, _, _, he, -⟩⟩ :=
    render_of_same hv hw hsame rfl "  " "\n" (.atom (.bool false)) {}
  · cases hok.symm.trans htext
    exact ⟨hv, hw, hsame, rfl, hok', hstate⟩
  · cases he.symm.trans htext

/-- Conditions that are the same but of different types have different messages, and a keyword that
a group goes by has another text than the text that it is the same as. -/
theorem render_of_same_condition :
    let selector (condition : Atom) : Value :=
      .node (.conditionalSelector (.node .nodeSelector) (.atom condition))
    let sheet (group : Atom) : Value :=
      .node (.document (.list []) (.list []) (.list [])
        (.list [.node (.ruleSet (.list []) (.list []) (.atom group))]))
    let v := selector (.int 1)
    let w := selector (.float .one)
    let v' := sheet (.keyword (.combinator .child))
    let w' := sheet (.text "child")
    (v.IsFitting ∧ w.IsFitting ∧ v.same w = true ∧ v.ownership = w.ownership ∧
      ∃ e e', (v.render.exec .pretty {}).1 = .error e ∧ (w.render.exec .pretty {}).1 = .error e' ∧
        e.message = "Unsupported node kind (int node)" ∧
        e'.message = "Unsupported node kind (float node)") ∧
    (v'.same w' = true ∧ v'.ownership = w'.ownership ∧
      (v'.render.exec .pretty {}).1 = .ok "@media Combinator.CHILD \x7b\n\x7d" ∧
      (w'.render.exec .pretty {}).1 = .ok "@media child \x7b\n\x7d") := by
  intro selector sheet v w v' w'
  have hfits (condition : Atom) : (selector condition).IsFitting := by
    refine ⟨rfl, .node ⟨_, rfl, by decide⟩ ?_⟩
    exact List.forall_mem_cons.2 ⟨.node trivial nofun, List.forall_mem_singleton.2 (.atom _)⟩
  refine ⟨⟨hfits _, hfits _, by decide +kernel, rfl, ?_⟩, by decide +kernel, rfl, rfl, rfl⟩
  exact ⟨_, _, rfl, rfl, by decide +kernel, by decide +kernel⟩

end Stylesheet
