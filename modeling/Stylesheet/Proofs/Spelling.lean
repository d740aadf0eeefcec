import Stylesheet.Proofs.Trimming
import Stylesheet.Proofs.Visits

/-!
# Terms, media queries and selectors as texts

What stands inside of a line is printed without a look at the layout or the level: printing it is
nothing but returning a text (`Print.Returns`). In a typed tree this holds for all terms and media
queries. A selector can fail, and only for two reasons: the combinator of a compound or the test of
an attribute condition is not one of the vocabulary (`Value.offence?`). `Print.Finds act p os` says
that printing meets the values `os` in this order: the first one among them that is an offence is
the fault, and if there is none, a text is returned.

The texts are subject to any condition that holds of texts on one line and of texts put together
from such as satisfy it, provided that the typing asks it of what is written as it is
(`Typing.Spells`).
-/

namespace Stylesheet

/-! ## Texts on one line -/

namespace Text

/-- A text without a line feed. -/
def IsOneLine (s : String) : Prop := '\n' ∉ s.toList

instance (s : String) : Decidable (IsOneLine s) := inferInstanceAs (Decidable (_ ∉ _))

variable {s t : String}

theorem IsOneLine.append (hs : IsOneLine s) (ht : IsOneLine t) : IsOneLine (s ++ t) := by
  rw [IsOneLine, String.toList_append, List.mem_append]
  exact not_or.2 ⟨hs, ht⟩

theorem IsSolid.isOneLine (h : IsSolid s) : IsOneLine s :=
  fun hmem => Bool.noConfusion ((h '\n' hmem).symm.trans (by decide : isBlank '\n' = true))

theorem IsOneLine.trim (h : IsOneLine s) : IsOneLine (trim s) := by
  rw [IsOneLine, toList_trim, trimChars, List.mem_reverse]
  intro hmem
  have hdrop := (List.dropWhile_sublist _).subset hmem
  exact h ((List.dropWhile_sublist _).subset (List.mem_reverse.1 hdrop))

end Text

namespace Escape

open Text

theorem Identifier.not_mem_escapeChar (c : Char) : '\n' ∉ escapeChar c := by
  unfold escapeChar
  split
  case isTrue h =>
    have hsimple : '\n' ∉ simpleEscapes := by decide
    have hc : c ∈ simpleEscapes := by simpa using h
    simp only [List.mem_cons, List.not_mem_nil, or_false, not_or]
    exact ⟨by decide, fun heq => hsimple (heq ▸ hc)⟩
  case isFalse =>
    simp only [List.mem_cons, not_or]
    refine ⟨by decide, fun hmem => ?_⟩
    exact absurd (isHexDigit_of_mem_hexDigits hmem) (by decide)

theorem Identifier.not_mem_encodeChar (c : Char) : '\n' ∉ encodeChar c := by
  unfold encodeChar
  split
  case isTrue h =>
    rw [List.mem_singleton]
    rintro rfl
    exact absurd h (by decide)
  case isFalse => exact not_mem_escapeChar c

/-- An identifier stands on one line, whatever it is for. -/
theorem isOneLine_identifier (s : String) : IsOneLine (Identifier.escape s) := by
  rw [IsOneLine, Identifier.toList_escape]
  cases s.toList with
  | nil => exact List.not_mem_nil
  | cons c cs =>
    rw [Identifier.encode, List.mem_append, not_or]
    constructor
    · split
      · exact Identifier.not_mem_escapeChar c
      · exact Identifier.not_mem_encodeChar c
    · intro hmem
      obtain ⟨d, -, hd⟩ := List.mem_flatMap.1 hmem
      exact Identifier.not_mem_encodeChar d hd

theorem Quoted.not_mem_encodeChar (c : Char) : '\n' ∉ encodeChar c := by
  obtain ⟨e, he, hc⟩ | ⟨hne, hc⟩ := encodeChar_cases c
  · have hescapes : ∀ p ∈ escapes, '\n' ∉ p.2.toList := by decide
    rw [hc]
    exact hescapes _ he
  · rw [hc, List.mem_singleton]
    exact fun heq => hne ('\n', "\\a ") (by decide) heq.symm

/-- An escaped string stands on one line, whatever it is for. -/
theorem isOneLine_quoted (s : String) : IsOneLine (Quoted.escape s) := by
  rw [IsOneLine, Quoted.toList_escape]
  intro hmem
  obtain ⟨c, -, hc⟩ := List.mem_flatMap.1 hmem
  exact Quoted.not_mem_encodeChar c hc

end Escape

/-! ## Actions that return a text -/

namespace Print

variable {α β : Type} {p : α → Prop} {q : β → Prop}

/-- An action that does nothing but return something with a given property. -/
def Returns (act : Print α) (p : α → Prop) : Prop := ∃ a, p a ∧ act = pure a

theorem Returns.pure {a : α} (h : p a) : (Pure.pure a : Print α).Returns p := ⟨a, h, rfl⟩

theorem Returns.bind {act : Print α} {f : α → Print β} (h : act.Returns p)
    (hf : ∀ a, p a → (f a).Returns q) : (act >>= f).Returns q := by
  obtain ⟨a, ha, rfl⟩ := h
  rw [pure_bind]
  exact hf a ha

theorem Returns.mapM {as : List α} {f : α → Print β} (h : ∀ a ∈ as, (f a).Returns q) :
    (as.mapM f).Returns fun bs => ∀ b ∈ bs, q b := by
  induction as with
  | nil => exact Returns.pure nofun
  | cons a as ih =>
    obtain ⟨ha, has⟩ := List.forall_mem_cons.1 h
    rw [List.mapM_cons]
    refine Returns.bind ha fun b hb => Returns.bind (ih has) fun bs hbs => ?_
    exact Returns.pure (List.forall_mem_cons.2 ⟨hb, hbs⟩)

theorem Returns.yields {act : Print α} (h : act.Returns p) (layout : Layout) :
    Yields layout act p := by
  obtain ⟨a, ha, rfl⟩ := h
  exact Yields.pure ha

end Print

/-- A condition on texts that a typing guarantees for whatever is printed inside of a line. -/
structure Typing.Spells (T : Typing) (P : String → Prop) : Prop where
  verbatim {s : String} : T.verbatim s → P s
  oneLine {s : String} : Text.IsOneLine s → P s
  append {s t : String} : P s → P t → P (s ++ t)

/-- The condition on texts that all texts satisfy. -/
abbrev AnyText : String → Prop := fun _ => True

theorem Typing.spells_anyText : Typing.anyText.Spells AnyText :=
  ⟨fun _ => trivial, fun _ => trivial, fun _ _ => trivial⟩

/-- The items of a list are printed one after another. -/
theorem Value.each_parts_list (vs : List Value) (f : Part → Print String) :
    (Value.list vs).parts.each f = vs.mapM fun v => f v.part := by
  have hparts : (Value.list vs).parts = .ok (vs.map Value.part) := Value.parts_eq_map _
  rw [hparts, Parts.each_ok, List.mapM_map]
  rfl

namespace Typing.Spells

open Print

variable {T : Typing} {P : String → Prop} (hP : T.Spells P)

include hP

theorem join {ts : List String} (h : ∀ t ∈ ts, P t) : P (String.join ts) := by
  induction ts with
  | nil => exact hP.oneLine (by decide)
  | cons t ts ih =>
    obtain ⟨ht, hts⟩ := List.forall_mem_cons.1 h
    rw [String.join_cons]
    exact hP.append ht (ih hts)

theorem intercalate {b : String} (hb : P b) {ts : List String} (h : ∀ t ∈ ts, P t) :
    P (b.intercalate ts) := by
  induction ts with
  | nil => exact hP.oneLine (by decide : Text.IsOneLine "")
  | cons t ts ih =>
    obtain ⟨ht, hts⟩ := List.forall_mem_cons.1 h
    cases ts with
    | nil => simpa using ht
    | cons u us =>
      rw [String.intercalate_cons_cons]
      exact hP.append (hP.append ht hb) (ih hts)

/-! ## Names, amounts and operators -/

theorem identifier {v : Value} (h : v.IsSomeText) : (Print.identifier v).Returns P := by
  obtain ⟨s, hs, -⟩ := h
  rw [Print.identifier_of_text? hs]
  exact Returns.pure (hP.oneLine (Escape.isOneLine_identifier s))

theorem quoted {v : Value} (h : v.IsSomeText) : (Print.quoted v).Returns P := by
  obtain ⟨s, hs, -⟩ := h
  rw [Print.quoted, hs]
  refine Returns.pure (hP.oneLine ?_)
  exact Text.IsOneLine.append (.append (by decide) (Escape.isOneLine_quoted s)) (by decide)

theorem numeral {v : Value} (h : v.IsAmount T) : P v.numeral := by
  rcases h with ⟨b, rfl⟩ | ⟨n, rfl⟩ | ⟨x, rfl⟩ | ⟨⟨s, hs, -⟩, hd⟩
  · exact hP.oneLine (by cases b <;> decide)
  · exact hP.oneLine (Numeral.isSolid_ofInt n).isOneLine
  · exact hP.oneLine (Numeral.isSolid_quantity x).isOneLine
  · obtain ⟨a, rfl, ha⟩ := Value.exists_atom_of_text? hs
    cases a <;> first | exact hP.verbatim hd | cases ha

theorem orEmpty {v : Value} (h : v.IsOptional (Value.IsVerbatim T)) : P v.orEmpty := by
  rw [Value.orEmpty]
  split
  case isTrue => exact hP.oneLine (by decide)
  case isFalse hne =>
    rcases h with rfl | h
    · exact absurd rfl hne
    · exact hP.verbatim h.2

end Typing.Spells

/-! ## Terms -/

/-- A term that is printed as a text with the property `P`, as is its operator. -/
structure Value.IsTermText (P : String → Prop) (v : Value) : Prop where
  text? : v.text? = none
  render : v.render.Returns P
  operator : ∃ o, v.operator? = some o ∧ P o.orEmpty

namespace Typing.Spells

open Print

variable {T : Typing} {P : String → Prop} (hP : T.Spells P)

include hP

theorem separated {vs : List Value} (h : ∀ v ∈ vs, v.render.Returns P) {separator : String}
    (hs : Text.IsOneLine separator) : ((Value.list vs).parts.separated separator).Returns P := by
  rw [Parts.separated, Value.texts_parts_list]
  exact Returns.bind (Returns.mapM h) fun _ hts =>
    Returns.pure (hP.intercalate (hP.oneLine hs) hts)

theorem rgb {red green blue : Print String} (hr : red.Returns P) (hg : green.Returns P)
    (hb : blue.Returns P) : (Render.rgb red green blue).Returns P := by
  refine Returns.bind hr fun r hr => Returns.bind hg fun g hg => Returns.bind hb fun b hb => ?_
  have hts : ∀ t ∈ [r, g, b], P t := by simp [hr, hg, hb]
  have hchannels : P (", ".intercalate [r, g, b]) := hP.intercalate (hP.oneLine (by decide)) hts
  exact Returns.pure (hP.append (hP.append (hP.oneLine (by decide)) hchannels)
    (hP.oneLine (by decide)))

theorem param {v : Value} (h : v.IsVerbatim T ∨ v.IsTermText P) :
    (Render.param v.part).Returns P := by
  rcases h with ⟨⟨s, hs, hv⟩, -⟩ | ⟨hnone, ht, o, ho, hop⟩
  · rw [Render.param, show v.part.value.text? = some s from hs]
    exact Returns.pure (hP.verbatim hv)
  · rw [Render.param, show v.part.value.text? = none from hnone,
      show v.part.value.operator? = some o from ho]
    show Returns (if o.isVacant then _ else _) P
    split
    case isTrue => exact ht
    case isFalse hvacant =>
      rw [Value.orEmpty, if_neg hvacant] at hop
      exact Returns.bind ht fun t ht =>
        Returns.pure (hP.append (hP.append hop (hP.oneLine (by decide))) ht)

theorem call {name : Value} {vs : List Value} (hn : name.IsSomeText)
    (h : ∀ v ∈ vs, v.IsVerbatim T ∨ v.IsTermText P) :
    (Render.call name (Value.list vs).parts).Returns P := by
  rw [Render.call, Value.each_parts_list]
  refine Returns.bind (Returns.mapM fun v hv => hP.param (h v hv)) fun ps hps => ?_
  refine Returns.bind (hP.identifier hn) fun n hn => Returns.pure ?_
  exact hP.append (hP.append (hP.append hn (hP.oneLine (by decide))) (hP.join hps))
    (hP.oneLine (by decide))

theorem operand {v : Value} (h : v.IsTermText P) : (Render.operand v.part).Returns P := by
  obtain ⟨-, ht, o, ho, hop⟩ := h
  rw [Render.operand, show v.part.value.operator? = some o from ho]
  refine Returns.bind ht fun t ht => Returns.pure (hP.append (hP.append ?_ ?_) ht)
  · split
    · exact hP.oneLine (by decide)
    · exact hop
  · exact hP.oneLine (by decide)

theorem isTermText {n : Node Value} (hn : T.Types n) (hk : n.kind ∈ Kind.terms)
    (h : n.render.Returns P) : (Value.node n).IsTermText P := by
  obtain ⟨o, ho, hopt⟩ := hn.exists_operator hk
  exact ⟨rfl, by rwa [Value.render], o, ho, hP.orEmpty hopt⟩

/-- A term is a text if the terms right below it are. -/
theorem term_of_below {n : Node Value} (hn : T.Types n)
    (h : ∀ m, .node m ∈ n.below → m.kind ∈ Kind.terms → (Value.node m).IsTermText P)
    (hk : n.kind ∈ Kind.terms) : n.render.Returns P := by
  have hterm : ∀ v ∈ n.below, v.IsOf Kind.terms → v.IsTermText P := by
    rintro _ hmem ⟨m, rfl, hm⟩
    exact h m hmem hm
  cases n with
  | ident value operator => exact hP.identifier hn.1
  | hash value operator =>
    exact Returns.pure (hP.append (hP.oneLine (by decide)) (hP.verbatim hn.1.2))
  | uri value operator =>
    refine Returns.bind (hP.quoted hn.1) fun s hs => Returns.pure ?_
    exact hP.append (hP.append (hP.oneLine (by decide)) hs) (hP.oneLine (by decide))
  | string value operator => exact hP.quoted hn.1
  | number value dimension sign operator =>
    refine Returns.pure (hP.append (hP.append (hP.oneLine ?_) (hP.numeral hn.1)) ?_)
    · split <;> decide
    · exact hP.orEmpty hn.2.1
  | resolution amount unit operator =>
    exact Returns.pure (hP.append (hP.numeral hn.1) (hP.verbatim hn.2.1.2))
  | rgb red green blue operator =>
    obtain ⟨hr, hg, hb, -⟩ := hn
    exact hP.rgb (hterm _ (hr.mem_below (by simp [Node.fields, Node.entries])) hr).render
      (hterm _ (hg.mem_below (by simp [Node.fields, Node.entries])) hg).render
      (hterm _ (hb.mem_below (by simp [Node.fields, Node.entries])) hb).render
  | function name params operator =>
    obtain ⟨hname, ⟨vs, rfl, hvs⟩, -⟩ := hn
    refine hP.call hname fun v hv => (hvs v hv).imp_right fun hof => ?_
    exact hterm v (Node.mem_below_of_list (by simp [Node.fields, Node.entries]) hv) hof
  | simple form => cases form <;> simp [Node.kind, SimpleForm.kind, Kind.terms] at hk
  | _ => simp [Node.kind, Kind.terms] at hk

/-- A typed term is a text, by induction over the tree. -/
theorem term {v : Value} (h : v.IsTyped T) (hv : v.IsOf Kind.terms) : v.IsTermText P := by
  obtain ⟨n, rfl, hn⟩ := hv
  have step (n : Node Value) (hn : T.Types n)
      (ih : ∀ m, .node m ∈ n.below → m.kind ∈ Kind.terms → (Value.node m).IsTermText P)
      (hk : n.kind ∈ Kind.terms) : (Value.node n).IsTermText P :=
    hP.isTermText hn hk (hP.term_of_below hn ih hk)
  exact Value.Everywhere.induction step h n List.mem_cons_self hn

/-! ## Media queries -/

theorem mediaExpression {v : Value} (h : v.IsTyped T) (hv : v.IsOf Kind.mediaExpressions) :
    v.render.Returns P := by
  obtain ⟨n, rfl, hn⟩ := hv
  have htypes := h.types
  rw [Value.render]
  cases n with
  | mediaType name => exact hP.identifier htypes
  | mediaFeature property value =>
    obtain ⟨hp, hvalue⟩ := htypes
    have hfeature : (Render.featureValue value value.render).Returns P := by
      rw [Render.featureValue]
      rcases hvalue with ⟨⟨s, hs, -⟩, hd⟩ | hof
      · rw [hs]
        exact Returns.pure (hP.verbatim hd)
      · have hterm := hP.term (h.of_mem_below
          (hof.mem_below (by simp [Node.fields, Node.entries]))) hof
        rw [hterm.text?]
        exact hterm.render
    refine Returns.bind hfeature fun v hv => Returns.bind (hP.identifier hp) fun p hp => ?_
    have hstart : P ("(" ++ p ++ ":") :=
      hP.append (hP.append (hP.oneLine (by decide)) hp) (hP.oneLine (by decide))
    exact Returns.pure (hP.append (hP.append hstart hv) (hP.oneLine (by decide)))
  | simple form => cases form <;> simp [Node.kind, SimpleForm.kind, Kind.mediaExpressions] at hn
  | _ => simp [Node.kind, Kind.mediaExpressions] at hn

theorem mediaQuery {v : Value} (h : v.IsTyped T) (hv : v.IsOf [.mediaQuery]) :
    v.render.Returns P := by
  obtain ⟨get, owned, hget⟩ := hv.exists_eq_assemble
  obtain ⟨expression, _, modifier, rfl⟩ : ∃ e c m, v = .node (.mediaQuery e c m) := ⟨_, _, _, hget⟩
  obtain ⟨he, ⟨vs, rfl, hvs⟩, hm⟩ := h.types
  have hexpression := hP.mediaExpression
    (h.of_mem_below (he.mem_below (by simp [Node.fields, Node.entries]))) he
  have hconjuncts : ∀ v ∈ vs, v.render.Returns P := fun v hv =>
    hP.mediaExpression (h.of_mem_list (by simp [Node.fields, Node.entries]) hv) (hvs v hv)
  have hbefore : P (if modifier.isVacant then "" else modifier.display ++ " ") := by
    split
    case isTrue => exact hP.oneLine (by decide)
    case isFalse hne =>
      rcases hm with rfl | hm
      · exact absurd rfl hne
      · exact hP.append (hP.verbatim hm.2) (hP.oneLine (by decide))
  rw [Value.render, Node.render]
  refine Returns.bind hexpression fun e he => ?_
  split
  case isTrue => exact Returns.pure (hP.append hbefore he)
  case isFalse =>
    refine Returns.bind (hP.separated hconjuncts (by decide)) fun cs hcs => Returns.pure ?_
    exact hP.append (hP.append (hP.append hbefore he) (hP.oneLine (by decide))) hcs

theorem mediaQueryList {v : Value} (h : v.IsTyped T) (hv : v.IsOf [.mediaQueryList]) :
    v.render.Returns P := by
  obtain ⟨get, owned, hget⟩ := hv.exists_eq_assemble
  obtain ⟨_, rfl⟩ : ∃ qs, v = .node (.mediaQueryList qs) := ⟨_, hget⟩
  obtain ⟨vs, rfl, hvs⟩ := h.types
  have hqueries : ∀ v ∈ vs, v.render.Returns P := fun v hv =>
    hP.mediaQuery (h.of_mem_list (by simp [Node.fields, Node.entries]) hv) (hvs v hv)
  rw [Value.render, Node.render]
  exact hP.separated hqueries (by decide)

end Typing.Spells

/-! ## Offences -/

namespace Value

/-- The fault that a compound with an unknown combinator or a condition with an unknown test is. -/
def offence? (v : Value) : Option Fault :=
  match v with
  | .node (.simple _ _ combinator _) =>
    if combinator.isAbsent || (combinator.text?.bind Combinator.ofText?).isSome then none
    else some (.unknownCombinator combinator v)
  | .node (.attributeSelector _ test _) =>
    if (test.text?.bind AttributeTest.ofText?).isSome then none else some (.unknownTest test v)
  | _ => none

/-- The items of a field. -/
def elementsAt (f : Field) (v : Value) : List Value := ((v.field? f).map elements).getD []

/-- A compound and its qualifiers, in the order of print. -/
def compoundParts (v : Value) : List Value := v :: v.elementsAt .qualifiers

/-- The compounds of a selector with their qualifiers, in the order of print. -/
def selectorParts (v : Value) : List Value := (v.elementsAt .simples).flatMap compoundParts

end Value

namespace Print

variable {α β : Type} {p : α → Prop} {q : β → Prop}

/-- An action that throws the first offence among some values, and returns something with a given
property if there is none. -/
def Finds (act : Print α) (p : α → Prop) (os : List Value) : Prop :=
  match os.findSome? Value.offence? with
  | some e => act = throw e
  | none => act.Returns p

variable {os os' : List Value}

theorem Returns.finds {act : Print α} (h : act.Returns p)
    (hos : os.findSome? Value.offence? = none) : act.Finds p os := by
  rw [Finds, hos]
  exact h

theorem Finds.returns {act : Print α} (h : act.Finds p os)
    (hos : os.findSome? Value.offence? = none) : act.Returns p := by
  rw [Finds, hos] at h
  exact h

/-- The second action runs where there is no offence in the first. -/
theorem Finds.bind {act : Print α} {f : α → Print β} (h : act.Finds p os)
    (hf : ∀ a, p a → (f a).Finds q os') : (act >>= f).Finds q (os ++ os') := by
  unfold Finds at h ⊢
  rw [List.findSome?_append]
  cases hos : os.findSome? Value.offence? with
  | some e =>
    rw [hos] at h
    rw [h]
    rfl
  | none =>
    rw [hos] at h
    obtain ⟨a, ha, rfl⟩ := h
    rw [pure_bind]
    exact hf a ha

theorem Finds.mapM {as : List α} {f : α → Print β} {parts : α → List Value}
    (h : ∀ a ∈ as, (f a).Finds q (parts a)) :
    (as.mapM f).Finds (fun bs => ∀ b ∈ bs, q b) (as.flatMap parts) := by
  induction as with
  | nil => exact Returns.finds (Returns.pure nofun) rfl
  | cons a as ih =>
    obtain ⟨ha, has⟩ := List.forall_mem_cons.1 h
    rw [List.mapM_cons, List.flatMap_cons]
    refine Finds.bind ha fun b hb => ?_
    rw [← List.append_nil (as.flatMap parts)]
    refine Finds.bind (ih has) fun bs hbs => Returns.finds (Returns.pure ?_) rfl
    exact List.forall_mem_cons.2 ⟨hb, hbs⟩

/-- What follows an action and fails no more. -/
theorem Finds.andThen {act : Print α} {f : α → Print β} (h : act.Finds p os)
    (hf : ∀ a, p a → (f a).Returns q) : (act >>= f).Finds q os := by
  rw [← List.append_nil os]
  exact Finds.bind h fun a ha => (hf a ha).finds rfl

end Print

/-! ## Selectors -/

namespace Typing.Spells

open Print

variable {T : Typing} {P : String → Prop} (hP : T.Spells P)

include hP

theorem marked {mark : String} (hm : Text.IsOneLine mark) {name : Value} (h : name.IsSomeText) :
    Returns (do
      let n ← Print.identifier name
      return mark ++ n) P :=
  Returns.bind (hP.identifier h) fun _ hn => Returns.pure (hP.append (hP.oneLine hm) hn)

theorem pseudoClass {name argument : Value} (hn : name.IsSomeText)
    (ha : argument.IsOptional Value.IsSomeText) : (Render.pseudoClass name argument).Returns P := by
  refine Returns.bind (hP.identifier hn) fun n hn => ?_
  have hmarked : P (":" ++ n) := hP.append (hP.oneLine (by decide)) hn
  split
  case isTrue => exact Returns.pure hmarked
  case isFalse hne =>
    rcases ha with rfl | ha
    · exact absurd rfl hne
    refine Returns.bind (hP.identifier ha) fun a ha => Returns.pure ?_
    exact hP.append (hP.append (hP.append hmarked (hP.oneLine (by decide))) ha)
      (hP.oneLine (by decide))

theorem comparand {value : Value} (h : value.IsOptional Value.IsSomeText) :
    (Render.comparand value).Returns P := by
  rw [Render.comparand]
  split
  case isTrue => exact Returns.pure (hP.oneLine (by decide))
  case isFalse hne =>
    rcases h with rfl | ⟨s, hs, -⟩
    · exact absurd rfl hne
    · rw [hs]
      exact Returns.pure (hP.oneLine (Escape.isOneLine_quoted s))

/-- A condition on an attribute fails if its test is unknown. -/
theorem attributeSelector {name test value : Value} (hn : name.IsSomeText) (ht : test.IsSomeText)
    (hv : value.IsOptional Value.IsSomeText) :
    let condition : Value := .node (.attributeSelector name test value)
    (Render.attributeSelector condition name test value).Finds P [condition] := by
  intro condition
  obtain ⟨s, hs, -⟩ := ht
  have hkey : test.isKey = true := by
    obtain ⟨a, rfl, -⟩ := Value.exists_atom_of_text? hs
    rfl
  rw [Render.attributeSelector, ← List.nil_append [condition], hs, hkey]
  refine Finds.bind ((hP.identifier hn).finds rfl) fun n hn => ?_
  have hopen : P ("[" ++ n) := hP.append (hP.oneLine (by decide)) hn
  rw [Finds, List.findSome?_singleton, Value.offence?]
  simp only [condition, hs, Option.bind_some]
  cases hk : AttributeTest.ofText? s with
  | none =>
    have hset : ¬some s = some AttributeTest.set.text := by
      rintro ⟨⟩
      rw [AttributeTest.ofText?_text] at hk
      cases hk
    simp [hset]
  | some k =>
    have hsk : s = k.text := by
      have := List.find?_some hk
      exact (by simpa using this : k.text = s).symm
    subst hsk
    simp only [Option.isSome_some, ↓reduceIte, Option.bind_some]
    split
    case isTrue => exact Returns.pure (hP.append hopen (hP.oneLine (by decide)))
    case isFalse hne =>
      cases hsymbol : k.symbol? with
      | none => cases k <;> first | exact absurd rfl hne | cases hsymbol
      | some symbol =>
        have hline : Text.IsOneLine symbol := by cases k <;> cases hsymbol <;> decide
        refine Returns.bind (hP.comparand hv) fun v hv => Returns.pure ?_
        have hstart : P ("[" ++ n ++ symbol ++ "\"") :=
          hP.append (hP.append hopen (hP.oneLine hline)) (hP.oneLine (by decide))
        exact hP.append (hP.append hstart hv) (hP.oneLine (by decide))

theorem qualifier {v : Value} (h : v.IsTyped T) (hv : v.IsOf Kind.qualifiers) :
    v.render.Finds P [v] := by
  obtain ⟨n, rfl, hn⟩ := hv
  have htypes := h.types
  rw [Value.render]
  cases n with
  | idSelector name => exact (hP.marked (by decide) htypes).finds rfl
  | classSelector name => exact (hP.marked (by decide) htypes).finds rfl
  | pseudoClass name argument => exact (hP.pseudoClass htypes.1 htypes.2).finds rfl
  | pseudoElement name legacy =>
    exact (hP.marked (by split <;> decide) htypes.1).finds rfl
  | attributeSelector name test value =>
    obtain ⟨hname, ⟨s, hs, -⟩, hvalue⟩ := htypes
    exact hP.attributeSelector hname ⟨s, hs, trivial⟩ hvalue
  | simple form => cases form <;> simp [Node.kind, SimpleForm.kind, Kind.qualifiers] at hn
  | _ => simp [Node.kind, Kind.qualifiers] at hn

/-- A combinator is a fault of the compound that it belongs to. -/
theorem combinator {form : SimpleForm} {name c qualifiers : Value}
    (h : c.IsOptional Value.IsSomeText) :
    let compound : Value := .node (.simple form name c qualifiers)
    (Render.combinator compound c).Finds P [compound] := by
  intro compound
  rw [Render.combinator, Finds, List.findSome?_singleton, Value.offence?]
  simp only [compound]
  rcases h with rfl | ⟨s, hs, -⟩
  · exact Returns.pure (hP.oneLine (by decide))
  · obtain ⟨a, rfl, -⟩ := Value.exists_atom_of_text? hs
    have hkey : (Value.atom a).isKey = true := rfl
    simp only [Value.isAbsent_of_text? hs, hkey, hs, Option.bind_some]
    cases hk : Combinator.ofText? s with
    | none => rfl
    | some k => exact Returns.pure (hP.oneLine (by cases k <;> decide))

theorem elementName {name : Value} (h : name.IsOptional Value.IsSomeText) :
    (Render.elementName name).Returns P := by
  rw [Render.elementName]
  split
  case isTrue => exact Returns.pure (hP.oneLine (by decide))
  case isFalse hne =>
    rcases h with rfl | h
    · exact absurd (.inl rfl) hne
    · exact hP.identifier h

/-- The combinator of a compound is looked at before its qualifiers. -/
theorem compound {v : Value} (h : v.IsTyped T) (hv : v.IsOf Kind.compounds) :
    v.render.Finds P v.compoundParts := by
  obtain ⟨n, rfl, hn⟩ := hv
  cases n with
  | simple form name c qualifiers =>
    obtain ⟨hname, hc, vs, rfl, hvs⟩ := h.types
    have hparts : (Value.node (.simple form name c (.list vs))).compoundParts =
        [.node (.simple form name c (.list vs))] ++ ([] ++ vs.flatMap fun q => [q]) := by
      rw [List.nil_append, List.flatMap_singleton']
      cases form <;> rfl
    have hcombinator : c.IsOptional Value.IsSomeText :=
      hc.imp_right fun ⟨s, hs, _⟩ => ⟨s, hs, trivial⟩
    have hqualifiers : ∀ q ∈ vs, q.render.Finds P [q] := fun q hq =>
      hP.qualifier (h.of_mem_list (by simp [Node.fields, Node.entries]) hq) (hvs q hq)
    rw [hparts, Value.render, Node.render, Render.simple, Parts.joined, Value.texts_parts_list]
    refine Finds.bind (hP.combinator hcombinator) fun s hs => ?_
    refine Finds.bind ((hP.elementName hname).finds rfl) fun n hn => ?_
    have hjoined : ((vs.mapM Value.render) >>= fun ts => Pure.pure (String.join ts)).Finds P
        (vs.flatMap fun q => [q]) :=
      Finds.andThen (Finds.mapM hqualifiers) fun ts hts => Returns.pure (hP.join hts)
    exact Finds.andThen hjoined fun qs hqs => Returns.pure (hP.append (hP.append hs hn) hqs)
  | _ => simp [Node.kind, Kind.compounds] at hn

/-- A selector is a text, unless there is an offence in it. -/
theorem selector {v : Value} (h : v.IsTyped T) (hv : v.IsOf [.selector]) :
    v.render.Finds P v.selectorParts := by
  obtain ⟨get, owned, hget⟩ := hv.exists_eq_assemble
  obtain ⟨_, rfl⟩ : ∃ simples, v = .node (.selector simples) := ⟨_, hget⟩
  obtain ⟨vs, rfl, hvs⟩ := h.types
  have hcompounds : ∀ v ∈ vs, v.render.Finds P v.compoundParts := fun v hv =>
    hP.compound (h.of_mem_list (by simp [Node.fields, Node.entries]) hv) (hvs v hv)
  rw [Value.render, Node.render, Parts.joined, Value.texts_parts_list]
  exact Finds.andThen (Finds.mapM hcompounds) fun ts hts => Returns.pure (hP.join hts)

/-- Selectors with commas between them are a text, unless there is an offence in one of them. -/
theorem selectors {vs : List Value} (h : ∀ v ∈ vs, v.IsOf [.selector] ∧ v.IsTyped T) :
    ((Value.list vs).parts.separated ", ").Finds P (vs.flatMap Value.selectorParts) := by
  have hselectors : ∀ v ∈ vs, v.render.Finds P v.selectorParts := fun v hv =>
    hP.selector (h v hv).2 (h v hv).1
  rw [Parts.separated, Value.texts_parts_list]
  exact Finds.andThen (Finds.mapM hselectors) fun ts hts =>
    Returns.pure (hP.intercalate (hP.oneLine (by decide)) hts)

end Typing.Spells

end Stylesheet
