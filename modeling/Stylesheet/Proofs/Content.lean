import Stylesheet.Proofs.Brackets
import Stylesheet.Proofs.Outcome
import Stylesheet.Proofs.Typing

/-!
# Terms, selectors and media queries have no braces

Names and strings are escaped, so they may hold anything; what is written as it is has to be free of
special characters (`Typing.contained`). Then terms, selectors and media queries can be printed, and
each of their texts leaves no bracket open and shows no brace (`IsContent`). This is one lemma for
each construct, and an induction over trees that puts them together (`Value.IsTyped.yields`).
-/

namespace Stylesheet

open Print

/-- The typing of trees whose texts are either escaped or free of special characters. -/
def Typing.contained : Typing where
  verbatim := IsInert
  combinator s := ∃ c : Combinator, c.text = s
  test s := ∃ t : AttributeTest, t.text = s

/-- A text without braces that leaves no bracket open. -/
abbrev IsContent (t : String) : Prop := Contained t []

namespace Value

/-- The text of what may be left out is free of special characters. -/
theorem IsOptional.isInert_orEmpty {v : Value} (h : v.IsOptional (IsVerbatim .contained)) :
    IsInert v.orEmpty := by
  rw [orEmpty]
  split
  · decide
  · rcases h with rfl | h
    · contradiction
    · exact h.2

theorem IsAmount.isInert_numeral {v : Value} (h : v.IsAmount .contained) : IsInert v.numeral := by
  rcases h with ⟨b, rfl⟩ | ⟨n, rfl⟩ | ⟨x, rfl⟩ | h
  · cases b <;> decide
  · exact Numeral.isInert_ofInt n
  · exact Numeral.isInert_quantity x
  · obtain ⟨⟨s, hs, -⟩, hd⟩ := h
    obtain ⟨a, rfl, ha⟩ := exists_atom_of_text? hs
    cases a <;> first | exact hd | cases ha

end Value

/-! ## Texts and sequences -/

section

variable {layout : Layout} {v : Value}

theorem yields_identifier (h : v.IsSomeText) : Yields layout (Print.identifier v) IsContent := by
  obtain ⟨s, hs, -⟩ := h
  rw [Print.identifier_of_text? hs]
  exact Yields.pure (Escape.contained_identifier s)

theorem yields_quoted (h : v.IsSomeText) : Yields layout (Print.quoted v) IsContent := by
  obtain ⟨s, hs, -⟩ := h
  rw [Print.quoted, hs]
  exact Yields.pure (Escape.contained_quoted s)

variable {vs : List Value} {f : Part → Print String} {p : String → Prop}

theorem yields_each (h : ∀ v ∈ vs, Yields layout (f v.part) p) :
    Yields layout ((Value.list vs).parts.each f) fun ts => ∀ t ∈ ts, p t := by
  have hparts : (Value.list vs).parts = .ok (vs.map Value.part) := Value.parts_eq_map _
  rw [hparts, Parts.each_ok]
  exact Yields.mapM (List.forall_mem_map.2 h)

theorem yields_texts (h : ∀ v ∈ vs, Yields layout v.render p) :
    Yields layout (Value.list vs).parts.texts fun ts => ∀ t ∈ ts, p t := yields_each h

theorem yields_separated {separator : String} (hs : IsInert separator)
    (h : ∀ v ∈ vs, Yields layout v.render IsContent) :
    Yields layout ((Value.list vs).parts.separated separator) IsContent :=
  Yields.bind (yields_texts h) fun _ hts => Yields.pure (contained_intercalate hs.contained hts)

theorem yields_joined (h : ∀ v ∈ vs, Yields layout v.render IsContent) :
    Yields layout (Value.list vs).parts.joined IsContent :=
  Yields.bind (yields_texts h) fun _ hts => Yields.pure (contained_join hts)

end

/-! ## Terms -/

theorem IsContent.append {t u : String} (ht : IsContent t) (hu : IsContent u) :
    IsContent (t ++ u) := Reads.append ht hu

/-- A text between two texts that open a bracket and close it. -/
theorem IsContent.between {l t r : String} {c : Char} (hl : Reads [] l [c] [])
    (ht : IsContent t) (hr : Reads [c] r [] []) : IsContent (l ++ t ++ r) :=
  (hl.append (ht.inside [c])).append hr

section

variable {layout : Layout} {n : Node Value}

/-- A term can be printed, with what is known about its operator. -/
def YieldsTerm (layout : Layout) (v : Value) : Prop :=
  v.text? = none ∧ Yields layout v.render IsContent ∧
    ∃ o, v.operator? = some o ∧ o.IsOptional (Value.IsVerbatim .contained)

theorem yields_uri {v : Value} (h : v.IsSomeText) : Yields layout (Render.uri v) IsContent :=
  Yields.bind (yields_quoted h) fun _ hs =>
    Yields.pure (IsContent.between (c := '(') (by decide) hs (by decide))

theorem yields_number {value dimension sign : Value} (hv : value.IsAmount .contained)
    (hd : dimension.IsOptional (Value.IsVerbatim .contained)) :
    Yields layout (Render.number value dimension sign) IsContent := by
  refine Yields.pure (IsInert.contained ?_)
  refine IsInert.append (IsInert.append ?_ hv.isInert_numeral) hd.isInert_orEmpty
  split <;> decide

theorem yields_rgb {r g b : Print String} (hr : Yields layout r IsContent)
    (hg : Yields layout g IsContent) (hb : Yields layout b IsContent) :
    Yields layout (Render.rgb r g b) IsContent := by
  refine Yields.bind hr fun r hr => Yields.bind hg fun g hg => Yields.bind hb fun b hb => ?_
  have hts : ∀ t ∈ [r, g, b], IsContent t := by simp [hr, hg, hb]
  exact Yields.pure (IsContent.between (c := '(') (by decide)
    (contained_intercalate (by decide) hts) (by decide))

theorem yields_param {v : Value} (h : v.IsVerbatim .contained ∨ YieldsTerm layout v) :
    Yields layout (Render.param v.part) IsContent := by
  rcases h with ⟨⟨s, hs, hi⟩, -⟩ | ⟨hnone, ht, o, ho, hop⟩
  · rw [Render.param, show v.part.value.text? = some s from hs]
    exact Yields.pure (IsInert.contained hi)
  · rw [Render.param, show v.part.value.text? = none from hnone,
      show v.part.value.operator? = some o from ho]
    show Yields layout (if o.isVacant then _ else _) IsContent
    split
    case isTrue => exact ht
    case isFalse hvacant =>
      refine Yields.bind ht fun t ht => Yields.pure ?_
      have hi := hop.isInert_orEmpty
      rw [Value.orEmpty, if_neg hvacant] at hi
      exact IsContent.append (hi.append (by decide)).contained ht

theorem yields_call {name : Value} {vs : List Value} (hn : name.IsSomeText)
    (h : ∀ v ∈ vs, v.IsVerbatim .contained ∨ YieldsTerm layout v) :
    Yields layout (Render.call name (Value.list vs).parts) IsContent := by
  refine Yields.bind (yields_each fun v hv => yields_param (h v hv)) fun ps hps => ?_
  refine Yields.bind (yields_identifier hn) fun n hn => Yields.pure ?_
  refine IsContent.between (c := '(') ?_ (contained_join hps) (by decide)
  exact Reads.append hn (by decide : Reads [] "(" ['('] [])

theorem yields_operand {v : Value} (h : YieldsTerm layout v) :
    Yields layout (Render.operand v.part) IsContent := by
  obtain ⟨-, ht, o, ho, hop⟩ := h
  rw [Render.operand, show v.part.value.operator? = some o from ho]
  refine Yields.bind ht fun t ht => Yields.pure (IsContent.append ?_ ht)
  refine (IsInert.append ?_ (by decide)).contained
  split
  · decide
  · exact hop.isInert_orEmpty

end

/-! ## Selectors -/

section

variable {layout : Layout}

theorem yields_combinator {selector c : Value}
    (h : c.IsOptional (Value.IsText Typing.contained.combinator)) :
    Yields layout (Render.combinator selector c) IsContent := by
  rcases h with rfl | ⟨s, hs, k, rfl⟩
  · exact Yields.pure (by decide)
  · obtain ⟨a, rfl, -⟩ := Value.exists_atom_of_text? hs
    have hkey : (Value.atom a).isKey = true := rfl
    rw [Render.combinator, Value.isAbsent_of_text? hs, hkey, hs]
    simp only [Bool.false_eq_true, ↓reduceIte, Option.bind_some, Combinator.ofText?_text]
    exact Yields.pure (by cases k <;> decide)

theorem yields_elementName {name : Value} (h : name.IsOptional Value.IsSomeText) :
    Yields layout (Render.elementName name) IsContent := by
  rw [Render.elementName]
  split
  case isTrue => exact Yields.pure (by decide)
  case isFalse hne =>
    rcases h with rfl | h
    · exact absurd (.inl rfl) hne
    · exact yields_identifier h

theorem yields_simple {selector name c : Value} {vs : List Value}
    (hn : name.IsOptional Value.IsSomeText)
    (hc : c.IsOptional (Value.IsText Typing.contained.combinator))
    (h : ∀ v ∈ vs, Yields layout v.render IsContent) :
    Yields layout (Render.simple selector name c (Value.list vs).parts) IsContent := by
  refine Yields.bind (yields_combinator hc) fun c hc => ?_
  refine Yields.bind (yields_elementName hn) fun n hn => ?_
  exact Yields.bind (yields_joined h) fun qs hqs => Yields.pure ((hc.append hn).append hqs)

/-- A mark before a name. -/
theorem yields_marked {mark : String} (hm : IsInert mark) {name : Value} (h : name.IsSomeText) :
    Yields layout (do
      let n ← Print.identifier name
      return mark ++ n) IsContent :=
  Yields.bind (yields_identifier h) fun _ hn => Yields.pure (hm.contained.append hn)

theorem yields_pseudoClass {name argument : Value} (hn : name.IsSomeText)
    (ha : argument.IsOptional Value.IsSomeText) :
    Yields layout (Render.pseudoClass name argument) IsContent := by
  refine Yields.bind (yields_identifier hn) fun n hn => ?_
  have hmarked : IsContent (":" ++ n) := IsContent.append (by decide) hn
  split
  case isTrue => exact Yields.pure hmarked
  case isFalse hne =>
    rcases ha with rfl | ha
    · exact absurd rfl hne
    refine Yields.bind (yields_identifier ha) fun a ha => Yields.pure ?_
    exact IsContent.between (c := '(') (Reads.append hmarked (by decide : Reads [] "(" ['('] [])) ha
      (by decide)

theorem yields_pseudoElement {name legacy : Value} (hn : name.IsSomeText) :
    Yields layout (Render.pseudoElement name legacy) IsContent :=
  yields_marked (by split <;> decide) hn

theorem yields_comparand {value : Value} (h : value.IsOptional Value.IsSomeText) :
    Yields layout (Render.comparand value) fun t => ∃ s, t = Escape.Quoted.escape s := by
  rw [Render.comparand]
  split
  case isTrue => exact Yields.pure ⟨"", rfl⟩
  case isFalse hne =>
    rcases h with rfl | ⟨s, hs, -⟩
    · exact absurd rfl hne
    · rw [hs]
      exact Yields.pure ⟨s, rfl⟩

theorem yields_attributeSelector {condition name test value : Value} (hn : name.IsSomeText)
    (ht : test.IsText Typing.contained.test) (hv : value.IsOptional Value.IsSomeText) :
    Yields layout (Render.attributeSelector condition name test value) IsContent := by
  obtain ⟨_, hs, k, rfl⟩ := ht
  have hkey : test.isKey = true := by
    obtain ⟨a, rfl, -⟩ := Value.exists_atom_of_text? hs
    rfl
  refine Yields.bind (yields_identifier hn) fun n hn => ?_
  have hopen : Reads [] ("[" ++ n) ['['] [] :=
    Reads.append (by decide : Reads [] "[" ['['] []) (hn.inside ['['])
  rw [hs, hkey]
  simp only [Option.bind_some, AttributeTest.ofText?_text]
  split
  case isTrue => exact Yields.pure (Reads.append hopen (by decide : Reads ['['] "]" [] []))
  case isFalse hne =>
    cases hsymbol : k.symbol? with
    | none =>
      cases k <;> first | exact absurd rfl hne | cases hsymbol
    | some symbol =>
      have hinert : IsInert symbol := by
        cases k <;> cases hsymbol <;> decide
      refine Yields.bind (yields_comparand hv) fun _ ⟨s, hs⟩ => Yields.pure ?_
      have hparts : AttributeTest.comparison symbol n (Escape.Quoted.escape s) =
          "[" ++ n ++ (symbol ++ ("\"" ++ Escape.Quoted.escape s ++ "\"")) ++ "]" := by
        rw [AttributeTest.comparison, show "\"]" = "\"" ++ "]" from rfl]
        simp only [String.append_assoc]
      have hquoted : IsContent (symbol ++ ("\"" ++ Escape.Quoted.escape s ++ "\"")) :=
        hinert.contained.append (Escape.contained_quoted s)
      rw [hs, hparts]
      exact (hopen.append (hquoted.inside ['['])).append (by decide : Reads ['['] "]" [] [])

end

/-! ## Media queries -/

section

variable {layout : Layout}

theorem yields_mediaFeature {property value : Value} (hp : property.IsSomeText)
    (hv : value.IsVerbatim .contained ∨ YieldsTerm layout value) :
    Yields layout (Render.mediaFeature property value value.render) IsContent := by
  have hvalue : Yields layout (Render.featureValue value value.render) IsContent := by
    rw [Render.featureValue]
    rcases hv with ⟨⟨s, hs, -⟩, hd⟩ | ⟨hnone, ht, -⟩
    · rw [hs]
      exact Yields.pure (IsInert.contained hd)
    · rw [hnone]
      exact ht
  refine Yields.bind hvalue fun v hv => Yields.bind (yields_identifier hp) fun p hp => ?_
  have hopen : Reads [] ("(" ++ p) ['('] [] :=
    Reads.append (by decide : Reads [] "(" ['('] []) (hp.inside ['('])
  have hcolon : Reads [] ("(" ++ p ++ ":") ['('] [] :=
    hopen.append (by decide : Reads ['('] ":" ['('] [])
  exact Yields.pure (IsContent.between hcolon hv (by decide))

theorem yields_mediaQuery {e : Print String} {modifier : Value} {vs : List Value}
    (he : Yields layout e IsContent) (hm : modifier.IsOptional (Value.IsVerbatim .contained))
    (h : ∀ v ∈ vs, Yields layout v.render IsContent) :
    Yields layout (Render.mediaQuery e modifier (.list vs) (Value.list vs).parts) IsContent := by
  have hbefore : IsInert (if modifier.isVacant then "" else modifier.display ++ " ") := by
    split
    case isTrue => decide
    case isFalse hne =>
      rcases hm with rfl | hm
      · exact absurd rfl hne
      · exact hm.2.append (by decide)
  refine Yields.bind he fun e he => ?_
  have hstart := IsContent.append hbefore.contained he
  split
  case isTrue => exact Yields.pure hstart
  case isFalse =>
    refine Yields.bind (yields_separated (by decide) h) fun cs hcs => Yields.pure ?_
    exact (hstart.append (by decide : IsContent " and ")).append hcs

end

/-! ## Trees -/

/-- The kinds of nodes that stand inside of lines: terms, selectors and media queries. -/
def Kind.inline : List Kind :=
  Kind.terms ++ Kind.mediaExpressions ++ [.mediaQuery, .mediaQueryList] ++ Kind.qualifiers ++
    Kind.compounds ++ [.selector]

/-- What is known right below a node when it is printed. -/
structure YieldsBelow (layout : Layout) (n : Node Value) : Prop where
  types (m : Node Value) : .node m ∈ n.below → Typing.contained.Types m
  yields (m : Node Value) : .node m ∈ n.below → m.kind ∈ Kind.inline →
    Yields layout m.render IsContent

namespace YieldsBelow

variable {layout : Layout} {n : Node Value} {kinds : List Kind} {v : Value} {vs : List Value}

theorem of_mem (h : YieldsBelow layout n) (hk : ∀ k ∈ kinds, k ∈ Kind.inline) (hv : v ∈ n.below)
    (ho : v.IsOf kinds) : Yields layout v.render IsContent := by
  obtain ⟨m, rfl, hm⟩ := ho
  exact h.yields m hv (hk _ hm)

/-- A field that holds a node. -/
theorem field (h : YieldsBelow layout n) (hk : ∀ k ∈ kinds, k ∈ Kind.inline) (ho : v.IsOf kinds)
    (hv : v ∈ n.fields) : Yields layout v.render IsContent :=
  h.of_mem hk (ho.mem_below hv) ho

/-- A field that holds a list of nodes. -/
theorem list (h : YieldsBelow layout n) (hk : ∀ k ∈ kinds, k ∈ Kind.inline)
    (ho : ∀ v ∈ vs, v.IsOf kinds) (hvs : .list vs ∈ n.fields) :
    ∀ v ∈ vs, Yields layout v.render IsContent :=
  fun v hv => h.of_mem hk (Node.mem_below_of_list hvs hv) (ho v hv)

theorem term (h : YieldsBelow layout n) (hv : v ∈ n.below) (ho : v.IsOf Kind.terms) :
    YieldsTerm layout v := by
  have hyields := h.of_mem (by decide) hv ho
  obtain ⟨m, rfl, hm⟩ := ho
  exact ⟨rfl, hyields, (h.types m hv).exists_operator hm⟩

/-- A field that holds a list of terms. -/
theorem terms (h : YieldsBelow layout n) (ho : ∀ v ∈ vs, v.IsOf Kind.terms)
    (hvs : .list vs ∈ n.fields) : ∀ v ∈ vs, YieldsTerm layout v :=
  fun v hv => h.term (Node.mem_below_of_list hvs hv) (ho v hv)

end YieldsBelow

/-- Terms, selectors and media queries can be printed and have no braces. -/
theorem yields_node {layout : Layout} {n : Node Value} (hn : Typing.contained.Types n)
    (h : YieldsBelow layout n) (hk : n.kind ∈ Kind.inline) : Yields layout n.render IsContent := by
  cases n with
  | ident value operator => exact yields_identifier hn.1
  | hash value operator =>
    exact Yields.pure (IsContent.append (by decide) (IsInert.contained hn.1.2))
  | uri value operator => exact yields_uri hn.1
  | string value operator => exact yields_quoted hn.1
  | number value dimension sign operator => exact yields_number hn.1 hn.2.1
  | resolution amount unit operator =>
    exact Yields.pure (hn.1.isInert_numeral.append hn.2.1.2).contained
  | rgb red green blue operator =>
    obtain ⟨hr, hg, hb, -⟩ := hn
    exact yields_rgb (h.field (by decide) hr (by simp [Node.fields, Node.entries]))
      (h.field (by decide) hg (by simp [Node.fields, Node.entries]))
      (h.field (by decide) hb (by simp [Node.fields, Node.entries]))
  | function name params operator =>
    obtain ⟨hname, ⟨vs, rfl, hvs⟩, -⟩ := hn
    have hparams : Value.list vs ∈ (Node.function name (.list vs) operator).fields := by
      simp [Node.fields, Node.entries]
    refine yields_call hname fun v hv => (hvs v hv).imp_right fun ho => ?_
    exact h.term (Node.mem_below_of_list hparams hv) ho
  | mediaType name => exact yields_identifier hn
  | mediaFeature property value =>
    refine yields_mediaFeature hn.1 (hn.2.imp_right fun ho => ?_)
    exact h.term (ho.mem_below (by simp [Node.fields, Node.entries])) ho
  | mediaQuery expression conjuncts modifier =>
    obtain ⟨he, ⟨vs, rfl, hvs⟩, hm⟩ := hn
    exact yields_mediaQuery (h.field (by decide) he (by simp [Node.fields, Node.entries])) hm
      (h.list (by decide) hvs (by simp [Node.fields, Node.entries]))
  | mediaQueryList queries =>
    obtain ⟨vs, rfl, hvs⟩ := hn
    exact yields_separated (by decide)
      (h.list (by decide) hvs (by simp [Node.fields, Node.entries]))
  | idSelector name => exact yields_marked (by decide) hn
  | classSelector name => exact yields_marked (by decide) hn
  | pseudoClass name argument => exact yields_pseudoClass hn.1 hn.2
  | pseudoElement name legacy => exact yields_pseudoElement hn.1
  | attributeSelector name test value => exact yields_attributeSelector hn.1 hn.2.1 hn.2.2
  | simple form name combinator qualifiers =>
    obtain ⟨hname, hc, vs, rfl, hvs⟩ := hn
    exact yields_simple hname hc (h.list (by decide) hvs (by simp [Node.fields, Node.entries]))
  | selector simples =>
    obtain ⟨vs, rfl, hvs⟩ := hn
    exact yields_joined (h.list (by decide) hvs (by simp [Node.fields, Node.entries]))
  | _ => simp [Node.kind, Kind.inline, Kind.terms, Kind.mediaExpressions, Kind.qualifiers,
      Kind.compounds] at hk

namespace Value.IsTyped

variable {layout : Layout} {v : Value} {n : Node Value}

/-- Below a typed node all nodes of lines can be printed, by induction over the tree. -/
theorem yieldsBelow (h : (Value.node n).IsTyped .contained) : YieldsBelow layout n := by
  have step (n : Node Value) (hn : Typing.contained.Types n)
      (ih : ∀ m, .node m ∈ n.below → Typing.contained.Types m ∧ YieldsBelow layout m) :
      Typing.contained.Types n ∧ YieldsBelow layout n :=
    ⟨hn, fun m hm => (ih m hm).1, fun m hm hk => yields_node (ih m hm).1 (ih m hm).2 hk⟩
  exact (Value.Everywhere.induction step h n List.mem_cons_self).2

/-- A typed term, selector or media query can be printed and has no braces. -/
theorem yields (h : v.IsTyped .contained) (hk : v.IsOf Kind.inline) :
    Yields layout v.render IsContent := by
  obtain ⟨n, rfl, hk⟩ := hk
  exact yields_node h.types h.yieldsBelow hk

theorem yields_charset (h : v.IsTyped .contained)
    (hv : v.IsOf [.charset]) : Yields layout v.render IsContent := by
  obtain ⟨get, owned, rfl⟩ := hv.exists_eq_assemble
  refine Yields.bind (yields_quoted h.types) fun n hn => Yields.pure ?_
  exact (IsContent.append (by decide) hn).append (by decide : IsContent ";")

end Value.IsTyped

end Stylesheet
