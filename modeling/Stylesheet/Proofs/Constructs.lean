import Stylesheet.Proofs.Comparison
import Stylesheet.Proofs.Everywhere

/-!
# Constructs in two runs

Every construct prints texts that count as equal if its parts do. Terms, selectors and media only
put texts together, which any comparison allows; declarations, rule sets, font descriptions,
at-rules and documents also make lines (`Comparison.Lays`), and a document starts anew
(`Comparison.Resets`). `Comparison.sound_part` takes this from constructs to trees: a tree without
documents needs the first two only.
-/

namespace Stylesheet

/-- Whether nodes of a kind make lines: whether their text depends on the layout and the level, or
notes are taken for them. -/
def Kind.makesLines : Kind → Bool
  | document | ruleSet | declaration | fontFace | importRule | namespaceRule | documentQuery => true
  | _ => false

namespace Comparison

variable {ι : Type} {C : Comparison ι}

theorem texts_after {t u : String} (a : String) (h : C.Texts t u) : C.Texts (a ++ t) (a ++ u) :=
  C.append (C.refl a) h

theorem texts_before {t u : String} (h : C.Texts t u) (b : String) : C.Texts (t ++ b) (u ++ b) :=
  C.append h (C.refl b)

/-! ## Texts and items -/

theorem prints_pure (t : String) : C.Prints (pure t) := Rel.pure (C.refl t)

theorem prints_throw (e : Fault) : C.Prints (throw e) := Rel.throw _ e

theorem prints_identifier (v : Value) : C.Prints (Print.identifier v) := by
  unfold Print.identifier
  split
  · exact prints_pure _
  · exact prints_throw _

theorem prints_quoted (v : Value) : C.Prints (Print.quoted v) := by
  unfold Print.quoted
  split
  · exact prints_pure _
  · exact prints_throw _

theorem rel_each {ps : Parts} {f g : Part → Print String} {R : String → String → Prop}
    (h : ∀ qs, ps = .ok qs → ∀ q ∈ qs, C.Rel R (f q) (g q)) :
    C.Rel (List.Forall₂ R) (ps.each f) (ps.each g) := by
  cases ps with
  | error e => exact Rel.throw _ e
  | ok qs => exact Rel.mapM (h qs rfl)

theorem rel_texts {ps : Parts} (h : ps.Sound C.Prints) :
    C.Rel (List.Forall₂ C.Texts) ps.texts ps.texts :=
  rel_each fun qs hqs q hq => (h qs hqs q hq).text

theorem prints_separated {ps : Parts} (h : ps.Sound C.Prints) (separator : String) :
    C.Prints (ps.separated separator) :=
  Rel.bind (rel_texts h) fun _ _ hts => Rel.pure (Texts.intercalate (C.refl _) hts)

theorem prints_joined {ps : Parts} (h : ps.Sound C.Prints) : C.Prints ps.joined :=
  Rel.bind (rel_texts h) fun _ _ hts => Rel.pure (Texts.join hts)

/-! ## Terms -/

theorem prints_uri (v : Value) : C.Prints (Render.uri v) :=
  Rel.bind (prints_quoted v) fun _ _ h => Rel.pure (texts_before (texts_after _ h) _)

theorem prints_rgb {red green blue : Print String} (hr : C.Prints red) (hg : C.Prints green)
    (hb : C.Prints blue) : C.Prints (Render.rgb red green blue) := by
  refine Rel.bind hr fun _ _ hr => Rel.bind hg fun _ _ hg => Rel.bind hb fun _ _ hb => ?_
  refine Rel.pure (texts_before (texts_after _ (Texts.intercalate (C.refl _) ?_)) _)
  exact .cons hr (.cons hg (.cons hb .nil))

theorem prints_param {q : Part} (h : C.Prints q.text) : C.Prints (Render.param q) := by
  unfold Render.param
  split
  · exact prints_pure _
  · split
    · exact prints_throw _
    · split
      · exact h
      · exact Rel.bind h fun _ _ h => Rel.pure (texts_after _ h)

theorem prints_call (name : Value) {params : Parts} (h : params.Sound C.Prints) :
    C.Prints (Render.call name params) := by
  refine Rel.bind (rel_each fun qs hqs q hq => prints_param (h qs hqs q hq).text) fun _ _ hps => ?_
  refine Rel.bind (prints_identifier name) fun _ _ hn => Rel.pure ?_
  exact texts_before (C.append (texts_before hn _) (Texts.join hps)) _

theorem prints_operand {q : Part} (h : C.Prints q.text) : C.Prints (Render.operand q) := by
  unfold Render.operand
  split
  · exact prints_throw _
  · exact Rel.bind h fun _ _ h => Rel.pure (texts_after _ h)

/-! ## Selectors -/

theorem prints_combinator (selector c : Value) : C.Prints (Render.combinator selector c) := by
  unfold Render.combinator
  split
  · exact prints_pure _
  · split
    · split
      · exact prints_pure _
      · exact prints_throw _
    · exact prints_throw _

theorem prints_elementName (name : Value) : C.Prints (Render.elementName name) := by
  unfold Render.elementName
  split
  · exact prints_pure _
  · exact prints_identifier name

theorem prints_simple (selector name combinator : Value) {qualifiers : Parts}
    (h : qualifiers.Sound C.Prints) :
    C.Prints (Render.simple selector name combinator qualifiers) := by
  refine Rel.bind (prints_combinator selector combinator) fun _ _ hc => ?_
  refine Rel.bind (prints_elementName name) fun _ _ hn => ?_
  exact Rel.bind (prints_joined h) fun _ _ hq => Rel.pure (C.append (C.append hc hn) hq)

theorem prints_idSelector (name : Value) : C.Prints (Render.idSelector name) :=
  Rel.bind (prints_identifier name) fun _ _ h => Rel.pure (texts_after _ h)

theorem prints_classSelector (name : Value) : C.Prints (Render.classSelector name) :=
  Rel.bind (prints_identifier name) fun _ _ h => Rel.pure (texts_after _ h)

theorem prints_pseudoClass (name argument : Value) :
    C.Prints (Render.pseudoClass name argument) := by
  refine Rel.bind (prints_identifier name) fun _ _ hn => ?_
  split
  · exact Rel.pure (texts_after _ hn)
  · refine Rel.bind (prints_identifier argument) fun _ _ ha => Rel.pure ?_
    exact texts_before (C.append (texts_before (texts_after _ hn) _) ha) _

theorem prints_pseudoElement (name legacy : Value) :
    C.Prints (Render.pseudoElement name legacy) :=
  Rel.bind (prints_identifier name) fun _ _ h => Rel.pure (texts_after _ h)

theorem prints_comparand (v : Value) : C.Prints (Render.comparand v) := by
  unfold Render.comparand
  split
  · exact prints_pure _
  · split
    · exact prints_pure _
    · exact prints_throw _

theorem prints_attributeSelector (condition name test value : Value) :
    C.Prints (Render.attributeSelector condition name test value) := by
  refine Rel.bind (prints_identifier name) fun _ _ hn => ?_
  split
  · exact Rel.pure (texts_before (texts_after _ hn) _)
  · split
    · split
      · refine Rel.bind (prints_comparand value) fun _ _ hv => Rel.pure ?_
        exact texts_before (C.append (texts_before (texts_before (texts_after _ hn) _) _) hv) _
      · exact prints_throw _
    · exact prints_throw _

theorem prints_conditional {base condition : Print String} (hb : C.Prints base)
    (hc : C.Prints condition) : C.Prints (Render.conditional base condition) :=
  Rel.bind hb fun _ _ hb => Rel.bind hc fun _ _ hc => Rel.pure (C.append hb hc)

/-! ## Media -/

theorem prints_mediaFeature (property value : Value) {text : Print String} (h : C.Prints text) :
    C.Prints (Render.mediaFeature property value text) := by
  have hv : C.Prints (Render.featureValue value text) := by
    unfold Render.featureValue
    split
    · exact prints_pure _
    · exact h
  refine Rel.bind hv fun _ _ hv => Rel.bind (prints_identifier property) fun _ _ hp => Rel.pure ?_
  exact texts_before (C.append (texts_before (texts_after _ hp) _) hv) _

theorem prints_mediaQuery {expression : Print String} (modifier conjuncts : Value)
    {conjunctParts : Parts} (he : C.Prints expression) (hc : conjunctParts.Sound C.Prints) :
    C.Prints (Render.mediaQuery expression modifier conjuncts conjunctParts) := by
  refine Rel.bind he fun _ _ he => ?_
  split
  · exact Rel.pure (texts_after _ he)
  · refine Rel.bind (prints_separated hc _) fun _ _ hc => Rel.pure ?_
    exact C.append (texts_before (texts_after _ he) _) hc

theorem prints_charset (name : Value) : C.Prints (Render.charset name) :=
  Rel.bind (prints_quoted name) fun _ _ h => Rel.pure (texts_before (texts_after _ h) _)

theorem prints_importMedia (media : Value) (mediaParts : Parts) :
    C.Prints (Render.importMedia media mediaParts) := by
  have hm (q : Part) : C.Prints (Render.mediumName q) := by
    unfold Render.mediumName
    split
    · exact prints_identifier _
    · exact prints_throw _
  unfold Render.importMedia
  split
  · exact prints_pure _
  · refine Rel.bind (rel_each fun qs _ q _ => hm q) fun _ _ h => Rel.pure ?_
    exact texts_after _ (Texts.intercalate (C.refl _) h)

/-! ## At-rules -/

theorem prints_importRule (hC : C.Lays) {target : Print String} (h : C.Prints target)
    (media : Value) (mediaParts : Parts) :
    C.Prints (Render.importRule target media mediaParts) := by
  refine Rel.bind (prints_importMedia media mediaParts) fun _ _ hm => ?_
  refine Rel.bind hC.indentation fun _ _ hi => Rel.bind h fun _ _ ht => Rel.pure ?_
  exact texts_before (C.append (C.append (texts_before hi _) ht) hm) _

theorem prints_namespaceRule (hC : C.Lays) {target shorthandText : Print String}
    (ht : C.Prints target) (shorthand : Value) (hs : C.Prints shorthandText) :
    C.Prints (Render.namespaceRule target shorthand shorthandText) := by
  refine Rel.bind hC.indentation fun _ _ hi => ?_
  split
  · exact Rel.bind ht fun _ _ ht => Rel.pure (C.append (texts_before hi _) ht)
  · refine Rel.bind hs fun _ _ hs => Rel.bind ht fun _ _ ht => Rel.pure ?_
    exact C.append (texts_before (C.append (texts_before hi _) hs) _) ht

theorem prints_documentQuery (hC : C.Lays) {functions : Parts} (h : functions.Sound C.Prints) :
    C.Prints (Render.documentQuery functions) := by
  refine Rel.bind (hC.note _) fun _ _ _ => Rel.bind (prints_separated h _) fun _ _ hf => ?_
  refine Rel.bind hC.indentation fun _ _ hi => Rel.pure ?_
  exact texts_before (C.append (texts_before hi _) hf) _

/-! ## Rule sets -/

theorem prints_lineStart (hC : C.Lays) (owned : Bool) : C.Prints (Render.lineStart owned) := by
  unfold Render.lineStart
  split
  · exact hC.indentation
  · exact prints_pure _

theorem prints_declarationValue (hC : C.Lays) {expressions : Parts}
    (h : expressions.Sound C.Prints) : C.Prints (Render.declarationValue expressions) := by
  refine Rel.bind (rel_each fun qs hqs q hq => prints_operand (h qs hqs q hq).text) fun _ _ h => ?_
  exact Rel.pure (hC.trim (Texts.join h))

theorem prints_declaration (hC : C.Lays) (property : Value) {expressions : Parts}
    (h : expressions.Sound C.Prints) (important : Value) (owned : Bool) :
    C.Prints (Render.declaration property expressions important owned) := by
  have inner : C.Rel (fun x y : String × String => C.Texts x.1 y.1 ∧ C.Texts x.2 y.2)
      (do let indent ← Render.lineStart owned
          let value ← Render.declarationValue expressions
          pure (indent, value))
      (do let indent ← Render.lineStart owned
          let value ← Render.declarationValue expressions
          pure (indent, value)) :=
    Rel.bind (prints_lineStart hC owned) fun _ _ hi =>
      Rel.bind (prints_declarationValue hC h) fun _ _ hv => Rel.pure ⟨hi, hv⟩
  refine Rel.bind (hC.indented inner) fun _ _ ⟨hi, hv⟩ => ?_
  refine Rel.bind (prints_identifier property) fun _ _ hp => Rel.pure ?_
  exact texts_before (texts_before (C.append (texts_before (C.append hi hp) _) hv) _) _

theorem prints_ruleSet (hC : C.Lays) (selectors : Value) {selectorParts declarations : Parts}
    (hs : selectorParts.Sound C.Prints) (hd : declarations.Sound C.Prints) :
    C.Prints (Render.ruleSet selectors selectorParts declarations) := by
  unfold Render.ruleSet
  split
  · exact prints_pure _
  · exact Rel.bind (prints_separated hs _) fun _ _ hs =>
      Rel.bind (rel_texts hd) fun _ _ hd => hC.block hs hd

theorem prints_fontFace (hC : C.Lays) {declarations : Parts} (h : declarations.Sound C.Prints) :
    C.Prints (Render.fontFace declarations) := by
  have inner : C.Rel (List.Forall₂ C.Texts)
      (do let inner ← Print.indentation
          declarations.each fun q => do
            let t ← q.text
            pure (inner ++ t ++ ";"))
      (do let inner ← Print.indentation
          declarations.each fun q => do
            let t ← q.text
            pure (inner ++ t ++ ";")) :=
    Rel.bind hC.indentation fun _ _ hi => rel_each fun qs hqs q hq =>
      Rel.bind (h qs hqs q hq).text fun _ _ ht => Rel.pure (texts_before (C.append hi ht) _)
  refine Rel.bind (hC.indented inner) fun _ _ hd => Rel.bind hC.lineBreak fun _ _ hb => ?_
  refine Rel.bind hC.indentation fun _ _ hi => Rel.pure ?_
  exact texts_before (C.append (C.append (C.append (texts_after _ hb) (Texts.intercalate hb hd)) hb)
    hi) _

/-! ## Documents -/

theorem rel_closeGroup (hC : C.Lays) (identity : Value) :
    C.loose.Rel (List.Forall₂ C.Texts) (Render.closeGroup identity)
      (Render.closeGroup identity) := by
  unfold Render.closeGroup
  split
  · exact Rel.pure .nil
  · refine Rel.bind (rel_shift (-1)) fun _ _ _ => Rel.bind hC.indentation.loose fun _ _ hi => ?_
    exact Rel.pure (.cons (texts_before hi _) .nil)

theorem rel_openGroup (hC : C.Lays) {g : Group} (h : C.Prints g.heading) :
    C.loose.Rel (List.Forall₂ C.Texts) (Render.openGroup g) (Render.openGroup g) := by
  unfold Render.openGroup
  split
  · exact Rel.pure .nil
  · refine Rel.bind h.loose fun _ _ hh => Rel.bind hC.indentation.loose fun _ _ hi => ?_
    refine Rel.bind (rel_shift 1) fun _ _ _ => Rel.pure (.cons ?_ .nil)
    exact texts_before (C.append (texts_before hi _) hh) _

/-- The fragments of rule sets, group by group: at the levels inside, nothing is known but how the
two compare. -/
theorem rel_groups (hC : C.Lays) {ps : List Part} (h : ∀ q ∈ ps, q.Sound C.Prints)
    (current : Value) :
    C.loose.Rel (List.Forall₂ C.Texts) (Render.groups current ps) (Render.groups current ps) := by
  induction ps generalizing current with
  | nil => exact rel_closeGroup hC current
  | cons q ps ih =>
    have hq := h q List.mem_cons_self
    have ih := ih fun r hr => h r (List.mem_cons_of_mem q hr)
    rw [Render.groups]
    refine Rel.bind (Rel.lift q.group) ?_
    rintro g _ ⟨rfl, hg⟩
    split
    · exact Rel.bind hq.text.loose fun _ _ ht =>
        Rel.bind (ih current) fun _ _ hr => Rel.pure (.cons ht hr)
    · refine Rel.bind (rel_closeGroup hC current) fun _ _ hc => ?_
      refine Rel.bind (rel_openGroup hC (hq.heading g hg)) fun _ _ ho => ?_
      refine Rel.bind hq.text.loose fun _ _ ht => Rel.bind (ih g.identity) fun _ _ hr => ?_
      exact Rel.pure (List.rel_append (List.rel_append hc ho) (.cons ht hr))

theorem rel_ruleSets (hC : C.Lays) {rules : Parts} (h : rules.Sound C.Prints) :
    C.Rel (List.Forall₂ C.Texts) (Render.ruleSets rules) (Render.ruleSets rules) := by
  refine hC.keepingLevel (Rel.bind (Rel.lift rules) ?_)
  rintro ps _ ⟨rfl, hps⟩
  exact rel_groups hC (h ps hps) .absent

theorem rel_checkSequences (ps : List Parts) :
    C.Rel Eq (Render.checkSequences ps) (Render.checkSequences ps) := by
  induction ps with
  | nil => exact Rel.pure rfl
  | cons p ps ih =>
    refine Rel.bind (R := Eq) (Rel.bind (Rel.lift p) fun _ _ _ => Rel.pure rfl) fun _ _ _ => ?_
    exact ih

theorem rel_fragments (hC : C.Lays) {charsets imports fontFaces rules : Parts}
    (hc : charsets.Sound C.Prints) (hi : imports.Sound C.Prints) (hf : fontFaces.Sound C.Prints)
    (hr : rules.Sound C.Prints) :
    C.Rel (List.Forall₂ C.Texts) (Render.fragments charsets imports fontFaces rules)
      (Render.fragments charsets imports fontFaces rules) := by
  refine Rel.bind (rel_checkSequences _) fun _ _ _ => ?_
  refine Rel.bind (rel_texts hc) fun _ _ hc => Rel.bind (rel_texts hi) fun _ _ hi => ?_
  refine Rel.bind (rel_texts hf) fun _ _ hf => Rel.bind (rel_ruleSets hC hr) fun _ _ hr => ?_
  exact Rel.pure (List.rel_append (List.rel_append (List.rel_append hc hi) hf) hr)

theorem prints_document (hC : C.Lays) (hR : C.Resets) {charsets imports fontFaces rules : Parts}
    (hc : charsets.Sound C.Prints) (hi : imports.Sound C.Prints) (hf : fontFaces.Sound C.Prints)
    (hr : rules.Sound C.Prints) : C.Prints (Render.document charsets imports fontFaces rules) :=
  Rel.bind hR fun _ _ _ => Rel.bind (rel_fragments hC hc hi hf hr) fun _ _ h => hC.lines h

/-! ## Trees -/

/-- Every node prints texts that count as equal if its fields and their items do, where the
comparison allows for what nodes of its kind do. -/
theorem prints_node {n : Node Value} (hC : n.kind.makesLines = true → C.Lays)
    (hR : n.kind = .document → C.Resets)
    (h : ∀ v ∈ n.fields, C.Prints v.render ∧ v.parts.Sound C.Prints) : C.Prints n.render := by
  cases n <;>
    simp only [Node.fields, Node.entries, List.map_cons, List.map_nil, List.forall_mem_cons,
      List.not_mem_nil, false_implies, implies_true, and_true] at h <;>
    rw [Node.render]
  case document => exact prints_document (hC rfl) (hR rfl) h.1.2 h.2.1.2 h.2.2.1.2 h.2.2.2.2
  case ruleSet => exact prints_ruleSet (hC rfl) _ h.1.2 h.2.1.2
  case declaration => exact prints_declaration (hC rfl) _ h.2.1.2 _ _
  case fontFace => exact prints_fontFace (hC rfl) h.2
  case mediaType => exact prints_identifier _
  case mediaFeature => exact prints_mediaFeature _ _ h.2.1
  case mediaQuery => exact prints_mediaQuery _ _ h.1.1 h.2.1.2
  case mediaQueryList => exact prints_separated h.2 _
  case charset => exact prints_charset _
  case importRule => exact prints_importRule (hC rfl) h.1.1 _ _
  case namespaceRule => exact prints_namespaceRule (hC rfl) h.1.1 _ h.2.1
  case documentQuery => exact prints_documentQuery (hC rfl) h.2
  case ident => exact prints_identifier _
  case hash => exact prints_pure _
  case uri => exact prints_uri _
  case string => exact prints_quoted _
  case number => exact prints_pure _
  case resolution => exact prints_pure _
  case rgb => exact prints_rgb h.1.1 h.2.1.1 h.2.2.1.1
  case function => exact prints_call _ h.2.1.2
  case idSelector => exact prints_idSelector _
  case classSelector => exact prints_classSelector _
  case pseudoClass => exact prints_pseudoClass _ _
  case pseudoElement => exact prints_pseudoElement _ _
  case attributeSelector => exact prints_attributeSelector _ _ _ _
  case simple => exact prints_simple _ _ _ h.2.2.2
  case selector => exact prints_joined h.2
  case nodeSelector => exact prints_pure _
  case elementSelector => exact prints_identifier _
  case conditionalSelector => exact prints_conditional h.1.1 h.2.1

/-- Every tree prints texts that count as equal, where the comparison allows for what its nodes
do. -/
theorem sound_part {v : Value} (h : v.Everywhere fun n =>
    (n.kind.makesLines = true → C.Lays) ∧ (n.kind = .document → C.Resets)) :
    v.part.Sound C.Prints ∧ v.parts.Sound C.Prints :=
  h.sound prints_pure prints_throw fun _ hn hf => prints_node hn.1 hn.2 hf

/-- Printing a value in the place of a document, where the fields of a document hold what they
do. -/
theorem prints_printDocument (hC : C.Lays) (hR : C.Resets) {v : Value}
    (h : ∀ f w, v.field? f = some w → w.parts.Sound C.Prints) : C.Prints v.printDocument := by
  have hp (f : Field) : (v.partsAt f).Sound C.Prints := by
    unfold Value.partsAt
    split
    · rename_i w hw; exact h f w hw
    · exact nofun
  exact prints_document hC hR (hp _) (hp _) (hp _) (hp _)

end Comparison

end Stylesheet
