import Stylesheet.Proofs.Woven

/-!
# What the text of a node is made of

The text of a node is woven from the texts of what is printed for it (`Node.printed`), in their
order and each of them once. There is a rule for each construct, which leaves open what its parts
are; `weaves_node` and `weaves_document` put the rules together. Own texts are fixed words,
identifiers, and what the fields of the node hold; the value of a declaration is also trimmed. Of a
document condition, which writes words of its own, the inside is woven (`ensures_documentQuery`).
-/

namespace Stylesheet

namespace Print

variable {layout : Layout} {vs ws : List Value}

/-- The text of an action is woven from the texts of some values. -/
abbrev Weaves (layout : Layout) (vs : List Value) (act : Print String) (ws : List Value) : Prop :=
  Ensures layout act (Woven layout vs ws)

theorem Ensures.mapM {f : Value → Print String} (h : ∀ w ∈ ws, Weaves layout vs (f w) [w]) :
    Ensures layout (ws.mapM f) (Fragments layout vs ws) := by
  induction ws with
  | nil => exact Ensures.pure .nil
  | cons w ws ih =>
    obtain ⟨hw, hws⟩ := List.forall_mem_cons.1 h
    rw [List.mapM_cons]
    refine Ensures.bind hw fun t ht => Ensures.bind (ih hws) fun ts hts => ?_
    exact Ensures.pure (Fragments.cons ht hts)

theorem weaves_indentation (vs : List Value) : Weaves layout vs indentation [] := by
  intro s i s' hs
  rw [exec_indentation] at hs
  obtain ⟨hi, -⟩ := Prod.mk.inj hs
  exact .verbatim (.indentation hi)

theorem weaves_lineBreak (vs : List Value) : Weaves layout vs lineBreak [] := by
  intro s b s' hs
  rw [exec_lineBreak] at hs
  obtain ⟨hb, -⟩ := Prod.mk.inj hs
  exact .verbatim (.lineBreak hb)

end Print

/-! ## Items -/

open Print

variable {layout : Layout} {vs us ws : List Value} {v w : Value} {t : String} {ts : List String}

theorem weaves_render (vs : List Value) (w : Value) : Weaves layout vs w.render [w] :=
  fun _ _ _ h => .printed h

theorem weaves_identifier (vs : List Value) (u : Value) :
    Weaves layout vs (Print.identifier u) [] := by
  unfold Print.identifier
  split
  · exact Ensures.pure (.plain (starts_identifier _))
  · exact Ensures.throw _

theorem weaves_quoted {u : Value} (hu : u ∈ writtenIn vs) : Weaves layout vs (Print.quoted u) [] := by
  unfold Print.quoted
  split
  case h_1 s hs =>
    have hescaped : Woven layout vs [] (Escape.Quoted.escape s) := .verbatim (.field hu (.quoted hs))
    exact Ensures.pure ((hescaped.after (by simp)).before (by simp))
  case h_2 => exact Ensures.throw _

/-- The items of a sequence are printed one after another. The characters of a text, which are
printed nowhere, have to be ruled out. -/
theorem ensures_each {f : Part → Print String}
    (hf : ∀ w ∈ v.elements, Weaves layout vs (f w.part) [w])
    (hatom : ∀ a : Atom, ∃ e, f (Value.atom a).part = throw e) :
    Ensures layout (v.parts.each f) (Fragments layout vs v.elements) := by
  rw [Value.parts_eq_map]
  cases hitems : v.items? with
  | none => exact Ensures.throw _
  | some ws =>
    show Ensures layout ((ws.map Value.part).mapM f) _
    rw [List.mapM_map]
    rcases Value.elements_of_items? hitems with rfl | ⟨hnil, hatoms⟩
    · exact Ensures.mapM hf
    · rw [hnil]
      cases ws with
      | nil => exact Ensures.pure .nil
      | cons c ws =>
        obtain ⟨a, rfl⟩ := hatoms c List.mem_cons_self
        obtain ⟨e, he⟩ := hatom a
        rw [List.mapM_cons]
        show Ensures layout (f (Value.atom a).part >>= _) _
        rw [he]
        exact Ensures.throw e

theorem ensures_texts (vs : List Value) (v : Value) :
    Ensures layout v.parts.texts (Fragments layout vs v.elements) :=
  ensures_each (fun w _ => weaves_render vs w) fun _ => ⟨_, rfl⟩

theorem weaves_separated (vs : List Value) (v : Value) {separator : String}
    (h : '@' ∉ separator.toList) : Weaves layout vs (v.parts.separated separator) v.elements :=
  Ensures.bind (ensures_texts vs v) fun _ hts => Ensures.pure (hts.intercalate (.of_not_mem h))

theorem weaves_joined (vs : List Value) (v : Value) : Weaves layout vs v.parts.joined v.elements :=
  Ensures.bind (ensures_texts vs v) fun _ hts => Ensures.pure hts.join

/-! ## Terms -/

theorem weaves_hash {u : Value} (hu : u ∈ writtenIn vs) : Weaves layout vs (Render.hash u) [] :=
  Ensures.pure (Woven.after (.verbatim (.field hu .display)) (by simp))

theorem weaves_uri {u : Value} (hu : u ∈ writtenIn vs) : Weaves layout vs (Render.uri u) [] :=
  Ensures.bind (weaves_quoted hu) fun _ hs =>
    Ensures.pure ((hs.after (by simp)).before (by simp))

theorem weaves_number {value dimension : Value} (sign : Value) (hv : value ∈ writtenIn vs)
    (hd : dimension ∈ writtenIn vs) : Weaves layout vs (Render.number value dimension sign) [] := by
  have hminus : Woven layout vs [] (if sign.text? = some Sign.minus.text then "-" else "") := by
    split <;> exact .of_not_mem (by simp)
  exact Ensures.pure ((hminus.behind (.verbatim (.field hv .numeral))).behind (.orEmpty hd))

theorem weaves_resolution {amount unit : Value} (ha : amount ∈ writtenIn vs) (hu : unit ∈ writtenIn vs) :
    Weaves layout vs (Render.resolution amount unit) [] :=
  Ensures.pure (.append (.verbatim (.field ha .numeral)) (.verbatim (.field hu .display)))

theorem weaves_rgb (red green blue : Value) :
    Weaves layout vs (Render.rgb red.render green.render blue.render) [red, green, blue] := by
  refine Ensures.bind (weaves_render vs red) fun r hr => ?_
  refine Ensures.bind (weaves_render vs green) fun g hg => ?_
  refine Ensures.bind (weaves_render vs blue) fun b hb => Ensures.pure ?_
  have hchannels : Fragments layout vs [red, green, blue] [r, g, b] :=
    .cons hr (.cons hg (.cons hb .nil))
  exact ((hchannels.intercalate (.of_not_mem (by simp))).after (by simp)).before (by simp)

theorem contents_of_text? {s : String} (h : w.text? = some s) : ∀ n, w.contents ≠ .node n := by
  obtain ⟨a, rfl, -⟩ := Value.exists_atom_of_text? h
  nofun

theorem contents_of_isAbsent (h : w.isAbsent = true) : ∀ n, w.contents ≠ .node n := by
  unfold Value.isAbsent at h
  split at h
  · nofun
  · cases h

theorem weaves_param (hw : w ∈ vs) : Weaves layout vs (Render.param w.part) [w] := by
  unfold Render.param
  split
  case h_1 s hs => exact Ensures.pure (.unprinted (contents_of_text? hs) (.verbatim (.text hw hs)))
  case h_2 =>
    split
    case h_1 => exact Ensures.throw _
    case h_2 operator hoperator =>
      have hop : operator ∈ writtenIn vs := mem_writtenIn hw hoperator (by decide)
      split
      · exact weaves_render vs w
      · exact Ensures.bind (weaves_render vs w) fun _ ht =>
          Ensures.pure ((Woven.before (.verbatim (.field hop .display)) (by simp)).behind ht)

/-- A text in the place of the parameters is written character by character. -/
theorem ensures_characters (cs : List Char) :
    Ensures layout ((cs.map fun c => (Value.text (String.singleton c)).part).mapM Render.param)
      fun ts => String.join ts = String.ofList cs := by
  induction cs with
  | nil => exact Ensures.pure rfl
  | cons c cs ih =>
    rw [List.map_cons, List.mapM_cons]
    refine Ensures.bind (p := (· = String.singleton c)) (Ensures.pure rfl) fun t ht => ?_
    refine Ensures.bind ih fun ts hts => Ensures.pure ?_
    rw [String.join_cons, hts, ht]
    exact String.toList_injective (by simp)

theorem weaves_call (name : Value) {params : Value} (hp : params ∈ writtenIn vs)
    (h : ∀ w ∈ params.elements, w ∈ vs) :
    Weaves layout vs (Render.call name params.parts) params.elements := by
  have hparams : Ensures layout (params.parts.each Render.param) fun ts =>
      Woven layout vs params.elements (String.join ts) := by
    rw [Value.parts_eq_map]
    cases hitems : params.items? with
    | none => exact Ensures.throw _
    | some ws =>
      show Ensures layout ((ws.map Value.part).mapM Render.param) _
      rcases Value.spelled_of_items? hitems with rfl | ⟨hnil, a, s, ha, hs, rfl⟩
      · rw [List.mapM_map]
        intro s ts s' hrun
        exact (Ensures.mapM (fun w hw => weaves_param (h w hw)) s ts s' hrun).join
      · rw [List.map_map, hnil]
        intro s₁ ts s' hrun
        rw [ensures_characters s.toList s₁ ts s' hrun, String.ofList_toList]
        exact .verbatim (.field hp (.spelled ha hs))
  refine Ensures.bind hparams fun ps hps => Ensures.bind (weaves_identifier vs name) fun n hn => ?_
  exact Ensures.pure (((hn.before (by simp)).behind hps).before (by simp))

theorem weaves_operand (hw : w ∈ vs) : Weaves layout vs (Render.operand w.part) [w] := by
  unfold Render.operand
  split
  case h_1 => exact Ensures.throw _
  case h_2 operator hoperator =>
    have hseparator : Woven layout vs [] (Render.separator operator) := by
      refine Woven.before ?_ (by simp)
      split
      · exact .of_not_mem (by simp)
      · exact .orEmpty (mem_writtenIn hw hoperator (by decide))
    exact Ensures.bind (weaves_render vs w) fun _ ht => Ensures.pure (hseparator.behind ht)

/-! ## Selectors -/

theorem weaves_combinator (vs : List Value) (selector c : Value) :
    Weaves layout vs (Render.combinator selector c) [] := by
  unfold Render.combinator
  split
  · exact Ensures.pure (.of_not_mem (by simp))
  · split
    · split
      · exact Ensures.pure (.plain (starts_symbol _))
      · exact Ensures.throw _
    · exact Ensures.throw _

theorem weaves_elementName (vs : List Value) (name : Value) :
    Weaves layout vs (Render.elementName name) [] := by
  unfold Render.elementName
  split
  · exact Ensures.pure (.of_not_mem (by simp))
  · exact weaves_identifier vs name

theorem weaves_simple (selector name combinator qualifiers : Value) :
    Weaves layout vs (Render.simple selector name combinator qualifiers.parts)
      qualifiers.elements := by
  refine Ensures.bind (weaves_combinator vs selector combinator) fun c hc => ?_
  refine Ensures.bind (weaves_elementName vs name) fun n hn => ?_
  exact Ensures.bind (weaves_joined vs qualifiers) fun _ hq => Ensures.pure ((hc.behind hn).behind hq)

theorem weaves_idSelector (name : Value) : Weaves layout vs (Render.idSelector name) [] :=
  Ensures.bind (weaves_identifier vs name) fun _ hn => Ensures.pure (hn.after (by simp))

theorem weaves_classSelector (name : Value) : Weaves layout vs (Render.classSelector name) [] :=
  Ensures.bind (weaves_identifier vs name) fun _ hn => Ensures.pure (hn.after (by simp))

theorem weaves_pseudoClass (name argument : Value) :
    Weaves layout vs (Render.pseudoClass name argument) [] := by
  refine Ensures.bind (weaves_identifier vs name) fun n hn => ?_
  split
  · exact Ensures.pure (hn.after (by simp))
  · refine Ensures.bind (weaves_identifier vs argument) fun a ha => Ensures.pure ?_
    exact (((hn.after (by simp)).before (by simp)).behind ha).before (by simp)

theorem weaves_pseudoElement (name legacy : Value) :
    Weaves layout vs (Render.pseudoElement name legacy) [] := by
  refine Ensures.bind (weaves_identifier vs name) fun n hn => Ensures.pure (.behind ?_ hn)
  split <;> exact .of_not_mem (by simp)

theorem weaves_comparand {value : Value} (hv : value ∈ writtenIn vs) :
    Weaves layout vs (Render.comparand value) [] := by
  unfold Render.comparand
  split
  · exact Ensures.pure (.of_not_mem (by simp))
  · split
    case h_1 s hs => exact Ensures.pure (.verbatim (.field hv (.quoted hs)))
    case h_2 => exact Ensures.throw _

theorem weaves_attributeSelector (condition name test : Value) {value : Value}
    (hv : value ∈ writtenIn vs) :
    Weaves layout vs (Render.attributeSelector condition name test value) [] := by
  refine Ensures.bind (weaves_identifier vs name) fun n hn => ?_
  split
  · exact Ensures.pure ((hn.after (by simp)).before (by simp))
  · split
    · split
      case h_1 symbol hsymbol =>
        obtain ⟨test, -, htest⟩ := Option.bind_eq_some_iff.1 hsymbol
        refine Ensures.bind (weaves_comparand hv) fun c hc => Ensures.pure ?_
        have hbefore : Woven layout vs [] ("[" ++ n ++ symbol ++ "\"") :=
          ((hn.after (by simp)).ahead (.plain (starts_symbol? htest))).before (by simp)
        exact (hbefore.behind hc).before (by simp)
      case h_2 => exact Ensures.throw _
    · exact Ensures.throw _

theorem weaves_conditional (base condition : Value) :
    Weaves layout vs (Render.conditional base.render condition.render) [base, condition] :=
  Ensures.bind (weaves_render vs base) fun _ hb =>
    Ensures.bind (weaves_render vs condition) fun _ hc => Ensures.pure (hb.append hc)

/-! ## Media and at-rules -/

theorem weaves_mediaFeature (property : Value) {value : Value} (hv : value ∈ writtenIn vs) :
    Weaves layout vs (Render.mediaFeature property value value.render) [value] := by
  have hvalue : Weaves layout vs (Render.featureValue value value.render) [value] := by
    unfold Render.featureValue
    split
    case h_1 s hs =>
      exact Ensures.pure (.unprinted (contents_of_text? hs) (.verbatim (.field hv .display)))
    case h_2 => exact weaves_render vs value
  refine Ensures.bind hvalue fun t ht => Ensures.bind (weaves_identifier vs property) fun p hp => ?_
  exact Ensures.pure ((((hp.after (by simp)).before (by simp)).behind ht).before (by simp))

theorem weaves_mediaQuery (expression conjuncts : Value) {modifier : Value}
    (hm : modifier ∈ writtenIn vs) :
    Weaves layout vs (Render.mediaQuery expression.render modifier conjuncts conjuncts.parts)
      (expression :: conjuncts.elements) := by
  have hbefore : Woven layout vs [] (if modifier.isVacant then "" else modifier.display ++ " ") := by
    split
    · exact .of_not_mem (by simp)
    · exact .before (.verbatim (.field hm .display)) (by simp)
  refine Ensures.bind (weaves_render vs expression) fun e he => ?_
  split
  case isTrue h =>
    rw [Value.elements_of_isVacant h]
    exact Ensures.pure (hbefore.behind he)
  case isFalse =>
    refine Ensures.bind (weaves_separated vs conjuncts (by simp)) fun cs hcs => Ensures.pure ?_
    have hfirst : Woven layout vs [expression] (_ ++ e ++ " and ") :=
      (hbefore.behind he).before (by simp)
    exact hfirst.append hcs

theorem weaves_charset {name : Value} (hn : name ∈ writtenIn vs) :
    Weaves layout vs (Render.charset name) [] := by
  refine Ensures.bind (weaves_quoted hn) fun n hn => Ensures.pure ?_
  have hword : Woven layout vs [] "@charset " := .plain fun _ => rfl
  exact (hword.behind hn).before (by simp)

/-- The names of media are identifiers, whatever the media are. -/
theorem weaves_importMedia (vs : List Value) (media : Value) (mediaParts : Parts) :
    Weaves layout vs (Render.importMedia media mediaParts) [] := by
  have hname (q : Part) : Weaves layout vs (Render.mediumName q) [] := by
    unfold Render.mediumName
    split
    · exact weaves_identifier vs _
    · exact Ensures.throw _
  have hnames (qs : List Part) :
      Ensures layout (qs.mapM Render.mediumName) (Fragments layout vs []) := by
    induction qs with
    | nil => exact Ensures.pure .nil
    | cons q qs ih =>
      rw [List.mapM_cons]
      exact Ensures.bind (hname q) fun _ ht => Ensures.bind ih fun _ hts =>
        Ensures.pure (Fragments.cons ht hts)
  unfold Render.importMedia
  split
  · exact Ensures.pure (.of_not_mem (by simp))
  · cases mediaParts with
    | error e => exact Ensures.throw e
    | ok qs =>
      exact Ensures.bind (hnames qs) fun _ hts =>
        Ensures.pure ((hts.intercalate (.of_not_mem (by simp))).after (by simp))

theorem weaves_importRule (target media : Value) (mediaParts : Parts) :
    Weaves layout vs (Render.importRule target.render media mediaParts) [target] := by
  refine Ensures.bind (weaves_importMedia vs media mediaParts) fun m hm => ?_
  refine Ensures.bind (weaves_indentation vs) fun i hi => ?_
  refine Ensures.bind (weaves_render vs target) fun t ht => Ensures.pure ?_
  have hword : Woven layout vs [] "@import " := .plain fun _ => rfl
  exact (((hi.behind hword).behind ht).ahead hm).before (by simp)

theorem weaves_namespaceRule (target shorthand : Value) :
    Weaves layout vs (Render.namespaceRule target.render shorthand shorthand.render)
      [shorthand, target] := by
  have hword : Woven layout vs [] "@namespace " := .plain fun _ => rfl
  refine Ensures.bind (weaves_indentation vs) fun i hi => ?_
  split
  case isTrue h =>
    exact Ensures.bind (weaves_render vs target) fun t ht =>
      Ensures.pure (((hi.behind hword).behind ht).skip (contents_of_isAbsent h))
  case isFalse =>
    refine Ensures.bind (weaves_render vs shorthand) fun a ha => ?_
    refine Ensures.bind (weaves_render vs target) fun t ht => Ensures.pure ?_
    have hfirst : Woven layout vs [shorthand] (i ++ "@namespace " ++ a ++ " ") :=
      ((hi.behind hword).behind ha).before (by simp)
    exact hfirst.append ht

/-- A document condition is its words around what is printed for it, behind the indentation of the
line. -/
theorem ensures_documentQuery (vs : List Value) {functions : Value} {s s' : PrintState}
    (h : (Render.documentQuery functions.parts).exec layout s = (.ok t, s')) :
    ∃ indent inner, layout.indentation s'.level = .ok indent ∧
      t = indent ++ "@document " ++ inner ++ " \x7b\x7d" ∧
      Woven layout vs functions.elements inner := by
  rw [Render.documentQuery, exec_bind, exec_note] at h
  simp only [exec_bind] at h
  cases hinner : (functions.parts.separated ", ").exec layout
      { s with notes := s.notes ++ [Render.emptyBodyNote] } with
  | mk x r =>
    rw [hinner] at h
    cases x with
    | error e => cases h
    | ok inner =>
      cases hindent : layout.indentation r.level with
      | error e =>
        simp only [exec_indentation, hindent] at h
        cases h
      | ok indent =>
        simp only [exec_indentation, hindent] at h
        cases h
        exact ⟨indent, inner, hindent, rfl,
          weaves_separated vs functions (by simp) _ inner _ hinner⟩

/-! ## Rule sets -/

theorem weaves_declaration (property important : Value) (owned : Bool) {expressions : Value}
    (h : ∀ w ∈ expressions.elements, w ∈ vs) :
    Weaves layout vs (Render.declaration property expressions.parts important owned)
      expressions.elements := by
  have hstart : Weaves layout vs (Render.lineStart owned) [] := by
    cases owned with
    | true => exact weaves_indentation vs
    | false => exact Ensures.pure (.of_not_mem (by simp))
  have hvalue : Weaves layout vs (Render.declarationValue expressions.parts)
      expressions.elements :=
    Ensures.bind (ensures_each (fun w hw => weaves_operand (h w hw)) fun _ => ⟨_, rfl⟩)
      fun _ hts => Ensures.pure hts.join.trim
  have hline : Ensures layout
      (indented do
        let indent ← Render.lineStart owned
        let value ← Render.declarationValue expressions.parts
        pure (indent, value))
      fun r => Woven layout vs [] r.1 ∧ Woven layout vs expressions.elements r.2 :=
    Ensures.indented (Ensures.bind hstart fun _ hi => Ensures.bind hvalue fun _ hv =>
      Ensures.pure ⟨hi, hv⟩)
  refine Ensures.bind hline fun (indent, value) ⟨hi, hv⟩ => ?_
  refine Ensures.bind (weaves_identifier vs property) fun p hp => Ensures.pure ?_
  have himportant : Woven layout vs [] (if important.isVacant then "" else " !important") := by
    split <;> exact .of_not_mem (by simp)
  have hend : Woven layout vs [] (if owned then ";" else "") := by
    split <;> exact .of_not_mem (by simp)
  exact ((((hi.behind hp).before (by simp)).behind hv).ahead himportant).ahead hend

theorem weaves_block {selectors : String} (hs : Woven layout vs us selectors)
    (hd : Fragments layout vs ws ts) : Weaves layout vs (Render.block selectors ts) (us ++ ws) := by
  refine Ensures.after fun compact => ?_
  split
  · exact Ensures.pure (((hs.before (by simp)).append hd.join).before (by simp))
  · refine Ensures.bind (weaves_indentation vs) fun i hi => ?_
    refine Ensures.bind (weaves_lineBreak vs) fun b hb => Ensures.pure ?_
    have hstart : Woven layout vs us (i ++ selectors ++ " \x7b" ++ b) :=
      ((hi.behind hs).before (by simp)).ahead hb
    exact (((hstart.append (hd.intercalate hb)).ahead hb).ahead hi).before (by simp)

theorem weaves_ruleSet (selectors declarations parent : Value) :
    Weaves layout vs (Render.ruleSet selectors selectors.parts declarations.parts)
      (Node.ruleSet selectors declarations parent).printed := by
  unfold Render.ruleSet
  rw [Node.printed]
  split
  · exact Ensures.pure (.of_not_mem (by simp))
  · exact Ensures.bind (weaves_separated vs selectors (by simp)) fun _ hs =>
      Ensures.bind (ensures_texts vs declarations) fun _ hd => weaves_block hs hd

theorem weaves_fontFace (declarations : Value) :
    Weaves layout vs (Render.fontFace declarations.parts) declarations.elements := by
  have hword : Woven layout vs [] "@font-face \x7b" := .plain fun _ => rfl
  have hlines (inner : String) (hi : Woven layout vs [] inner) :
      Ensures layout
        (declarations.parts.each fun p => do
          let t ← p.text
          pure (inner ++ t ++ ";"))
        (Fragments layout vs declarations.elements) :=
    ensures_each (fun w _ => Ensures.bind (weaves_render vs w) fun _ ht =>
      Ensures.pure ((hi.behind ht).before (by simp))) fun _ => ⟨_, rfl⟩
  refine Ensures.bind (Ensures.indented (Ensures.bind (weaves_indentation vs) hlines)) fun ds hd => ?_
  refine Ensures.bind (weaves_lineBreak vs) fun b hb => ?_
  refine Ensures.bind (weaves_indentation vs) fun i hi => Ensures.pure ?_
  exact ((((hword.ahead hb).behind (hd.intercalate hb)).ahead hb).ahead hi).before (by simp)

/-! ## Nodes -/

/-- The text of a node is woven from the texts of what is printed for it. Documents, which start
anew, and document conditions have theorems of their own. -/
theorem weaves_node {n : Node Value} (hv : v.contents = .node n) (hmem : v ∈ vs)
    (hsub : ∀ w ∈ n.printed, w ∈ vs) (hd : n.kind ≠ .document) (hq : n.kind ≠ .documentQuery) :
    Weaves layout vs n.render n.printed := by
  have hfield (f : Field) {u : Value} (hu : (Value.node n).field? f = some u)
      (hf : f ∈ Field.written) : u ∈ writtenIn vs :=
    mem_writtenIn hmem (Value.field?_of_contents (by rw [hv]; exact hu)) hf
  cases n <;> rw [Node.render]
  case document => exact absurd rfl hd
  case ruleSet => exact weaves_ruleSet _ _ _
  case declaration => exact weaves_declaration _ _ _ hsub
  case fontFace => exact weaves_fontFace _
  case mediaType => exact weaves_identifier _ _
  case mediaFeature => exact weaves_mediaFeature _ (hfield .value rfl (by decide))
  case mediaQuery => exact weaves_mediaQuery _ _ (hfield .modifier rfl (by decide))
  case mediaQueryList => exact weaves_separated _ _ (by simp)
  case charset => exact weaves_charset (hfield .name rfl (by decide))
  case importRule => exact weaves_importRule _ _ _
  case namespaceRule => exact weaves_namespaceRule _ _
  case documentQuery => exact absurd rfl hq
  case ident => exact weaves_identifier _ _
  case hash => exact weaves_hash (hfield .value rfl (by decide))
  case uri => exact weaves_uri (hfield .value rfl (by decide))
  case string => exact weaves_quoted (hfield .value rfl (by decide))
  case number =>
    exact weaves_number _ (hfield .value rfl (by decide))
      (hfield .dimension rfl (by decide))
  case resolution =>
    exact weaves_resolution (hfield .amount rfl (by decide)) (hfield .unit rfl (by decide))
  case rgb => exact weaves_rgb _ _ _
  case function => exact weaves_call _ (hfield .params rfl (by decide)) hsub
  case idSelector => exact weaves_idSelector _
  case classSelector => exact weaves_classSelector _
  case pseudoClass => exact weaves_pseudoClass _ _
  case pseudoElement => exact weaves_pseudoElement _ _
  case attributeSelector =>
    exact weaves_attributeSelector _ _ _ (hfield .value rfl (by decide))
  case simple => exact weaves_simple _ _ _ _
  case selector => exact weaves_joined _ _
  case nodeSelector => exact Ensures.pure (.of_not_mem (by simp))
  case elementSelector => exact weaves_identifier _ _
  case conditionalSelector => exact weaves_conditional _ _

/-! ## Documents -/

theorem ensures_closeGroup (vs : List Value) (identity : Value) :
    Ensures layout (Render.closeGroup identity) (Fragments layout vs []) := by
  unfold Render.closeGroup
  split
  · exact Ensures.pure .nil
  · exact Ensures.after fun _ => Ensures.bind (weaves_indentation vs) fun _ hi =>
      Ensures.pure (Fragments.cons (hi.before (by simp)) .nil)

theorem weaves_heading {identity : Value} (hi : identity ∈ writtenIn vs) :
    Weaves layout vs (identity.heading identity.render) [identity] := by
  unfold Value.heading
  split
  case h_1 => exact weaves_render vs identity
  case h_2 hne => exact Ensures.pure (.unprinted hne (.verbatim (.field hi .display)))

theorem ensures_openGroup {identity : Value} (hi : identity ∈ writtenIn vs) :
    Ensures layout (Render.openGroup ⟨identity, identity.heading identity.render⟩)
      (Fragments layout vs [identity]) := by
  have hword : Woven layout vs [] "@media " := .plain fun _ => rfl
  unfold Render.openGroup
  split
  case isTrue h => exact Ensures.pure (.skip (contents_of_isAbsent h) .nil)
  case isFalse =>
    refine Ensures.bind (weaves_heading hi) fun heading hh => ?_
    refine Ensures.bind (weaves_indentation vs) fun i hi => Ensures.after fun _ => ?_
    exact Ensures.pure (Fragments.cons (((hi.behind hword).behind hh).before (by simp)) .nil)

/-- The loop over the rule sets, with the group that is open as its invariant. -/
theorem ensures_groups {rs : List Value} (hrs : ∀ r ∈ rs, r ∈ vs) (current : Value) :
    Ensures layout (Render.groups current (rs.map Value.part))
      (Fragments layout vs (pending current rs)) := by
  induction rs generalizing current with
  | nil =>
    rw [pending_nil]
    exact ensures_closeGroup vs current
  | cons r rs ih =>
    obtain ⟨hr, hrs⟩ := List.forall_mem_cons.1 hrs
    have hgroup : r.part.group = _ := Value.group_eq r
    rw [List.map_cons, Render.groups]
    refine Ensures.lift r.part.group fun g hg => ?_
    cases hparent : r.field? .parent with
    | none =>
      rw [hgroup, hparent] at hg
      cases hg
    | some parent =>
      rw [hgroup, hparent] at hg
      cases hg
      have hr' : r.parent = parent := by rw [Value.parent, hparent]; rfl
      split
      case isTrue h =>
        rw [pending_cons_of_same rs (hr' ▸ h)]
        exact Ensures.bind (weaves_render vs r) fun _ ht => Ensures.bind (ih hrs current) fun _ hts =>
          Ensures.pure (Fragments.cons ht hts)
      case isFalse h =>
        rw [pending_cons_of_not_same rs (hr' ▸ Bool.eq_false_iff.2 h), hparent, hr']
        refine Ensures.bind (ensures_closeGroup vs current) fun closing hc => ?_
        refine Ensures.bind (ensures_openGroup (mem_writtenIn hr hparent (by decide))) fun opening ho => ?_
        refine Ensures.bind (weaves_render vs r) fun t ht => ?_
        refine Ensures.bind (ih hrs parent) fun rest hrest => Ensures.pure ?_
        exact (hc.append ho).append (Fragments.cons ht hrest)

theorem Fragments.of_pending_absent {rs : List Value}
    (hrs : ∀ r ∈ rs, r.parent.contents = .absent → r.parent = .absent)
    (h : Fragments layout vs (pending .absent rs) ts) :
    Fragments layout vs ((runs Value.sameGroup rs).flatMap blockPrinted) ts := by
  rcases blocks_eq_pending hrs with hblocks | hblocks
  · rwa [hblocks]
  · rw [hblocks]
    exact .skip (contents_of_isAbsent rfl) h

theorem ensures_ruleSets {ruleSets : Value} (h : ∀ r ∈ ruleSets.elements, r ∈ vs)
    (hgroups : ∀ r ∈ ruleSets.elements, r.parent.contents = .absent → r.parent = .absent) :
    Ensures layout (Render.ruleSets ruleSets.parts)
      (Fragments layout vs ((runs Value.sameGroup ruleSets.elements).flatMap blockPrinted)) := by
  refine Ensures.keepingLevel (Ensures.lift _ fun ps hps => ?_)
  rw [Value.parts_eq_map] at hps
  cases hitems : ruleSets.items? with
  | none =>
    rw [hitems] at hps
    cases hps
  | some rs =>
    rw [hitems] at hps
    cases hps
    rcases Value.elements_of_items? hitems with rfl | ⟨hnil, hatoms⟩
    · intro s ts s' hrun
      exact (ensures_groups h .absent s ts s' hrun).of_pending_absent hgroups
    · cases rs with
      | nil =>
        rw [hnil, runs]
        exact ensures_closeGroup vs .absent
      | cons c rs =>
        obtain ⟨a, rfl⟩ := hatoms c List.mem_cons_self
        exact Ensures.throw _

/-- The text of a document is woven from the texts of what is printed for it. -/
theorem weaves_document {charsets imports fontFaces ruleSets : Value}
    (h : ∀ r ∈ ruleSets.elements, r ∈ vs)
    (hgroups : ∀ r ∈ ruleSets.elements, r.parent.contents = .absent → r.parent = .absent) :
    Weaves layout vs
      (Render.document charsets.parts imports.parts fontFaces.parts ruleSets.parts)
      (Node.document charsets imports fontFaces ruleSets).printed := by
  have hfragments : Ensures layout
      (Render.fragments charsets.parts imports.parts fontFaces.parts ruleSets.parts)
      (Fragments layout vs (Node.document charsets imports fontFaces ruleSets).printed) := by
    refine Ensures.after fun _ => Ensures.bind (ensures_texts vs charsets) fun cs hcs => ?_
    refine Ensures.bind (ensures_texts vs imports) fun is his => ?_
    refine Ensures.bind (ensures_texts vs fontFaces) fun fs hfs => ?_
    refine Ensures.bind (ensures_ruleSets h hgroups) fun rs hrs => Ensures.pure ?_
    exact ((hcs.append his).append hfs).append hrs
  refine Ensures.after fun _ => Ensures.bind hfragments fun ts hts => ?_
  exact Ensures.bind (weaves_lineBreak vs) fun b hb => Ensures.pure (hts.intercalate_filter hb)

end Stylesheet
