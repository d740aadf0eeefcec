import Stylesheet.Proofs.Spelling

/-!
# The first offence of a document

In a document whose fields hold what they are annotated with, but where any text may stand for a
combinator or an attribute test, only selectors can fail. Printing goes over the rule sets in their
order, a rule set without selectors being passed over, and fails at the first compound or qualifier
that has an unknown combinator or test (`printDocument_first_offence`).

`Print.Reports layout act os` says this of any action: its outcome is the first offence among the
values `os`, or a success. What makes lines never fails by itself, so that only the offences of
selectors are left, rule set by rule set (`reports_groups`). It does not matter here whether the
declarations of a rule set are owned.
-/

namespace Stylesheet

open Print

/-! ## Documents -/

/-- A rule set of typed selectors and declarations, in no group, in that of a text or in that of a
typed list of media queries. -/
def Value.IsRuleOf (T : Typing) (r : Value) : Prop :=
  ∃ ss ds parent, r = .node (.ruleSet (.list ss) (.list ds) parent) ∧
    (∀ v ∈ ss, v.IsOf [.selector] ∧ v.IsTyped T) ∧
    (∀ v ∈ ds, v.IsOf [.declaration] ∧ v.IsTyped T) ∧
    parent.IsOptional fun v => v.IsVerbatim T ∨ v.IsOf [.mediaQueryList] ∧ v.IsTyped T

/-- A document whose fields hold what they are annotated with. -/
structure AnnotatedDocument (T : Typing) where
  charsets : List Value
  imports : List Value
  fontFaces : List Value
  ruleSets : List Value
  charsets_typed : ∀ v ∈ charsets, v.IsOf [.charset] ∧ v.IsTyped T
  imports_typed : ∀ v ∈ imports, v.IsOf [.importRule] ∧ v.IsTyped T
  fontFaces_typed : ∀ v ∈ fontFaces, v.IsOf [.fontFace] ∧ v.IsTyped T
  ruleSets_typed : ∀ r ∈ ruleSets, r.IsRuleOf T

/-- An annotated document as a value. -/
def AnnotatedDocument.value {T : Typing} (d : AnnotatedDocument T) : Value :=
  .node (.document (.list d.charsets) (.list d.imports) (.list d.fontFaces) (.list d.ruleSets))

/-- The compounds and qualifiers of a rule set, in the order of print. Without selectors there are
none. -/
def Value.ruleParts (r : Value) : List Value := (r.elementsAt .selectors).flatMap selectorParts

/-- The compounds and qualifiers of a document, in the order of print. -/
def Value.suspects (d : Value) : List Value := (d.elementsAt .ruleSets).flatMap ruleParts

/-- A compound with an unknown combinator, or a condition with an unknown test, and the fault that
it is. -/
inductive Value.Offends : Value → Fault → Prop
  | combinator {form : SimpleForm} {name c qualifiers : Value} (hne : c ≠ .absent)
    (h : ∀ k : Combinator, c.text? ≠ some k.text) :
    Offends (.node (.simple form name c qualifiers))
      (.unknownCombinator c (.node (.simple form name c qualifiers)))
  | test {name t value : Value} (h : ∀ k : AttributeTest, t.text? ≠ some k.text) :
    Offends (.node (.attributeSelector name t value))
      (.unknownTest t (.node (.attributeSelector name t value)))

/-- What is said about a compound or a condition that offends. -/
def Value.complaint (v : Value) : String :=
  match v with
  | .node (.simple _ _ c _) =>
    "No matching combinator: " ++ c.literal ++ " (" ++ v.typeName ++ " node)"
  | .node (.attributeSelector _ t _) =>
    "No matching match kind: " ++ t.literal ++ " (" ++ v.typeName ++ " node)"
  | _ => ""

theorem Value.Offends.culprit? {v : Value} {e : Fault} (h : v.Offends e) : e.culprit? = some v := by
  cases h <;> rfl

theorem Value.Offends.message {v : Value} {e : Fault} (h : v.Offends e) :
    e.message = v.complaint := by
  cases h <;> rfl

/-! ## Offences by looking up -/

theorem Combinator.ofText?_eq_none_iff {s : String} :
    ofText? s = none ↔ ∀ k : Combinator, s ≠ k.text := by
  rw [ofText?, List.find?_eq_none]
  refine ⟨fun h k hk => h k (mem_all k) (by simp [hk]), fun h k _ => ?_⟩
  simpa using fun hk => h k hk.symm

theorem AttributeTest.ofText?_eq_none_iff {s : String} :
    ofText? s = none ↔ ∀ k : AttributeTest, s ≠ k.text := by
  rw [ofText?, List.find?_eq_none]
  refine ⟨fun h k hk => h k (mem_all k) (by simp [hk]), fun h k _ => ?_⟩
  simpa using fun hk => h k hk.symm

theorem Value.isAbsent_iff (v : Value) : v.isAbsent = true ↔ v = .absent := by
  unfold isAbsent
  split
  · simp
  · next h => exact ⟨nofun, fun hv => absurd hv h⟩

/-- A value is no text of a vocabulary if its text, should it be one, is not in it. -/
theorem not_isSome_bind_iff {K : Type} {ofText? : String → Option K} {text : K → String}
    (hnone : ∀ s, ofText? s = none ↔ ∀ k, s ≠ text k) (x : Option String) :
    ¬(x.bind ofText?).isSome = true ↔ ∀ k, x ≠ some (text k) := by
  cases x with
  | none => simp
  | some s => simp [hnone]

theorem Value.offence?_eq_some_iff {v : Value} {e : Fault} : v.offence? = some e ↔ v.Offends e := by
  unfold offence?
  split
  case h_1 form name c qualifiers =>
    have hlookup := not_isSome_bind_iff (fun _ => Combinator.ofText?_eq_none_iff) c.text?
    rw [Option.ite_none_left_eq_some, Bool.or_eq_true, not_or, isAbsent_iff, hlookup]
    constructor
    · rintro ⟨⟨hne, h⟩, ⟨⟩⟩
      exact .combinator hne h
    · rintro ⟨⟩
      exact ⟨⟨‹_›, ‹_›⟩, rfl⟩
  case h_2 name t value =>
    have hlookup := not_isSome_bind_iff (fun _ => AttributeTest.ofText?_eq_none_iff) t.text?
    rw [Option.ite_none_left_eq_some, hlookup]
    constructor
    · rintro ⟨h, ⟨⟩⟩
      exact .test h
    · rintro ⟨⟩
      exact ⟨‹_›, rfl⟩
  case h_3 hsimple hattribute =>
    refine ⟨nofun, fun h => ?_⟩
    cases h
    · exact absurd rfl (hsimple _ _ _ _)
    · exact absurd rfl (hattribute _ _ _)

/-! ## Actions that report the first offence -/

namespace Print

variable {α β : Type} {layout : Layout} {os os' : List Value}

/-- The outcome of an action is the first offence among some values, or a success. -/
def Reports (layout : Layout) (act : Print α) (os : List Value) : Prop :=
  ∀ s, match os.findSome? Value.offence? with
    | some e => (act.exec layout s).1 = .error e
    | none => ∃ a, (act.exec layout s).1 = .ok a

theorem Finds.reports {act : Print α} {p : α → Prop} (h : act.Finds p os) :
    Reports layout act os := by
  intro s
  unfold Finds at h
  cases hos : os.findSome? Value.offence? with
  | some e =>
    rw [hos] at h
    rw [h]
    rfl
  | none =>
    rw [hos] at h
    obtain ⟨a, -, rfl⟩ := h
    exact ⟨a, rfl⟩

theorem Yields.reports {act : Print α} {p : α → Prop} (h : Yields layout act p) :
    Reports layout act [] := by
  intro s
  obtain ⟨a, ha, -⟩ := h s
  exact ⟨a, ha⟩

theorem Reports.bind {act : Print α} {f : α → Print β} (h : Reports layout act os)
    (hf : ∀ a, Reports layout (f a) os') : Reports layout (act >>= f) (os ++ os') := by
  intro s
  have hs := h s
  rw [List.findSome?_append, exec_bind]
  cases hos : os.findSome? Value.offence? with
  | some e =>
    rw [hos] at hs
    revert hs
    rcases act.exec layout s with ⟨x, t⟩
    rintro ⟨⟩
    rfl
  | none =>
    rw [hos] at hs
    obtain ⟨a, ha⟩ := hs
    revert ha
    rcases act.exec layout s with ⟨x, t⟩
    rintro ⟨⟩
    exact hf a t

/-- An action that never fails, and what follows it. -/
theorem Reports.after {act : Print α} {f : α → Print β} {p : α → Prop} (h : Yields layout act p)
    (hf : ∀ a, Reports layout (f a) os) : Reports layout (act >>= f) os :=
  Reports.bind h.reports hf

theorem Reports.andThen {act : Print α} {f : α → Print β} {q : β → Prop}
    (h : Reports layout act os) (hf : ∀ a, Yields layout (f a) q) :
    Reports layout (act >>= f) os := by
  rw [← List.append_nil os]
  exact Reports.bind h fun a => (hf a).reports

theorem Reports.keepingLevel {act : Print α} (h : Reports layout act os) :
    Reports layout (keepingLevel act) os := fun s => h s

end Print

/-! ## Lines -/

section

variable {u b : String} {compact : Value}

theorem yields_indentation_text :
    Yields ⟨.text u, .text b, compact⟩ indentation AnyText := fun _ => ⟨_, rfl, trivial⟩

theorem yields_lineBreak_text :
    Yields ⟨.text u, .text b, compact⟩ lineBreak AnyText := fun _ => ⟨_, rfl, trivial⟩

theorem Value.IsTyped.yields_charset_text {v : Value} (h : v.IsTyped .anyText)
    (hv : v.IsOf [.charset]) : Yields ⟨.text u, .text b, compact⟩ v.render AnyText := by
  obtain ⟨get, owned, rfl⟩ := hv.exists_eq_assemble
  exact Yields.bind ((Typing.spells_anyText.quoted h.types).yields _) fun _ _ => Yields.pure trivial

theorem Value.IsTyped.yields_importRule_text {v : Value} (h : v.IsTyped .anyText)
    (hv : v.IsOf [.importRule]) : Yields ⟨.text u, .text b, compact⟩ v.render AnyText := by
  obtain ⟨get, owned, hget⟩ := hv.exists_eq_assemble
  obtain ⟨target, _, rfl⟩ : ∃ t m, v = .node (.importRule t m) := ⟨_, _, hget⟩
  obtain ⟨ht, ms, rfl, hms⟩ := h.types
  have hterm : target.IsOf Kind.terms :=
    ht.imp fun n hn => ⟨hn.1, by rw [List.mem_singleton.1 hn.2]; decide⟩
  have htarget := Typing.spells_anyText.term
    (h.of_mem_below (ht.mem_below (by simp [Node.fields, Node.entries]))) hterm
  have hmedium : ∀ m ∈ ms, Yields ⟨.text u, .text b, compact⟩ (Render.mediumName m.part)
      AnyText := by
    intro m hm
    have hm' := h.of_mem_list (by simp [Node.fields, Node.entries]) hm
    obtain ⟨get, owned, rfl⟩ := (hms m hm).exists_eq_assemble
    exact (Typing.spells_anyText.identifier hm'.types).yields _
  have hmedia : Yields ⟨.text u, .text b, compact⟩
      (Render.importMedia (.list ms) (Value.list ms).parts) AnyText := by
    rw [Render.importMedia, Value.each_parts_list]
    split
    case isTrue => exact Yields.pure trivial
    case isFalse => exact Yields.bind (Yields.mapM hmedium) fun _ _ => Yields.pure trivial
  rw [Value.render, Node.render]
  refine Yields.bind hmedia fun _ _ => Yields.bind yields_indentation_text fun _ _ => ?_
  exact Yields.bind (htarget.render.yields _) fun _ _ => Yields.pure trivial

theorem Value.IsTyped.yields_declaration_text {v : Value} (h : v.IsTyped .anyText)
    (hv : v.IsOf [.declaration]) : Yields ⟨.text u, .text b, compact⟩ v.render AnyText := by
  obtain ⟨get, owned, hget⟩ := hv.exists_eq_assemble
  obtain ⟨property, _, important, rfl⟩ : ∃ p es i, v = .node (.declaration p es i owned) :=
    ⟨_, _, _, hget⟩
  obtain ⟨hp, ⟨vs, rfl, hvs⟩, -⟩ := h.types
  have hstart : Yields ⟨.text u, .text b, compact⟩ (Render.lineStart owned) AnyText := by
    cases owned with
    | true => exact yields_indentation_text
    | false => exact Yields.pure trivial
  have hoperand : ∀ w ∈ vs, (Render.operand w.part).Returns AnyText := fun w hw =>
    Typing.spells_anyText.operand (Typing.spells_anyText.term
      (h.of_mem_list (by simp [Node.fields, Node.entries]) hw) (hvs w hw))
  have hvalue : Yields ⟨.text u, .text b, compact⟩
      (Render.declarationValue (Value.list vs).parts) AnyText := by
    rw [Render.declarationValue, Value.each_parts_list]
    exact Yields.bind ((Returns.mapM hoperand).yields _) fun _ _ => Yields.pure trivial
  have hinner : Yields ⟨.text u, .text b, compact⟩ (do
      let indent ← Render.lineStart owned
      let value ← Render.declarationValue (Value.list vs).parts
      pure (indent, value)) fun _ => True :=
    Yields.bind hstart fun _ _ => Yields.bind hvalue fun _ _ => Yields.pure trivial
  rw [Value.render, Node.render]
  refine Yields.bind hinner.indented fun _ _ => ?_
  exact Yields.bind ((Typing.spells_anyText.identifier hp).yields _) fun _ _ => Yields.pure trivial

theorem Value.IsTyped.yields_fontFace_text {v : Value} (h : v.IsTyped .anyText)
    (hv : v.IsOf [.fontFace]) : Yields ⟨.text u, .text b, compact⟩ v.render AnyText := by
  obtain ⟨get, owned, hget⟩ := hv.exists_eq_assemble
  obtain ⟨_, rfl⟩ : ∃ ds, v = .node (.fontFace ds) := ⟨_, hget⟩
  obtain ⟨ds, rfl, hds⟩ := h.types
  have hline (inner : String) : ∀ d ∈ ds, Yields ⟨.text u, .text b, compact⟩ (do
      let t ← d.part.text
      pure (inner ++ t ++ ";")) AnyText := fun d hd =>
    Yields.bind ((h.of_mem_list (by simp [Node.fields, Node.entries]) hd).yields_declaration_text
      (hds d hd)) fun _ _ => Yields.pure trivial
  have hlines : Yields ⟨.text u, .text b, compact⟩ (do
      let inner ← Print.indentation
      (Value.list ds).parts.each fun p => do
        let t ← p.text
        pure (inner ++ t ++ ";")) fun _ => True := by
    refine Yields.bind yields_indentation_text fun inner _ => ?_
    rw [Value.each_parts_list]
    exact (Yields.mapM (hline inner)).mono fun _ _ => trivial
  rw [Value.render, Node.render]
  refine Yields.bind hlines.indented fun _ _ => Yields.bind yields_lineBreak_text fun _ _ => ?_
  exact Yields.bind yields_indentation_text fun _ _ => Yields.pure trivial

theorem yields_block_text (selectors : String) (declarations : List String) :
    Yields ⟨.text u, .text b, compact⟩ (Render.block selectors declarations) AnyText := by
  have hcompact : Yields ⟨.text u, .text b, compact⟩ Print.isCompact fun _ => True :=
    fun _ => ⟨_, rfl, trivial⟩
  refine Yields.bind hcompact fun c _ => ?_
  split
  · exact Yields.pure trivial
  · refine Yields.bind yields_indentation_text fun _ _ => ?_
    exact Yields.bind yields_lineBreak_text fun _ _ => Yields.pure trivial

/-! ## Rule sets -/

/-- Of a rule set only the selectors can fail. -/
theorem Value.IsRuleOf.reports {r : Value} (h : r.IsRuleOf .anyText) :
    Reports ⟨.text u, .text b, compact⟩ r.render r.ruleParts := by
  obtain ⟨ss, ds, parent, rfl, hss, hds, -⟩ := h
  have hdeclarations : Yields ⟨.text u, .text b, compact⟩ (Value.list ds).parts.texts
      fun _ => True := by
    rw [Value.texts_parts_list]
    exact (Yields.mapM fun d hd => (hds d hd).2.yields_declaration_text (hds d hd).1).mono
      fun _ _ => trivial
  rw [Value.render, Node.render, Render.ruleSet]
  show Reports _ _ (ss.flatMap Value.selectorParts)
  split
  case isTrue hvacant =>
    obtain rfl : ss = [] := List.isEmpty_iff.1 hvacant
    exact Yields.reports (Yields.pure (p := AnyText) trivial)
  case isFalse =>
    have hselectors : Reports ⟨.text u, .text b, compact⟩ _ _ :=
      (Typing.spells_anyText.selectors hss).reports
    exact Reports.andThen (q := AnyText) hselectors fun _ =>
      Yields.bind hdeclarations fun _ _ => yields_block_text _ _

/-- The group of a rule set, and what is known about its heading. -/
theorem Value.IsRuleOf.group {r : Value} (h : r.IsRuleOf .anyText) :
    ∃ parent, r.part.group = .ok ⟨parent, parent.heading parent.render⟩ ∧
      Yields ⟨.text u, .text b, compact⟩ (parent.heading parent.render) AnyText := by
  obtain ⟨ss, ds, parent, rfl, -, -, hparent⟩ := h
  refine ⟨parent, rfl, ?_⟩
  rw [Value.heading]
  rcases hparent with rfl | ⟨⟨s, hs, -⟩, -⟩ | ⟨⟨m, rfl, hm⟩, htyped⟩
  · exact Yields.pure trivial
  · obtain ⟨a, rfl, -⟩ := Value.exists_atom_of_text? hs
    exact Yields.pure trivial
  · exact (Typing.spells_anyText.mediaQueryList htyped ⟨m, rfl, hm⟩).yields _

theorem yields_shift (d : Int) :
    Yields ⟨.text u, .text b, compact⟩ (shift d) fun _ => True := fun _ => ⟨_, rfl, trivial⟩

theorem yields_closeGroup (identity : Value) :
    Yields ⟨.text u, .text b, compact⟩ (Render.closeGroup identity) fun _ => True := by
  unfold Render.closeGroup
  split
  · exact Yields.pure trivial
  · refine Yields.bind (yields_shift _) fun _ _ => ?_
    exact Yields.bind yields_indentation_text fun _ _ => Yields.pure trivial

theorem yields_openGroup {g : Group}
    (h : Yields ⟨.text u, .text b, compact⟩ g.heading AnyText) :
    Yields ⟨.text u, .text b, compact⟩ (Render.openGroup g) fun _ => True := by
  unfold Render.openGroup
  split
  · exact Yields.pure trivial
  · refine Yields.bind h fun _ _ => Yields.bind yields_indentation_text fun _ _ => ?_
    exact Yields.bind (yields_shift _) fun _ _ => Yields.pure trivial

/-- The loop over the rule sets: whatever group is open, the offences that are left are those of the
rule sets that are left. -/
theorem reports_groups {rs : List Value} (h : ∀ r ∈ rs, r.IsRuleOf .anyText) (current : Value) :
    Reports ⟨.text u, .text b, compact⟩ (Render.groups current (rs.map Value.part))
      (rs.flatMap Value.ruleParts) := by
  induction rs generalizing current with
  | nil => exact (yields_closeGroup current).reports
  | cons r rs ih =>
    obtain ⟨hr, hrs⟩ := List.forall_mem_cons.1 h
    obtain ⟨parent, hgroup, hheading⟩ : ∃ parent,
        r.part.group = .ok ⟨parent, parent.heading parent.render⟩ ∧
          Yields ⟨.text u, .text b, compact⟩ (parent.heading parent.render) AnyText := hr.group
    have hrest (g : Value) (f : String → List String → List String) :
        Reports ⟨.text u, .text b, compact⟩ (do
          let t ← r.part.text
          let rest ← Render.groups g (rs.map Value.part)
          return f t rest) ((r :: rs).flatMap Value.ruleParts) :=
      Reports.bind hr.reports fun t => Reports.andThen (q := fun _ => True) (ih hrs g) fun rest =>
        Yields.pure trivial
    rw [List.map_cons, Render.groups, hgroup]
    show Reports _ (if parent.same current then _ else _) _
    split
    case isTrue => exact hrest current fun t rest => t :: rest
    case isFalse =>
      refine Reports.after (yields_closeGroup current) fun closing => ?_
      exact Reports.after (yields_openGroup hheading) fun opening =>
        hrest parent fun t rest => closing ++ opening ++ t :: rest

/-- All that can fail in a document are its rule sets. -/
theorem AnnotatedDocument.reports (d : AnnotatedDocument .anyText) :
    Reports ⟨.text u, .text b, compact⟩ d.value.printDocument d.value.suspects := by
  have htexts {vs : List Value}
      (h : ∀ v ∈ vs, Yields ⟨.text u, .text b, compact⟩ v.render AnyText) :
      Yields ⟨.text u, .text b, compact⟩ (Value.list vs).parts.texts fun _ => True := by
    rw [Value.texts_parts_list]
    exact (Yields.mapM h).mono fun _ _ => trivial
  have hcheck : Yields ⟨.text u, .text b, compact⟩ (Render.checkSequences
      [(Value.list d.charsets).parts, (Value.list d.imports).parts, (Value.list d.fontFaces).parts,
        (Value.list d.ruleSets).parts]) fun _ => True := fun s =>
    ⟨(), (gives_checkSequences [d.charsets, d.imports, d.fontFaces, d.ruleSets] s rfl).1, trivial⟩
  have hcharsets := htexts fun v hv =>
    (d.charsets_typed v hv).2.yields_charset_text (d.charsets_typed v hv).1
  have himports := htexts fun v hv =>
    (d.imports_typed v hv).2.yields_importRule_text (d.imports_typed v hv).1
  have hfontFaces := htexts fun v hv =>
    (d.fontFaces_typed v hv).2.yields_fontFace_text (d.fontFaces_typed v hv).1
  have hrules : Reports ⟨.text u, .text b, compact⟩
      (Render.ruleSets (Value.list d.ruleSets).parts) d.value.suspects := by
    have hparts : (Value.list d.ruleSets).parts = .ok (d.ruleSets.map Value.part) :=
      Value.parts_eq_map _
    rw [Render.ruleSets, hparts]
    exact (reports_groups d.ruleSets_typed .absent).keepingLevel
  have hreset : Yields ⟨.text u, .text b, compact⟩ reset fun _ => True :=
    fun _ => ⟨_, rfl, trivial⟩
  rw [AnnotatedDocument.value, Value.printDocument_document, Node.render, Render.document]
  refine Reports.after hreset fun _ => Reports.andThen (q := AnyText) ?_ fun ts => ?_
  · refine Reports.after hcheck fun _ => Reports.after hcharsets fun _ => ?_
    refine Reports.after himports fun _ => Reports.after hfontFaces fun _ => ?_
    exact Reports.andThen (q := fun _ => True) hrules fun _ => Yields.pure trivial
  · exact Yields.bind yields_lineBreak_text fun _ _ => Yields.pure trivial

end

/-- Printing an annotated document fails if and only if a compound of one of its selectors has an
unknown combinator, or a condition an unknown test. The fault is that of the first of them. -/
theorem printDocument_first_offence (d : AnnotatedDocument .anyText) (u b : String)
    (compact : Value) (s : PrintState) :
    let outcome := (d.value.printDocument.exec ⟨.text u, .text b, compact⟩ s).1
    ((∃ e, outcome = .error e) ↔ ∃ v ∈ d.value.suspects, ∃ e, v.Offends e) ∧
      ∀ e, outcome = .error e → ∃ before v after, d.value.suspects = before ++ v :: after ∧
        (∀ w ∈ before, ∀ e', ¬w.Offends e') ∧ v.Offends e ∧ e.culprit? = some v ∧
        e.message = v.complaint := by
  intro outcome
  have hreports : Reports ⟨.text u, .text b, compact⟩ d.value.printDocument d.value.suspects :=
    d.reports
  specialize hreports s
  cases hfind : d.value.suspects.findSome? Value.offence? with
  | some e =>
    rw [hfind] at hreports
    have houtcome : outcome = .error e := hreports
    obtain ⟨before, v, after, hsplit, hv, hbefore⟩ := List.findSome?_eq_some_iff.1 hfind
    have hoffends : v.Offends e := Value.offence?_eq_some_iff.1 hv
    constructor
    · refine iff_of_true ⟨e, houtcome⟩ ⟨v, ?_, e, hoffends⟩
      rw [hsplit]
      simp
    · intro e' he'
      cases houtcome.symm.trans he'
      refine ⟨before, v, after, hsplit, fun w hw e' he' => ?_, hoffends, hoffends.culprit?,
        hoffends.message⟩
      rw [← Value.offence?_eq_some_iff, hbefore w hw] at he'
      cases he'
  | none =>
    rw [hfind] at hreports
    obtain ⟨text, htext⟩ := hreports
    have houtcome : outcome = .ok text := htext
    rw [houtcome]
    constructor
    · refine iff_of_false (fun ⟨e, he⟩ => by cases he) ?_
      rintro ⟨v, hv, e, he⟩
      rw [← Value.offence?_eq_some_iff, List.findSome?_eq_none_iff.1 hfind v hv] at he
      cases he
    · intro e he
      cases he

/-- A rule set without selectors, and one whose second compound has an unknown combinator and a
condition with an unknown test: the combinator comes first. -/
theorem printDocument_first_offence_combinator :
    let condition : Value := .node (.attributeSelector (.text "x") (.text "like") .absent)
    let first : Value := .node (.simple .typed (.text "a") .absent (.list []))
    let second : Value := .node (.simple .unmarked .absent (.text "beside") (.list [condition]))
    let empty : Value := .node (.ruleSet (.list []) (.list []) .absent)
    let rule : Value := .node (.ruleSet (.list [.node (.selector (.list [first, second]))])
      (.list []) (.text "print"))
    let e : Fault := .unknownCombinator (.text "beside") second
    ∃ d : AnnotatedDocument .anyText,
      d.value = .node (.document (.list []) (.list []) (.list []) (.list [empty, rule])) ∧
      (d.value.printDocument.exec .pretty {}).1 = .error e ∧
      e.message = "No matching combinator: 'beside' (SimpleSelector node)" ∧
      ∃ before v after, [first, second, condition] = before ++ v :: after ∧
        (∀ w ∈ before, ∀ e', ¬w.Offends e') ∧ v.Offends e ∧ e.culprit? = some v ∧
        e.message = v.complaint := by
  intro condition first second empty rule e
  have htext (s : String) : (Value.text s).IsSomeText := ⟨s, rfl, trivial⟩
  have hnode (n : Node Value) (hn : Typing.anyText.Types n)
      (h : ∀ v ∈ n.fields, v.IsTyped .anyText) : (Value.node n).IsTyped .anyText := .node hn h
  have hcondition : condition.IsTyped .anyText := by
    refine hnode _ ⟨htext _, htext _, .inl rfl⟩ ?_
    exact List.forall_mem_cons.2 ⟨.atom _, List.forall_mem_cons.2 ⟨.atom _,
      List.forall_mem_singleton.2 (.atom _)⟩⟩
  have hfirst : first.IsTyped .anyText := by
    refine hnode _ ⟨.inr (htext _), .inl rfl, [], rfl, nofun⟩ ?_
    exact List.forall_mem_cons.2 ⟨.atom _, List.forall_mem_cons.2 ⟨.atom _,
      List.forall_mem_singleton.2 (.list nofun)⟩⟩
  have hsecond : second.IsTyped .anyText := by
    refine hnode _ ⟨.inl rfl, .inr (htext _), [condition], rfl,
      List.forall_mem_singleton.2 ⟨_, rfl, by decide⟩⟩ ?_
    exact List.forall_mem_cons.2 ⟨.atom _, List.forall_mem_cons.2 ⟨.atom _,
      List.forall_mem_singleton.2 (.list (List.forall_mem_singleton.2 hcondition))⟩⟩
  have hselector : (Value.node (.selector (.list [first, second]))).IsTyped .anyText := by
    have hkinds : ∀ v ∈ [first, second], v.IsOf Kind.compounds :=
      List.forall_mem_cons.2 ⟨⟨_, rfl, by decide⟩, List.forall_mem_singleton.2 ⟨_, rfl, by decide⟩⟩
    refine hnode _ ⟨[first, second], rfl, hkinds⟩ (List.forall_mem_singleton.2 (.list ?_))
    exact List.forall_mem_cons.2 ⟨hfirst, List.forall_mem_singleton.2 hsecond⟩
  have hrule : rule.IsRuleOf .anyText :=
    ⟨_, _, _, rfl, List.forall_mem_singleton.2 ⟨⟨_, rfl, by decide⟩, hselector⟩, nofun,
      .inr (.inl ⟨htext _, trivial⟩)⟩
  have hempty : empty.IsRuleOf .anyText := ⟨_, _, _, rfl, nofun, nofun, .inl rfl⟩
  let d : AnnotatedDocument .anyText :=
    { charsets := [], imports := [], fontFaces := [], ruleSets := [empty, rule]
      charsets_typed := nofun
      imports_typed := nofun
      fontFaces_typed := nofun
      ruleSets_typed := List.forall_mem_cons.2 ⟨hempty, List.forall_mem_singleton.2 hrule⟩ }
  have houtcome : (d.value.printDocument.exec .pretty {}).1 = .error e := rfl
  have hoffence := (printDocument_first_offence d "  " "\n" (.atom (.bool false)) {}).2 e houtcome
  exact ⟨d, rfl, houtcome, by decide +kernel, hoffence⟩

end Stylesheet
