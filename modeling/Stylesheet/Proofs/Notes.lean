import Stylesheet.Proofs.Levels
import Stylesheet.Proofs.Visits

/-!
# A note for every document condition

A note is taken for each document condition among the visits of a document and for nothing else
(`notes_printDocument`). `Print.Notes layout act k` counts the notes that an action takes if it
succeeds; the counts of actions put together add up, construct by construct, and the recursion over
a tree is that of its visits. That a nested document forgets the notes is why there must be none.
-/

namespace Stylesheet

/-! ## Counting notes -/

namespace Print

variable {α β : Type} {layout : Layout} {j k : Nat}

/-- An action that takes `k` notes of document conditions whenever it succeeds, and no others. -/
def Notes (layout : Layout) (act : Print α) (k : Nat) : Prop :=
  ∀ s a t, act.exec layout s = (.ok a, t) →
    t.notes = s.notes ++ List.replicate k Render.emptyBodyNote

theorem Notes.pure (a : α) : Notes layout (pure a) 0 := by
  rintro s _ _ ⟨⟩
  simp

/-- What fails takes as many notes as one likes. -/
theorem Notes.throw (e : Fault) (k : Nat) : Notes layout (throw e : Print α) k := nofun

/-- What only looks takes no notes. -/
theorem Notes.look {act : Print α} (h : ∀ s, ∃ x, act.exec layout s = (x, s)) :
    Notes layout act 0 := by
  intro s a t hs
  obtain ⟨x, hx⟩ := h s
  cases hx.symm.trans hs
  simp

theorem Notes.bind {act : Print α} {f : α → Print β} (h : Notes layout act j)
    (hf : ∀ a, Notes layout (f a) k) : Notes layout (act >>= f) (j + k) := by
  intro s b t hs
  rw [exec_bind] at hs
  cases hact : act.exec layout s with
  | mk x r =>
    rw [hact] at hs
    cases x with
    | error e => cases hs
    | ok a =>
      rw [hf a r b t hs, h s a r hact, List.append_assoc, List.replicate_append_replicate]

/-- An action that takes no notes, and what follows it. -/
theorem Notes.after {act : Print α} {f : α → Print β} (h : Notes layout act 0)
    (hf : ∀ a, Notes layout (f a) k) : Notes layout (act >>= f) k := by
  simpa using Notes.bind h hf

theorem Notes.lift (x : Except Fault α) {f : α → Print β} (h : ∀ a, x = .ok a →
    Notes layout (f a) k) : Notes layout (liftM x >>= f) k := by
  cases x with
  | error e => exact Notes.throw e k
  | ok a => exact h a rfl

theorem Notes.shift (d : Int) : Notes layout (shift d) 0 := by
  rintro s _ _ ⟨⟩
  simp

theorem Notes.indented {act : Print α} (h : Notes layout act k) :
    Notes layout (indented act) k := by
  intro s a t hs
  rw [exec_indented] at hs
  obtain ⟨hx, rfl⟩ := Prod.mk.inj hs
  exact h { s with level := s.level + 1 } a (act.exec layout _).2 (Prod.ext hx rfl)

theorem Notes.keepingLevel {act : Print α} (h : Notes layout act k) :
    Notes layout (keepingLevel act) k := by
  intro s a t hs
  rw [exec_keepingLevel] at hs
  obtain ⟨hx, rfl⟩ := Prod.mk.inj hs
  exact h s a (act.exec layout s).2 (Prod.ext hx rfl)

theorem Notes.mapM {vs : List Value} {f : Value → Print α}
    (h : ∀ v ∈ vs, Notes layout (f v) v.queries) : Notes layout (vs.mapM f) (queriesIn vs) := by
  induction vs with
  | nil => exact Notes.pure []
  | cons v vs ih =>
    obtain ⟨hv, hvs⟩ := List.forall_mem_cons.1 h
    rw [List.mapM_cons, queriesIn_cons]
    exact Notes.bind hv fun a => Notes.bind (k := 0) (ih hvs) fun as => Notes.pure (a :: as)

theorem notes_indentation : Notes layout indentation 0 := Notes.look fun _ => ⟨_, rfl⟩

theorem notes_lineBreak : Notes layout lineBreak 0 := Notes.look fun _ => ⟨_, rfl⟩

end Print

/-! ## Constructs -/

section

open Print

variable {layout : Layout}

/-- A value for which as many notes are taken as there are document conditions among its visits. -/
def Noted (layout : Layout) (v : Value) : Prop := Notes layout v.render v.queries

theorem noted_atom (a : Atom) : Noted layout (.atom a) := by
  rw [Noted, Value.render]
  exact Notes.throw _ _

/-- The items of a sequence are printed one after another; a text has characters for items, none of
which is a document condition. -/
theorem notes_each {v : Value} {f : Part → Print String}
    (hf : ∀ w, Noted layout w → Notes layout (f w.part) w.queries)
    (h : ∀ w ∈ v.elements, Noted layout w) :
    Notes layout (v.parts.each f) (queriesIn v.elements) := by
  rw [Value.parts_eq_map]
  cases hitems : v.items? with
  | none => exact Notes.throw _ _
  | some vs =>
    show Notes layout ((vs.map Value.part).mapM f) _
    rw [List.mapM_map]
    rcases Value.elements_of_items? hitems with rfl | ⟨hnil, hatoms⟩
    · exact Notes.mapM fun w hw => hf w (h w hw)
    · have hzero : queriesIn vs = 0 := queriesIn_eq_zero fun w hw => by
        obtain ⟨a, rfl⟩ := hatoms w hw
        exact Value.queries_eq_zero nofun
      rw [hnil, queriesIn_nil, ← hzero]
      refine Notes.mapM fun w hw => hf w ?_
      obtain ⟨a, rfl⟩ := hatoms w hw
      exact noted_atom a

theorem notes_texts {v : Value} (h : ∀ w ∈ v.elements, Noted layout w) :
    Notes layout v.parts.texts (queriesIn v.elements) := notes_each (fun _ hw => hw) h

theorem notes_separated {v : Value} (h : ∀ w ∈ v.elements, Noted layout w) (separator : String) :
    Notes layout (v.parts.separated separator) (queriesIn v.elements) :=
  Notes.bind (k := 0) (notes_texts h) fun _ => Notes.pure _

theorem notes_joined {v : Value} (h : ∀ w ∈ v.elements, Noted layout w) :
    Notes layout v.parts.joined (queriesIn v.elements) :=
  Notes.bind (k := 0) (notes_texts h) fun _ => Notes.pure _

/-- A text has no document condition in it. -/
theorem queries_of_text? {v : Value} {s : String} (h : v.text? = some s) : v.queries = 0 := by
  obtain ⟨a, rfl, -⟩ := Value.exists_atom_of_text? h
  exact Value.queries_eq_zero nofun

theorem queries_of_isAbsent {v : Value} (h : v.isAbsent = true) : v.queries = 0 := by
  unfold Value.isAbsent at h
  split at h
  · exact Value.queries_eq_zero nofun
  · cases h

theorem notes_param (w : Value) (h : Noted layout w) :
    Notes layout (Render.param w.part) w.queries := by
  unfold Render.param
  split
  case h_1 s hs =>
    rw [show w.queries = 0 from queries_of_text? hs]
    exact Notes.pure s
  case h_2 =>
    split
    · exact Notes.throw _ _
    · split
      · exact h
      · exact Notes.bind (k := 0) h fun _ => Notes.pure _

theorem notes_operand (w : Value) (h : Noted layout w) :
    Notes layout (Render.operand w.part) w.queries := by
  rw [Render.operand]
  split
  · exact Notes.throw _ _
  · exact Notes.bind (k := 0) h fun _ => Notes.pure _

/-- The comparison of a printer with itself while it takes no notes. -/
def quietComparison (layout : Layout) : Comparison (List String) where
  left := layout
  right := layout
  States notes s t := s = t ∧ s.notes = notes
  Texts := Eq
  refl _ := rfl
  append := (atLevels layout).append

theorem notes_of_prints {act : Print String} (h : (quietComparison layout).Prints act) :
    Notes layout act 0 := by
  intro s a t hs
  have hagree : (quietComparison layout).Agree s.notes Eq (act.exec layout s)
      (act.exec layout s) := h s.notes s s ⟨rfl, rfl⟩
  rw [hs] at hagree
  cases hagree with
  | ok _ ht => simpa using ht.2

theorem notes_rgb {red green blue : Value} (hr : Noted layout red) (hg : Noted layout green)
    (hb : Noted layout blue) :
    Notes layout (Render.rgb red.render green.render blue.render)
      (queriesIn [red, green, blue]) :=
  Notes.bind hr fun _ => Notes.bind hg fun _ => Notes.bind hb fun _ => Notes.pure _

theorem notes_call (name : Value) {params : Value} (h : ∀ w ∈ params.elements, Noted layout w) :
    Notes layout (Render.call name params.parts) (queriesIn params.elements) := by
  refine Notes.bind (k := 0) (notes_each notes_param h) fun _ => ?_
  exact Notes.bind (k := 0) (notes_of_prints (Comparison.prints_identifier name)) fun _ =>
    Notes.pure _

theorem notes_simple (selector name combinator : Value) {qualifiers : Value}
    (h : ∀ w ∈ qualifiers.elements, Noted layout w) :
    Notes layout (Render.simple selector name combinator qualifiers.parts)
      (queriesIn qualifiers.elements) := by
  refine Notes.after (notes_of_prints (Comparison.prints_combinator _ _)) fun _ => ?_
  refine Notes.after (notes_of_prints (Comparison.prints_elementName _)) fun _ => ?_
  exact Notes.bind (k := 0) (notes_joined h) fun _ => Notes.pure _

theorem notes_conditional {base condition : Value} (hb : Noted layout base)
    (hc : Noted layout condition) :
    Notes layout (Render.conditional base.render condition.render)
      (queriesIn [base, condition]) :=
  Notes.bind hb fun _ => Notes.bind hc fun _ => Notes.pure _

theorem notes_mediaFeature (property : Value) {value : Value} (h : Noted layout value) :
    Notes layout (Render.mediaFeature property value value.render) value.queries := by
  have hvalue : Notes layout (Render.featureValue value value.render) value.queries := by
    unfold Render.featureValue
    split
    case h_1 s hs =>
      rw [queries_of_text? hs]
      exact Notes.pure _
    case h_2 => exact h
  refine Notes.bind (k := 0) hvalue fun _ => ?_
  exact Notes.after (notes_of_prints (Comparison.prints_identifier _)) fun _ => Notes.pure _

theorem notes_mediaQuery {expression conjuncts : Value} (modifier : Value)
    (he : Noted layout expression) (hc : ∀ w ∈ conjuncts.elements, Noted layout w) :
    Notes layout (Render.mediaQuery expression.render modifier conjuncts conjuncts.parts)
      (queriesIn (expression :: conjuncts.elements)) := by
  rw [queriesIn_cons]
  refine Notes.bind he fun _ => ?_
  split
  case isTrue h =>
    rw [Value.elements_of_isVacant h]
    exact Notes.pure _
  case isFalse => exact Notes.bind (k := 0) (notes_separated hc _) fun _ => Notes.pure _

theorem notes_importRule {target : Value} (h : Noted layout target) (media : Value)
    (mediaParts : Parts) :
    Notes layout (Render.importRule target.render media mediaParts) target.queries := by
  refine Notes.after (notes_of_prints (Comparison.prints_importMedia _ _)) fun _ => ?_
  exact Notes.after notes_indentation fun _ => Notes.bind (k := 0) h fun _ => Notes.pure _

theorem notes_namespaceRule {target shorthand : Value} (ht : Noted layout target)
    (hs : Noted layout shorthand) :
    Notes layout (Render.namespaceRule target.render shorthand shorthand.render)
      (queriesIn [shorthand, target]) := by
  refine Notes.after notes_indentation fun _ => ?_
  split
  case isTrue h =>
    rw [queriesIn_cons, queries_of_isAbsent h, Nat.zero_add]
    exact Notes.bind ht fun _ => Notes.pure _
  case isFalse => exact Notes.bind hs fun _ => Notes.bind ht fun _ => Notes.pure _

/-- A document condition is the one construct that takes a note. -/
theorem notes_documentQuery {functions : Value} (h : ∀ w ∈ functions.elements, Noted layout w) :
    Notes layout (Render.documentQuery functions.parts) (1 + queriesIn functions.elements) := by
  have hnote : Notes layout (Print.note Render.emptyBodyNote) 1 := by
    rintro s _ _ ⟨⟩
    rfl
  refine Notes.bind hnote fun _ => Notes.bind (k := 0) (notes_separated h _) fun _ => ?_
  exact Notes.after notes_indentation fun _ => Notes.pure _

theorem notes_declaration (property important : Value) (owned : Bool) {expressions : Value}
    (h : ∀ w ∈ expressions.elements, Noted layout w) :
    Notes layout (Render.declaration property expressions.parts important owned)
      (queriesIn expressions.elements) := by
  have hstart : Notes layout (Render.lineStart owned) 0 := by
    cases owned with
    | true => exact notes_indentation
    | false => exact Notes.pure _
  have hvalue : Notes layout (Render.declarationValue expressions.parts)
      (queriesIn expressions.elements) :=
    Notes.bind (k := 0) (notes_each notes_operand h) fun _ => Notes.pure _
  refine Notes.bind (k := 0) (Notes.indented (Notes.after hstart fun _ =>
    Notes.bind (k := 0) hvalue fun _ => Notes.pure _)) fun _ => ?_
  exact Notes.after (notes_of_prints (Comparison.prints_identifier _)) fun _ => Notes.pure _

theorem notes_block (selectors : String) (declarations : List String) :
    Notes layout (Render.block selectors declarations) 0 := by
  refine Notes.after (Notes.look fun _ => ⟨_, rfl⟩) fun compact => ?_
  split
  · exact Notes.pure _
  · exact Notes.after notes_indentation fun _ => Notes.after notes_lineBreak fun _ => Notes.pure _

/-- A rule set without selectors takes no notes, whatever its declarations are. -/
theorem notes_ruleSet {selectors declarations : Value} (parent : Value)
    (h : ∀ w ∈ (Node.ruleSet selectors declarations parent).printed, Noted layout w) :
    Notes layout (Render.ruleSet selectors selectors.parts declarations.parts)
      (queriesIn (Node.ruleSet selectors declarations parent).printed) := by
  unfold Render.ruleSet
  rw [Node.printed] at h ⊢
  split
  case isTrue => exact Notes.pure _
  case isFalse hne =>
    rw [if_neg hne] at h
    obtain ⟨hs, hd⟩ := List.forall_mem_append.1 h
    rw [queriesIn_append]
    exact Notes.bind (notes_separated hs _) fun _ => Notes.bind (k := 0) (notes_texts hd) fun _ =>
      notes_block _ _

theorem notes_fontFace {declarations : Value} (h : ∀ w ∈ declarations.elements, Noted layout w) :
    Notes layout (Render.fontFace declarations.parts) (queriesIn declarations.elements) := by
  have hlines (inner : String) : Notes layout (declarations.parts.each fun p => do
      let t ← p.text
      pure (inner ++ t ++ ";")) (queriesIn declarations.elements) :=
    notes_each (fun _ hw => Notes.bind (k := 0) hw fun _ => Notes.pure _) h
  refine Notes.bind (k := 0) (Notes.indented (Notes.after notes_indentation hlines)) fun _ => ?_
  exact Notes.after notes_lineBreak fun _ => Notes.after notes_indentation fun _ => Notes.pure _

/-- Nodes other than documents and document conditions take the notes of what is printed for
them. -/
theorem notes_node {n : Node Value} (hd : n.kind ≠ .document) (hq : n.kind ≠ .documentQuery)
    (h : ∀ w ∈ n.printed, Noted layout w) : Notes layout n.render (queriesIn n.printed) := by
  cases n <;> rw [Node.render]
  case document => exact absurd rfl hd
  case ruleSet => exact notes_ruleSet _ h
  case declaration => exact notes_declaration _ _ _ h
  case fontFace => exact notes_fontFace h
  case mediaType => exact notes_of_prints (Comparison.prints_identifier _)
  case mediaFeature => exact notes_mediaFeature _ (h _ List.mem_cons_self)
  case mediaQuery =>
    obtain ⟨he, hc⟩ := List.forall_mem_cons.1 h
    exact notes_mediaQuery _ he hc
  case mediaQueryList => exact notes_separated h _
  case charset => exact notes_of_prints (Comparison.prints_charset _)
  case importRule => exact notes_importRule (h _ List.mem_cons_self) _ _
  case namespaceRule =>
    obtain ⟨hs, ht⟩ := List.forall_mem_cons.1 h
    exact notes_namespaceRule (ht _ List.mem_cons_self) hs
  case documentQuery => exact absurd rfl hq
  case ident => exact notes_of_prints (Comparison.prints_identifier _)
  case hash => exact Notes.pure _
  case uri => exact notes_of_prints (Comparison.prints_uri _)
  case string => exact notes_of_prints (Comparison.prints_quoted _)
  case number => exact Notes.pure _
  case resolution => exact Notes.pure _
  case rgb =>
    simp only [Node.printed, List.forall_mem_cons] at h
    exact notes_rgb h.1 h.2.1 h.2.2.1
  case function => exact notes_call _ h
  case idSelector => exact notes_of_prints (Comparison.prints_idSelector _)
  case classSelector => exact notes_of_prints (Comparison.prints_classSelector _)
  case pseudoClass => exact notes_of_prints (Comparison.prints_pseudoClass _ _)
  case pseudoElement => exact notes_of_prints (Comparison.prints_pseudoElement _ _)
  case attributeSelector => exact notes_of_prints (Comparison.prints_attributeSelector _ _ _ _)
  case simple => exact notes_simple _ _ _ h
  case selector => exact notes_joined h
  case nodeSelector => exact Notes.pure _
  case elementSelector => exact notes_of_prints (Comparison.prints_identifier _)
  case conditionalSelector =>
    obtain ⟨hb, hc⟩ := List.forall_mem_cons.1 h
    exact notes_conditional hb (hc _ List.mem_cons_self)

/-- A document condition takes one note more than what is printed for it. -/
theorem noted_node {n : Node Value} (hd : n.kind ≠ .document)
    (h : ∀ w ∈ n.printed, Noted layout w) : Noted layout (.node n) := by
  rw [Noted, Value.render, Value.queries_eq]
  show Notes layout n.render ((if n.kind == .documentQuery then 1 else 0) + queriesIn n.printed)
  by_cases hq : n.kind = .documentQuery
  · have hof : (Value.node n).IsOf [.documentQuery] := ⟨n, rfl, by simp [hq]⟩
    obtain ⟨get, owned, hn⟩ := hof.exists_eq_assemble
    cases hn
    rw [Node.assemble, Node.render]
    exact notes_documentQuery h
  · rw [if_neg (by simpa using hq), Nat.zero_add]
    exact notes_node hd hq h

end

/-! ## Trees and documents -/

section

open Print

variable {layout : Layout}

/-- In a tree without documents a note is taken for every document condition that is printed. The
recursion is that of the visits. -/
theorem noted_of_documentFree {v : Value} (h : v.DocumentFree) : Noted layout v := by
  match v, h with
  | .atom a, _ => exact noted_atom a
  | .foreign _, _ | .list _, _ | .tuple _, _ =>
    rw [Noted, Value.render]
    exact Notes.throw _ _
  | .node n, .node hn h =>
    refine noted_node hn fun w hw => ?_
    have := Value.sizeOf_lt_of_mem_printed (v := .node n) hw
    exact noted_of_documentFree (Value.everywhere_of_mem_printed h hw)
  | .object key added v, .object _ h =>
    have hv : Noted layout v := noted_of_documentFree h
    rw [Noted, Value.queries_eq] at hv ⊢
    rw [Value.render]
    exact hv
termination_by sizeOf v
decreasing_by
  · exact this
  · simp only [Value.object.sizeOf_spec]
    omega

theorem queriesIn_pending_absent {rs : List Value}
    (hrs : ∀ r ∈ rs, r.parent.contents = .absent → r.parent = .absent) :
    queriesIn (pending .absent rs) =
      queriesIn ((runs Value.sameGroup rs).flatMap blockPrinted) := by
  rcases blocks_eq_pending hrs with h | h
  · rw [h]
  · rw [h, queriesIn_cons, queries_of_isAbsent rfl, Nat.zero_add]

theorem notes_closeGroup (identity : Value) : Notes layout (Render.closeGroup identity) 0 := by
  unfold Render.closeGroup
  split
  · exact Notes.pure _
  · exact Notes.after (Notes.shift _) fun _ => Notes.after notes_indentation fun _ => Notes.pure _

theorem notes_openGroup {parent : Value} (h : Noted layout parent) :
    Notes layout (Render.openGroup ⟨parent, parent.heading parent.render⟩) parent.queries := by
  have hheading : Notes layout (parent.heading parent.render) parent.queries := by
    unfold Value.heading
    split
    case h_1 => exact h
    case h_2 hne =>
      rw [Value.queries_eq_zero hne]
      exact Notes.pure _
  unfold Render.openGroup
  split
  case isTrue habsent =>
    rw [queries_of_isAbsent habsent]
    exact Notes.pure _
  case isFalse =>
    refine Notes.bind (k := 0) hheading fun _ => Notes.after notes_indentation fun _ => ?_
    exact Notes.after (Notes.shift _) fun _ => Notes.pure _

/-- The loop over the rule sets, with the group that is open as its invariant. -/
theorem notes_groups {rs : List Value} (hrs : ∀ r ∈ rs, r.DocumentFree) (current : Value) :
    Notes layout (Render.groups current (rs.map Value.part)) (queriesIn (pending current rs)) := by
  induction rs generalizing current with
  | nil =>
    rw [pending_nil]
    exact notes_closeGroup current
  | cons r rs ih =>
    obtain ⟨hr, hrs⟩ := List.forall_mem_cons.1 hrs
    have hgroup : r.part.group = _ := Value.group_eq r
    rw [List.map_cons, Render.groups]
    refine Notes.lift r.part.group fun g hg => ?_
    cases hparent : r.field? .parent with
    | none =>
      rw [hgroup, hparent] at hg
      cases hg
    | some parent =>
      rw [hgroup, hparent] at hg
      cases hg
      have hr' : r.parent = parent := by rw [Value.parent, hparent]; rfl
      have hnoted : Notes layout r.part.text r.queries := noted_of_documentFree hr
      split
      case isTrue h =>
        rw [pending_cons_of_same rs (hr' ▸ h), queriesIn_cons]
        exact Notes.bind hnoted fun _ => Notes.bind (k := 0) (ih hrs current) fun _ => Notes.pure _
      case isFalse h =>
        have hopen : Notes layout (Render.openGroup ⟨parent, parent.heading parent.render⟩)
            parent.queries := notes_openGroup (noted_of_documentFree (hr.of_field? hparent))
        rw [pending_cons_of_not_same rs (hr' ▸ Bool.eq_false_iff.2 h), hparent, hr',
          Option.toList_some, List.singleton_append, queriesIn_cons, queriesIn_cons]
        refine Notes.after (notes_closeGroup current) fun _ => Notes.bind hopen fun _ => ?_
        exact Notes.bind hnoted fun _ => Notes.bind (k := 0) (ih hrs parent) fun _ => Notes.pure _

theorem notes_ruleSets {ruleSets : Value} (h : ∀ r ∈ ruleSets.elements, r.DocumentFree)
    (hgroups : ∀ r ∈ ruleSets.elements, r.parent.contents = .absent → r.parent = .absent) :
    Notes layout (Render.ruleSets ruleSets.parts)
      (queriesIn ((runs Value.sameGroup ruleSets.elements).flatMap blockPrinted)) := by
  rw [← queriesIn_pending_absent hgroups]
  refine Notes.keepingLevel (Notes.lift _ fun ps hps => ?_)
  rw [Value.parts_eq_map] at hps
  cases hitems : ruleSets.items? with
  | none =>
    rw [hitems] at hps
    cases hps
  | some rs =>
    rw [hitems] at hps
    cases hps
    rcases Value.elements_of_items? hitems with rfl | ⟨hnil, hatoms⟩
    · exact notes_groups h .absent
    · rw [hnil, pending_nil]
      cases rs with
      | nil => exact notes_closeGroup .absent
      | cons c rs =>
        obtain ⟨a, rfl⟩ := hatoms c List.mem_cons_self
        exact Notes.throw _ _

theorem notes_checkSequences (parts : List Parts) :
    Notes layout (Render.checkSequences parts) 0 := by
  induction parts with
  | nil => exact Notes.pure ()
  | cons ps parts ih => exact Notes.after (Notes.lift ps fun _ _ => Notes.pure ()) fun _ => ih

/-- A document takes the notes of what is printed for it. -/
theorem notes_fragments {charsets imports fontFaces ruleSets : Value}
    (h : ∀ v ∈ [charsets, imports, fontFaces, ruleSets], v.DocumentFree)
    (hgroups : ∀ r ∈ ruleSets.elements, r.parent.contents = .absent → r.parent = .absent) :
    Notes layout (Render.fragments charsets.parts imports.parts fontFaces.parts ruleSets.parts)
      (queriesIn (Node.document charsets imports fontFaces ruleSets).printed) := by
  have helements : ∀ v ∈ [charsets, imports, fontFaces, ruleSets], ∀ w ∈ v.elements,
      w.DocumentFree := fun v hv w hw => (h v hv).of_mem_elements hw
  have htexts : ∀ v ∈ [charsets, imports, fontFaces, ruleSets],
      Notes layout v.parts.texts (queriesIn v.elements) := fun v hv =>
    notes_texts fun w hw => noted_of_documentFree (helements v hv w hw)
  have hrules : Notes layout (Render.ruleSets ruleSets.parts) _ :=
    notes_ruleSets (helements ruleSets (by simp)) hgroups
  rw [Node.printed, queriesIn_append, queriesIn_append, queriesIn_append, Nat.add_assoc,
    Nat.add_assoc]
  refine Notes.after (notes_checkSequences _) fun _ => ?_
  refine Notes.bind (htexts charsets (by simp)) fun _ => ?_
  refine Notes.bind (htexts imports (by simp)) fun _ => ?_
  refine Notes.bind (htexts fontFaces (by simp)) fun _ => ?_
  exact Notes.bind (k := 0) hrules fun _ => Notes.pure _

theorem isDocument_of_contents {d charsets imports fontFaces ruleSets : Value}
    (h : d.contents = .node (.document charsets imports fontFaces ruleSets)) :
    d.isDocument = true := by
  fun_induction Value.contents d with
  | case1 key added d ih => exact ih h
  | case2 d _ =>
    cases h
    rfl

/-- A document is printed in its own place as anywhere else. -/
theorem render_of_document {d charsets imports fontFaces ruleSets : Value}
    (hd : d.contents = .node (.document charsets imports fontFaces ruleSets)) :
    d.printDocument = (Node.document charsets imports fontFaces ruleSets).render := by
  rw [← (Value.render_of_isDocument (isDocument_of_contents hd)).1, ← Value.render_contents, hd,
    Value.render]

/-- A document that is printed leaves the notes of what is printed for it, and no others. -/
theorem notes_printDocument {d charsets imports fontFaces ruleSets : Value}
    (hd : d.contents = .node (.document charsets imports fontFaces ruleSets))
    (h : ∀ v ∈ [charsets, imports, fontFaces, ruleSets], v.DocumentFree)
    (hgroups : ∀ r ∈ ruleSets.elements, r.parent.contents = .absent → r.parent = .absent)
    {s t : PrintState} {text : String} (hprint : d.printDocument.exec layout s = (.ok text, t)) :
    t.notes = List.replicate d.queries Render.emptyBodyNote := by
  have hcount : d.queries =
      queriesIn (Node.document charsets imports fontFaces ruleSets).printed := by
    rw [← Value.queries_contents, hd, Value.queries_eq]
    exact Nat.zero_add _
  have hbody : Print.Notes layout (do
      let ts ← Render.fragments charsets.parts imports.parts fontFaces.parts ruleSets.parts
      Render.lines ts) (d.queries + 0) :=
    Print.Notes.bind (hcount ▸ notes_fragments h hgroups) fun ts =>
      Print.Notes.after Print.notes_lineBreak fun _ => Print.Notes.pure _
  rw [render_of_document hd, Node.render, Render.document, Print.exec_bind, Print.exec_reset]
    at hprint
  exact hbody {} text t hprint

end

end Stylesheet
