import Stylesheet.Proofs.Blanks
import Stylesheet.Proofs.Content
import Stylesheet.Proofs.Grouping

/-!
# What a document holds stays inside its blocks

The braces of a printed document are those of its own blocks, however its names and strings try to
end a string or a block before its time: a pair for every font description, for every rule set that
has selectors, and for every run of rule sets of a group, around those of the rule sets
(`printDocument_contained`).

Declarations are lines of their own, or are made so by the font description that they stand in. That
matters because a trimmed value may end with a backslash, and what it hides is the end of the line.
-/

namespace Stylesheet

open Print

/-! ## Declarations and blocks -/

/-- A pair of braces. -/
def bracePair : List Brace := [⟨true, 0⟩, ⟨false, 0⟩]

/-- The start of a block. -/
theorem IsContent.opening {t : String} (h : IsContent t) :
    Reads [] (t ++ " \x7b") ['\x7b'] [⟨true, 0⟩] :=
  Reads.append h (by decide : Reads [] " \x7b" ['\x7b'] [⟨true, 0⟩])

/-- Lines between braces. -/
theorem contained_lines {start b i : String} {ds : List String}
    (hstart : Reads [] start ['\x7b'] [⟨true, 0⟩]) (hb : IsInert b) (hi : IsInert i)
    (hds : ∀ d ∈ ds, IsContent d) :
    Contained (start ++ b ++ b.intercalate ds ++ b ++ i ++ "\x7d") bracePair := by
  have hb' := hb.contained.inside ['\x7b']
  have hlines := (contained_intercalate hb.contained hds).inside ['\x7b']
  have hbody := (((hstart.append hb').append hlines).append hb').append (hi.contained.inside _)
  exact hbody.append (by decide : Reads ['\x7b'] "\x7d" [] [⟨false, 0⟩])

theorem Text.IsBlank.isInert {t : String} (h : Text.IsBlank t) : IsInert t :=
  fun c hc => role_of_isBlank (h c hc)

section

variable {layout : Layout} (hl : layout.IsBlank)

include hl

theorem yields_indentation : Yields layout Print.indentation IsInert := by
  intro s
  obtain ⟨i, hi, hb⟩ := hl.indentation s.level
  exact ⟨i, hi, hb.isInert⟩

theorem yields_lineBreak : Yields layout Print.lineBreak IsInert := by
  intro s
  obtain ⟨b, hb, hbb⟩ := hl.joint
  exact ⟨b, hb, hbb.isInert⟩

/-- A declaration has to be ended by something, unless it ends itself. -/
theorem yields_declaration {property important : Value} {vs : List Value} {owned : Bool}
    (hp : property.IsSomeText) (hvs : ∀ v ∈ vs, YieldsTerm layout v) :
    Yields layout (Render.declaration property (Value.list vs).parts important owned) fun t =>
      ∀ u, IsInert u → (owned = false → u ≠ "") → IsContent (t ++ u) := by
  have hstart : Yields layout (Render.lineStart owned) IsInert := by
    cases owned with
    | true => exact yields_indentation hl
    | false => exact Yields.pure (by decide)
  have hvalue : Yields layout (Render.declarationValue (Value.list vs).parts) fun t =>
      ∃ w, IsContent w ∧ t = Text.trim w := by
    refine Yields.bind (yields_each fun v hv => yields_operand (hvs v hv)) fun ts hts => ?_
    exact Yields.pure ⟨_, contained_join hts, rfl⟩
  have hline : Yields layout (Print.indented do
      let indent ← Render.lineStart owned
      let value ← Render.declarationValue (Value.list vs).parts
      pure (indent, value)) fun r => IsInert r.1 ∧ ∃ w, IsContent w ∧ r.2 = Text.trim w :=
    Yields.indented (Yields.bind hstart fun _ hi => Yields.bind hvalue fun _ hv =>
      Yields.pure ⟨hi, hv⟩)
  refine Yields.bind hline fun r ⟨hi, w, hw, hr⟩ => ?_
  refine Yields.bind (yields_identifier hp) fun p hp => Yields.pure fun u hu hne => ?_
  have hhead : IsContent (r.1 ++ p ++ ": ") :=
    (IsContent.append hi.contained hp).append (by decide : IsContent ": ")
  -- What follows the value is free of special characters, and there is something of it.
  have htail (important semicolon : String) (h : IsInert important) (h' : IsInert semicolon)
      (hne : semicolon = "" → u ≠ "") :
      IsContent (r.1 ++ p ++ ": " ++ r.2 ++ important ++ semicolon ++ u) := by
    have hne' : important ++ semicolon ++ u ≠ "" := by
      intro he
      obtain ⟨he, hu⟩ := String.append_eq_empty_iff.1 he
      exact hne (String.append_eq_empty_iff.1 he).2 hu
    have hvalue := hw.trim_append ((h.append h').append hu) hne'
    rw [← hr] at hvalue
    simpa only [String.append_assoc] using hhead.append hvalue
  refine htail _ _ (by split <;> decide) (by split <;> decide) ?_
  cases owned with
  | true => exact fun h => absurd h (by decide)
  | false => exact fun _ => hne rfl

/-- Braces around the declarations of a rule set, in one line or on lines of their own. -/
theorem yields_block {ss : String} {ds : List String} (hss : IsContent ss)
    (hds : ∀ d ∈ ds, IsContent d) : Yields layout (Render.block ss ds) (Contained · bracePair) := by
  have hcompact : Yields layout Print.isCompact fun _ => True := fun s => ⟨_, rfl, trivial⟩
  refine Yields.bind hcompact fun compact _ => ?_
  split
  case isTrue =>
    have hbody := hss.opening.append ((contained_join hds).inside ['\x7b'])
    exact Yields.pure (hbody.append (by decide : Reads ['\x7b'] " \x7d" [] [⟨false, 0⟩]))
  case isFalse =>
    refine Yields.bind (yields_indentation hl) fun i hi => ?_
    refine Yields.bind (yields_lineBreak hl) fun b hb => Yields.pure ?_
    exact contained_lines (IsContent.append hi.contained hss).opening hb hi hds

/-- A typed declaration in its place. -/
theorem Value.IsTyped.yields_declaration {property expressions important : Value} {owned : Bool}
    (h : (Value.node (.declaration property expressions important owned)).IsTyped .contained) :
    Yields layout (Value.node (.declaration property expressions important owned)).render fun t =>
      ∀ u, IsInert u → (owned = false → u ≠ "") → IsContent (t ++ u) := by
  obtain ⟨hp, ⟨vs, rfl, hvs⟩, -⟩ := h.types
  have hbelow : YieldsBelow layout _ := h.yieldsBelow
  exact Stylesheet.yields_declaration hl hp
    (hbelow.terms hvs (by simp [Node.fields, Node.entries]))

theorem Value.IsTyped.yields_fontFace {v : Value} (h : v.IsTyped .contained)
    (hv : v.IsOf [.fontFace]) : Yields layout v.render (Contained · bracePair) := by
  obtain ⟨get, owned, hget⟩ := hv.exists_eq_assemble
  obtain ⟨declarations, rfl⟩ : ∃ ds, v = .node (.fontFace ds) := ⟨_, hget⟩
  obtain ⟨ds, rfl, hds⟩ := h.types
  have hlines : Yields layout (Print.indented do
      let inner ← Print.indentation
      (Value.list ds).parts.each fun p => do
        let t ← p.text
        pure (inner ++ t ++ ";")) fun ts => ∀ t ∈ ts, IsContent t := by
    refine Yields.indented (Yields.bind (yields_indentation hl) fun i hi => ?_)
    refine yields_each fun d hd => ?_
    have hd' := h.of_mem_list List.mem_cons_self hd
    obtain ⟨get, owned, rfl⟩ := (hds d hd).exists_eq_assemble
    refine Yields.bind (hd'.yields_declaration hl) fun t ht => Yields.pure ?_
    rw [String.append_assoc]
    exact IsContent.append hi.contained (ht ";" (by decide) fun _ => by decide)
  refine Yields.bind hlines fun ts hts => ?_
  refine Yields.bind (yields_lineBreak hl) fun b hb => ?_
  refine Yields.bind (yields_indentation hl) fun i hi => Yields.pure ?_
  exact contained_lines (by decide) hb hi hts

/-- The braces of a rule set, which is empty without selectors. -/
def Value.ruleBraces (r : Value) : List Brace :=
  match r with
  | .node (.ruleSet selectors _ _) => if selectors.isVacant then [] else bracePair
  | _ => []

theorem Value.IsTyped.yields_ruleSet {r : Value} (h : r.IsTyped .contained)
    (hr : r.IsOf [.ruleSet]) : Yields layout r.render (Contained · r.ruleBraces) := by
  obtain ⟨_, _, parent, rfl⟩ := hr.exists_ruleSet
  obtain ⟨⟨ss, rfl, hss⟩, ⟨ds, rfl, hds⟩, -⟩ := h.types
  have hbelow : YieldsBelow layout _ := h.yieldsBelow
  show Yields layout (Render.ruleSet (.list ss) _ _) _
  rw [Render.ruleSet, Value.ruleBraces]
  split
  case isTrue => exact Yields.pure (by decide)
  case isFalse =>
    have hselectors := hbelow.list (by decide) hss (by simp [Node.fields, Node.entries])
    have hdeclarations : ∀ d ∈ ds, Yields layout d.render IsContent := by
      intro d hd
      have hd' := h.of_mem_list (by simp [Node.fields, Node.entries]) hd
      obtain ⟨_, _, _, rfl⟩ := hds d hd
      refine (hd'.yields_declaration hl).mono fun t ht => ?_
      simpa using ht "" (by decide) fun h => absurd h (by decide)
    refine Yields.bind (yields_separated (by decide) hselectors) fun ss hss => ?_
    exact Yields.bind (yields_texts hdeclarations) fun ds hds => yields_block hl hss hds

/-! ## Imports -/

theorem Value.IsTyped.yields_importRule {v : Value} (h : v.IsTyped .contained)
    (hv : v.IsOf [.importRule]) : Yields layout v.render IsContent := by
  obtain ⟨get, owned, hget⟩ := hv.exists_eq_assemble
  obtain ⟨target, _, rfl⟩ : ∃ t m, v = .node (.importRule t m) := ⟨_, _, hget⟩
  obtain ⟨ht, ms, rfl, hms⟩ := h.types
  have hbelow : YieldsBelow layout _ := h.yieldsBelow
  have hmedia : Yields layout (Render.importMedia (.list ms) (Value.list ms).parts) IsContent := by
    rw [Render.importMedia]
    split
    case isTrue => exact Yields.pure (by decide)
    case isFalse =>
      refine Yields.bind (yields_each (p := IsContent) fun m hm => ?_) fun ns hns => ?_
      · have hm' := h.of_mem_list (by simp [Node.fields, Node.entries]) hm
        obtain ⟨get, owned, rfl⟩ := (hms m hm).exists_eq_assemble
        exact yields_identifier hm'.types
      · exact Yields.pure (IsContent.append (by decide) (contained_intercalate (by decide) hns))
  refine Yields.bind hmedia fun m hm => ?_
  refine Yields.bind (yields_indentation hl) fun i hi => ?_
  refine Yields.bind (hbelow.field (by decide) ht (by simp [Node.fields, Node.entries]))
    fun t ht => Yields.pure ?_
  have hstart : IsContent (i ++ "@import ") := (hi.append (by decide)).contained
  exact ((hstart.append ht).append hm).append (by decide : IsContent ";")

end

/-! ## Runs of rule sets -/

/-- Texts that are found one after another inside the same brackets. -/
theorem exists_mapM {α β : Type} {as : List α} {f : α → Except Fault β} {texts : β → List String}
    {braces : α → List Brace} {opened : List Char}
    (h : ∀ a ∈ as, ∃ b, f a = .ok b ∧ ReadsAll opened (texts b) opened (braces a)) :
    ∃ bs, as.mapM f = .ok bs ∧ ReadsAll opened (bs.flatMap texts) opened (as.flatMap braces) := by
  induction as with
  | nil => exact ⟨[], rfl, .nil opened⟩
  | cons a as ih =>
    obtain ⟨ha, has⟩ := List.forall_mem_cons.1 h
    obtain ⟨b, hb, hr⟩ := ha
    obtain ⟨bs, hbs, hrs⟩ := ih has
    refine ⟨b :: bs, ?_, hr.append hrs⟩
    rw [List.mapM_cons, hb, hbs]
    rfl

/-- Nodes that are printed one after another inside the same brackets. -/
theorem exists_texts {layout : Layout} {vs : List Value} {opened : List Char} (n : Int)
    {braces : Value → List Brace}
    (h : ∀ v ∈ vs, Yields layout v.render fun t => Reads opened t opened (braces v)) :
    ∃ ts, vs.mapM (Value.textAt layout n) = .ok ts ∧
      ReadsAll opened ts opened (vs.flatMap braces) := by
  have hsingle : ∀ v ∈ vs, ∃ t, v.textAt layout n = .ok t ∧
      ReadsAll opened [t] opened (braces v) := by
    intro v hv
    obtain ⟨t, ht, hr⟩ := Value.exists_textAt (h v hv) n
    exact ⟨t, ht, .single hr⟩
  simpa using exists_mapM hsingle

/-- The braces of a run of rule sets. -/
def blockBraces : List Value → List Brace
  | [] => []
  | r :: rs =>
    let inner := (r :: rs).flatMap Value.ruleBraces
    if r.parent.isAbsent then inner
    else ⟨true, 0⟩ :: inner.map (Brace.deeper 1) ++ [⟨false, 0⟩]

section

variable {layout : Layout} (hl : layout.IsBlank)

theorem exists_headingText {r : Value} (h : r.IsTyped .contained) (hr : r.IsOf [.ruleSet])
    (hne : r.parent.isAbsent = false) :
    ∃ t, r.parent.headingText layout = .ok t ∧ IsContent t := by
  obtain ⟨ss, ds, p, rfl⟩ := hr.exists_ruleSet
  obtain ⟨-, -, hp⟩ := h.types
  have hparent : (Value.node (.ruleSet ss ds p)).parent = p := rfl
  rw [hparent] at hne ⊢
  rcases hp with rfl | ⟨⟨s, hs, -⟩, hd⟩ | hp
  · cases hne
  · obtain ⟨a, rfl, -⟩ := Value.exists_atom_of_text? hs
    exact ⟨_, rfl, IsInert.contained hd⟩
  · have htyped := h.of_mem_below (hp.mem_below (by simp [Node.fields, Node.entries]))
    obtain ⟨m, rfl, hm⟩ := hp
    have hinline : m.kind ∈ Kind.inline := by
      rw [List.mem_singleton.1 hm]
      decide
    exact Value.exists_textAt (htyped.yields ⟨m, rfl, hinline⟩) 0

include hl

theorem exists_blockTexts {rs : List Value}
    (h : ∀ r ∈ rs, r.IsOf [.ruleSet] ∧ r.IsTyped .contained) :
    ∃ ts, blockTexts layout rs = .ok ts ∧ ReadsAll [] ts [] (blockBraces rs) := by
  cases rs with
  | nil => exact ⟨[], rfl, .nil []⟩
  | cons r rs =>
    rw [blockTexts, blockBraces]
    split
    case isTrue => exact exists_texts 0 fun v hv => (h v hv).2.yields_ruleSet hl (h v hv).1
    case isFalse hne =>
      obtain ⟨hr, hrt⟩ := h r List.mem_cons_self
      obtain ⟨t, ht, htc⟩ := exists_headingText hrt hr (Bool.eq_false_iff.2 hne)
      have hinside : ∀ v ∈ r :: rs, Yields layout v.render fun t =>
          Reads ['\x7b'] t ['\x7b'] (v.ruleBraces.map (Brace.deeper 1)) := fun v hv =>
        ((h v hv).2.yields_ruleSet hl (h v hv).1).mono fun t ht => ht.frame ['\x7b']
      obtain ⟨ts, hts, hrs⟩ := exists_texts 1 hinside
      rw [← List.map_flatMap] at hrs
      have hheading : IsContent ("@media " ++ t) := IsContent.append (by decide) htc
      have hclose : ReadsAll ['\x7b'] ["\x7d"] [] [⟨false, 0⟩] := .single (by decide)
      refine ⟨("@media " ++ t ++ " \x7b") :: (ts ++ ["\x7d"]), ?_, ?_⟩
      · rw [ht, hts]
        rfl
      · exact (ReadsAll.single hheading.opening).append (hrs.append hclose)

end

/-! ## Whole documents -/

/-- The braces of a document: a pair for every font description, then those of its runs of rule
sets. -/
def TypedDocument.braces {T : Typing} (d : TypedDocument T) : List Brace :=
  d.fontFaces.flatMap (fun _ => bracePair) ++ (runs Value.sameGroup d.ruleSets).flatMap blockBraces

theorem exists_ruleSetTexts {layout : Layout} (hl : layout.IsBlank) {rs : List Value}
    (h : ∀ r ∈ rs, r.IsOf [.ruleSet] ∧ r.IsTyped .contained) :
    ∃ ts, ruleSetTexts layout rs = .ok ts ∧
      ReadsAll [] ts [] ((runs Value.sameGroup rs).flatMap blockBraces) := by
  have hblocks : ∀ b ∈ runs Value.sameGroup rs, ∃ ts, blockTexts layout b = .ok ts ∧
      ReadsAll [] (id ts) [] (blockBraces b) := by
    intro b hb
    refine exists_blockTexts hl fun r hr => h r ?_
    rw [← (isRunSplit_runs rs).flatten]
    exact List.mem_flatten.2 ⟨b, hb, hr⟩
  obtain ⟨tss, htss, hr⟩ := exists_mapM hblocks
  refine ⟨tss.flatMap id, ?_, hr⟩
  rw [ruleSetTexts, htss, List.flatMap_id]
  rfl

theorem depth_ruleBraces (r : Value) : ∀ b ∈ r.ruleBraces, b.depth = 0 := by
  unfold Value.ruleBraces
  split
  · split <;> decide
  · exact nofun

theorem depth_blockBraces (rs : List Value) : ∀ b ∈ blockBraces rs, b.depth ≤ 1 := by
  cases rs with
  | nil => exact nofun
  | cons r rs =>
    have hinner : ∀ b ∈ (r :: rs).flatMap Value.ruleBraces, b.depth = 0 := by
      intro b hb
      obtain ⟨q, -, hb⟩ := List.mem_flatMap.1 hb
      exact depth_ruleBraces q b hb
    rw [blockBraces]
    split
    · intro b hb
      have := hinner b hb
      omega
    · have hdeeper : ∀ b ∈ ((r :: rs).flatMap Value.ruleBraces).map (Brace.deeper 1),
          b.depth ≤ 1 := by
        refine List.forall_mem_map.2 fun b hb => ?_
        have := hinner b hb
        show b.depth + 1 ≤ 1
        omega
      refine List.forall_mem_append.2 ⟨List.forall_mem_cons.2 ⟨?_, hdeeper⟩, ?_⟩ <;> decide

namespace TypedDocument

theorem depth_le_one {T : Typing} (d : TypedDocument T) : ∀ b ∈ d.braces, b.depth ≤ 1 := by
  refine List.forall_mem_append.2 ⟨fun b hb => ?_, fun b hb => ?_⟩
  · obtain ⟨v, -, hb⟩ := List.mem_flatMap.1 hb
    have hpair : ∀ b ∈ bracePair, b.depth ≤ 1 := by decide
    exact hpair b hb
  · obtain ⟨rs, -, hb⟩ := List.mem_flatMap.1 hb
    exact depth_blockBraces rs b hb

variable {layout : Layout} (hl : layout.IsBlank) (d : TypedDocument .contained)

include hl

theorem exists_documentTexts : ∃ ts,
    documentTexts layout d.charsets d.imports d.fontFaces d.ruleSets = .ok ts ∧
      ReadsAll [] ts [] d.braces := by
  have hcs : ∀ v ∈ d.charsets, Yields layout v.render (Contained · []) := fun v hv =>
    (d.charsets_typed v hv).2.yields_charset (d.charsets_typed v hv).1
  have his : ∀ v ∈ d.imports, Yields layout v.render (Contained · []) := fun v hv =>
    (d.imports_typed v hv).2.yields_importRule hl (d.imports_typed v hv).1
  have hfs : ∀ v ∈ d.fontFaces, Yields layout v.render (Contained · bracePair) := fun v hv =>
    (d.fontFaces_typed v hv).2.yields_fontFace hl (d.fontFaces_typed v hv).1
  obtain ⟨cs, hcs, hcr⟩ := exists_texts 0 hcs
  obtain ⟨is, his, hir⟩ := exists_texts 0 his
  obtain ⟨fs, hfs, hfr⟩ := exists_texts 0 hfs
  obtain ⟨rs, hrs, hrr⟩ := exists_ruleSetTexts hl d.ruleSets_typed
  refine ⟨cs ++ is ++ fs ++ rs, ?_, ?_⟩
  · rw [documentTexts, hcs, his, hfs, hrs]
    rfl
  · have hnone (vs : List Value) : vs.flatMap (fun _ => ([] : List Brace)) = [] := by simp
    rw [hnone] at hcr hir
    exact ((hcr.append hir).append hfr).append hrr

end TypedDocument

/-- However a typed document is printed in a blank layout, its brackets fit together, and its
braces are those of its own blocks, of which no more than two lie inside each other. -/
theorem printDocument_contained {layout : Layout} (hl : layout.IsBlank)
    (d : TypedDocument .contained) (s : PrintState) :
    ∃ text, (d.value.printDocument.exec layout s).1 = .ok text ∧
      ({} : Scan).read text.toList = some { braces := d.braces } ∧ ∀ b ∈ d.braces, b.depth ≤ 1 := by
  obtain ⟨ts, hts, hr⟩ := d.exists_documentTexts hl
  obtain ⟨u, hu, -⟩ := hl.indentUnit
  obtain ⟨b, hb, hbb⟩ := hl.lineBreak
  obtain ⟨_, _, compact⟩ := layout
  cases hu
  cases hb
  refine ⟨b.intercalate (ts.filter fun t => t ≠ ""), ?_, hr.filter.intercalate hbb.isInert,
    d.depth_le_one⟩
  rw [d.exec_printDocument, hts]
  rfl

/-- A string, a class and a value that try to end what they stand in: the string with a quote, the
class with a brace, and the value with a blank that is cut off. -/
theorem printDocument_contained_hostile :
    let charset : Value := .node (.charset (.text "\"\x7d"))
    let compound : Value :=
      .node (.simple .unmarked .absent .absent (.list [.node (.classSelector (.text "\x7d"))]))
    let line : Value := .node (.declaration (.text "p")
      (.list [.node (.ident (.text "v ") .absent)]) (.atom (.bool false)) true)
    let rule : Value :=
      .node (.ruleSet (.list [.node (.selector (.list [compound]))]) (.list [line]) (.text "print"))
    Layout.minified.IsBlank ∧ ∃ d : TypedDocument .contained,
      d.value = .node (.document (.list [charset]) (.list []) (.list []) (.list [rule])) ∧
      ∃ text, (d.value.printDocument.exec .minified {}).1 = .ok text ∧
        ({} : Scan).read text.toList =
          some { braces := [⟨true, 0⟩, ⟨true, 1⟩, ⟨false, 1⟩, ⟨false, 0⟩] } := by
  intro charset compound line rule
  have htext (s : String) : (Value.text s).IsSomeText := ⟨s, rfl, trivial⟩
  have hnode (n : Node Value) (hn : Typing.contained.Types n)
      (h : ∀ v ∈ n.fields, v.IsTyped .contained) : (Value.node n).IsTyped .contained := .node hn h
  have hlist (v : Value) (h : v.IsTyped .contained) : (Value.list [v]).IsTyped .contained :=
    .list (List.forall_mem_singleton.2 h)
  have hcharset : charset.IsTyped .contained :=
    hnode _ (htext _) (List.forall_mem_singleton.2 (.atom _))
  have hclass : (Value.node (.classSelector (.text "\x7d"))).IsTyped .contained :=
    hnode _ (htext _) (List.forall_mem_singleton.2 (.atom _))
  have hcompound : compound.IsTyped .contained := by
    refine hnode _ ⟨.inl rfl, .inl rfl, _, rfl, List.forall_mem_singleton.2 ⟨_, rfl, by decide⟩⟩ ?_
    exact List.forall_mem_cons.2 ⟨.atom _, List.forall_mem_cons.2 ⟨.atom _,
      List.forall_mem_singleton.2 (hlist _ hclass)⟩⟩
  have hselector : (Value.node (.selector (.list [compound]))).IsTyped .contained :=
    hnode _ ⟨_, rfl, List.forall_mem_singleton.2 ⟨_, rfl, by decide⟩⟩
      (List.forall_mem_singleton.2 (hlist _ hcompound))
  have hterm : (Value.node (.ident (.text "v ") .absent)).IsTyped .contained :=
    hnode _ ⟨htext _, .inl rfl⟩
      (List.forall_mem_cons.2 ⟨.atom _, List.forall_mem_singleton.2 (.atom _)⟩)
  have hline : line.IsTyped .contained := by
    refine hnode _ ⟨htext _, ⟨_, rfl, List.forall_mem_singleton.2 ⟨_, rfl, by decide⟩⟩, _, rfl⟩ ?_
    exact List.forall_mem_cons.2 ⟨.atom _, List.forall_mem_cons.2 ⟨hlist _ hterm,
      List.forall_mem_singleton.2 (.atom _)⟩⟩
  have hrule : rule.IsTyped .contained := by
    refine hnode _ ⟨⟨_, rfl, List.forall_mem_singleton.2 ⟨_, rfl, by decide⟩⟩,
      ⟨_, rfl, List.forall_mem_singleton.2 ⟨_, _, _, rfl⟩⟩,
      .inr (.inl ⟨⟨_, rfl, (by decide : IsInert "print")⟩, (by decide : IsInert "print")⟩)⟩ ?_
    exact List.forall_mem_cons.2 ⟨hlist _ hselector, List.forall_mem_cons.2 ⟨hlist _ hline,
      List.forall_mem_singleton.2 (.atom _)⟩⟩
  let d : TypedDocument .contained :=
    { charsets := [charset], imports := [], fontFaces := [], ruleSets := [rule]
      charsets_typed := List.forall_mem_singleton.2 ⟨⟨_, rfl, by decide⟩, hcharset⟩
      imports_typed := nofun
      fontFaces_typed := nofun
      ruleSets_typed := List.forall_mem_singleton.2 ⟨⟨_, rfl, by decide⟩, hrule⟩ }
  have hbraces : d.braces = [⟨true, 0⟩, ⟨true, 1⟩, ⟨false, 1⟩, ⟨false, 0⟩] := by
    have hruns : runs Value.sameGroup d.ruleSets = [[rule]] := by simp [d, runs]
    rw [TypedDocument.braces, hruns]
    rfl
  obtain ⟨text, htext, hread, -⟩ := printDocument_contained Layout.isBlank_minified d {}
  exact ⟨Layout.isBlank_minified, d, rfl, text, htext, hbraces ▸ hread⟩

end Stylesheet
