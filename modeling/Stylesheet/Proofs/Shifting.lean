import Stylesheet.Proofs.Content
import Stylesheet.Proofs.Grouping
import Stylesheet.Proofs.Spelling

/-!
# A group is its rule sets, shifted

In a layout with one declaration a line, printing rule sets inside a group is printing them without
one, with the unit of indentation in front of every line that is not empty, between the heading of
the group and a closing brace (`printDocument_inGroup`).

The text of a rule set is a list of lines joined by line feeds, at every level (`RuleLines`): none
of the texts in it has a line feed, names and strings because they are escaped, and what is written
as it is by the typing (`Typing.oneLine`). So the lines can be read back from the text, and those of
the next level are the same ones, indented.
-/

namespace Stylesheet

/-! ## Lines of a text -/

namespace Text

/-- The lines of a text: what line feeds separate. -/
def lines (s : String) : List String := (s.toList.splitOn '\n').map String.ofList

/-- A line with `unit` in front of it, unless it is empty. -/
def indentLine (unit line : String) : String := if line = "" then "" else unit ++ line

/-- A text with `unit` in front of every line that is not empty. -/
def indentLines (unit s : String) : String := "\n".intercalate ((lines s).map (indentLine unit))

/-- Lines that are joined can be read back. -/
theorem lines_intercalate {ls : List String} (hne : ls ≠ []) (h : ∀ l ∈ ls, IsOneLine l) :
    lines ("\n".intercalate ls) = ls := by
  have hchars : ∀ cs ∈ ls.map String.toList, '\n' ∉ cs := List.forall_mem_map.2 h
  have hsplit := List.splitOn_intercalate '\n' hchars (by simpa using hne)
  have hbreak : "\n".toList = ['\n'] := rfl
  rw [lines, String.toList_intercalate, hbreak, hsplit, List.map_map]
  simp [Function.comp_def]

/-- Joined lines are indented line by line. -/
theorem indentLines_intercalate {ls : List String} (hne : ls ≠ []) (h : ∀ l ∈ ls, IsOneLine l)
    (unit : String) :
    indentLines unit ("\n".intercalate ls) = "\n".intercalate (ls.map (indentLine unit)) := by
  rw [indentLines, lines_intercalate hne h]

theorem indentLine_append {unit s t : String} (ht : t ≠ "") :
    indentLine unit (s ++ t) = unit ++ (s ++ t) := by
  have hne : s ++ t ≠ "" := fun h => ht (String.append_eq_empty_iff.1 h).2
  rw [indentLine, if_neg hne]

/-- Texts that are joined from lines are joined by joining all lines. -/
theorem intercalate_map_intercalate (b : String) {lss : List (List String)}
    (h : ∀ ls ∈ lss, ls ≠ []) :
    b.intercalate (lss.map b.intercalate) = b.intercalate lss.flatten := by
  induction lss with
  | nil => rfl
  | cons ls lss ih =>
    obtain ⟨hls, hlss⟩ := List.forall_mem_cons.1 h
    rw [List.map_cons, List.flatten_cons]
    cases lss with
    | nil => simp
    | cons ms lss =>
      have hrest : (ms :: lss).flatten ≠ [] := by
        have := hlss ms List.mem_cons_self
        simp [this]
      rw [String.intercalate_cons_of_ne_nil (by simp), ih hlss,
        String.intercalate_append_of_ne_nil hls hrest]

/-- The same, where texts without lines are left out. -/
theorem intercalate_filter_intercalate (b : String) {lss : List (List String)}
    (h : ∀ ls ∈ lss, ls ≠ [] → b.intercalate ls ≠ "") :
    b.intercalate ((lss.map b.intercalate).filter fun t => t ≠ "") =
      b.intercalate lss.flatten := by
  have hfilter : (lss.map b.intercalate).filter (fun t => t ≠ "") =
      (lss.filter fun ls => ls ≠ []).map b.intercalate := by
    rw [List.filter_map]
    refine congrArg _ (List.filter_congr fun ls hls => ?_)
    by_cases hnil : ls = []
    · simp [hnil]
    · simp [hnil, h ls hls hnil]
  have hne : ∀ ls ∈ lss.filter fun ls => ls ≠ [], ls ≠ [] := fun ls hls => by
    simpa using List.of_mem_filter hls
  rw [hfilter, intercalate_map_intercalate b hne, List.flatten_filter_ne_nil]

/-- Lines between two more. -/
theorem intercalate_filter_between (b : String) {lss : List (List String)}
    (h : ∀ ls ∈ lss, ls ≠ [] → b.intercalate ls ≠ "") (hne : lss.flatten ≠ []) {first last : String}
    (hfirst : first ≠ "") (hlast : last ≠ "") :
    b.intercalate ((first :: lss.map b.intercalate ++ [last]).filter fun t => t ≠ "") =
      first ++ b ++ b.intercalate lss.flatten ++ b ++ last := by
  have hframe : first :: lss.map b.intercalate ++ [last] =
      ([first] :: lss ++ [[last]]).map b.intercalate := by simp
  have hall : ∀ ls ∈ [first] :: lss ++ [[last]], ls ≠ [] → b.intercalate ls ≠ "" := by
    simp only [List.forall_mem_append, List.forall_mem_cons, String.intercalate_singleton]
    exact ⟨⟨fun _ => hfirst, h⟩, fun _ => hlast, nofun⟩
  have hflatten : ([first] :: lss ++ [[last]]).flatten = first :: (lss.flatten ++ [last]) := by simp
  rw [hframe, intercalate_filter_intercalate b hall, hflatten,
    String.intercalate_cons_of_ne_nil (by simp), String.intercalate_append_of_ne_nil hne (by simp),
    String.intercalate_singleton]
  simp only [String.append_assoc]

end Text

open Text Print

/-! ## Typed selectors and declarations -/

/-- The typing of trees whose texts that are written as they are stand on one line. -/
def Typing.oneLine : Typing := { Typing.contained with verbatim := Text.IsOneLine }

theorem Typing.spells_oneLine : Typing.oneLine.Spells Text.IsOneLine :=
  ⟨id, id, IsOneLine.append⟩

section

variable {v : Value}

theorem offence?_of_qualifier (h : v.IsTyped .oneLine) (hv : v.IsOf Kind.qualifiers) :
    v.offence? = none := by
  obtain ⟨n, rfl, hn⟩ := hv
  have htypes := h.types
  cases n with
  | attributeSelector name test value =>
    obtain ⟨-, ⟨_, hs, k, rfl⟩, -⟩ := htypes
    simp [Value.offence?, hs, AttributeTest.ofText?_text]
  | simple form => cases form <;> simp [Node.kind, SimpleForm.kind, Kind.qualifiers] at hn
  | _ => rfl

/-- With combinators and tests of the vocabulary there is no offence. -/
theorem findSome?_compoundParts (h : v.IsTyped .oneLine) (hv : v.IsOf Kind.compounds) :
    v.compoundParts.findSome? Value.offence? = none := by
  obtain ⟨n, rfl, hn⟩ := hv
  cases n with
  | simple form name c qualifiers =>
    obtain ⟨-, hc, vs, rfl, hvs⟩ := h.types
    have hparts : (Value.node (.simple form name c (.list vs))).compoundParts =
        .node (.simple form name c (.list vs)) :: vs := by cases form <;> rfl
    have hcompound : (Value.node (.simple form name c (.list vs))).offence? = none := by
      rcases hc with rfl | ⟨_, hs, k, rfl⟩
      · rfl
      · simp [Value.offence?, hs, Combinator.ofText?_text]
    rw [hparts, List.findSome?_eq_none_iff]
    refine List.forall_mem_cons.2 ⟨hcompound, fun q hq => ?_⟩
    exact offence?_of_qualifier (h.of_mem_list (by simp [Node.fields, Node.entries]) hq) (hvs q hq)
  | _ => simp [Node.kind, Kind.compounds] at hn

theorem findSome?_selectorParts (h : v.IsTyped .oneLine) (hv : v.IsOf [.selector]) :
    v.selectorParts.findSome? Value.offence? = none := by
  obtain ⟨get, owned, hget⟩ := hv.exists_eq_assemble
  obtain ⟨_, rfl⟩ : ∃ simples, v = .node (.selector simples) := ⟨_, hget⟩
  obtain ⟨vs, rfl, hvs⟩ := h.types
  rw [List.findSome?_eq_none_iff]
  intro w hw
  obtain ⟨c, hc, hw⟩ := List.mem_flatMap.1 hw
  have hmem : c ∈ vs := hc
  have hcompound := findSome?_compoundParts
    (h.of_mem_list (by simp [Node.fields, Node.entries]) hmem) (hvs c hmem)
  exact List.findSome?_eq_none_iff.1 hcompound w hw

/-- Typed selectors are printed as one line. -/
theorem returns_selectors {vs : List Value}
    (h : ∀ v ∈ vs, v.IsOf [.selector] ∧ v.IsTyped .oneLine) :
    ((Value.list vs).parts.separated ", ").Returns IsOneLine := by
  refine (Typing.spells_oneLine.selectors h).returns (List.findSome?_eq_none_iff.2 fun w hw => ?_)
  obtain ⟨v, hv, hw⟩ := List.mem_flatMap.1 hw
  exact List.findSome?_eq_none_iff.1 (findSome?_selectorParts (h v hv).2 (h v hv).1) w hw

/-- A typed declaration that is owned is printed as one line at every level. -/
theorem exists_entry (unit : String) (h : v.IsTyped .oneLine) (hv : v.IsOwnedDeclaration) :
    ∃ l : DeclarationLine, IsOneLine l.bare ∧
      ∀ n, v.textAt (.ofTexts unit "\n" false) n = .ok (l.entry unit n) := by
  obtain ⟨property, _, important, rfl⟩ := hv
  obtain ⟨⟨p, hp, -⟩, ⟨vs, rfl, hvs⟩, -⟩ := h.types
  have hoperand : ∀ w ∈ vs, (Render.operand w.part).Returns IsOneLine := fun w hw =>
    Typing.spells_oneLine.operand (Typing.spells_oneLine.term
      (h.of_mem_list (by simp [Node.fields, Node.entries]) hw) (hvs w hw))
  obtain ⟨value, hvalue, heq⟩ :
      (Render.declarationValue (Value.list vs).parts).Returns IsOneLine := by
    rw [Render.declarationValue, Value.each_parts_list]
    exact Returns.bind (Returns.mapM hoperand) fun ts hts =>
      Returns.pure (Typing.spells_oneLine.join hts).trim
  refine ⟨⟨p, value, !important.isVacant, true⟩, ?_, fun n => ?_⟩
  · refine IsOneLine.append (IsOneLine.append ?_ hvalue) (by split <;> decide)
    exact (Escape.isOneLine_identifier p).append (by decide)
  · rw [Value.textAt, Value.render, Node.render, exec_declaration, heq, exec_pure, hp]
    rfl

theorem exists_entries (unit : String) {vs : List Value}
    (h : ∀ v ∈ vs, v.IsOwnedDeclaration ∧ v.IsTyped .oneLine) :
    ∃ ls : List DeclarationLine, (∀ l ∈ ls, IsOneLine l.bare) ∧
      ∀ n, vs.mapM (Value.textAt (.ofTexts unit "\n" false) n) =
        .ok (ls.map (DeclarationLine.entry unit n)) := by
  induction vs with
  | nil => exact ⟨[], nofun, fun _ => rfl⟩
  | cons v vs ih =>
    obtain ⟨⟨hv, htyped⟩, hvs⟩ := List.forall_mem_cons.1 h
    obtain ⟨l, hl, htext⟩ := exists_entry unit htyped hv
    obtain ⟨ls, hls, htexts⟩ := ih hvs
    refine ⟨l :: ls, List.forall_mem_cons.2 ⟨hl, hls⟩, fun n => ?_⟩
    rw [List.mapM_cons, htext, htexts]
    rfl

end

/-! ## Lines of a rule set -/

/-- The lines of a rule set at a level. Without declarations there is an empty one between the
braces. -/
def ruleLines (unit selectors : String) (ls : List DeclarationLine) (n : Int) : List String :=
  (indentText unit n ++ selectors ++ " \x7b") ::
    (if ls = [] then [""] else ls.map (DeclarationLine.entry unit n)) ++
      [indentText unit n ++ "\x7d"]

section

variable {unit : String}

theorem indentText_succ (unit : String) (n : Nat) :
    indentText unit (n + 1) = unit ++ indentText unit n := by
  have hnext : ((n : Int) + 1).toNat = n + 1 := by omega
  rw [indentText, hnext, List.replicate_succ, String.join_cons]
  rfl

theorem isOneLine_indentText (hunit : IsOneLine unit) (n : Nat) :
    IsOneLine (indentText unit n) := by
  induction n with
  | zero => exact (by decide : IsOneLine "")
  | succ n ih =>
    rw [Int.natCast_succ, indentText_succ]
    exact hunit.append ih

theorem isOneLine_ruleLines (hunit : IsOneLine unit) {selectors : String}
    (hs : IsOneLine selectors) {ls : List DeclarationLine} (hls : ∀ l ∈ ls, IsOneLine l.bare)
    (n : Nat) : ∀ l ∈ ruleLines unit selectors ls n, IsOneLine l := by
  have hindent := isOneLine_indentText hunit
  have hentries : ∀ t ∈ (if ls = [] then [""] else ls.map (DeclarationLine.entry unit n)),
      IsOneLine t := by
    split
    · decide
    · refine List.forall_mem_map.2 fun l hl => ?_
      exact ((hindent (n + 1)).append (hls l hl)).append (by decide)
  refine List.forall_mem_append.2 ⟨List.forall_mem_cons.2 ⟨?_, hentries⟩, ?_⟩
  · exact ((hindent n).append hs).append (by decide)
  · exact List.forall_mem_singleton.2 ((hindent n).append (by decide))

/-- The lines of a rule set at the next level are its lines, indented. -/
theorem map_indentLine_ruleLines (selectors : String) (ls : List DeclarationLine) (n : Nat) :
    (ruleLines unit selectors ls n).map (indentLine unit) =
      ruleLines unit selectors ls (n + 1) := by
  have hhead : indentLine unit (indentText unit n ++ selectors ++ " \x7b") =
      indentText unit (n + 1) ++ selectors ++ " \x7b" := by
    rw [indentLine_append (by decide), indentText_succ]
    simp only [String.append_assoc]
  have hclose : indentLine unit (indentText unit n ++ "\x7d") =
      indentText unit (n + 1) ++ "\x7d" := by
    rw [indentLine_append (by decide), indentText_succ, String.append_assoc]
  have hentry : indentLine unit ∘ DeclarationLine.entry unit n =
      DeclarationLine.entry unit (n + 1) := by
    funext l
    have hnext := indentText_succ unit (n + 1)
    rw [Int.natCast_succ] at hnext
    rw [Function.comp_apply, DeclarationLine.entry, DeclarationLine.entry,
      indentLine_append (by decide), hnext]
    simp only [String.append_assoc]
  rw [ruleLines, ruleLines, List.map_append, List.map_cons, List.map_singleton, hhead, hclose]
  split
  · rfl
  · rw [List.map_map, hentry]

theorem intercalate_ruleLines (selectors : String) (ls : List DeclarationLine) (n : Int) :
    "\n".intercalate (ruleLines unit selectors ls n) =
      indentText unit n ++ selectors ++ " \x7b" ++ "\n" ++
        "\n".intercalate (ls.map (DeclarationLine.entry unit n)) ++ "\n" ++ indentText unit n ++
        "\x7d" := by
  have hbody : "\n".intercalate (if ls = [] then [""] else ls.map (DeclarationLine.entry unit n)) =
      "\n".intercalate (ls.map (DeclarationLine.entry unit n)) := by
    split
    case isTrue h => simp [h]
    case isFalse => rfl
  have hne : (if ls = [] then [""] else ls.map (DeclarationLine.entry unit n)) ≠ [] := by
    split <;> simp_all
  rw [ruleLines, String.intercalate_append_of_ne_nil (by simp) (by simp),
    String.intercalate_cons_of_ne_nil hne, hbody]
  simp [String.append_assoc]

end

/-- The text of a rule set is made of lines at every level, and those of level 1 are those of
level 0, indented. -/
structure RuleLines (unit : String) (r : Value) (ls : Int → List String) : Prop where
  textAt (n : Int) : r.textAt (.ofTexts unit "\n" false) n = .ok ("\n".intercalate (ls n))
  oneLine : ∀ l ∈ ls 0, IsOneLine l
  indented : (ls 0).map (indentLine unit) = ls 1
  ne_empty (n : Int) : ls n ≠ [] → "\n".intercalate (ls n) ≠ ""
  ne_nil : r.elementsAt .selectors ≠ [] → ls 0 ≠ []

theorem exists_ruleLines {unit : String} (hunit : IsOneLine unit) {r : Value}
    (h : r.IsTyped .oneLine) (hr : r.IsOf [.ruleSet]) : ∃ ls, RuleLines unit r ls := by
  obtain ⟨_, _, parent, rfl⟩ := hr.exists_ruleSet
  obtain ⟨⟨ss, rfl, hss⟩, ⟨ds, rfl, hds⟩, -⟩ := h.types
  by_cases hnil : ss = []
  · subst hnil
    exact ⟨fun _ => [], fun _ => rfl, nofun, rfl, fun _ hne => absurd rfl hne,
      fun hne => absurd rfl hne⟩
  · obtain ⟨selectors, hline, heq⟩ := returns_selectors fun s hs =>
      ⟨hss s hs, h.of_mem_list (by simp [Node.fields, Node.entries]) hs⟩
    obtain ⟨ls, hls, hentries⟩ := exists_entries unit fun d hd =>
      ⟨hds d hd, h.of_mem_list (by simp [Node.fields, Node.entries]) hd⟩
    have hvacant : (Value.list ss).isVacant = false := by
      simpa [Value.isVacant] using hnil
    have hfields := h.documentFree
    refine ⟨ruleLines unit selectors ls, fun n => ?_, ?_, ?_, fun n _ => ?_, fun _ => ?_⟩
    · cases hfields with
      | node _ hfields =>
        have hdecls : ∀ d ∈ ds, d.DocumentFree := fun d hd =>
          (h.of_mem_list (by simp [Node.fields, Node.entries]) hd).documentFree
        have hitems : (Value.list ds).items? = some ds := rfl
        have hgives := (gives_ruleSet unit "\n" hitems hdecls n (hfields _ List.mem_cons_self)
          hvacant { level := n } rfl).1
        rw [Value.textAt, Value.render, Node.render, hgives, heq, exec_pure, hentries,
          intercalate_ruleLines]
        rfl
    · exact isOneLine_ruleLines hunit hline hls 0
    · exact map_indentLine_ruleLines selectors ls 0
    · rw [intercalate_ruleLines]
      exact fun hempty => absurd (String.append_eq_empty_iff.1 hempty).2 (by decide)
    · exact List.cons_ne_nil _ _

/-! ## Rule sets in one group -/

/-- A rule set in another group. -/
def Value.inGroup (r g : Value) : Value :=
  match r with
  | .node (.ruleSet selectors declarations _) => .node (.ruleSet selectors declarations g)
  | r => r

/-- A list in which all elements are the same is one run. -/
theorem runs_eq_singleton {α : Type} {same : α → α → Bool} {xs : List α} (hne : xs ≠ [])
    (h : ∀ x ∈ xs, ∀ y ∈ xs, same y x = true) : runs same xs = [xs] := by
  have hsplit : IsRunSplit same xs [xs] := by
    refine ⟨by simp, by simpa using hne.symm, fun x ys hx y hy => ?_, .singleton _⟩
    obtain rfl := List.mem_singleton.1 hx
    exact h x List.mem_cons_self y (List.mem_cons_of_mem x hy)
  exact hsplit.eq_runs.symm

section

variable {unit : String} {rs : List Value}

theorem exists_forall₂_ruleLines (hunit : IsOneLine unit)
    (h : ∀ r ∈ rs, r.IsOf [.ruleSet] ∧ r.IsTyped .oneLine) :
    ∃ lss, List.Forall₂ (RuleLines unit) rs lss := by
  induction rs with
  | nil => exact ⟨[], .nil⟩
  | cons r rs ih =>
    obtain ⟨⟨hr, htyped⟩, hrs⟩ := List.forall_mem_cons.1 h
    obtain ⟨ls, hls⟩ := exists_ruleLines hunit htyped hr
    obtain ⟨lss, hlss⟩ := ih hrs
    exact ⟨ls :: lss, .cons hls hlss⟩

variable {lss : List (Int → List String)} (h : List.Forall₂ (RuleLines unit) rs lss)

include h

/-- The texts of rule sets at a level, be they in a group or not. -/
theorem mapM_textAt (n : Int) :
    rs.mapM (Value.textAt (.ofTexts unit "\n" false) n) =
      .ok ((lss.map (· n)).map "\n".intercalate) := by
  induction h with
  | nil => rfl
  | cons hr _ ih =>
    rw [List.mapM_cons, hr.textAt, ih]
    rfl

theorem ne_empty_of_ruleLines (n : Int) :
    ∀ ls ∈ lss.map (· n), ls ≠ [] → "\n".intercalate ls ≠ "" := by
  induction h with
  | nil => exact nofun
  | cons hr _ ih => exact List.forall_mem_cons.2 ⟨hr.ne_empty n, ih⟩

theorem map_indentLine_flatten :
    (lss.map (· 0)).flatten.map (indentLine unit) = (lss.map (· 1)).flatten := by
  induction h with
  | nil => rfl
  | cons hr _ ih =>
    simp only [List.map_cons, List.flatten_cons, List.map_append, hr.indented, ih]

theorem isOneLine_flatten : ∀ l ∈ (lss.map (· 0)).flatten, IsOneLine l := by
  induction h with
  | nil => exact nofun
  | cons hr _ ih => exact List.forall_mem_append.2 ⟨hr.oneLine, ih⟩

theorem flatten_ne_nil (hs : ∃ r ∈ rs, r.elementsAt .selectors ≠ []) :
    (lss.map (· 0)).flatten ≠ [] := by
  induction h with
  | nil => exact absurd hs (by simp)
  | cons hr _ ih =>
    rw [List.map_cons, List.flatten_cons, Ne, List.append_eq_nil_iff, not_and_or]
    obtain ⟨q, hq, hne⟩ := hs
    rcases List.mem_cons.1 hq with rfl | hq
    · exact .inl (hr.ne_nil hne)
    · exact .inr (ih ⟨q, hq, hne⟩)

end

/-! ## Groups -/

/-- A text or a typed list of media queries, as the group of rule sets. -/
def Value.IsGroup (g : Value) : Prop :=
  g.IsSomeText ∨ g.IsOf [.mediaQueryList] ∧ g.IsTyped .anyText

namespace Value

variable {g r : Value}

theorem IsGroup.documentFree (h : g.IsGroup) : g.DocumentFree := by
  rcases h with ⟨s, hs, -⟩ | ⟨-, h⟩
  · obtain ⟨a, rfl, -⟩ := exists_atom_of_text? hs
    exact .atom a
  · exact h.documentFree

theorem IsGroup.isAbsent (h : g.IsGroup) : g.isAbsent = false := by
  rcases h with ⟨s, hs, -⟩ | ⟨⟨m, rfl, -⟩, -⟩
  · exact isAbsent_of_text? hs
  · rfl

theorem IsGroup.contents_ne (h : g.IsGroup) : g.contents ≠ .absent := by
  rcases h with ⟨s, hs, -⟩ | ⟨⟨m, rfl, -⟩, -⟩
  · obtain ⟨a, rfl, ha⟩ := exists_atom_of_text? hs
    rintro ⟨⟩
    cases ha
  · exact nofun

theorem IsGroup.same_self (h : g.IsGroup) : g.same g = true := by
  rcases h with ⟨s, hs, -⟩ | ⟨⟨m, rfl, -⟩, -⟩
  · obtain ⟨a, rfl, ha⟩ := exists_atom_of_text? hs
    refine Atom.same_self fun payload hnan => ?_
    subst hnan
    cases ha
  · rw [same_node, beq_self_eq_true, Bool.true_and]
    exact alikeItems_self fun v _ => alike_self v

theorem IsGroup.exists_headingText (h : g.IsGroup) (layout : Layout) :
    ∃ heading, g.headingText layout = .ok heading := by
  rcases h with ⟨s, hs, -⟩ | ⟨⟨m, rfl, hm⟩, h⟩
  · obtain ⟨a, rfl, -⟩ := exists_atom_of_text? hs
    exact ⟨_, rfl⟩
  · obtain ⟨t, -, ht⟩ := Typing.spells_anyText.mediaQueryList h ⟨m, rfl, hm⟩
    refine ⟨t, ?_⟩
    show (node m).textAt layout 0 = .ok t
    rw [textAt, ht]
    rfl

/-- The group of a rule set does not matter for its own text. -/
theorem textAt_inGroup (r g : Value) (layout : Layout) (n : Int) :
    (r.inGroup g).textAt layout n = r.textAt layout n := by
  unfold inGroup
  split
  · rw [textAt, textAt, render, render, Node.render, Node.render]
  · rfl

theorem IsOf.parent_inGroup (hr : r.IsOf [.ruleSet]) (g : Value) : (r.inGroup g).parent = g := by
  obtain ⟨ss, ds, p, rfl⟩ := hr.exists_ruleSet
  rfl

theorem IsTyped.isPlainRule_inGroup (h : r.IsTyped .oneLine) (hr : r.IsOf [.ruleSet])
    (hg : g.IsGroup) : (r.inGroup g).IsPlainRule := by
  obtain ⟨ss, ds, p, rfl⟩ := hr.exists_ruleSet
  cases h.documentFree with
  | node _ hfree =>
    exact ⟨ss, ds, g, rfl, hfree ss (by simp [Node.fields, Node.entries]),
      hfree ds (by simp [Node.fields, Node.entries]), hg.documentFree,
      fun hc => absurd hc hg.contents_ne⟩

end Value

/-- A document of rule sets of one group is the block of this group. -/
theorem exec_ofRuleSets {u b : String} {compact : Value} {rs : List Value} (hne : rs ≠ [])
    (hrs : ∀ r ∈ rs, r.IsPlainRule) {g : Value} (hg : g.same g = true)
    (hparent : ∀ r ∈ rs, r.parent = g) (s : PrintState) :
    ((Value.ofRuleSets rs).printDocument.exec ⟨.text u, .text b, compact⟩ s).1 = do
      let ts ← blockTexts ⟨.text u, .text b, compact⟩ rs
      return b.intercalate (ts.filter fun t => t ≠ "") := by
  have hnil : ∀ v ∈ ([] : List Value), v.DocumentFree := nofun
  have hruns : runs Value.sameGroup rs = [rs] := by
    refine runs_eq_singleton hne fun x hx y hy => ?_
    rw [Value.sameGroup, hparent x hx, hparent y hy, hg]
  rw [Value.ofRuleSets, Value.printDocument_document]
  refine (gives_document hnil hnil hnil hrs s rfl).1.trans ?_
  rw [documentTexts, ruleSetTexts, hruns, List.mapM_cons, List.mapM_nil]
  simp

section

variable {layout : Layout} {rs : List Value} {ts : List String}

theorem blockTexts_of_absent (hparent : ∀ r ∈ rs, r.parent = .absent)
    (hts : rs.mapM (Value.textAt layout 0) = .ok ts) : blockTexts layout rs = .ok ts := by
  cases rs with
  | nil => exact hts
  | cons r rs =>
    have habsent : Value.isAbsent .absent = true := rfl
    rw [blockTexts, hparent r List.mem_cons_self, if_pos habsent, hts]

theorem blockTexts_of_parent (hne : rs ≠ []) {g : Value} (hparent : ∀ r ∈ rs, r.parent = g)
    (hg : g.isAbsent = false) {heading : String} (hheading : g.headingText layout = .ok heading)
    (hts : rs.mapM (Value.textAt layout 1) = .ok ts) :
    blockTexts layout rs = .ok (("@media " ++ heading ++ " \x7b") :: ts ++ ["\x7d"]) := by
  obtain ⟨r, rs, rfl⟩ := List.exists_cons_of_ne_nil hne
  rw [blockTexts, hparent r List.mem_cons_self, hg, if_neg Bool.false_ne_true, hheading, hts]
  rfl

end

/-- Rule sets in a group are printed as without a group, shifted by one unit of indentation, between
the heading of the group and a brace. -/
theorem printDocument_inGroup {unit : String} (hunit : IsOneLine unit) {rs : List Value}
    (hrs : ∀ r ∈ rs, r.IsOf [.ruleSet] ∧ r.IsTyped .oneLine)
    (hparent : ∀ r ∈ rs, r.parent = .absent) (hsel : ∃ r ∈ rs, r.elementsAt .selectors ≠ [])
    {g : Value} (hg : g.IsGroup) (s : PrintState) :
    let layout := Layout.ofTexts unit "\n" false
    ∃ heading text, g.headingText layout = .ok heading ∧
      ((Value.ofRuleSets rs).printDocument.exec layout s).1 = .ok text ∧
      ((Value.ofRuleSets (rs.map (·.inGroup g))).printDocument.exec layout s).1 =
        .ok ("@media " ++ heading ++ " \x7b\n" ++ indentLines unit text ++ "\n\x7d") := by
  intro layout
  obtain ⟨heading, hheading⟩ := hg.exists_headingText layout
  obtain ⟨lss, hlss⟩ := exists_forall₂_ruleLines hunit hrs
  have hne : rs ≠ [] := by
    rintro rfl
    simp at hsel
  have hlines : (lss.map (· 0)).flatten ≠ [] := flatten_ne_nil hlss hsel
  refine ⟨heading, "\n".intercalate (lss.map (· 0)).flatten, hheading, ?_, ?_⟩
  · have hplain : ∀ r ∈ rs, r.IsPlainRule := fun r hr => (hrs r hr).2.isPlainRule (hrs r hr).1
    have hblock : blockTexts layout rs = .ok ((lss.map (· 0)).map "\n".intercalate) :=
      blockTexts_of_absent hparent (mapM_textAt hlss 0)
    refine (exec_ofRuleSets hne hplain rfl hparent s).trans ?_
    show (blockTexts layout rs >>= _) = _
    rw [hblock]
    exact congrArg Except.ok (intercalate_filter_intercalate "\n" (ne_empty_of_ruleLines hlss 0))
  · have hplain : ∀ r ∈ rs.map (·.inGroup g), r.IsPlainRule :=
      List.forall_mem_map.2 fun r hr => (hrs r hr).2.isPlainRule_inGroup (hrs r hr).1 hg
    have hgroup : ∀ r ∈ rs.map (·.inGroup g), r.parent = g :=
      List.forall_mem_map.2 fun r hr => (hrs r hr).1.parent_inGroup g
    have htexts : (rs.map (·.inGroup g)).mapM (Value.textAt layout 1) =
        .ok ((lss.map (· 1)).map "\n".intercalate) := by
      rw [List.mapM_map, ← mapM_textAt hlss 1]
      exact congrArg (fun f => rs.mapM f) (funext fun r => r.textAt_inGroup g layout 1)
    have hblock := blockTexts_of_parent (by simpa using hne) hgroup hg.isAbsent hheading htexts
    have hshifted : indentLines unit ("\n".intercalate (lss.map (· 0)).flatten) =
        "\n".intercalate (lss.map (· 1)).flatten := by
      rw [indentLines_intercalate hlines (isOneLine_flatten hlss), map_indentLine_flatten hlss]
    have hlines' : (lss.map (· 1)).flatten ≠ [] := by
      rw [← map_indentLine_flatten hlss]
      simpa using hlines
    have hopen : "@media " ++ heading ++ " \x7b" ≠ "" :=
      fun h => absurd (String.append_eq_empty_iff.1 h).2 (by decide)
    refine (exec_ofRuleSets (by simpa using hne) hplain hg.same_self hgroup s).trans ?_
    show (blockTexts layout _ >>= _) = _
    rw [hblock, hshifted]
    refine congrArg Except.ok ((intercalate_filter_between "\n" (ne_empty_of_ruleLines hlss 1)
      hlines' hopen (by decide)).trans ?_)
    simp [String.append_assoc]

/-- A declaration with a line feed in its value, a rule set without selectors, and one without
declarations. -/
theorem printDocument_inGroup_print :
    let selector : Value :=
      .node (.selector (.list [.node (.simple .typed (.text "a") .absent (.list []))]))
    let line : Value := .node (.declaration (.text "p")
      (.list [.node (.string (.text "\n") .absent)]) (.atom (.bool false)) true)
    let rule (ss ds : List Value) : Value := .node (.ruleSet (.list ss) (.list ds) .absent)
    let rs := [rule [selector] [line], rule [] [], rule [selector] []]
    ((Value.ofRuleSets rs).printDocument.exec .pretty {}).1 =
        .ok "a \x7b\n  p: \"\\a \";\n\x7d\na \x7b\n\n\x7d" ∧
      ((Value.ofRuleSets (rs.map (·.inGroup (.text "print")))).printDocument.exec .pretty {}).1 =
        .ok "@media print \x7b\n  a \x7b\n    p: \"\\a \";\n  \x7d\n  a \x7b\n\n  \x7d\n\x7d" := by
  intro selector line rule rs
  have htext (s : String) : (Value.text s).IsSomeText := ⟨s, rfl, trivial⟩
  have hnode (n : Node Value) (hn : Typing.oneLine.Types n)
      (h : ∀ v ∈ n.fields, v.IsTyped .oneLine) : (Value.node n).IsTyped .oneLine := .node hn h
  have hlist (v : Value) (h : v.IsTyped .oneLine) : (Value.list [v]).IsTyped .oneLine :=
    .list (List.forall_mem_singleton.2 h)
  have hselector : selector.IsTyped .oneLine := by
    refine hnode _ ⟨_, rfl, List.forall_mem_singleton.2 ⟨_, rfl, by decide⟩⟩
      (List.forall_mem_singleton.2 (hlist _ (hnode _ ?_ ?_)))
    · exact ⟨.inr (htext _), .inl rfl, [], rfl, nofun⟩
    · exact List.forall_mem_cons.2 ⟨.atom _, List.forall_mem_cons.2 ⟨.atom _,
        List.forall_mem_singleton.2 (.list nofun)⟩⟩
  have hline : line.IsTyped .oneLine := by
    refine hnode _ ⟨htext _, ⟨_, rfl, List.forall_mem_singleton.2 ⟨_, rfl, by decide⟩⟩, _, rfl⟩ ?_
    have hstring : (Value.node (.string (.text "\n") .absent)).IsTyped .oneLine :=
      hnode _ ⟨htext _, .inl rfl⟩
        (List.forall_mem_cons.2 ⟨.atom _, List.forall_mem_singleton.2 (.atom _)⟩)
    exact List.forall_mem_cons.2 ⟨.atom _, List.forall_mem_cons.2 ⟨hlist _ hstring,
      List.forall_mem_singleton.2 (.atom _)⟩⟩
  have hrule (ss ds : List Value)
      (hss : ∀ v ∈ ss, v = selector) (hds : ∀ v ∈ ds, v = line) :
      (rule ss ds).IsOf [.ruleSet] ∧ (rule ss ds).IsTyped .oneLine := by
    refine ⟨⟨_, rfl, List.mem_cons_self⟩,
      hnode _ ⟨⟨ss, rfl, fun v hv => ?_⟩, ⟨ds, rfl, fun v hv => ?_⟩, .inl rfl⟩ ?_⟩
    · obtain rfl := hss v hv
      exact ⟨_, rfl, by decide⟩
    · obtain rfl := hds v hv
      exact ⟨_, _, _, rfl⟩
    · refine List.forall_mem_cons.2 ⟨.list fun v hv => ?_, List.forall_mem_cons.2
        ⟨.list fun v hv => ?_, List.forall_mem_singleton.2 (.atom _)⟩⟩
      · exact hss v hv ▸ hselector
      · exact hds v hv ▸ hline
  have hrs : ∀ r ∈ rs, r.IsOf [.ruleSet] ∧ r.IsTyped .oneLine := by
    refine List.forall_mem_cons.2 ⟨hrule _ _ (by simp) (by simp), List.forall_mem_cons.2
      ⟨hrule _ _ nofun nofun, List.forall_mem_singleton.2 (hrule _ _ (by simp) nofun)⟩⟩
  have hparent : ∀ r ∈ rs, r.parent = .absent :=
    List.forall_mem_cons.2 ⟨rfl, List.forall_mem_cons.2 ⟨rfl, List.forall_mem_singleton.2 rfl⟩⟩
  have hsel : ∃ r ∈ rs, r.elementsAt .selectors ≠ [] :=
    ⟨_, List.mem_cons_self, List.cons_ne_nil _ _⟩
  have hprint : ((Value.ofRuleSets rs).printDocument.exec .pretty {}).1 =
      .ok "a \x7b\n  p: \"\\a \";\n\x7d\na \x7b\n\n\x7d" := rfl
  obtain ⟨heading, text, hheading, htext, hgroup⟩ :=
    printDocument_inGroup (by decide : IsOneLine "  ") hrs hparent hsel (.inl (htext "print")) {}
  obtain rfl : "print" = heading := Except.ok.inj hheading
  obtain rfl := Except.ok.inj (hprint.symm.trans htext)
  refine ⟨hprint, hgroup.trans (congrArg Except.ok ?_)⟩
  decide +kernel

end Stylesheet
