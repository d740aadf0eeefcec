import Stylesheet.Proofs.Outcome
import Stylesheet.Proofs.Runs
import Stylesheet.Proofs.Typing

/-!
# Rule sets by their groups

The rule sets of a document are printed run by run. A run without a group is its rule sets, one
after another; any other run is a heading, its rule sets one level further in, and a closing brace
(`blockTexts`). Printing walks over the rule sets once, with the group that is open at the moment;
`gives_groups` says what is still to come at each step, and the run split of the whole list follows
(`printDocument_runs`).

Everything here is about rule sets without documents inside: those reset the level they are printed
at.
-/

namespace Stylesheet

/-- The heading of a group: a node is printed, any other value is written as it is. -/
def Value.headingText (layout : Layout) (v : Value) : Except Fault String :=
  match v.contents with
  | .node _ => v.textAt layout 0
  | _ => .ok v.display

/-- The group of a rule set. -/
def Value.parent (r : Value) : Value := (r.field? .parent).getD .absent

/-- Whether two rule sets belong to the same group. -/
def Value.sameGroup (r q : Value) : Bool := r.parent.same q.parent

/-- The fragments of a run of rule sets, which all belong to the group of the first. -/
def blockTexts (layout : Layout) : List Value → Except Fault (List String)
  | [] => .ok []
  | r :: rs =>
    if r.parent.isAbsent then (r :: rs).mapM (Value.textAt layout 0)
    else do
      let heading ← r.parent.headingText layout
      let ts ← (r :: rs).mapM (Value.textAt layout 1)
      return ("@media " ++ heading ++ " \x7b") :: ts ++ ["\x7d"]

/-- A rule set with no document in its selectors, its declarations and its group. Its group is
nothing or something, but no object that holds nothing, as objects do only where they are unfolded
no further. -/
def Value.IsPlainRule (r : Value) : Prop :=
  ∃ selectors declarations parent, r.contents = .node (.ruleSet selectors declarations parent) ∧
    selectors.DocumentFree ∧ declarations.DocumentFree ∧ parent.DocumentFree ∧
    (parent.contents = .absent → parent = .absent)

/-- The document of some rule sets. -/
def Value.ofRuleSets (rs : List Value) : Value :=
  .node (.document (.list []) (.list []) (.list []) (.list rs))

namespace Value

/-- A field of the contents of an object is a field of the object. -/
theorem field?_of_contents {v w : Value} {f : Field} (h : v.contents.field? f = some w) :
    v.field? f = some w := by
  fun_induction contents v with
  | case1 key added v ih => rw [field?, ih h]; rfl
  | case2 => exact h

/-- Only nothing is the same as nothing. -/
theorem same_absent (v : Value) : v.same .absent = true ↔ v.contents = .absent := by
  fun_induction contents v with
  | case1 key added v ih =>
    rw [← ih, same, fold_object]
    cases key <;> simp [sameTest, key?, Atom.agree, same]
  | case2 v hv =>
    cases v with
    | atom a =>
      cases a <;> simp [same, fold_sameTest_atom, contents, Atom.same, Atom.agree, Atom.quantity?,
        Atom.text?]
    | object key added w => exact absurd rfl (hv key added w)
    | _ => simp [same, sameTest, contents]

variable {r : Value} {layout : Layout}

theorem IsPlainRule.field? (h : r.IsPlainRule) : r.field? .parent = some r.parent := by
  obtain ⟨_, _, p, hr, -⟩ := h
  have hp : r.field? .parent = some p := field?_of_contents (by rw [hr]; rfl)
  rw [parent, hp]
  rfl

theorem IsPlainRule.group (h : r.IsPlainRule) :
    r.part.group = .ok ⟨r.parent, r.parent.heading r.parent.render⟩ := by
  show r.group = _
  rw [group_eq, h.field?]

/-- A rule set without documents is a tree without documents. -/
theorem IsPlainRule.gives (h : r.IsPlainRule) (n : Int) :
    Print.Gives layout r.part.text n (r.textAt layout n) n := by
  obtain ⟨s, d, p, hr, hs, hd, hp, -⟩ := h
  have hfree : (node (.ruleSet s d p)).DocumentFree := by
    refine .node (show Kind.ruleSet ≠ Kind.document by decide) ?_
    simp only [Node.fields, Node.entries, List.map_cons, List.map_nil, List.forall_mem_cons,
      List.not_mem_nil, false_implies, implies_true, and_true]
    exact ⟨hs, hd, hp⟩
  show Print.Gives layout r.render n (r.textAt layout n) n
  rw [textAt, ← render_contents, hr]
  exact hfree.gives

theorem IsPlainRule.documentFree_parent (h : r.IsPlainRule) : r.parent.DocumentFree := by
  obtain ⟨_, _, p, hr, -, -, hp, -⟩ := id h
  have hf := h.field?
  rw [field?_of_contents (w := p) (by rw [hr]; rfl)] at hf
  cases hf
  exact hp

theorem IsPlainRule.parent_eq_absent (h : r.IsPlainRule) (hs : r.parent.same .absent = true) :
    r.parent = .absent := by
  obtain ⟨_, _, p, hr, -, -, -, hp⟩ := id h
  have hf := h.field?
  rw [field?_of_contents (w := p) (by rw [hr]; rfl)] at hf
  cases hf
  exact hp ((same_absent _).1 hs)

theorem DocumentFree.gives_heading {v : Value} (h : v.DocumentFree) :
    Print.Gives layout (v.heading v.render) 0 (v.headingText layout) 0 := by
  rw [heading, headingText]
  cases v.contents with
  | node n => exact h.gives
  | _ => exact Print.Gives.pure _

end Value

/-! ## Opening and closing a group -/

/-- How far rule sets of a group are indented. -/
def Value.depth (group : Value) : Int := if group.isAbsent then 0 else 1

/-- The fragments before the rule sets of a group. -/
def opening (layout : Layout) (group : Value) : Except Fault (List String) :=
  if group.isAbsent then .ok []
  else do
    let heading ← group.headingText layout
    return ["@media " ++ heading ++ " \x7b"]

/-- The fragments behind the rule sets of a group. -/
def closing (group : Value) : List String := if group.isAbsent then [] else ["\x7d"]

theorem blockTexts_cons (layout : Layout) (r : Value) (rs : List Value) :
    blockTexts layout (r :: rs) = (do
      let o ← opening layout r.parent
      let ts ← (r :: rs).mapM (Value.textAt layout r.parent.depth)
      return o ++ ts ++ closing r.parent) := by
  rw [blockTexts, opening, closing, Value.depth]
  split
  · show _ = (do
      let ts ← (r :: rs).mapM (Value.textAt layout 0)
      return [] ++ ts ++ [])
    simp
  · simp

section

variable (u b : String) (compact : Value)

theorem gives_closeGroup (group : Value) :
    Print.Gives ⟨.text u, .text b, compact⟩ (Render.closeGroup group) group.depth
      (.ok (closing group)) 0 := by
  unfold Render.closeGroup closing Value.depth
  split
  · exact Print.Gives.pure _
  · refine Print.Gives.bind (Print.Gives.shift (-1)) (y := fun _ => .ok ["\x7d"]) fun _ _ => ?_
    exact Print.Gives.bind Print.Gives.indentation (y := fun i => .ok [i ++ "\x7d"]) fun _ _ =>
      Print.Gives.pure _

theorem gives_openGroup {group : Value} (h : group.DocumentFree) :
    Print.Gives ⟨.text u, .text b, compact⟩
      (Render.openGroup ⟨group, group.heading group.render⟩) 0
      (opening ⟨.text u, .text b, compact⟩ group) group.depth := by
  unfold Render.openGroup opening Value.depth
  split
  · exact Print.Gives.pure _
  · refine Print.Gives.bind h.gives_heading fun heading _ => ?_
    refine Print.Gives.bind Print.Gives.indentation
      (y := fun i => .ok [i ++ "@media " ++ heading ++ " \x7b"]) fun i _ => ?_
    exact Print.Gives.bind (Print.Gives.shift 1) (y := fun _ => .ok _) fun _ _ => Print.Gives.pure _

end

theorem closing_absent : closing .absent = [] := rfl

/-! ## One pass over the rule sets -/

/-- What is printed from inside a group on: the rule sets that still belong to it, its end, and the
runs behind it. -/
def remaining (layout : Layout) (current : Value) (rs : List Value) :
    Except Fault (List String) := do
  let ts ← (rs.takeWhile (·.parent.same current)).mapM (Value.textAt layout current.depth)
  let bs ← (runs Value.sameGroup (rs.dropWhile (·.parent.same current))).mapM (blockTexts layout)
  return ts ++ closing current ++ bs.flatten

/-- The fragments of rule sets, run by run. -/
def ruleSetTexts (layout : Layout) (rs : List Value) : Except Fault (List String) := do
  let bs ← (runs Value.sameGroup rs).mapM (blockTexts layout)
  return bs.flatten

section

variable {layout : Layout} {current r : Value} {rs : List Value}

theorem remaining_nil : remaining layout current [] = .ok (closing current) := by
  rw [remaining, List.takeWhile_nil, List.dropWhile_nil, runs, List.mapM_nil, List.mapM_nil]
  show Except.ok ([] ++ closing current ++ [].flatten) = _
  simp

/-- A rule set of the group is next. -/
theorem remaining_cons_of_same (h : r.parent.same current = true) :
    remaining layout current (r :: rs) = (do
      let t ← r.textAt layout current.depth
      let rest ← remaining layout current rs
      return t :: rest) := by
  have htake : (r :: rs).takeWhile (·.parent.same current) =
      r :: rs.takeWhile (·.parent.same current) := by simp [h]
  have hdrop : (r :: rs).dropWhile (·.parent.same current) =
      rs.dropWhile (·.parent.same current) := by simp [h]
  rw [remaining, htake, hdrop, List.mapM_cons]
  simp [remaining]

/-- A rule set of another group is next, so a run starts. -/
theorem remaining_cons_of_not_same (h : r.parent.same current = false) :
    remaining layout current (r :: rs) = (do
      let o ← opening layout r.parent
      let t ← r.textAt layout r.parent.depth
      let rest ← remaining layout r.parent rs
      return closing current ++ o ++ t :: rest) := by
  have htake : (r :: rs).takeWhile (·.parent.same current) = [] := by simp [h]
  have hdrop : (r :: rs).dropWhile (·.parent.same current) = r :: rs := by simp [h]
  rw [remaining, htake, hdrop, runs, List.mapM_cons, List.mapM_nil, blockTexts_cons,
    List.mapM_cons]
  simp [remaining, Value.sameGroup]

/-- Before the first rule set no group is open, and only runs are left. -/
theorem remaining_absent (hrs : ∀ r ∈ rs, r.IsPlainRule) :
    remaining layout .absent rs = ruleSetTexts layout rs := by
  cases rs with
  | nil =>
    rw [remaining_nil, ruleSetTexts, runs, List.mapM_nil]
    rfl
  | cons r rs =>
    cases h : r.parent.same .absent with
    | true =>
      -- The first run has no group, so its rule sets are those that are left in no group.
      have hr : r.parent = .absent := (hrs r List.mem_cons_self).parent_eq_absent h
      have hopen : opening layout .absent = pure [] := rfl
      rw [remaining_cons_of_same h, remaining, ruleSetTexts, runs, List.mapM_cons,
        blockTexts_cons, List.mapM_cons]
      simp [Value.sameGroup, hr, hopen, closing_absent]
    | false =>
      have htake : (r :: rs).takeWhile (·.parent.same .absent) = [] := by simp [h]
      have hdrop : (r :: rs).dropWhile (·.parent.same .absent) = r :: rs := by simp [h]
      rw [remaining, ruleSetTexts, htake, hdrop, List.mapM_nil]
      simp [closing_absent]

/-- The loop over the rule sets, with the group that is open as its invariant. -/
theorem gives_groups (u b : String) (compact : Value) (hrs : ∀ r ∈ rs, r.IsPlainRule) :
    Print.Gives ⟨.text u, .text b, compact⟩ (Render.groups current (rs.map Value.part))
      current.depth (remaining ⟨.text u, .text b, compact⟩ current rs) 0 := by
  induction rs generalizing current with
  | nil =>
    rw [remaining_nil]
    exact gives_closeGroup u b compact current
  | cons r rs ih =>
    obtain ⟨hr, hrs⟩ := List.forall_mem_cons.1 hrs
    have hact : Render.groups current ((r :: rs).map Value.part) =
        if r.parent.same current then do
          let t ← r.part.text
          let rest ← Render.groups current (rs.map Value.part)
          return t :: rest
        else do
          let closing ← Render.closeGroup current
          let opening ← Render.openGroup ⟨r.parent, r.parent.heading r.parent.render⟩
          let t ← r.part.text
          let rest ← Render.groups r.parent (rs.map Value.part)
          return closing ++ opening ++ t :: rest := by
      rw [List.map_cons, Render.groups, hr.group]
      rfl
    rw [hact]
    split
    case isTrue h =>
      rw [remaining_cons_of_same h]
      refine Print.Gives.bind (hr.gives _) fun t _ => ?_
      refine Print.Gives.bind (ih hrs) fun rest _ => ?_
      exact Print.Gives.pure _
    case isFalse h =>
      rw [remaining_cons_of_not_same (Bool.eq_false_iff.2 h)]
      refine Print.Gives.bind (x := .ok _) (gives_closeGroup u b compact current)
        (y := fun c => _) fun c hc => ?_
      refine Print.Gives.bind (gives_openGroup u b compact hr.documentFree_parent) fun o _ => ?_
      refine Print.Gives.bind (hr.gives _) fun t _ => ?_
      refine Print.Gives.bind (ih hrs) fun rest _ => ?_
      cases hc
      exact Print.Gives.pure _

end

/-! ## Documents -/

/-- The fragments of a document: those of its runs of rule sets behind all others. -/
def documentTexts (layout : Layout) (charsets imports fontFaces rs : List Value) :
    Except Fault (List String) := do
  let cs ← charsets.mapM (Value.textAt layout 0)
  let is ← imports.mapM (Value.textAt layout 0)
  let fs ← fontFaces.mapM (Value.textAt layout 0)
  let rs ← ruleSetTexts layout rs
  return cs ++ is ++ fs ++ rs

section

variable {layout : Layout} {n : Int}

/-- Nodes without documents are printed one after another at the same level. -/
theorem gives_texts {vs : List Value} (h : ∀ v ∈ vs, v.DocumentFree) :
    Print.Gives layout (Value.list vs).parts.texts n (vs.mapM (Value.textAt layout n)) n := by
  rw [Value.texts_parts_list]
  exact Print.Gives.mapM fun v hv => (h v hv).gives

/-- Lists are sequences. -/
theorem gives_checkSequences (vss : List (List Value)) :
    Print.Gives layout (Render.checkSequences (vss.map fun vs => (Value.list vs).parts)) n
      (.ok ()) n := by
  induction vss with
  | nil => exact Print.Gives.pure ()
  | cons vs vss ih =>
    have hparts : (Value.list vs).parts = .ok (vs.map Value.part) := Value.parts_eq_map _
    rw [List.map_cons, hparts]
    exact ih

variable {u b : String} {compact : Value} {charsets imports fontFaces rs : List Value}

theorem gives_ruleSets (hrs : ∀ r ∈ rs, r.IsPlainRule) :
    Print.Gives ⟨.text u, .text b, compact⟩ (Render.ruleSets (Value.list rs).parts) 0
      (ruleSetTexts ⟨.text u, .text b, compact⟩ rs) 0 := by
  have hparts : (Value.list rs).parts = .ok (rs.map Value.part) := Value.parts_eq_map _
  rw [Render.ruleSets, hparts, ← remaining_absent hrs]
  exact (gives_groups u b compact hrs).keepingLevel

/-- What a document without further documents in it is printed as. -/
theorem gives_document (hcs : ∀ v ∈ charsets, v.DocumentFree) (his : ∀ v ∈ imports, v.DocumentFree)
    (hfs : ∀ v ∈ fontFaces, v.DocumentFree) (hrs : ∀ r ∈ rs, r.IsPlainRule) :
    Print.Gives ⟨.text u, .text b, compact⟩
      (Node.document (.list charsets) (.list imports) (.list fontFaces) (.list rs)).render n
      (do
        let ts ← documentTexts ⟨.text u, .text b, compact⟩ charsets imports fontFaces rs
        return b.intercalate (ts.filter fun t => t ≠ "")) 0 := by
  have hfragments : Print.Gives ⟨.text u, .text b, compact⟩
      (Render.fragments (Value.list charsets).parts (Value.list imports).parts
        (Value.list fontFaces).parts (Value.list rs).parts) 0
      (documentTexts ⟨.text u, .text b, compact⟩ charsets imports fontFaces rs) 0 := by
    refine (Print.Gives.bind (gives_checkSequences [charsets, imports, fontFaces, rs])
      fun _ _ => ?_ : Print.Gives _ _ _ (.ok () >>= fun _ => _) _)
    refine Print.Gives.bind (gives_texts hcs) fun cs _ => ?_
    refine Print.Gives.bind (gives_texts his) fun is _ => ?_
    refine Print.Gives.bind (gives_texts hfs) fun fs _ => ?_
    exact Print.Gives.bind (gives_ruleSets hrs) fun rs _ => Print.Gives.pure _
  rw [Node.render, Render.document]
  refine (Print.Gives.bind Print.Gives.reset fun _ _ => ?_ :
    Print.Gives _ _ _ (.ok () >>= fun _ => _) _)
  refine Print.Gives.bind hfragments fun ts _ => ?_
  exact Print.Gives.bind (x := .ok b) Print.Gives.lineBreak fun _ _ => Print.Gives.pure _

end

/-- A typed rule set is a plain one, and its group is nothing, a text or a list of media queries. -/
theorem Value.IsTyped.isPlainRule {T : Typing} {r : Value} (h : r.IsTyped T)
    (hr : r.IsOf [.ruleSet]) : r.IsPlainRule := by
  obtain ⟨ss, ds, p, rfl⟩ := hr.exists_ruleSet
  obtain ⟨-, -, hp⟩ := h.types
  have habsent : p.contents = .absent → p = .absent := by
    rcases hp with rfl | ⟨⟨s, hs, -⟩, -⟩ | ⟨m, rfl, -⟩
    · exact fun _ => rfl
    · obtain ⟨a, rfl, -⟩ := Value.exists_atom_of_text? hs
      exact id
    · exact nofun
  cases h.documentFree with
  | node _ hfree =>
    exact ⟨ss, ds, p, rfl, hfree ss (by simp [Node.fields, Node.entries]),
      hfree ds (by simp [Node.fields, Node.entries]),
      hfree p (by simp [Node.fields, Node.entries]), habsent⟩

/-- What a typed document is printed as. -/
theorem TypedDocument.exec_printDocument {T : Typing} (d : TypedDocument T) (u b : String)
    (compact : Value) (s : PrintState) :
    (d.value.printDocument.exec ⟨.text u, .text b, compact⟩ s).1 = do
      let ts ← documentTexts ⟨.text u, .text b, compact⟩ d.charsets d.imports d.fontFaces d.ruleSets
      return b.intercalate (ts.filter fun t => t ≠ "") := by
  rw [value, Value.printDocument_document]
  refine (gives_document ?_ ?_ ?_ ?_ s rfl).1
  · exact fun v hv => (d.charsets_typed v hv).2.documentFree
  · exact fun v hv => (d.imports_typed v hv).2.documentFree
  · exact fun v hv => (d.fontFaces_typed v hv).2.documentFree
  · exact fun r hr => (d.ruleSets_typed r hr).2.isPlainRule (d.ruleSets_typed r hr).1

/-- Printing a document of rule sets is printing the runs that its rule sets split into. -/
theorem printDocument_runs (u b : String) (compact : Value) (rs : List Value)
    (hrs : ∀ r ∈ rs, r.IsPlainRule) (s : PrintState) :
    (∃! blocks, IsRunSplit Value.sameGroup rs blocks) ∧
    ∀ blocks, IsRunSplit Value.sameGroup rs blocks →
      ((Value.ofRuleSets rs).printDocument.exec ⟨.text u, .text b, compact⟩ s).1 = do
        let ts ← blocks.mapM (blockTexts ⟨.text u, .text b, compact⟩)
        return b.intercalate (ts.flatten.filter fun t => t ≠ "") := by
  refine ⟨existsUnique_isRunSplit _ rs, fun blocks hblocks => ?_⟩
  have hnil : ∀ v ∈ ([] : List Value), v.DocumentFree := by simp
  rw [hblocks.eq_runs, Value.ofRuleSets, Value.printDocument_document]
  refine (gives_document hnil hnil hnil hrs s rfl).1.trans ?_
  rw [documentTexts, List.mapM_nil, ruleSetTexts]
  simp

/-- Truth is the same as one, so their groups are one; the empty text is a group, nothing is
none. -/
theorem printDocument_runs_falsy :
    let rule (parent : Value) : Value :=
      .node (.ruleSet (.list [.node .nodeSelector]) (.list []) parent)
    let rs := [rule (.atom (.bool true)), rule (.atom (.int 1)), rule (.text ""), rule .absent]
    let blocks :=
      [[rule (.atom (.bool true)), rule (.atom (.int 1))], [rule (.text "")], [rule .absent]]
    (∀ r ∈ rs, r.IsPlainRule) ∧ IsRunSplit Value.sameGroup rs blocks ∧
      ((Value.ofRuleSets rs).printDocument.exec .minified {}).1 =
        .ok "@media True \x7b* \x7b \x7d* \x7b \x7d\x7d@media  \x7b* \x7b \x7d\x7d* \x7b \x7d" := by
  intro rule rs blocks
  have hrule (a : Atom) : (rule (.atom a)).IsPlainRule := by
    have hsel : (Value.node .nodeSelector).DocumentFree :=
      .node (show Kind.nodeSelector ≠ Kind.document by decide) nofun
    exact ⟨_, _, _, rfl, .list (List.forall_mem_singleton.2 hsel), .list nofun, .atom a, id⟩
  have hrs : ∀ r ∈ rs, r.IsPlainRule := by
    simp only [rs, List.forall_mem_cons]
    exact ⟨hrule _, hrule _, hrule _, hrule _, nofun⟩
  have hruns : runs Value.sameGroup rs = blocks := by
    have hone : (rule (.atom (.int 1))).sameGroup (rule (.atom (.bool true))) = true := rfl
    have hempty : (rule (.text "")).sameGroup (rule (.atom (.bool true))) = false := rfl
    have habsent : (rule .absent).sameGroup (rule (.text "")) = false := rfl
    simp [runs, rs, blocks, hone, hempty, habsent]
  have hsplit : IsRunSplit Value.sameGroup rs blocks := hruns ▸ isRunSplit_runs rs
  have htexts : blocks.mapM (blockTexts .minified) =
      .ok [["@media True \x7b", "* \x7b \x7d", "* \x7b \x7d", "\x7d"],
        ["@media  \x7b", "* \x7b \x7d", "\x7d"], ["* \x7b \x7d"]] := rfl
  refine ⟨hrs, hsplit, ?_⟩
  refine ((printDocument_runs " " "" (.atom (.bool true)) rs hrs {}).2 blocks hsplit).trans ?_
  show (do
    let ts ← blocks.mapM (blockTexts .minified)
    return "".intercalate (ts.flatten.filter fun t => t ≠ "")) = _
  rw [htexts]
  exact congrArg Except.ok (by decide)

end Stylesheet
