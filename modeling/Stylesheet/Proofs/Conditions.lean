import Stylesheet.Proofs.Notes
import Stylesheet.Proofs.Weaving

/-!
# Document conditions in a printed document

A printed document is composed of the texts of the document conditions among its visits, each at a
place of its own and in their order, and of texts that none of them has a part in (`Composed`): a
condition inside another has its place inside the text of that other. So there are as many
conditions in the text as there are notes (`printDocument_notes`), and where nothing that is
written as it is has an at sign in it, `@document` stands in the text just as often.

A node is woven from what is printed for it, so it is composed if this is (`composed_node`); from
nodes an induction over the visits goes on to whole trees (`composed_of_documentFree`).
-/

namespace Stylesheet

open Text (Starts)

/-- What is no node cannot be printed. -/
theorem Value.exists_render_eq_throw {v : Value} (h : ∀ n, v.contents ≠ .node n) :
    ∃ e, v.render = throw e := by
  fun_induction contents v with
  | case1 key added v ih =>
    rw [render]
    exact ih h
  | case2 v hv =>
    cases v with
    | node n => exact absurd rfl (h n)
    | object key added w => exact absurd rfl (hv key added w)
    | _ => exact ⟨_, by rw [render]; rfl⟩

theorem Node.exists_of_kind_documentQuery {n : Node Value} (h : n.kind = .documentQuery) :
    ∃ functions, n = .documentQuery functions := by
  cases n with
  | documentQuery functions => exact ⟨functions, rfl⟩
  | simple form => cases form <;> cases h
  | _ => cases h

/-- A text that is put together from the texts of some document conditions, in their order, and from
texts that no condition is printed for. Such texts are plain, or the values `vs` have them. -/
inductive Composed (layout : Layout) (vs : List Value) : List Value → String → Prop
  | plain {t : String} (h : Starts 0 t) : Composed layout vs [] t
  | verbatim {t : String} (h : Verbatim layout vs t) : Composed layout vs [] t
  /-- The text that a condition has been printed as, with the conditions inside it. -/
  | condition {q : Value} {qs : List Value} {s s' : PrintState} {indent inner : String}
      (hq : q.isQuery = true) (hqs : q.conditions = q :: qs)
      (hindent : layout.indentation s'.level = .ok indent)
      (hrun : q.render.exec layout s =
        (.ok (indent ++ "@document " ++ inner ++ " \x7b\x7d"), s'))
      (hinner : Composed layout vs qs inner) :
      Composed layout vs (q :: qs) (indent ++ "@document " ++ inner ++ " \x7b\x7d")
  | append {ps qs : List Value} {s t : String} (hs : Composed layout vs ps s)
      (ht : Composed layout vs qs t) : Composed layout vs (ps ++ qs) (s ++ t)
  | trim {qs : List Value} {t : String} (h : Composed layout vs qs t) :
      Composed layout vs qs (Text.trim t)

variable {layout : Layout} {vs : List Value} {t : String}

/-- What is no atom is written in one way. -/
theorem Value.Written.eq_display {u : Value} (h : u.Written t) (hu : ∀ a, u.contents ≠ .atom a) :
    t = u.display := by
  cases h with
  | display => rfl
  | numeral =>
    cases u with
    | atom a => exact absurd rfl (hu a)
    | _ => rfl
  | spelled ha => exact absurd ha (hu _)
  | quoted hs =>
    obtain ⟨a, rfl, -⟩ := Value.exists_atom_of_text? hs
    exact absurd rfl (hu a)

/-- Blanks aside, what is written where no texts are held is as it is displayed. -/
theorem Verbatim.not_mem (hx : Verbatim layout vs t) (hl : layout.IsBlank)
    (hvs : ∀ v ∈ vs, v.text? = none)
    (hwritten : ∀ u ∈ writtenIn vs, (∀ a, u.contents ≠ .atom a) ∧ '@' ∉ u.display.toList) :
    '@' ∉ t.toList := by
  have hblank {s : String} (hs : Text.IsBlank s) : '@' ∉ s.toList := fun h =>
    absurd (hs '@' h) (by decide)
  cases hx with
  | @indentation n _ h =>
    obtain ⟨i, hi, hb⟩ := hl.indentation n
    cases hi.symm.trans h
    exact hblank hb
  | lineBreak h =>
    obtain ⟨b, hb, hb'⟩ := hl.joint
    cases hb.symm.trans h
    exact hblank hb'
  | text hv h => cases (hvs _ hv).symm.trans h
  | field hu h =>
    obtain ⟨hatom, hplain⟩ := hwritten _ hu
    rwa [h.eq_display hatom]

/-- What is woven from texts is composed if these are. -/
theorem Woven.composed {ws : List Value} (ht : Woven layout vs ws t)
    (h : ∀ w ∈ ws, ∀ s x s', w.render.exec layout s = (.ok x, s') →
      Composed layout vs w.conditions x) :
    Composed layout vs (ws.flatMap Value.conditions) t := by
  induction ht with
  | plain hplain => exact .plain hplain
  | verbatim hverbatim => exact .verbatim hverbatim
  | printed hrun =>
    rw [List.flatMap_singleton]
    exact h _ List.mem_cons_self _ _ _ hrun
  | unprinted hw _ ih =>
    rw [List.flatMap_singleton, Value.conditions_eq_nil hw]
    exact ih nofun
  | append _ _ ihs iht =>
    obtain ⟨hus, hws⟩ := List.forall_mem_append.1 h
    rw [List.flatMap_append]
    exact (ihs hus).append (iht hws)
  | trim _ ih => exact (ih h).trim

/-- In a composed text `@document` stands once for each condition, unless what is written as it is
has an at sign in it. -/
theorem Composed.starts {qs : List Value} (h : Composed layout vs qs t)
    (hvs : ∀ x, Verbatim layout vs x → '@' ∉ x.toList) : Starts qs.length t := by
  induction h with
  | plain h => exact h
  | verbatim h => exact Text.starts_of_not_mem (hvs _ h)
  | @condition q qs s s' indent inner _ _ hindent _ _ ih =>
    have hbefore : Starts 0 indent := Text.starts_of_not_mem (hvs _ (.indentation hindent))
    have hword : Starts 1 "@document " := fun _ => rfl
    have hbehind : Starts 0 " \x7b\x7d" := Text.starts_of_not_mem (by simp)
    have hall := ((hbefore.append hword).append ih).append hbehind
    have hlength : 0 + 1 + qs.length + 0 = (q :: qs).length := by
      rw [List.length_cons]
      omega
    rwa [hlength] at hall
  | append _ _ ihs iht =>
    rw [List.length_append]
    exact ihs.append iht
  | trim _ ih => exact ih.trim

/-- A node that is no document is composed of its document conditions if what is printed for it
is. -/
theorem composed_node {v : Value} {n : Node Value} (hn : v.contents = .node n)
    (hdocument : n.kind ≠ .document) (hsub : ∀ w ∈ v.visits, w ∈ vs)
    (h : ∀ w ∈ v.printed, ∀ s x s', w.render.exec layout s = (.ok x, s') →
      Composed layout vs w.conditions x)
    {s s' : PrintState} (hrun : v.render.exec layout s = (.ok t, s')) :
    Composed layout vs v.conditions t := by
  have hquery := Value.isQuery_of_contents hn
  have hrender : v.render = n.render := by rw [← Value.render_contents, hn, Value.render]
  have hprinted : v.printed = n.printed := by rw [← Value.printed_contents, hn]; rfl
  have hconditions := v.conditions_eq
  rw [hprinted] at h hconditions
  by_cases hq : n.kind = .documentQuery
  case pos =>
    have hv : v.isQuery = true := by simpa [hq] using hquery
    obtain ⟨functions, rfl⟩ := Node.exists_of_kind_documentQuery hq
    have hnode := hrun
    rw [hrender, Node.render] at hnode
    obtain ⟨indent, inner, hindent, rfl, hinner⟩ := ensures_documentQuery vs hnode
    rw [if_pos hv] at hconditions
    rw [hconditions]
    exact .condition hv hconditions hindent hrun (hinner.composed h)
  case neg =>
    have hmem : ∀ w ∈ n.printed, w ∈ vs := fun w hw =>
      hsub w (Value.mem_visits_of_printed (hprinted ▸ hw) w.self_mem_visits)
    rw [hconditions, hquery, if_neg (by simpa using hq)]
    rw [hrender] at hrun
    exact (weaves_node hn (hsub v v.self_mem_visits) hmem hdocument hq s t s' hrun).composed h

/-- A tree without documents is composed of its document conditions. The recursion is that of the
visits. -/
theorem composed_of_documentFree {v : Value} (hv : v.DocumentFree)
    (hsub : ∀ w ∈ v.visits, w ∈ vs) {s s' : PrintState} {t : String}
    (hrun : v.render.exec layout s = (.ok t, s')) : Composed layout vs v.conditions t := by
  by_cases hnode : ∃ n, v.contents = .node n
  case neg =>
    obtain ⟨e, he⟩ := Value.exists_render_eq_throw fun n hn => hnode ⟨n, hn⟩
    rw [he] at hrun
    cases hrun
  case pos =>
    obtain ⟨n, hn⟩ := hnode
    have hfree := hv.contents
    rw [hn] at hfree
    cases hfree with
    | node hdocument hfields =>
      refine composed_node hn hdocument hsub (fun w hw s x s' hx => ?_) hrun
      have hw' : w ∈ n.printed := by rwa [← Value.printed_contents, hn] at hw
      have := Value.sizeOf_lt_of_mem_printed hw
      exact composed_of_documentFree (Value.everywhere_of_mem_printed hfields hw')
        (fun y hy => hsub y (Value.mem_visits_of_printed hw hy)) hx
termination_by sizeOf v

/-! ## Documents -/

section

variable {d charsets imports fontFaces ruleSets : Value} {s t : PrintState} {text : String}

/-- A document without further documents inside is composed of its document conditions. -/
theorem composed_printDocument
    (hd : d.contents = .node (.document charsets imports fontFaces ruleSets))
    (h : ∀ v ∈ [charsets, imports, fontFaces, ruleSets], v.DocumentFree)
    (hgroups : ∀ r ∈ ruleSets.elements, r.parent.contents = .absent → r.parent = .absent)
    (hprint : d.printDocument.exec layout s = (.ok text, t)) :
    Composed layout d.visits d.conditions text := by
  have hprinted : d.printed = (Node.document charsets imports fontFaces ruleSets).printed := by
    rw [← Value.printed_contents, hd]
    rfl
  have hvisits : ∀ w ∈ d.printed, ∀ x ∈ w.visits, x ∈ d.visits := fun w hw x hx =>
    Value.mem_visits_of_printed hw hx
  have hrules : ∀ r ∈ ruleSets.elements, r ∈ d.visits := by
    intro r hr
    refine hvisits r ?_ r r.self_mem_visits
    rw [hprinted]
    exact List.mem_append_right _ (Value.mem_blocks hr)
  rw [render_of_document hd, Node.render] at hprint
  have hwoven := weaves_document hrules hgroups s text t hprint
  have hquery : d.isQuery = false := Value.isQuery_of_contents hd
  rw [Value.conditions_eq, hquery, hprinted]
  refine hwoven.composed fun w hw s x s' hx => ?_
  have hfields : ∀ v ∈ (Node.document charsets imports fontFaces ruleSets).fields,
      v.DocumentFree := h
  exact composed_of_documentFree (Value.everywhere_of_mem_printed hfields hw)
    (hvisits w (hprinted ▸ hw)) hx

/-- The notes of a document that is printed are those of the document conditions in its text. The
text is composed of these, and `@document` stands in it just as often, unless a field or the layout
brings an at sign of its own. -/
theorem printDocument_notes (layout : Layout) {d : Value}
    {charsets imports fontFaces ruleSets : Value}
    (hd : d.contents = .node (.document charsets imports fontFaces ruleSets))
    (h : ∀ v ∈ [charsets, imports, fontFaces, ruleSets], v.DocumentFree)
    (hgroups : ∀ r ∈ ruleSets.elements, r.parent.contents = .absent → r.parent = .absent)
    {s t : PrintState} {text : String} (hprint : d.printDocument.exec layout s = (.ok text, t)) :
    t.notes = List.replicate d.conditions.length Render.emptyBodyNote ∧
      Composed layout d.visits d.conditions text ∧
      ((∀ x, Verbatim layout d.visits x → '@' ∉ x.toList) →
        Text.starts (Text.ink text) = d.conditions.length) := by
  have hnotes := notes_printDocument hd h hgroups hprint
  have htext := composed_printDocument hd h hgroups hprint
  rw [Value.queries_eq_length] at hnotes
  exact ⟨hnotes, htext, fun hvs => (htext.starts hvs).eq⟩

/-- A condition inside a condition, and one that is the group of two rule sets, of which only the
first has selectors. -/
theorem printDocument_notes_grouped :
    let query : Value := .node (.documentQuery (.list []))
    let outer : Value := .node (.documentQuery (.list [query]))
    let first : Value := .node (.ruleSet (.list [query]) (.list []) query)
    let second : Value := .node (.ruleSet (.list []) (.list [query]) query)
    let d : Value :=
      .node (.document (.list [outer]) (.list []) (.list []) (.list [first, second]))
    let text := "@document @document  \x7b\x7d \x7b\x7d" ++
      "@media @document  \x7b\x7d \x7b @document  \x7b\x7d \x7b \x7d\x7d"
    ∃ t, d.printDocument.exec .minified {} = (.ok text, t) ∧
      d.conditions = [outer, query, query, query] ∧
      t.notes = List.replicate 4 Render.emptyBodyNote ∧
      Composed .minified d.visits [outer, query, query, query] text ∧
      Text.starts (Text.ink text) = 4 := by
  intro query outer first second d text
  have hq : query.DocumentFree := .node (by decide) (List.forall_mem_singleton.2 (.list nofun))
  have hlist (v : Value) (h : v.DocumentFree) : (Value.list [v]).DocumentFree :=
    .list (List.forall_mem_singleton.2 h)
  have hrule (ss ds : List Value) (hs : (Value.list ss).DocumentFree)
      (hd : (Value.list ds).DocumentFree) :
      (Value.node (.ruleSet (.list ss) (.list ds) query)).DocumentFree :=
    .node (show Kind.ruleSet ≠ Kind.document by decide) (List.forall_mem_cons.2 ⟨hs,
      List.forall_mem_cons.2 ⟨hd, List.forall_mem_singleton.2 hq⟩⟩)
  have hnil : (Value.list []).DocumentFree := .list nofun
  have hfree : ∀ v ∈ [Value.list [outer], .list [], .list [], .list [first, second]],
      v.DocumentFree := by
    simp only [List.forall_mem_cons]
    exact ⟨hlist _ (.node (by decide) (List.forall_mem_singleton.2 (hlist _ hq))), hnil, hnil,
      .list (List.forall_mem_cons.2 ⟨hrule _ _ (hlist _ hq) hnil,
        List.forall_mem_singleton.2 (hrule _ _ hnil (hlist _ hq))⟩), nofun⟩
  have hgroups : ∀ r ∈ [first, second], r.parent.contents = .absent → r.parent = .absent := by
    simp only [List.forall_mem_cons]
    exact ⟨nofun, nofun, nofun⟩
  have hquery : query.visits = [query] := by
    rw [Value.visits_eq]
    rfl
  have houter : outer.visits = [outer, query] := by
    rw [Value.visits_eq]
    show outer :: (query.visits ++ []) = _
    rw [hquery, List.append_nil]
  have hfirst : first.visits = [first, query] := by
    rw [Value.visits_eq]
    show first :: (query.visits ++ []) = _
    rw [hquery, List.append_nil]
  have hsecond : second.visits = [second] := by
    rw [Value.visits_eq]
    rfl
  have hvisits : d.visits = [d, outer, query, query, first, query, second] := by
    have hsame : second.sameGroup first = true := rfl
    have hruns : runs Value.sameGroup [first, second] = [[first, second]] := by simp [runs, hsame]
    have hprinted : d.printed = [outer, query, first, second] := by
      show [outer] ++ [] ++ [] ++ (runs Value.sameGroup [first, second]).flatMap blockPrinted = _
      rw [hruns]
      rfl
    rw [Value.visits_eq, hprinted]
    simp only [List.flatMap_cons, List.flatMap_nil, houter, hquery, hfirst, hsecond]
    rfl
  have hconditions : d.conditions = [outer, query, query, query] := by
    rw [Value.conditions, hvisits]
    rfl
  have hplain : ∀ x, Verbatim .minified d.visits x → '@' ∉ x.toList := by
    have htexts : ∀ v ∈ d.visits, v.text? = none := by
      rw [hvisits]
      simp only [List.forall_mem_cons]
      exact ⟨rfl, rfl, rfl, rfl, rfl, rfl, rfl, nofun⟩
    have hwritten : writtenIn d.visits = [query, query] := by
      rw [hvisits]
      rfl
    have hgroup : (∀ a, query.contents ≠ .atom a) ∧ '@' ∉ query.display.toList :=
      ⟨fun _ h => Value.noConfusion h, by decide +kernel⟩
    intro x hx
    refine hx.not_mem Layout.isBlank_minified htexts ?_
    rw [hwritten]
    exact List.forall_mem_cons.2 ⟨hgroup, List.forall_mem_singleton.2 hgroup⟩
  have hprint : ∃ t, d.printDocument.exec .minified {} = (.ok text, t) := ⟨_, rfl⟩
  obtain ⟨t, ht⟩ := hprint
  obtain ⟨hnotes, htext, hstarts⟩ := printDocument_notes .minified rfl hfree hgroups ht
  rw [hconditions] at hnotes htext hstarts
  refine ⟨t, ht, hconditions, hnotes, htext, hstarts hplain⟩

end

end Stylesheet
