import Stylesheet.Proofs.Grouping

/-!
# What is printed for a value

Printing a value prints values inside it: the items of a sequence, the channels of a colour and so
on (`Node.printed`), where a rule set without selectors prints nothing and the group of a run of
rule sets is printed once, in its heading. All that is printed for a value, the value included, are
its visits (`Value.visits`); a value that stands in several places is visited in each of them.
`Value.conditions` are the document conditions among them, and `Value.queries` is their number. That
texts are made of the texts of what is printed, in this order, is shown for each construct in
`Weaving` (`weaves_node`, `weaves_document`).
-/

namespace Stylesheet

namespace Value

/-- The items of a list or a tuple. The characters of a text are no items here: none of them can be
printed. -/
def elements : Value → List Value
  | list vs => vs
  | tuple vs => vs
  | object _ _ v => v.elements
  | _ => []

end Value

/-- What is printed for a run of rule sets: the group of the first, in the heading, and the rule
sets. -/
def blockPrinted : List Value → List Value
  | [] => []
  | r :: rs => (r.field? .parent).toList ++ r :: rs

/-- The values inside a node whose texts make up the text of the node, each as often as it is
printed. -/
def Node.printed : Node Value → List Value
  | .document charsets imports fontFaces ruleSets =>
    charsets.elements ++ imports.elements ++ fontFaces.elements ++
      (runs Value.sameGroup ruleSets.elements).flatMap blockPrinted
  | .ruleSet selectors declarations _ =>
    if selectors.isVacant then [] else selectors.elements ++ declarations.elements
  | .declaration _ expressions _ _ => expressions.elements
  | .fontFace declarations => declarations.elements
  | .mediaFeature _ value => [value]
  | .mediaQuery expression conjuncts _ => expression :: conjuncts.elements
  | .mediaQueryList queries => queries.elements
  | .importRule target _ => [target]
  | .namespaceRule target shorthand => [shorthand, target]
  | .documentQuery functions => functions.elements
  | .rgb red green blue _ => [red, green, blue]
  | .function _ params _ => params.elements
  | .simple _ _ _ qualifiers => qualifiers.elements
  | .selector simples => simples.elements
  | .conditionalSelector base condition => [base, condition]
  | _ => []

namespace Value

/-- The values inside a value whose texts make up its text. -/
def printed : Value → List Value
  | node n => n.printed
  | object _ _ v => v.printed
  | _ => []

/-- The items of a sequence are its elements; those of a text are its characters. -/
theorem spelled_of_items? {v : Value} {vs : List Value} (h : v.items? = some vs) :
    vs = v.elements ∨ v.elements = [] ∧ ∃ a s, v.contents = atom a ∧ a.text? = some s ∧
      vs = s.toList.map fun c => text (String.singleton c) := by
  fun_induction elements v with
  | case1 | case2 => exact .inl (Option.some.inj h).symm
  | case3 key added v ih => exact ih h
  | case4 v hlist htuple hobject =>
    cases v with
    | atom a =>
      obtain ⟨cs, hcs, rfl⟩ := Option.map_eq_some_iff.1 h
      obtain ⟨s, hs, rfl⟩ := Option.map_eq_some_iff.1 hcs
      exact .inr ⟨rfl, a, s, rfl, hs, by rw [List.map_map]; rfl⟩
    | list vs => exact absurd rfl (hlist vs)
    | tuple vs => exact absurd rfl (htuple vs)
    | object key added v => exact absurd rfl (hobject key added v)
    | _ => cases h

/-- The items of a sequence are its elements, unless it is a text. -/
theorem elements_of_items? {v : Value} {vs : List Value} (h : v.items? = some vs) :
    vs = v.elements ∨ v.elements = [] ∧ ∀ w ∈ vs, ∃ a, w = atom a := by
  rcases spelled_of_items? h with h | ⟨hnil, a, s, -, -, rfl⟩
  · exact .inl h
  · exact .inr ⟨hnil, List.forall_mem_map.2 fun c _ => ⟨.text (String.singleton c), rfl⟩⟩

/-- A sequence that counts as left out has no items. -/
theorem elements_of_isVacant {v : Value} (h : v.isVacant = true) : v.elements = [] := by
  fun_induction elements v with
  | case1 vs | case2 vs => exact List.isEmpty_iff.1 h
  | case3 key added v ih => exact ih h
  | case4 => rfl

theorem sizeOf_lt_of_mem_elements {v w : Value} (h : w ∈ v.elements) : sizeOf w < sizeOf v := by
  fun_induction elements v with
  | case1 vs =>
    have := List.sizeOf_lt_of_mem h
    simp only [list.sizeOf_spec]
    omega
  | case2 vs =>
    have := List.sizeOf_lt_of_mem h
    simp only [tuple.sizeOf_spec]
    omega
  | case3 key added v ih =>
    have := ih h
    simp only [object.sizeOf_spec]
    omega
  | case4 => cases h

theorem sizeOf_lt_of_field? {v w : Value} {f : Field} (h : v.field? f = some w) :
    sizeOf w < sizeOf v := by
  fun_induction field? f v with
  | case1 n =>
    have := sizeOf_lt_of_mem_fields (mem_fields_of_field? h)
    simp only [node.sizeOf_spec]
    omega
  | case2 key added v ih =>
    simp only [object.sizeOf_spec]
    have hobject : (object key added v).field? f = some w := h
    obtain h | h := field?_object_eq_some hobject
    · have := ih h
      omega
    · have := List.sizeOf_lt_of_mem h
      simp only [Prod.mk.sizeOf_spec] at this
      omega
  | _ => cases h

/-- Every rule set is in its run. -/
theorem mem_blocks {rs : List Value} {r : Value} (h : r ∈ rs) :
    r ∈ (runs sameGroup rs).flatMap blockPrinted := by
  rw [← (isRunSplit_runs rs : IsRunSplit sameGroup rs _).flatten] at h
  obtain ⟨b, hb, hr⟩ := List.mem_flatten.1 h
  refine List.mem_flatMap.2 ⟨b, hb, ?_⟩
  cases b with
  | nil => cases hr
  | cons q b => exact List.mem_append_right _ hr

theorem exists_of_mem_blocks {rs : List Value} {w : Value}
    (h : w ∈ (runs sameGroup rs).flatMap blockPrinted) :
    w ∈ rs ∨ ∃ r ∈ rs, r.field? .parent = some w := by
  obtain ⟨b, hb, hw⟩ := List.mem_flatMap.1 h
  have hsub : ∀ r ∈ b, r ∈ rs := by
    intro r hr
    rw [← (isRunSplit_runs rs : IsRunSplit sameGroup rs _).flatten]
    exact List.mem_flatten.2 ⟨b, hb, hr⟩
  cases b with
  | nil => cases hw
  | cons r b =>
    rcases List.mem_append.1 hw with hw | hw
    · exact .inr ⟨r, hsub r List.mem_cons_self, Option.mem_toList.1 hw⟩
    · exact .inl (hsub w hw)

/-- What is printed for a node is one of its fields, an item of one, or the group of an item. -/
theorem exists_of_mem_printed {n : Node Value} {w : Value} (h : w ∈ n.printed) :
    ∃ v ∈ n.fields, w = v ∨ w ∈ v.elements ∨ ∃ r ∈ v.elements, r.field? .parent = some w := by
  cases n with
  | document charsets imports fontFaces ruleSets =>
    simp only [Node.fields, Node.entries, List.map_cons, List.map_nil]
    rcases List.mem_append.1 h with h | h
    · simp only [List.mem_append] at h
      rcases h with (h | h) | h
      · exact ⟨charsets, by simp, .inr (.inl h)⟩
      · exact ⟨imports, by simp, .inr (.inl h)⟩
      · exact ⟨fontFaces, by simp, .inr (.inl h)⟩
    · exact ⟨ruleSets, by simp, .inr (exists_of_mem_blocks h)⟩
  | ruleSet selectors declarations parent =>
    simp only [Node.printed] at h
    split at h
    · cases h
    · simp only [Node.fields, Node.entries, List.map_cons, List.map_nil]
      rcases List.mem_append.1 h with h | h
      · exact ⟨selectors, by simp, .inr (.inl h)⟩
      · exact ⟨declarations, by simp, .inr (.inl h)⟩
  | declaration | fontFace | mediaQueryList | documentQuery | function | simple | selector =>
    exact ⟨_, by simp [Node.fields, Node.entries], .inr (.inl h)⟩
  | mediaQuery expression conjuncts modifier =>
    rcases List.mem_cons.1 h with h | h
    · exact ⟨expression, by simp [Node.fields, Node.entries], .inl h⟩
    · exact ⟨conjuncts, by simp [Node.fields, Node.entries], .inr (.inl h)⟩
  | mediaFeature | importRule | namespaceRule | rgb | conditionalSelector =>
    refine ⟨w, ?_, .inl rfl⟩
    simp only [Node.printed, List.mem_cons, List.not_mem_nil, or_false] at h
    simp only [Node.fields, Node.entries, List.map_cons, List.map_nil, List.mem_cons,
      List.not_mem_nil, or_false]
    tauto
  | _ => cases h

theorem sizeOf_lt_of_mem_printed {v w : Value} (h : w ∈ v.printed) : sizeOf w < sizeOf v := by
  fun_induction printed v with
  | case1 n =>
    obtain ⟨v, hv, h⟩ := exists_of_mem_printed h
    have hfield := sizeOf_lt_of_mem_fields hv
    simp only [node.sizeOf_spec]
    rcases h with rfl | h | ⟨r, hr, h⟩
    · omega
    · have := sizeOf_lt_of_mem_elements h
      omega
    · have := sizeOf_lt_of_mem_elements hr
      have := sizeOf_lt_of_field? h
      omega
  | case2 key added v ih =>
    have := ih h
    simp only [object.sizeOf_spec]
    omega
  | case3 => cases h

/-- The values that are printed for a value, the value included, each as often as it is printed. -/
def visits (v : Value) : List Value :=
  v :: v.printed.attach.flatMap fun w => w.1.visits
termination_by sizeOf v
decreasing_by exact sizeOf_lt_of_mem_printed w.2

theorem visits_eq (v : Value) : v.visits = v :: v.printed.flatMap visits := by
  rw [visits, List.flatMap_subtype fun w _ => rfl, List.unattach_attach]

theorem self_mem_visits (v : Value) : v ∈ v.visits := by
  rw [visits_eq]
  exact List.mem_cons_self

theorem mem_visits_of_printed {v w x : Value} (hw : w ∈ v.printed) (hx : x ∈ w.visits) :
    x ∈ v.visits := by
  rw [visits_eq]
  exact List.mem_cons_of_mem _ (List.mem_flatMap.2 ⟨w, hw, hx⟩)

/-- Whether a value is a document condition. -/
def isQuery (v : Value) : Bool :=
  match v.contents with
  | node n => n.kind == .documentQuery
  | _ => false

theorem isQuery_of_contents {v : Value} {n : Node Value} (h : v.contents = node n) :
    v.isQuery = (n.kind == .documentQuery) := by
  rw [isQuery, h]

/-- How many document conditions are printed for a value. -/
def queries (v : Value) : Nat := v.visits.countP isQuery

end Value

/-- How many document conditions are printed for some values. -/
def queriesIn : List Value → Nat
  | [] => 0
  | v :: vs => v.queries + queriesIn vs

@[simp] theorem queriesIn_nil : queriesIn [] = 0 := rfl

@[simp] theorem queriesIn_cons (v : Value) (vs : List Value) :
    queriesIn (v :: vs) = v.queries + queriesIn vs := rfl

@[simp] theorem queriesIn_append (vs ws : List Value) :
    queriesIn (vs ++ ws) = queriesIn vs + queriesIn ws := by
  induction vs with
  | nil => exact (Nat.zero_add _).symm
  | cons v vs ih => rw [List.cons_append, queriesIn_cons, queriesIn_cons, ih, Nat.add_assoc]

theorem queriesIn_eq_countP (vs : List Value) :
    queriesIn vs = (vs.flatMap Value.visits).countP Value.isQuery := by
  induction vs with
  | nil => rfl
  | cons v vs ih => rw [queriesIn_cons, List.flatMap_cons, List.countP_append, ih, Value.queries]

theorem queriesIn_eq_zero {vs : List Value} (h : ∀ v ∈ vs, v.queries = 0) : queriesIn vs = 0 := by
  induction vs with
  | nil => rfl
  | cons v vs ih =>
    obtain ⟨hv, hvs⟩ := List.forall_mem_cons.1 h
    rw [queriesIn_cons, hv, ih hvs]

theorem Value.queries_eq (v : Value) :
    v.queries = (if v.isQuery then 1 else 0) + queriesIn v.printed := by
  rw [queries, visits_eq, List.countP_cons, queriesIn_eq_countP, Nat.add_comm]

theorem Value.printed_contents (v : Value) : v.contents.printed = v.printed := by
  fun_induction contents v with
  | case1 key added v ih => exact ih
  | case2 => rfl

theorem Value.queries_contents (v : Value) : v.contents.queries = v.queries := by
  fun_induction contents v with
  | case1 key added v ih =>
    rw [ih, queries_eq, queries_eq (object key added v)]
    rfl
  | case2 => rfl

/-- What is no node has no document condition to print, whatever it contains. -/
theorem Value.queries_eq_zero {v : Value} (h : ∀ n, v.contents ≠ node n) : v.queries = 0 := by
  rw [← queries_contents, queries_eq]
  fun_induction contents v with
  | case1 key added v ih => exact ih h
  | case2 v hv =>
    cases v with
    | node n => exact absurd rfl (h n)
    | object key added v => exact absurd rfl (hv key added v)
    | _ => rfl

/-! ## Document conditions in their order -/

namespace Value

/-- The document conditions that are printed for a value, in the order of its visits. -/
def conditions (v : Value) : List Value := v.visits.filter isQuery

theorem queries_eq_length (v : Value) : v.queries = v.conditions.length :=
  List.countP_eq_length_filter

theorem conditions_eq (v : Value) :
    v.conditions = (if v.isQuery then [v] else []) ++ v.printed.flatMap conditions := by
  rw [conditions, visits_eq, List.filter_cons, List.filter_flatMap]
  split <;> rfl

theorem conditions_eq_nil {v : Value} (h : ∀ n, v.contents ≠ node n) : v.conditions = [] := by
  rw [← List.length_eq_zero_iff, ← queries_eq_length]
  exact queries_eq_zero h

end Value

/-! ## Rule sets that are still to be printed -/

/-- What is still to be printed from inside a group on: the rule sets that belong to it, and the
runs behind it. -/
def pending (current : Value) (rs : List Value) : List Value :=
  rs.takeWhile (·.parent.same current) ++
    (runs Value.sameGroup (rs.dropWhile (·.parent.same current))).flatMap blockPrinted

theorem pending_nil (current : Value) : pending current [] = [] := by
  simp [pending, runs]

theorem pending_cons_of_same {current r : Value} (rs : List Value)
    (h : r.parent.same current = true) : pending current (r :: rs) = r :: pending current rs := by
  simp [pending, h]

theorem pending_cons_of_not_same {current r : Value} (rs : List Value)
    (h : r.parent.same current = false) :
    pending current (r :: rs) = (r.field? .parent).toList ++ r :: pending r.parent rs := by
  simp [pending, h, runs, blockPrinted, Value.sameGroup]

/-- Before the first rule set only runs are left. If the first of them has no group, its rule sets are
still those of the group that is open. -/
theorem blocks_eq_pending {rs : List Value}
    (hrs : ∀ r ∈ rs, r.parent.contents = .absent → r.parent = .absent) :
    (runs Value.sameGroup rs).flatMap blockPrinted = pending .absent rs ∨
      (runs Value.sameGroup rs).flatMap blockPrinted = .absent :: pending .absent rs := by
  cases rs with
  | nil => exact .inl (by simp [pending])
  | cons r rs =>
    cases hsame : r.parent.same .absent with
    | false => exact .inl (by simp [pending, hsame])
    | true =>
      have hr : r.parent = .absent := hrs r List.mem_cons_self ((Value.same_absent _).1 hsame)
      have hruns : r :: pending .absent rs =
          (r :: rs.takeWhile (Value.sameGroup · r)) ++
            (runs Value.sameGroup (rs.dropWhile (Value.sameGroup · r))).flatMap blockPrinted := by
        simp only [pending, Value.sameGroup, hr, List.cons_append]
      rw [pending_cons_of_same rs hsame, hruns, runs, List.flatMap_cons, blockPrinted,
        List.append_assoc]
      cases hf : r.field? .parent with
      | none => exact .inl rfl
      | some parent =>
        rw [Value.parent, hf] at hr
        cases hr
        exact .inr rfl

/-! ## Conditions on what is printed -/

namespace Value

variable {p : Node Value → Prop} {v w : Value}

theorem Everywhere.of_mem_elements (h : v.Everywhere p) (hw : w ∈ v.elements) :
    w.Everywhere p := by
  induction h with
  | list h => exact h w hw
  | tuple h => exact h w hw
  | object _ _ _ ih => exact ih hw
  | _ => cases hw

theorem Everywhere.of_field? {f : Field} (h : v.Everywhere p) (hw : v.field? f = some w) :
    w.Everywhere p := by
  induction h with
  | node _ h => exact h w (mem_fields_of_field? hw)
  | object ha _ _ ih =>
    obtain hw | hw := field?_object_eq_some hw
    · exact ih hw
    · exact ha _ hw
  | _ => cases hw

/-- What is printed for a node satisfies what its fields satisfy everywhere. -/
theorem everywhere_of_mem_printed {n : Node Value} (h : ∀ v ∈ n.fields, v.Everywhere p)
    (hw : w ∈ n.printed) : w.Everywhere p := by
  obtain ⟨v, hv, hw⟩ := exists_of_mem_printed hw
  rcases hw with rfl | hw | ⟨r, hr, hw⟩
  · exact h w hv
  · exact (h v hv).of_mem_elements hw
  · exact ((h v hv).of_mem_elements hr).of_field? hw

end Value

end Stylesheet
