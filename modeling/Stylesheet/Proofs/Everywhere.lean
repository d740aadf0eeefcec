import Stylesheet.Render.Tree

/-!
# Conditions on every node of a tree

`Value.Everywhere p` says that every node of a value, however deep it lies, satisfies `p`; fields
that an object has been given count as parts of it. It is an inductive predicate, so that an
induction on it is an induction over those trees.

`Everywhere.sound` is that induction for printing: a property of actions that pure texts and faults
have, and that every node satisfying `p` has if its fields do, holds wherever printing such a tree
leads, be it the text of a part or the heading of its group.
-/

namespace Stylesheet

/-- Every node of a value satisfies `p`. -/
inductive Value.Everywhere (p : Node Value → Prop) : Value → Prop
  | atom (a : Atom) : Everywhere p (.atom a)
  | foreign (label : String) : Everywhere p (.foreign label)
  | list {vs : List Value} (h : ∀ v ∈ vs, Everywhere p v) : Everywhere p (.list vs)
  | tuple {vs : List Value} (h : ∀ v ∈ vs, Everywhere p v) : Everywhere p (.tuple vs)
  | node {n : Node Value} (hn : p n) (h : ∀ v ∈ n.fields, Everywhere p v) : Everywhere p (.node n)
  | object {key : Option Nat} {added : List (Field × Value)} {v : Value}
    (ha : ∀ e ∈ added, Everywhere p e.2) (h : Everywhere p v) : Everywhere p (.object key added v)

/-- No document lies in a value, nor is it one. -/
def Value.DocumentFree : Value → Prop := Value.Everywhere fun n => n.kind ≠ .document

namespace Value

variable {p : Node Value → Prop}

/-- What holds of all nodes holds everywhere. -/
theorem everywhere_of_forall (hp : ∀ n, p n) (v : Value) : v.Everywhere p := by
  match v with
  | .atom a => exact .atom a
  | .foreign label => exact .foreign label
  | .list vs =>
    exact .list fun w hw =>
      have := List.sizeOf_lt_of_mem hw
      everywhere_of_forall hp w
  | .tuple vs =>
    exact .tuple fun w hw =>
      have := List.sizeOf_lt_of_mem hw
      everywhere_of_forall hp w
  | .node n =>
    exact .node (hp n) fun w hw =>
      have := sizeOf_lt_of_mem_fields hw
      everywhere_of_forall hp w
  | .object key added w =>
    refine .object (fun e he => ?_) (everywhere_of_forall hp w)
    have := List.sizeOf_lt_of_mem he
    have : sizeOf e.2 < sizeOf e := by
      cases e
      simp only [Prod.mk.sizeOf_spec]
      omega
    exact everywhere_of_forall hp e.2
termination_by sizeOf v
decreasing_by
  all_goals
    simp only [list.sizeOf_spec, tuple.sizeOf_spec, node.sizeOf_spec, object.sizeOf_spec]
    omega

theorem Everywhere.mono {q : Node Value → Prop} (hpq : ∀ n, p n → q n) {v : Value}
    (h : v.Everywhere p) : v.Everywhere q := by
  induction h with
  | atom a => exact .atom a
  | foreign label => exact .foreign label
  | list _ ih => exact .list ih
  | tuple _ ih => exact .tuple ih
  | node hn _ ih => exact .node (hpq _ hn) ih
  | object _ _ iha ih => exact .object iha ih

/-- An object is printed as its contents are. -/
theorem render_contents (v : Value) : v.contents.render = v.render := by
  fun_induction Value.contents v with
  | case1 key added v ih => rw [ih, Value.render]
  | case2 => rfl

theorem Everywhere.contents {v : Value} (h : v.Everywhere p) : v.contents.Everywhere p := by
  fun_induction Value.contents v with
  | case1 key added v ih =>
    cases h with
    | object _ h => exact ih h
  | case2 => exact h

theorem Everywhere.of_mem_items? {v w : Value} {vs : List Value} (h : v.Everywhere p)
    (hvs : v.items? = some vs) (hw : w ∈ vs) : w.Everywhere p := by
  induction h with
  | atom a =>
    obtain ⟨as, -, rfl⟩ := Option.map_eq_some_iff.1 hvs
    obtain ⟨b, -, rfl⟩ := List.mem_map.1 hw
    exact .atom b
  | list h => cases hvs; exact h w hw
  | tuple h => cases hvs; exact h w hw
  | object _ _ _ ih => exact ih hvs
  | foreign => cases hvs
  | node => cases hvs

/-- The items of a sequence are printed one after another. -/
theorem texts_of_items? {v : Value} {vs : List Value} (h : v.items? = some vs) :
    v.parts.texts = vs.mapM Value.render := by
  rw [Value.parts_eq_map, h]
  show (vs.map Value.part).mapM Part.text = vs.mapM Value.render
  rw [List.mapM_map]
  rfl

/-- The group that a value belongs to is in its field for it. -/
theorem group_eq (v : Value) :
    v.group = match v.field? .parent with
      | some parent => .ok ⟨parent, parent.heading parent.render⟩
      | none => .error (.missingField v.contents .parent) := by
  fun_induction Value.contents v with
  | case1 key added v ih =>
    rw [Value.group, ih, Value.field?]
    cases v.field? .parent with
    | some parent => rfl
    | none =>
      simp only [Option.none_or]
      induction added with
      | nil => rfl
      | cons e added iha =>
        obtain ⟨f, parent⟩ := e
        rw [Value.addedGroup, List.lookup_cons]
        by_cases hf : f = .parent
        · subst hf; simp
        · have : (Field.parent == f) = false := by simpa using fun h => hf h.symm
          simp only [hf, ↓reduceIte, this]
          exact iha
  | case2 v h =>
    match v with
    | .atom _ | .foreign _ | .list _ | .tuple _ => rfl
    | .node n =>
      cases n with
      | simple form _ _ _ => cases form <;> rfl
      | _ => rfl
    | .object key added v => exact absurd rfl (h key added v)

theorem mem_fields_of_field? {n : Node Value} {f : Field} {w : Value} (h : n.field? f = some w) :
    w ∈ n.fields := by
  obtain ⟨l₁, l₂, hl, -⟩ := List.lookup_eq_some_iff.1 h
  rw [Node.fields, hl]
  simp

/-- The value that an object has for a field, be it one of its contents or one it has been given. -/
theorem field?_object_eq_some {key : Option Nat} {added : List (Field × Value)} {v w : Value}
    {f : Field} (h : (object key added v).field? f = some w) :
    v.field? f = some w ∨ (f, w) ∈ added := by
  rw [field?, Option.or_eq_some_iff] at h
  obtain h | ⟨-, h⟩ := h
  · exact .inl h
  · obtain ⟨l₁, l₂, rfl, -⟩ := List.lookup_eq_some_iff.1 h
    exact .inr (by simp)

end Value

/-! ## Parts -/

/-- The actions of a part have a property: that of its text, and that of the heading of its
group. -/
structure Part.Sound (P : Print String → Prop) (q : Part) : Prop where
  text : P q.text
  heading (g : Group) : q.group = .ok g → P g.heading

/-- The actions of all items have a property. -/
def Parts.Sound (P : Print String → Prop) (ps : Parts) : Prop :=
  ∀ qs, ps = .ok qs → ∀ q ∈ qs, q.Sound P

namespace Value

variable {p : Node Value → Prop} {P : Print String → Prop}

/-- The items of a value as parts have a property if each item does. -/
theorem sound_parts {v : Value} (h : ∀ vs, v.items? = some vs → ∀ w ∈ vs, w.part.Sound P) :
    v.parts.Sound P := by
  intro qs hqs q hq
  rw [Value.parts_eq_map] at hqs
  cases hvs : v.items? with
  | none => rw [hvs] at hqs; cases hqs
  | some vs =>
    rw [hvs] at hqs
    cases hqs
    obtain ⟨w, hw, rfl⟩ := List.mem_map.1 hq
    exact h vs hvs w hw

theorem sound_part {v : Value} (ht : P v.render) (hpure : ∀ t, P (pure t))
    (hg : ∀ parent, v.field? .parent = some parent → P parent.render) : v.part.Sound P := by
  refine ⟨ht, fun g h => ?_⟩
  change v.group = .ok g at h
  rw [group_eq] at h
  cases hf : v.field? .parent with
  | none => rw [hf] at h; cases h
  | some parent =>
    rw [hf] at h
    cases h
    show P (parent.heading parent.render)
    unfold Value.heading
    split
    · exact hg parent hf
    · exact hpure _

/-- The items of a text are texts, which cannot be printed and belong to no group. -/
theorem sound_parts_atom (hthrow : ∀ e, P (throw e)) (a : Atom) : (atom a).parts.Sound P := by
  refine sound_parts fun vs hvs w hw => ?_
  rw [items?, Option.map_eq_some_iff] at hvs
  obtain ⟨as, -, rfl⟩ := hvs
  obtain ⟨b, -, rfl⟩ := List.mem_map.1 hw
  exact ⟨by rw [part, render]; exact hthrow _, nofun⟩

/-- A property of actions that texts and faults have, and that every node satisfying `p` has if its
fields and their items do, holds of the actions of every tree of such nodes. -/
theorem Everywhere.sound (hpure : ∀ t, P (pure t)) (hthrow : ∀ e, P (throw e))
    (hnode : ∀ n, p n → (∀ v ∈ n.fields, P v.render ∧ v.parts.Sound P) → P n.render)
    {v : Value} (h : v.Everywhere p) : v.part.Sound P ∧ v.parts.Sound P := by
  suffices hv : P v.render ∧ (∀ parent, v.field? .parent = some parent → P parent.render) ∧
      v.parts.Sound P from ⟨sound_part hv.1 hpure hv.2.1, hv.2.2⟩
  induction h with
  | atom a =>
    rw [render]
    exact ⟨hthrow _, nofun, sound_parts_atom hthrow a⟩
  | foreign label =>
    rw [render]
    exact ⟨hthrow _, nofun, nofun⟩
  | list _ ih =>
    rw [render]
    refine ⟨hthrow _, nofun, sound_parts fun vs hvs w hw => ?_⟩
    cases hvs
    exact sound_part (ih w hw).1 hpure (ih w hw).2.1
  | tuple _ ih =>
    rw [render]
    refine ⟨hthrow _, nofun, sound_parts fun vs hvs w hw => ?_⟩
    cases hvs
    exact sound_part (ih w hw).1 hpure (ih w hw).2.1
  | node hn _ ih =>
    rw [render]
    refine ⟨hnode _ hn fun v hv => ⟨(ih v hv).1, (ih v hv).2.2⟩, fun parent h => ?_,
      nofun⟩
    exact (ih parent (mem_fields_of_field? h)).1
  | object _ _ iha ih =>
    rw [render, parts]
    refine ⟨ih.1, fun parent h => ?_, ih.2.2⟩
    obtain h | h := field?_object_eq_some h
    · exact ih.2.1 parent h
    · exact (iha _ h).1

end Value

end Stylesheet
