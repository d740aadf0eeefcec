import Mathlib.Data.List.Forall2
import Stylesheet.Render.Tree

/-!
# Comparing two runs of a printer

A comparison (`Comparison`) says which states of two printers and which texts count as equal. Two
actions are related (`Comparison.Rel`) if, started in states that do, they both succeed with related
results or both fail with the same fault, in states that do again. What is known of the two states
may be indexed, so that one comparison can say, for instance, that both levels are what they were at
the start, whatever that was.

Relatedness is kept by the ways in which actions are put together: `Rel.pure`, `Rel.throw`,
`Rel.bind` and `Rel.mapM`. Actions that look at the layout or change the state ask more of a
comparison: `Comparison.Lays` for lines and levels, `Comparison.Resets` for starting anew.
-/

namespace Stylesheet

/-- A way to compare printing under two layouts. -/
structure Comparison (ι : Type) where
  left : Layout
  right : Layout
  /-- The pairs of states that count as equal, by what else is known of them. -/
  States : ι → PrintState → PrintState → Prop
  /-- The pairs of texts that count as equal. -/
  Texts : String → String → Prop
  refl (t : String) : Texts t t
  append {t t' u u' : String} : Texts t u → Texts t' u' → Texts (t ++ t') (u ++ u')

namespace Comparison

variable {ι α β γ δ : Type} (C : Comparison ι)

/-- Two outcomes that count as equal: both are results related by `R`, or both are one fault. -/
inductive Agree (i : ι) (R : α → β → Prop) :
    Except Fault α × PrintState → Except Fault β × PrintState → Prop
  | ok {a : α} {b : β} {s t : PrintState} (h : R a b) (hs : C.States i s t) :
    Agree i R (.ok a, s) (.ok b, t)
  | error (e : Fault) {s t : PrintState} (hs : C.States i s t) :
    Agree i R (.error e, s) (.error e, t)

/-- Two actions that agree wherever they are started in states that count as equal. -/
def Rel (R : α → β → Prop) (a : Print α) (b : Print β) : Prop :=
  ∀ i s t, C.States i s t → C.Agree i R (a.exec C.left s) (b.exec C.right t)

/-- An action whose two runs give texts that count as equal. -/
def Prints (act : Print String) : Prop := C.Rel C.Texts act act

variable {C} {R : α → β → Prop} {Q : γ → δ → Prop}

/-- Outcomes that agree do so under another comparison too, and after a further change of the
states, if the states count as equal there. -/
theorem Agree.mono {κ : Type} {D : Comparison κ} {j : ι} {i : κ}
    {p : Except Fault α × PrintState} {q : Except Fault β × PrintState}
    {f g : PrintState → PrintState} (h : C.Agree j R p q)
    (hs : ∀ s t, C.States j s t → D.States i (f s) (g t)) :
    D.Agree i R (p.1, f p.2) (q.1, g q.2) := by
  cases h with
  | ok h hst => exact .ok h (hs _ _ hst)
  | error e hst => exact .error e (hs _ _ hst)

theorem Rel.pure {a : α} {b : β} (h : R a b) : C.Rel R (pure a) (pure b) :=
  fun _ _ _ hs => .ok h hs

theorem Rel.throw (R : α → β → Prop) (e : Fault) : C.Rel R (throw e) (throw e) :=
  fun _ _ _ hs => .error e hs

/-- Two sequences of actions are related if the first actions are and if those that follow related
results are. -/
theorem Rel.bind {a : Print α} {b : Print β} {f : α → Print γ} {g : β → Print δ} (h : C.Rel R a b)
    (hf : ∀ x y, R x y → C.Rel Q (f x) (g y)) : C.Rel Q (a >>= f) (b >>= g) := by
  intro i s t hs
  rw [Print.exec_bind, Print.exec_bind]
  have hab := h i s t hs
  revert hab
  generalize a.exec C.left s = p
  generalize b.exec C.right t = q
  intro hab
  cases hab with
  | ok hxy hst => exact hf _ _ hxy i _ _ hst
  | error e hst => exact .error e hst

theorem Rel.lift (x : Except Fault α) :
    C.Rel (fun a b => a = b ∧ x = .ok a) (liftM x) (liftM x) := by
  cases x with
  | error e => exact Rel.throw _ e
  | ok a => exact Rel.pure ⟨rfl, rfl⟩

theorem Rel.mapM {ps : List γ} {f : γ → Print α} {g : γ → Print β}
    (h : ∀ p ∈ ps, C.Rel R (f p) (g p)) : C.Rel (List.Forall₂ R) (ps.mapM f) (ps.mapM g) := by
  induction ps with
  | nil =>
    rw [List.mapM_nil, List.mapM_nil]
    exact Rel.pure .nil
  | cons p ps ih =>
    rw [List.mapM_cons, List.mapM_cons]
    refine Rel.bind (h p List.mem_cons_self) fun t u htu => ?_
    refine Rel.bind (ih fun q hq => h q (List.mem_cons_of_mem p hq)) fun ts us hts => ?_
    exact Rel.pure (.cons htu hts)

/-! ## Texts -/

theorem Texts.join {ts us : List String} (h : List.Forall₂ C.Texts ts us) :
    C.Texts (String.join ts) (String.join us) := by
  induction h with
  | nil => exact C.refl _
  | cons h _ ih =>
    rw [String.join_cons, String.join_cons]
    exact C.append h ih

theorem Texts.intercalate {b c : String} {ts us : List String} (hb : C.Texts b c)
    (h : List.Forall₂ C.Texts ts us) : C.Texts (b.intercalate ts) (c.intercalate us) := by
  induction h with
  | nil => exact C.refl _
  | @cons t u ts us h hs ih =>
    cases hs with
    | nil => simpa using h
    | cons h' hs' =>
      rw [String.intercalate_cons_cons, String.intercalate_cons_cons]
      exact C.append (C.append h hb) ih

/-! ## Lines and levels -/

variable (C) in
/-- Whether nothing is known of the levels of two states but how they compare. -/
def Loose (i : ι) : Prop :=
  ∀ (d : Int) (s t : PrintState), C.States i s t →
    C.States i { s with level := s.level + d } { t with level := t.level + d }

variable (C) in
/-- The same comparison where nothing is known of the levels but how they compare. -/
def loose : Comparison { i : ι // C.Loose i } where
  left := C.left
  right := C.right
  States i := C.States i.1
  Texts := C.Texts
  refl := C.refl
  append := C.append

theorem Rel.loose {a : Print α} {b : Print β} (h : C.Rel R a b) : C.loose.Rel R a b := by
  intro i s t hs
  exact (h i.1 s t hs).mono (D := C.loose) (f := id) (g := id) fun _ _ hst => hst

theorem rel_shift (d : Int) : C.loose.Rel Eq (Print.shift d) (Print.shift d) :=
  fun i s t hs => .ok rfl (i.2 d s t hs)

variable (C) in
/-- What constructs that make lines ask of a comparison: that the layouts indent and join lines
alike, and that notes and changes of the level are made on both sides at once. -/
structure Lays : Prop where
  indentation : C.Prints Print.indentation
  lineBreak : C.Prints Print.lineBreak
  block {ss ss' : String} {ds ds' : List String} : C.Texts ss ss' → List.Forall₂ C.Texts ds ds' →
    C.Rel C.Texts (Render.block ss ds) (Render.block ss' ds')
  lines {ts us : List String} : List.Forall₂ C.Texts ts us →
    C.Rel C.Texts (Render.lines ts) (Render.lines us)
  trim {t u : String} : C.Texts t u → C.Texts (Text.trim t) (Text.trim u)
  note (message : String) : C.Rel Eq (Print.note message) (Print.note message)
  /-- Going one level further in and back again. -/
  inward {i : ι} {s t : PrintState} : C.States i s t →
    ∃ j, C.States j { s with level := s.level + 1 } { t with level := t.level + 1 } ∧
      ∀ s' t', C.States j s' t' →
        C.States i { s' with level := s'.level - 1 } { t' with level := t'.level - 1 }
  /-- Going anywhere and back to the levels of the start. -/
  back {i : ι} {s t : PrintState} : C.States i s t →
    ∃ j, C.Loose j ∧ C.States j s t ∧ ∀ s' t', C.States j s' t' →
      C.States i { s' with level := s.level } { t' with level := t.level }

variable (C) in
/-- Whether two printers that start anew are in states that count as equal. -/
def Resets : Prop := C.Rel Eq Print.reset Print.reset

theorem Lays.indented (hC : C.Lays) {a : Print α} {b : Print β} (h : C.Rel R a b) :
    C.Rel R (Print.indented a) (Print.indented b) := by
  intro i s t hs
  obtain ⟨j, hj, hback⟩ := hC.inward hs
  rw [Print.exec_indented, Print.exec_indented]
  exact (h j _ _ hj).mono hback

theorem Lays.keepingLevel (hC : C.Lays) {a : Print α} {b : Print β} (h : C.loose.Rel R a b) :
    C.Rel R (Print.keepingLevel a) (Print.keepingLevel b) := by
  intro i s t hs
  obtain ⟨j, hl, hj, hback⟩ := hC.back hs
  rw [Print.exec_keepingLevel, Print.exec_keepingLevel]
  exact (h ⟨j, hl⟩ s t hj).mono hback

/-! ## One layout -/

theorem eq_of_forall₂_texts (hT : ∀ {t u}, C.Texts t u → t = u) {ts us : List String}
    (h : List.Forall₂ C.Texts ts us) : ts = us := by
  induction h with
  | nil => rfl
  | cons h _ ih => rw [hT h, ih]

/-- Under one layout, at the same level, lines are laid out the same. -/
theorem Lays.of_sameLayout (hl : C.left = C.right) (hT : ∀ {t u}, C.Texts t u → t = u)
    (hs : ∀ {i s t}, C.States i s t → s.level = t.level)
    (note : ∀ message, C.Rel Eq (Print.note message) (Print.note message))
    (inward : ∀ {i s t}, C.States i s t →
      ∃ j, C.States j { s with level := s.level + 1 } { t with level := t.level + 1 } ∧
        ∀ s' t', C.States j s' t' →
          C.States i { s' with level := s'.level - 1 } { t' with level := t'.level - 1 })
    (back : ∀ {i s t}, C.States i s t →
      ∃ j, C.Loose j ∧ C.States j s t ∧ ∀ s' t', C.States j s' t' →
        C.States i { s' with level := s.level } { t' with level := t.level }) : C.Lays := by
  have look {α : Type} {R : α → α → Prop} (hR : ∀ a, R a a) (x : Except Fault α) {i : ι}
      {s t : PrintState} (h : C.States i s t) : C.Agree i R (x, s) (x, t) := by
    cases x with
    | error e => exact .error e h
    | ok a => exact .ok (hR a) h
  have indentation : C.Prints Print.indentation := by
    intro i s t h
    rw [Print.exec_indentation, Print.exec_indentation, hl, hs h]
    exact look C.refl _ h
  have lineBreak : C.Prints Print.lineBreak := by
    intro i s t h
    rw [Print.exec_lineBreak, Print.exec_lineBreak, hl]
    exact look C.refl _ h
  have compact : C.Rel Eq Print.isCompact Print.isCompact := by
    intro i s t h
    rw [Print.exec_isCompact, Print.exec_isCompact, hl]
    exact .ok rfl h
  refine ⟨indentation, lineBreak, fun hss hds => ?_, fun hts => ?_, fun h => ?_, note, inward, back⟩
  · obtain rfl := hT hss
    obtain rfl := eq_of_forall₂_texts hT hds
    refine Rel.bind compact ?_
    rintro b _ rfl
    split
    · exact Rel.pure (C.refl _)
    · refine Rel.bind indentation fun i j hi => Rel.bind lineBreak fun b c hb => ?_
      rw [hT hi, hT hb]
      exact Rel.pure (C.refl _)
  · obtain rfl := eq_of_forall₂_texts hT hts
    refine Rel.bind lineBreak fun b c hb => ?_
    rw [hT hb]
    exact Rel.pure (C.refl _)
  · rw [hT h]
    exact C.refl _

end Comparison

end Stylesheet
