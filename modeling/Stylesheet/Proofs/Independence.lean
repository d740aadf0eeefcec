import Stylesheet.Proofs.Notes

/-!
# Content does not depend on the layout

What makes lines (`Kind.makesLines`) looks at the layout and at the level, or takes notes. Terms,
selectors, media and character sets do neither, however they lie inside each other and whatever is
wrong with them: two printers with different layouts, at different levels and with different notes
give the same text for them, or the same fault, and both stay as they are
(`content_ignores_layout`). So blanks inside a string or a selector are the same in every layout.

Of two printers that agree in this sense nothing is asked but that each keeps its state
(`unlikeComparison`), which is more than lines could promise; the constructs that make none are
related by the rules for putting texts together alone.
-/

namespace Stylesheet

/-- The comparison of two printers with nothing in common, which are to print the same and to stay
in the states that they are in. -/
def unlikeComparison (l₁ l₂ : Layout) : Comparison (PrintState × PrintState) where
  left := l₁
  right := l₂
  States i s t := s = i.1 ∧ t = i.2
  Texts := Eq
  refl _ := rfl
  append := (quietComparison l₁).append

variable {l₁ l₂ : Layout}

/-- Where two printers with nothing in common agree, both have one outcome and keep their states. -/
theorem exists_of_agree_unlike {α : Type} {s t : PrintState}
    {p q : Except Fault α × PrintState} (h : (unlikeComparison l₁ l₂).Agree (s, t) Eq p q) :
    ∃ outcome, p = (outcome, s) ∧ q = (outcome, t) := by
  cases h with
  | @ok a b _ _ hab hst =>
    obtain ⟨rfl, rfl⟩ := hst
    exact ⟨.ok a, rfl, by rw [hab]⟩
  | error e hst =>
    obtain ⟨rfl, rfl⟩ := hst
    exact ⟨.error e, rfl, rfl⟩

theorem prints_of_makesNoLines {v : Value} (h : v.Everywhere fun n => n.kind.makesLines = false) :
    (unlikeComparison l₁ l₂).Prints v.render := by
  -- No node asks anything of the comparison: none makes lines, so none is a document either.
  have hv : v.Everywhere fun n => (n.kind.makesLines = true → (unlikeComparison l₁ l₂).Lays) ∧
      (n.kind = .document → (unlikeComparison l₁ l₂).Resets) := by
    refine h.mono fun n hn => ⟨fun hl => ?_, fun hd => ?_⟩
    · rw [hn] at hl
      contradiction
    · rw [hd] at hn
      contradiction
  exact (Comparison.sound_part hv).1.text

/-- A tree whose nodes make no lines has one outcome, a text or a fault, under every layout, at
every level and whatever notes have been taken, and printing it changes neither the level nor the
notes. -/
theorem content_ignores_layout {v : Value} (h : v.Everywhere fun n => n.kind.makesLines = false) :
    ∃ outcome, ∀ layout s, v.render.exec layout s = (outcome, s) := by
  refine ⟨(v.render.exec .pretty {}).1, fun layout s => ?_⟩
  have hp : (unlikeComparison layout .pretty).Agree (s, {}) Eq (v.render.exec layout s)
      (v.render.exec .pretty {}) := prints_of_makesNoLines h (s, {}) s {} ⟨rfl, rfl⟩
  obtain ⟨outcome, h₁, h₂⟩ := exists_of_agree_unlike hp
  rw [h₁, h₂]

/-- A string with blanks and a line break inside, narrowed where only a selector is narrowed. -/
theorem content_ignores_layout_of_blanks :
    let string : Value := .node (.string (.text "  a \n b ") .absent)
    let v : Value := .node (.conditionalSelector (.node (.charset (.text "\t"))) string)
    v.Everywhere (fun n => n.kind.makesLines = false) ∧
      ∀ layout s, v.render.exec layout s = (.ok "@charset \"\t\";\"  a \\a  b \"", s) := by
  intro string v
  have hs : string.Everywhere fun n => n.kind.makesLines = false :=
    .node rfl (List.forall_mem_cons.2 ⟨.atom _, List.forall_mem_singleton.2 (.atom _)⟩)
  have hc : (Value.node (.charset (.text "\t"))).Everywhere fun n => n.kind.makesLines = false :=
    .node rfl (List.forall_mem_singleton.2 (.atom _))
  have hv : v.Everywhere fun n => n.kind.makesLines = false :=
    .node rfl (List.forall_mem_cons.2 ⟨hc, List.forall_mem_singleton.2 hs⟩)
  obtain ⟨outcome, h⟩ := content_ignores_layout hv
  have ho : (v.render.exec .pretty {}).1 = .ok "@charset \"\t\";\"  a \\a  b \"" := rfl
  rw [h] at ho
  refine ⟨hv, fun layout s => ?_⟩
  rw [h layout s]
  exact congrArg (·, s) ho

end Stylesheet
