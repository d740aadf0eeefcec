import Stylesheet.Render.Tree

/-!
# Two ways to write a compound

A compound can be written as an element with a list of qualifiers, or as the model of a selector,
narrowed by one condition after the other (`Value.narrowed`). Both print the element and then the
conditions in their order (`Value.render_narrowed`, `Value.render_compound`), so they fail at the
same condition, if any, and leave the printer in the same state. They differ in the element `*`,
which the model of a selector takes for a name and escapes.
-/

namespace Stylesheet

namespace Value

/-- A selector narrowed by conditions, the first one innermost. -/
def narrowed (base : Value) (conditions : List Value) : Value :=
  conditions.foldl (fun selector c => .node (.conditionalSelector selector c)) base

/-- A compound that is joined to none before it. -/
def compound (form : SimpleForm) (name : Value) (qualifiers : List Value) : Value :=
  .node (.simple form name .absent (.list qualifiers))

/-- Prints values one after another behind a text. -/
def behind (head : String) (vs : List Value) : Print String := do
  let ts ← vs.mapM render
  return head ++ String.join ts

/-- The conditions that narrow a selector stand behind it, in their order. -/
theorem render_narrowed (base : Value) (conditions : List Value) :
    (base.narrowed conditions).render = base.render >>= fun head => behind head conditions := by
  induction conditions generalizing base with
  | nil => simp [narrowed, behind]
  | cons c cs ih =>
    -- What is narrowed by `c` is the base of the other conditions.
    have hc : (Value.node (.conditionalSelector base c)).render = (do
        let b ← base.render
        let t ← c.render
        return b ++ t) := by
      rw [render, Node.render, Render.conditional]
    show ((Value.node (.conditionalSelector base c)).narrowed cs).render = _
    rw [ih, hc]
    simp [behind, String.append_assoc]

/-- The qualifiers of a compound stand behind its element, in their order. -/
theorem render_compound (form : SimpleForm) (name : Value) (qualifiers : List Value) :
    (compound form name qualifiers).render =
      Render.elementName name >>= fun head => behind head qualifiers := by
  rw [compound, render, Node.render, Render.simple, Parts.joined, texts_parts_list]
  simp [Render.combinator, isAbsent, behind]

theorem render_nodeSelector : (Value.node .nodeSelector).render = Render.elementName .absent := by
  rw [render, Node.render]
  rfl

/-- Any element name but `*` is printed the same in both ways. -/
theorem render_elementSelector {name : Value} (h : name.text? ≠ some "*")
    (ha : name.isAbsent = false) :
    (Value.node (.elementSelector name)).render = Render.elementName name := by
  rw [render, Node.render, Render.elementName, if_neg]
  simp [h, ha]

/-- What is printed behind a text ends in the same way for all texts. -/
theorem exists_of_exec_behind {head t : String} {vs : List Value} {layout : Layout}
    {s : PrintState} (h : ((behind head vs).exec layout s).1 = .ok t) :
    ∃ rest, ∀ head', ((behind head' vs).exec layout s).1 = .ok (head' ++ rest) := by
  simp only [behind, Print.exec_bind] at h ⊢
  generalize (vs.mapM render).exec layout s = r at h ⊢
  obtain ⟨e | ts, s'⟩ := r
  · cases h
  · exact ⟨String.join ts, fun _ => rfl⟩

end Value

open Value

/-- The model of a selector with conditions is printed as the compound with these qualifiers is: the
same text or the same fault, with the same level and notes after it. This holds for every element
name but `*` and for any element at all; for the name `*` the two texts are never the same. -/
theorem exec_narrowed (form : SimpleForm) (name : Value) (conditions : List Value) (layout : Layout)
    (s : PrintState) :
    let element := ((Value.node (.elementSelector name)).narrowed conditions).render.exec layout s
    let anyNode := ((Value.node .nodeSelector).narrowed conditions).render.exec layout s
    let compound (n : Value) := (compound form n conditions).render.exec layout s
    (∀ n, name.text? = some n → n ≠ "*" → element = compound name) ∧
      anyNode = compound .absent ∧
      (name.text? = some "*" →
        ∀ t u, element.1 = .ok t → (compound name).1 = .ok u → t ≠ u) := by
  intro element anyNode compound
  refine ⟨fun n hn hstar => ?_, ?_, fun hstar t u ht hu htu => ?_⟩
  · have hne : name.text? ≠ some "*" := by simpa [hn] using hstar
    simp only [element, compound, render_narrowed, render_compound,
      render_elementSelector hne (isAbsent_of_text? hn)]
  · simp only [anyNode, compound, render_narrowed, render_compound, render_nodeSelector]
  · have he : (Value.node (.elementSelector name)).render =
        pure (Escape.Identifier.escape "*") := by
      rw [render, Node.render, Print.identifier_of_text? hstar]
    have hc : Render.elementName name = pure "*" := by
      rw [Render.elementName, if_pos (.inr hstar)]
    simp only [element, render_narrowed, he, pure_bind] at ht
    simp only [compound, render_compound, hc, pure_bind] at hu
    obtain ⟨rest, hrest⟩ := exists_of_exec_behind ht
    have h₁ : Escape.Identifier.escape "*" ++ rest = t := Except.ok.inj ((hrest _).symm.trans ht)
    have h₂ : "*" ++ rest = u := Except.ok.inj ((hrest _).symm.trans hu)
    rw [← h₁, ← h₂, String.append_left_inj] at htu
    exact absurd htu (by decide)

/-- A name and the name `*`, with a condition that can be printed and one that cannot. -/
theorem exec_narrowed_by_identifier :
    let conditions : List Value := [.node (.idSelector (.text "x"))]
    let element (n : String) (cs : List Value) :=
      ((Value.node (.elementSelector (.text n))).narrowed cs).render.exec .pretty {}
    let compound (n : String) (cs : List Value) :=
      (compound .typed (.text n) cs).render.exec .pretty {}
    element "a" (conditions ++ [.absent]) = compound "a" (conditions ++ [.absent]) ∧
      (compound "a" (conditions ++ [.absent])).1 = .error (.unsupported .absent) ∧
      (element "*" conditions).1 = .ok "\\00002a#x" ∧ (compound "*" conditions).1 = .ok "*#x" ∧
      "\\00002a#x" ≠ "*#x" := by
  intro conditions element compound
  refine ⟨?_, rfl, rfl, rfl, ?_⟩
  · exact (exec_narrowed .typed (.text "a") (conditions ++ [.absent]) .pretty {}).1 "a" rfl
      (by decide)
  · exact (exec_narrowed .typed (.text "*") conditions .pretty {}).2.2 rfl _ _ rfl rfl

end Stylesheet
