import Stylesheet.Printing
import Stylesheet.Proofs.Constructs

/-!
# Layouts that differ in blanks

A layout is blank (`Layout.IsBlank`) if its unit of indentation and its line break consist of blanks
only, as in both layouts that have a name. What such a layout adds to a text is blank, and what it
leaves to the text is the same for all of them: the ink (`Text.ink`), that is all characters that
are not blank. So two printings under blank layouts have the same ink, or fail with the same fault,
and leave the printer in the same state (`printings_sameInk`).
-/

namespace Stylesheet

namespace Text

/-- The characters of a text that are not blank. -/
def ink (s : String) : List Char := s.toList.filter fun c => !isBlank c

/-- Whether a text consists of blanks. -/
def IsBlank (s : String) : Prop := ∀ c ∈ s.toList, isBlank c = true

instance (s : String) : Decidable (IsBlank s) := List.decidableBAll (isBlank · = true) s.toList

@[simp] theorem ink_append (s t : String) : ink (s ++ t) = ink s ++ ink t := by
  simp [ink]

theorem IsBlank.ink {s : String} (h : IsBlank s) : ink s = [] := by
  rw [Text.ink, List.filter_eq_nil_iff]
  intro c hc
  simp [h c hc]

theorem ink_trim (s : String) : ink (trim s) = ink s := by
  rw [ink, toList_trim, filter_trimChars, ink]

theorem ink_join (ts : List String) : ink (String.join ts) = ts.flatMap ink := by
  induction ts with
  | nil => rfl
  | cons t ts ih => rw [String.join_cons, ink_append, ih, List.flatMap_cons]

/-- What joins two lines leaves no ink if it is blank. -/
theorem ink_intercalate {b : String} (hb : IsBlank b) (ts : List String) :
    ink (b.intercalate ts) = ts.flatMap ink := by
  induction ts with
  | nil => rfl
  | cons t ts ih =>
    cases ts with
    | nil => simp
    | cons u ts =>
      rw [String.intercalate_cons_cons, ink_append, ink_append, hb.ink, ih, List.append_nil,
        List.flatMap_cons (x := t)]

theorem isBlank_join_replicate {u : String} (hu : IsBlank u) (n : Nat) :
    IsBlank (String.join (List.replicate n u)) := by
  induction n with
  | zero => simp [IsBlank]
  | succ n ih =>
    intro c hc
    rw [List.replicate_succ, String.join_cons, String.toList_append, List.mem_append] at hc
    exact hc.elim (hu c) (ih c)

theorem flatMap_ink_congr {ts us : List String}
    (h : List.Forall₂ (fun t u => ink t = ink u) ts us) :
    ts.flatMap ink = us.flatMap ink := by
  induction h with
  | nil => rfl
  | cons h _ ih => rw [List.flatMap_cons, List.flatMap_cons, h, ih]

/-- Empty texts have no ink. -/
theorem flatMap_ink_filter (ts : List String) :
    (ts.filter fun t => t ≠ "").flatMap ink = ts.flatMap ink := by
  induction ts with
  | nil => rfl
  | cons t ts ih =>
    by_cases ht : t = ""
    · subst ht
      rw [List.filter_cons_of_neg (by simp), ih]
      rfl
    · rw [List.filter_cons_of_pos (by simpa using ht), List.flatMap_cons, List.flatMap_cons, ih]

end Text

open Text

namespace Layout

/-- Whether a layout lays out with blanks only. -/
structure IsBlank (layout : Layout) : Prop where
  indentUnit : ∃ u, layout.indentUnit = .text u ∧ Text.IsBlank u
  lineBreak : ∃ b, layout.lineBreak = .text b ∧ Text.IsBlank b

theorem isBlank_ofTexts {u b : String} (hu : Text.IsBlank u) (hb : Text.IsBlank b)
    (compact : Bool) : (ofTexts u b compact).IsBlank := ⟨⟨u, rfl, hu⟩, ⟨b, rfl, hb⟩⟩

theorem isBlank_pretty : pretty.IsBlank := isBlank_ofTexts (by decide) (by decide) false

theorem isBlank_minified : minified.IsBlank := isBlank_ofTexts (by decide) (by decide) true

variable {layout : Layout}

theorem IsBlank.indentation (h : layout.IsBlank) (level : Int) :
    ∃ i, layout.indentation level = .ok i ∧ Text.IsBlank i := by
  obtain ⟨u, hu, hb⟩ := h.indentUnit
  refine ⟨_, ?_, isBlank_join_replicate hb level.toNat⟩
  rw [Layout.indentation, hu]
  rfl

theorem IsBlank.joint (h : layout.IsBlank) : ∃ b, layout.joint = .ok b ∧ Text.IsBlank b := by
  obtain ⟨b, hb, hb'⟩ := h.lineBreak
  refine ⟨b, ?_, hb'⟩
  rw [Layout.joint, hb]
  rfl

/-- A blank layout writes a rule set with the ink of its selectors, of its declarations and of two
braces. -/
theorem IsBlank.exec_block (h : layout.IsBlank) (ss : String) (ds : List String) (s : PrintState) :
    ∃ t, (Render.block ss ds).exec layout s = (.ok t, s) ∧
      ink t = ink ss ++ ['\x7b'] ++ ds.flatMap ink ++ ['\x7d'] := by
  obtain ⟨i, hi, hib⟩ := h.indentation s.level
  obtain ⟨b, hb, hbb⟩ := h.joint
  rw [Render.block, Print.exec_bind, Print.exec_isCompact]
  cases layout.isCompact with
  | true =>
    refine ⟨_, rfl, ?_⟩
    rw [ink_append, ink_append, ink_append, ink_join]
    rfl
  | false =>
    simp only [Bool.false_eq_true, ↓reduceIte, Print.exec_bind, Print.exec_indentation, hi,
      Print.exec_lineBreak, hb, Print.exec_pure]
    refine ⟨_, rfl, ?_⟩
    simp only [ink_append, hib.ink, hbb.ink, ink_intercalate hbb, List.nil_append, List.append_nil]
    rfl

/-- A blank layout writes lines with the ink of what stands on them. -/
theorem IsBlank.exec_lines (h : layout.IsBlank) (ts : List String) (s : PrintState) :
    ∃ t, (Render.lines ts).exec layout s = (.ok t, s) ∧ ink t = ts.flatMap ink := by
  obtain ⟨b, hb, hbb⟩ := h.joint
  refine ⟨b.intercalate (ts.filter fun t => t ≠ ""), ?_, ?_⟩
  · rw [Render.lines, Print.exec_bind, Print.exec_lineBreak, hb]
    rfl
  · rw [ink_intercalate hbb, flatMap_ink_filter]

end Layout

/-! ## Two printings -/

/-- Two printings that differ in blanks only: both fail with the same fault, or both give texts with
the same ink, and either way the printers are in one and the same state. -/
def SameInk : Except Fault String × PrintState → Except Fault String × PrintState → Prop
  | (.ok t, s), (.ok u, s') => ink t = ink u ∧ s = s'
  | (.error e, s), (.error e', s') => e = e' ∧ s = s'
  | _, _ => False

/-- The comparison of states by equality and of texts by their ink. -/
def inkComparison (l₁ l₂ : Layout) : Comparison Unit where
  left := l₁
  right := l₂
  States _ s t := s = t
  Texts t u := ink t = ink u
  refl _ := rfl
  append ht hu := by rw [ink_append, ink_append, ht, hu]

variable {l₁ l₂ : Layout}

theorem lays_inkComparison (h₁ : l₁.IsBlank) (h₂ : l₂.IsBlank) : (inkComparison l₁ l₂).Lays where
  indentation := by
    rintro i s _ rfl
    obtain ⟨i₁, hi₁, hb₁⟩ := h₁.indentation s.level
    obtain ⟨i₂, hi₂, hb₂⟩ := h₂.indentation s.level
    show (inkComparison l₁ l₂).Agree i _ (l₁.indentation s.level, s) (l₂.indentation s.level, s)
    rw [hi₁, hi₂]
    exact .ok (hb₁.ink.trans hb₂.ink.symm) rfl
  lineBreak := by
    rintro i s _ rfl
    obtain ⟨b₁, hj₁, hb₁⟩ := h₁.joint
    obtain ⟨b₂, hj₂, hb₂⟩ := h₂.joint
    show (inkComparison l₁ l₂).Agree i _ (l₁.joint, s) (l₂.joint, s)
    rw [hj₁, hj₂]
    exact .ok (hb₁.ink.trans hb₂.ink.symm) rfl
  block := by
    rintro ss ss' ds ds' hss hds i s _ rfl
    obtain ⟨t₁, ht₁, hk₁⟩ := h₁.exec_block ss ds s
    obtain ⟨t₂, ht₂, hk₂⟩ := h₂.exec_block ss' ds' s
    show (inkComparison l₁ l₂).Agree i _ ((Render.block ss ds).exec l₁ s)
      ((Render.block ss' ds').exec l₂ s)
    rw [ht₁, ht₂]
    refine .ok (?_ : ink t₁ = ink t₂) rfl
    rw [hk₁, hk₂, flatMap_ink_congr hds, show ink ss = ink ss' from hss]
  lines := by
    rintro ts us hts i s _ rfl
    obtain ⟨t₁, ht₁, hk₁⟩ := h₁.exec_lines ts s
    obtain ⟨t₂, ht₂, hk₂⟩ := h₂.exec_lines us s
    show (inkComparison l₁ l₂).Agree i _ ((Render.lines ts).exec l₁ s) ((Render.lines us).exec l₂ s)
    rw [ht₁, ht₂]
    exact .ok (hk₁.trans ((flatMap_ink_congr hts).trans hk₂.symm)) rfl
  trim {t u} h := by
    show ink (trim t) = ink (trim u)
    rw [ink_trim, ink_trim]
    exact h
  note message := by
    rintro i s _ rfl
    exact .ok rfl rfl
  inward h := by
    cases h
    exact ⟨(), rfl, by rintro s _ rfl; rfl⟩
  back h := by
    cases h
    exact ⟨(), by rintro d s _ rfl; rfl, rfl, by rintro s _ rfl; rfl⟩

theorem resets_inkComparison : (inkComparison l₁ l₂).Resets := fun _ _ _ _ => .ok rfl rfl

theorem sameInk_of_agree {p q : Except Fault String × PrintState}
    (h : (inkComparison l₁ l₂).Agree () (inkComparison l₁ l₂).Texts p q) : SameInk p q := by
  cases h with
  | ok h hs => exact ⟨h, hs⟩
  | error e hs => exact ⟨rfl, hs⟩

theorem sound_inkComparison (h₁ : l₁.IsBlank) (h₂ : l₂.IsBlank) (v : Value) :
    v.part.Sound (inkComparison l₁ l₂).Prints ∧ v.parts.Sound (inkComparison l₁ l₂).Prints :=
  Comparison.sound_part (Value.everywhere_of_forall
    (fun _ => ⟨fun _ => lays_inkComparison h₁ h₂, fun _ => resets_inkComparison⟩) v)

theorem sameInk_printDocument (h₁ : l₁.IsBlank) (h₂ : l₂.IsBlank) (v : Value) (s : PrintState) :
    SameInk (v.printDocument.exec l₁ s) (v.printDocument.exec l₂ s) := by
  have h := Comparison.prints_printDocument (lays_inkComparison h₁ h₂) resets_inkComparison (v := v)
    fun _ w _ => (sound_inkComparison h₁ h₂ w).2
  exact sameInk_of_agree (h () s s rfl)

theorem Print.exec_of_fresh {act : Print String} {layout : Layout} {r : Printed}
    (h : act.fresh layout = .ok r) : ∃ s, act.exec layout {} = (.ok r.text, s) := by
  unfold Print.fresh at h
  split at h
  · rename_i text s hs
    cases h
    exact ⟨s, hs⟩
  · cases h

/-- The two texts that a document has in the layouts that have a name. -/
theorem Blueprint.exec_of_printBoth {b : Blueprint} {p m : String} (h : b.printBoth = .ok (p, m)) :
    ∃ (v : Value) (s t : PrintState), v.printDocument.exec .pretty {} = (.ok p, s) ∧
      v.printDocument.exec .minified {} = (.ok m, t) := by
  simp only [printBoth, bind, Except.bind] at h
  split at h
  · cases h
  rename_i v _
  split at h
  · cases h
  rename_i rp hp
  split at h
  · cases h
  rename_i rm hm
  cases h
  obtain ⟨s, hs⟩ := Print.exec_of_fresh hp
  obtain ⟨t, ht⟩ := Print.exec_of_fresh hm
  exact ⟨v, s, t, hs, ht⟩

/-- Under two blank layouts a printer does the same with every value but for blanks, whether the
value is printed as what it is or as a document. So the two texts of a document in the layouts that
have a name differ in blanks only. -/
theorem printings_sameInk (h₁ : l₁.IsBlank) (h₂ : l₂.IsBlank) (v : Value) (s : PrintState) :
    SameInk (v.render.exec l₁ s) (v.render.exec l₂ s) ∧
      SameInk (v.printDocument.exec l₁ s) (v.printDocument.exec l₂ s) ∧
      ∀ (b : Blueprint) (p m : String), b.printBoth = .ok (p, m) → ink p = ink m := by
  refine ⟨?_, sameInk_printDocument h₁ h₂ v s, fun b p m h => ?_⟩
  · exact sameInk_of_agree ((sound_inkComparison h₁ h₂ v).1.text () s s rfl)
  · obtain ⟨w, s₁, s₂, hp, hm⟩ := Blueprint.exec_of_printBoth h
    have hw := sameInk_printDocument Layout.isBlank_pretty Layout.isBlank_minified w {}
    rw [hp, hm] at hw
    exact hw.1

/-- A document inside a font description inside a document, in the two layouts that have a name. -/
theorem printings_sameInk_nested :
    let inner : Value := .node (.document (.list []) (.list []) (.list []) (.list []))
    let outer : Value := .node (.document (.list [.node (.charset (.text "a b"))]) (.list [])
      (.list [.node (.fontFace (.list [inner, .node (.ident (.text "c") .absent)]))]) (.list []))
    Layout.pretty.IsBlank ∧ Layout.minified.IsBlank ∧
      SameInk (outer.render.exec .pretty {}) (outer.render.exec .minified {}) :=
  ⟨Layout.isBlank_pretty, Layout.isBlank_minified,
    (printings_sameInk Layout.isBlank_pretty Layout.isBlank_minified _ {}).1⟩

end Stylesheet
